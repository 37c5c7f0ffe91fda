import FieldGateway.Rack

-- Nobody is promised an order among the units of a rack. A rack that hands its buses to a
-- driver, or stops all its units, may go through them in any order.
namespace FieldGateway.Rack

-- An order for every collection that a call may have to go through.
structure Order where
  buses : List BusUnit → List BusUnit
  drivers : List DriverUnit → List DriverUnit
  buses_perm : ∀ units, (buses units).Perm units
  drivers_perm : ∀ units, (drivers units).Perm units

def Order.kept : Order := ⟨id, id, fun _ => .refl _, fun _ => .refl _⟩

def installMadeIn (order : Order) (r : Rack) (spec : DriverSpec) (started : Attempt Unit) : Rack × Attempt Unit :=
  let driver : DriverUnit := ⟨r.serials, spec, order.buses r.busesOf⟩
  let r := (r.newSerial.stopDriver spec.type).record (.driverStarted driver)
  match started with
  | .error fault => (r.record (.driverStopped driver), .error fault)
  | .ok () => ({ r with drivers := Table.put spec.type driver r.drivers }, .ok ())

def installIn (order : Order) (r : Rack) (spec : DriverSpec) (make : Made) : Rack × Attempt Unit :=
  if (r.driver? spec.type).any fun driver => driver.spec = spec then (r, .ok ())
  else match make with
    | .unknown => (r, .ok ())
    | .failed fault => (r, .error fault)
    | .made started => r.installMadeIn order spec started

def stopIn (order : Order) (r : Rack) : Rack :=
  { r with
    buses := []
    drivers := []
    history := r.history ++ (order.drivers (r.drivers.map Prod.snd)).map .driverStopped ++
      (order.buses r.busesOf).map .busStopped }

def applyIn (order : Order) (r : Rack) : Call → Rack × Attempt Unit
  | .install spec make => r.installIn order spec make
  | .stop => (r.stopIn order, .ok ())
  | call => r.apply call

def runIn (r : Rack) (calls : List (Order × Call)) : Rack := calls.foldl (fun r call => (r.applyIn call.1 call.2).1) r

theorem stopIn_kept (r : Rack) : r.stopIn .kept = r.stop := by
  simp [stopIn, stop, Order.kept, busesOf, Function.comp_def]

theorem applyIn_kept (r : Rack) (call : Call) : r.applyIn .kept call = r.apply call := by
  cases call with
  | start wanted | uninstall type => rfl
  | install spec make => rfl
  | stop =>
    unfold applyIn apply
    rw [stopIn_kept]

theorem runIn_kept (r : Rack) (calls : List Call) : r.runIn (calls.map fun call => (.kept, call)) = r.run calls := by
  unfold runIn run
  rw [List.foldl_map]
  simp only [applyIn_kept]

end FieldGateway.Rack
