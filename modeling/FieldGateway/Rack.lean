import FieldGateway.Schema.Device
import FieldGateway.Table

-- The rack holds the message buses and the drivers of a gateway, at most one of each type. It
-- alone starts and stops them. A driver keeps the buses it was made with, so a bus has to stay
-- for as long as any driver does.
namespace FieldGateway

structure BusUnit where
  serial : Nat
  spec : BusSpec
deriving DecidableEq

structure DriverUnit where
  serial : Nat
  spec : DriverSpec
  buses : List BusUnit
deriving DecidableEq

-- What comes of asking for a driver or a bus: nothing, because its type is unknown; a fault; or
-- something made, and then what comes of starting it.
inductive Made where
  | unknown
  | failed (fault : Fault)
  | made (started : Attempt Unit)

def Made.ofKind (kind : Attempt (Option κ)) (started : κ → Attempt Unit) : Made :=
  match kind with
  | .ok none => .unknown
  | .ok (some k) => .made (started k)
  | .error fault => .failed fault

inductive RackEvent where
  | busStarted (bus : BusUnit)
  | busStopped (bus : BusUnit)
  | driverStarted (driver : DriverUnit)
  | driverStopped (driver : DriverUnit)
deriving DecidableEq

structure Rack where
  buses : Table BusUnit
  drivers : Table DriverUnit
  serials : Nat
  history : List RackEvent

namespace Rack

def empty : Rack := ⟨[], [], 0, []⟩

def record (r : Rack) (event : RackEvent) : Rack := { r with history := r.history ++ [event] }

def newSerial (r : Rack) : Rack := { r with serials := r.serials + 1 }

def busesOf (r : Rack) : List BusUnit := r.buses.map Prod.snd

def driver? (r : Rack) (type : Text) : Option DriverUnit := Table.get? type r.drivers

def hasBus (r : Rack) (type : Text) : Bool := (Table.get? type r.buses).isSome

def fixedBus (type : Text) : Fault :=
  .configInvalid ("the message bus " ++ type ++ " cannot be replaced while drivers are installed")

-- A new bus runs before the one in its place is stopped. What does not start is stopped again.
def startMade (r : Rack) (spec : BusSpec) (started : Attempt Unit) : Rack × Attempt Unit :=
  let bus : BusUnit := ⟨r.serials, spec⟩
  let r := r.newSerial.record (.busStarted bus)
  match started with
  | .error fault => (r.record (.busStopped bus), .error fault)
  | .ok () =>
    let replaced := Table.get? spec.type r.buses
    let r := { r with buses := Table.put spec.type bus r.buses }
    (match replaced with
      | some old => r.record (.busStopped old)
      | none => r, .ok ())

def startBus (r : Rack) (spec : BusSpec) (make : Made) : Rack × Attempt Unit :=
  if r.hasBus spec.type && !r.drivers.isEmpty then (r, .error (fixedBus spec.type))
  else if spec.enabled then
    match make with
    | .unknown => (r, .ok ())
    | .failed fault => (r, .error fault)
    | .made started => r.startMade spec started
  else (r, .ok ())

-- The first fault ends it, and what runs by then keeps running.
def start (r : Rack) : List (BusSpec × Made) → Rack × Attempt Unit
  | [] => (r, .ok ())
  | (spec, make) :: rest =>
    match r.startBus spec make with
    | (r, .ok ()) => start r rest
    | (r, .error fault) => (r, .error fault)

def stopDriver (r : Rack) (type : Text) : Rack :=
  match r.driver? type with
  | some driver => { r with drivers := Table.erase type r.drivers }.record (.driverStopped driver)
  | none => r

def installMade (r : Rack) (spec : DriverSpec) (started : Attempt Unit) : Rack × Attempt Unit :=
  let driver : DriverUnit := ⟨r.serials, spec, r.busesOf⟩
  let r := (r.newSerial.stopDriver spec.type).record (.driverStarted driver)
  match started with
  | .error fault => (r.record (.driverStopped driver), .error fault)
  | .ok () => ({ r with drivers := Table.put spec.type driver r.drivers }, .ok ())

-- What is installed with the same settings is left alone.
def install (r : Rack) (spec : DriverSpec) (make : Made) : Rack × Attempt Unit :=
  if (r.driver? spec.type).any fun driver => driver.spec = spec then (r, .ok ())
  else match make with
    | .unknown => (r, .ok ())
    | .failed fault => (r, .error fault)
    | .made started => r.installMade spec started

def uninstall (r : Rack) (type : Text) : Rack := r.stopDriver type

-- Drivers go before the buses that they hold.
def stop (r : Rack) : Rack :=
  { r with
    buses := []
    drivers := []
    history := r.history ++ r.drivers.map (fun entry => .driverStopped entry.2) ++
      r.buses.map (fun entry => .busStopped entry.2) }

def busTypes (r : Rack) : List Text := Table.names r.buses
def driverTypes (r : Rack) : List Text := Table.names r.drivers

inductive Call where
  | start (wanted : List (BusSpec × Made))
  | install (spec : DriverSpec) (make : Made)
  | uninstall (type : Text)
  | stop

def apply (r : Rack) : Call → Rack × Attempt Unit
  | .start wanted => r.start wanted
  | .install spec make => r.install spec make
  | .uninstall type => (r.uninstall type, .ok ())
  | .stop => (r.stop, .ok ())

def run (r : Rack) (calls : List Call) : Rack := calls.foldl (fun r call => (r.apply call).1) r

end Rack
end FieldGateway
