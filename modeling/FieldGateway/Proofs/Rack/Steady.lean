import FieldGateway.Proofs.Rack.History
import FieldGateway.Proofs.Rack.Order
import FieldGateway.Proofs.Table
import Mathlib.Data.List.Nodup

-- What a rack tracks is exactly what runs according to its history, after every call, in
-- whatever order it goes through its units and whatever comes of making and starting things.
namespace FieldGateway.Rack

variable {history : List RackEvent} {serials : Nat} {live live' : RackUnit → Prop} {u v : RackUnit}
  {b : BusUnit} {d : DriverUnit} {r : Rack} {order : Order}

-- A history that is orderly, in which exactly the live units run, and which has given out
-- no serial number from `serials` on.
structure Accounts (history : List RackEvent) (serials : Nat) (live : RackUnit → Prop) : Prop where
  orderly : Orderly history
  running : ∀ u, Running history u ↔ live u
  numbered : ∀ u : RackUnit, u.started ∈ history → u.serial < serials

namespace Accounts

theorem congr (accounts : Accounts history serials live) (same : ∀ u, live u ↔ live' u) :
    Accounts history serials live' :=
  ⟨accounts.orderly, fun u => (accounts.running u).trans (same u), accounts.numbered⟩

theorem fresh (accounts : Accounts history serials live) : Fresh history serials :=
  fun u started equal => Nat.ne_of_lt (accounts.numbered u started) equal

theorem serial_lt (accounts : Accounts history serials live) (alive : live u) : u.serial < serials :=
  accounts.numbered u ((accounts.running u).mpr alive).1

theorem buses_live (accounts : Accounts history serials live) (alive : live (.driver d)) :
    ∀ b ∈ d.buses, live (.bus b) := by
  intro b held
  have running := (accounts.running _).mpr alive
  exact (accounts.running _).mp (accounts.orderly.buses_running running b held)

theorem start (accounts : Accounts history serials live) (numbered : u.serial = serials)
    (admitted : Admits history u.started) :
    Accounts (history ++ [u.started]) (serials + 1) (fun v => v = u ∨ live v) := by
  refine ⟨orderly_snoc.mpr ⟨accounts.orderly, admitted⟩, ?_, ?_⟩
  · intro v
    rw [running_start (accounts.orderly.not_stopped_of_fresh admitted.fresh), accounts.running]
  · intro v started
    rcases List.mem_append.mp started with old | new
    · exact Nat.lt_succ_of_lt (accounts.numbered v old)
    · cases RackUnit.started_inj.mp (List.mem_singleton.mp new)
      omega

theorem startBus (accounts : Accounts history serials live) (numbered : b.serial = serials) :
    Accounts (history ++ [.busStarted b]) (serials + 1) (fun v => v = .bus b ∨ live v) :=
  accounts.start (u := .bus b) numbered (show Fresh history b.serial from numbered ▸ accounts.fresh)

theorem startDriver (accounts : Accounts history serials live) (numbered : d.serial = serials)
    (alone : ∀ e, live (.driver e) → e.spec.type ≠ d.spec.type) (held : ∀ b ∈ d.buses, live (.bus b)) :
    Accounts (history ++ [.driverStarted d]) (serials + 1) (fun v => v = .driver d ∨ live v) := by
  refine accounts.start (u := .driver d) numbered ⟨numbered ▸ accounts.fresh, ?_, ?_⟩
  · intro e running
    exact alone e ((accounts.running _).mp running)
  · intro b member
    exact (accounts.running _).mpr (held b member)

theorem stop (accounts : Accounts history serials live) (alive : live u)
    (free : ∀ b, u = .bus b → ∀ d, live (.driver d) → b ∉ d.buses) :
    Accounts (history ++ [u.stopped]) serials (fun v => live v ∧ v ≠ u) := by
  have running := (accounts.running u).mpr alive
  have admitted : Admits history u.stopped := by
    cases u with
    | bus b => exact ⟨running, fun d holds => free b rfl d ((accounts.running _).mp holds)⟩
    | driver d => exact running
  refine ⟨orderly_snoc.mpr ⟨accounts.orderly, admitted⟩, ?_, ?_⟩
  · intro v
    rw [running_stop, accounts.running]
  · intro v started
    exact accounts.numbered v (by simpa using started)

theorem stopDriver (accounts : Accounts history serials live) (alive : live (.driver d)) :
    Accounts (history ++ [.driverStopped d]) serials (fun v => live v ∧ v ≠ .driver d) := by
  refine accounts.stop alive ?_
  intro b other
  cases other

theorem stopBus (accounts : Accounts history serials live) (alive : live (.bus b))
    (free : ∀ d, live (.driver d) → b ∉ d.buses) :
    Accounts (history ++ [.busStopped b]) serials (fun v => live v ∧ v ≠ .bus b) := by
  refine accounts.stop alive ?_
  intro c same
  cases same
  exact free

-- One after the other. Each is still live when its turn comes, because they all differ.
theorem stopUnits (accounts : Accounts history serials live) (units : List RackUnit) (different : units.Nodup)
    (alive : ∀ u ∈ units, live u) (free : ∀ b, .bus b ∈ units → ∀ d, live (.driver d) → b ∉ d.buses) :
    Accounts (history ++ units.map RackUnit.stopped) serials (fun v => live v ∧ v ∉ units) := by
  induction units generalizing history live with
  | nil => simpa using accounts
  | cons u units ih =>
    obtain ⟨absent, different⟩ := List.nodup_cons.mp different
    have stopped := accounts.stop (alive u List.mem_cons_self) (by
      rintro b rfl
      exact free b List.mem_cons_self)
    have still : ∀ v ∈ units, live v ∧ v ≠ u := by
      intro v member
      refine ⟨alive v (List.mem_cons_of_mem _ member), ?_⟩
      rintro rfl
      exact absent member
    have rest := ih stopped different still fun b member d running =>
      free b (List.mem_cons_of_mem _ member) d running.1
    rw [List.append_assoc] at rest
    exact rest.congr fun v => by simp [and_assoc]

-- A bus that has just started is held by no driver, because its serial number is new.
theorem fresh_bus_free (accounts : Accounts history serials live) (numbered : b.serial = serials) :
    ∀ d, live (.driver d) → b ∉ d.buses := by
  intro d alive held
  have lower : b.serial < serials := accounts.serial_lt (accounts.buses_live alive b held)
  omega

end Accounts

def nextBus (r : Rack) (spec : BusSpec) : BusUnit := ⟨r.serials, spec⟩
def nextDriver (r : Rack) (order : Order) (spec : DriverSpec) : DriverUnit :=
  ⟨r.serials, spec, order.buses r.busesOf⟩

theorem startMade_failed (r : Rack) (spec : BusSpec) (fault : Fault) :
    r.startMade spec (.error fault) =
      ({ r with
          serials := r.serials + 1
          history := r.history ++ [.busStarted (r.nextBus spec)] ++ [.busStopped (r.nextBus spec)] },
        .error fault) := rfl

theorem startMade_added (absent : Table.get? spec.type r.buses = none) :
    r.startMade spec (.ok ()) =
      ({ r with
          buses := Table.put spec.type (r.nextBus spec) r.buses
          serials := r.serials + 1
          history := r.history ++ [.busStarted (r.nextBus spec)] }, .ok ()) := by
  simp [startMade, newSerial, record, nextBus, absent]

theorem startMade_replaced (present : Table.get? spec.type r.buses = some old) :
    r.startMade spec (.ok ()) =
      ({ r with
          buses := Table.put spec.type (r.nextBus spec) r.buses
          serials := r.serials + 1
          history := r.history ++ [.busStarted (r.nextBus spec)] ++ [.busStopped old] }, .ok ()) := by
  simp [startMade, newSerial, record, nextBus, present]

def Tracks (r : Rack) : RackUnit → Prop
  | .bus b => (b.spec.type, b) ∈ r.buses
  | .driver d => (d.spec.type, d) ∈ r.drivers

structure Steady (r : Rack) : Prop where
  accounts : Accounts r.history r.serials r.Tracks
  buses : Table.Filed (fun b : BusUnit => b.spec.type) r.buses
  drivers : Table.Filed (fun d : DriverUnit => d.spec.type) r.drivers

theorem empty_steady : Steady empty := by
  refine ⟨⟨orderly_nil, ?_, ?_⟩, .nil, .nil⟩
  · intro u
    cases u <;> simp [Running, Tracks, empty]
  · simp [empty]

namespace Steady

theorem mem_buses_iff (steady : Steady r) (order : Order) : b ∈ order.buses r.busesOf ↔ r.Tracks (.bus b) := by
  rw [(order.buses_perm _).mem_iff]
  refine ⟨fun member => ?_, fun tracked => List.mem_map.mpr ⟨_, tracked, rfl⟩⟩
  obtain ⟨⟨type, unit⟩, entry, rfl⟩ := List.mem_map.mp member
  exact steady.buses.mem entry

theorem mem_drivers_iff (steady : Steady r) (order : Order) :
    d ∈ order.drivers (r.drivers.map Prod.snd) ↔ r.Tracks (.driver d) := by
  rw [(order.drivers_perm _).mem_iff]
  refine ⟨fun member => ?_, fun tracked => List.mem_map.mpr ⟨_, tracked, rfl⟩⟩
  obtain ⟨⟨type, unit⟩, entry, rfl⟩ := List.mem_map.mp member
  exact steady.drivers.mem entry

theorem tracks_put_bus (steady : Steady r) (b : BusUnit) :
    Tracks { r with buses := Table.put b.spec.type b r.buses } v ↔
      v = .bus b ∨ (r.Tracks v ∧ ∀ c, v = .bus c → c.spec.type ≠ b.spec.type) := by
  cases v with
  | bus c => simpa [Tracks] using steady.buses.mem_put
  | driver d => simp [Tracks]

theorem tracks_put_driver (steady : Steady r) (d : DriverUnit) :
    Tracks { r with drivers := Table.put d.spec.type d r.drivers } v ↔
      v = .driver d ∨ (r.Tracks v ∧ ∀ e, v = .driver e → e.spec.type ≠ d.spec.type) := by
  cases v with
  | bus b => simp [Tracks]
  | driver e => simpa [Tracks] using steady.drivers.mem_put

theorem tracks_erase_driver (steady : Steady r) (type : Text) :
    Tracks { r with drivers := Table.erase type r.drivers } v ↔
      r.Tracks v ∧ ∀ e, v = .driver e → e.spec.type ≠ type := by
  cases v with
  | bus b => simp [Tracks]
  | driver e => simp [Tracks, steady.drivers.ascending.mem_erase]

theorem startMade (steady : Steady r) (replaceable : r.hasBus spec.type = true → r.drivers = [])
    (started : Attempt Unit) : Steady (r.startMade spec started).1 := by
  have free := steady.accounts.fresh_bus_free (b := r.nextBus spec) rfl
  have began := steady.accounts.startBus (b := r.nextBus spec) rfl
  have new : ∀ c, r.Tracks (.bus c) → c ≠ r.nextBus spec := by
    rintro c tracked rfl
    exact Nat.lt_irrefl _ (steady.accounts.serial_lt tracked)
  have buses := steady.buses.put (r.nextBus spec)
  cases started with
  | error fault =>
    have ended := began.stopBus (.inl rfl) fun d running => free d (by simpa using running)
    rw [startMade_failed]
    refine ⟨ended.congr fun v => ?_, steady.buses, steady.drivers⟩
    refine ⟨fun alive => alive.1.resolve_left alive.2, fun tracked => ⟨.inr tracked, ?_⟩⟩
    rintro rfl
    exact new _ tracked rfl
  | ok done =>
    cases replaced : Table.get? spec.type r.buses with
    | none =>
      have absent := Table.get?_eq_none_iff.mp replaced
      rw [startMade_added replaced]
      refine ⟨began.congr fun v => ?_, buses, steady.drivers⟩
      refine Iff.trans ?_ (steady.tracks_put_bus (r.nextBus spec)).symm
      refine or_congr_right ⟨fun tracked => ⟨tracked, ?_⟩, And.left⟩
      rintro c rfl
      exact absent _ tracked
    | some old =>
      have idle : r.drivers = [] := replaceable (by simp [hasBus, replaced])
      have running : r.Tracks (.bus old) := steady.buses.mem (Table.get?_mem replaced)
      have ended := began.stopBus (.inr running) fun d running => by simp [Tracks, idle] at running
      rw [startMade_replaced replaced]
      refine ⟨ended.congr fun v => ?_, buses, steady.drivers⟩
      refine Iff.trans ?_ (steady.tracks_put_bus (r.nextBus spec)).symm
      constructor
      · rintro ⟨rfl | tracked, other⟩
        · exact .inl rfl
        · refine .inr ⟨tracked, ?_⟩
          rintro c rfl same
          exact other (congrArg _ ((steady.buses.name_eq_iff replaced tracked).mp same))
      · rintro (rfl | ⟨tracked, other⟩)
        · refine ⟨.inl rfl, fun equal => ?_⟩
          exact new old running (RackUnit.bus.inj equal).symm
        · refine ⟨.inr tracked, ?_⟩
          rintro rfl
          exact other old rfl ((steady.buses.name_eq_iff replaced running).mpr rfl)

theorem startBus (steady : Steady r) (spec : BusSpec) (make : Made) : Steady (r.startBus spec make).1 := by
  unfold Rack.startBus
  split
  · exact steady
  · rename_i unguarded
    split
    · cases make with
      | unknown => exact steady
      | failed fault => exact steady
      | made started =>
        refine steady.startMade (fun there => ?_) started
        simpa [there] using unguarded
    · exact steady

theorem start (steady : Steady r) (wanted : List (BusSpec × Made)) : Steady (r.start wanted).1 := by
  induction wanted generalizing r with
  | nil => exact steady
  | cons first rest ih =>
    obtain ⟨spec, make⟩ := first
    have next := steady.startBus spec make
    unfold Rack.start
    split
    · rename_i after outcome
      rw [outcome] at next
      exact ih next
    · rename_i after fault outcome
      rw [outcome] at next
      exact next

theorem stopDriver (steady : Steady r) (type : Text) : Steady (r.stopDriver type) := by
  unfold Rack.stopDriver
  cases found : r.driver? type with
  | none => exact steady
  | some old =>
    have running : r.Tracks (.driver old) := steady.drivers.mem (Table.get?_mem found)
    have ended := steady.accounts.stopDriver running
    refine ⟨ended.congr fun v => ?_, steady.buses, steady.drivers.erase type⟩
    refine Iff.trans ?_ (steady.tracks_erase_driver type).symm
    refine and_congr_right fun tracked => ?_
    cases v with
    | bus b => simp
    | driver d => simp [steady.drivers.name_eq_iff found tracked]

theorem stopDriver_absent (steady : Steady r) (type : Text) :
    ∀ e, (r.stopDriver type).Tracks (.driver e) → e.spec.type ≠ type := by
  intro e tracked
  unfold Rack.stopDriver at tracked
  cases found : r.driver? type with
  | none =>
    rw [found] at tracked
    exact Table.get?_eq_none_iff.mp found _ tracked
  | some old =>
    rw [found] at tracked
    exact (steady.drivers.ascending.mem_erase.mp tracked).2

end Steady

theorem newSerial_stopDriver (r : Rack) (type : Text) :
    r.newSerial.stopDriver type = (r.stopDriver type).newSerial := by
  have same : r.newSerial.driver? type = r.driver? type := rfl
  unfold stopDriver
  rw [same]
  cases r.driver? type <;> rfl

theorem stopDriver_serials (r : Rack) (type : Text) : (r.stopDriver type).serials = r.serials := by
  unfold stopDriver
  cases r.driver? type <;> rfl

theorem installMadeIn_failed (order : Order) (r : Rack) (spec : DriverSpec) (fault : Fault) :
    r.installMadeIn order spec (.error fault) =
      ({ r.stopDriver spec.type with
          serials := r.serials + 1
          history := (r.stopDriver spec.type).history ++ [.driverStarted (r.nextDriver order spec)] ++
            [.driverStopped (r.nextDriver order spec)] }, .error fault) := by
  unfold installMadeIn
  rw [newSerial_stopDriver]
  simp [newSerial, record, nextDriver, stopDriver_serials]

theorem installMadeIn_done (order : Order) (r : Rack) (spec : DriverSpec) :
    r.installMadeIn order spec (.ok ()) =
      ({ r.stopDriver spec.type with
          drivers := Table.put spec.type (r.nextDriver order spec) (r.stopDriver spec.type).drivers
          serials := r.serials + 1
          history := (r.stopDriver spec.type).history ++ [.driverStarted (r.nextDriver order spec)] }, .ok ()) := by
  unfold installMadeIn
  rw [newSerial_stopDriver]
  simp [newSerial, record, nextDriver, stopDriver_serials]

theorem stopDriver_buses (r : Rack) (type : Text) : (r.stopDriver type).buses = r.buses := by
  unfold stopDriver
  cases r.driver? type <;> rfl

namespace Steady

theorem installMadeIn (steady : Steady r) (order : Order) (spec : DriverSpec) (started : Attempt Unit) :
    Steady (r.installMadeIn order spec started).1 := by
  have cleared := steady.stopDriver spec.type
  have absent := steady.stopDriver_absent spec.type
  have began := cleared.accounts.startDriver (d := r.nextDriver order spec) (stopDriver_serials r spec.type).symm
    absent fun b held => by
      have tracked := (steady.mem_buses_iff order).mp held
      simpa [Tracks, stopDriver_buses] using tracked
  rw [stopDriver_serials] at began
  cases started with
  | error fault =>
    have ended := began.stopDriver (.inl rfl)
    rw [installMadeIn_failed]
    refine ⟨ended.congr fun v => ?_, cleared.buses, cleared.drivers⟩
    refine ⟨fun alive => alive.1.resolve_left alive.2, fun tracked => ⟨.inr tracked, ?_⟩⟩
    rintro rfl
    exact absent _ tracked rfl
  | ok done =>
    rw [installMadeIn_done]
    refine ⟨began.congr fun v => ?_, cleared.buses, cleared.drivers.put (r.nextDriver order spec)⟩
    refine Iff.trans ?_ (cleared.tracks_put_driver (r.nextDriver order spec)).symm
    refine or_congr_right ⟨fun tracked => ⟨tracked, ?_⟩, And.left⟩
    rintro e rfl
    exact absent e tracked

theorem installIn (steady : Steady r) (order : Order) (spec : DriverSpec) (make : Made) :
    Steady (r.installIn order spec make).1 := by
  unfold Rack.installIn
  split
  · exact steady
  · cases make with
    | unknown => exact steady
    | failed fault => exact steady
    | made started => exact steady.installMadeIn order spec started

theorem stopIn (steady : Steady r) (order : Order) : Steady (r.stopIn order) := by
  have buses := (order.buses_perm _).nodup_iff.mpr steady.buses.values_nodup
  have drivers := (order.drivers_perm _).nodup_iff.mpr steady.drivers.values_nodup
  have driversStopped := steady.accounts.stopUnits ((order.drivers (r.drivers.map Prod.snd)).map .driver)
    (List.Nodup.map (fun _ _ => RackUnit.driver.inj) drivers) (by simp [steady.mem_drivers_iff]) (by simp)
  have allStopped := driversStopped.stopUnits ((order.buses r.busesOf).map .bus)
    (List.Nodup.map (fun _ _ => RackUnit.bus.inj) buses) (by simp [steady.mem_buses_iff]) (by simp [steady.mem_drivers_iff])
  rw [List.map_map, List.map_map] at allStopped
  refine ⟨allStopped.congr fun v => ?_, .nil, .nil⟩
  cases v with
  | bus b => simp [Tracks, Rack.stopIn, steady.mem_buses_iff]
  | driver d => simp [Tracks, Rack.stopIn, steady.mem_drivers_iff]

theorem applyIn (steady : Steady r) (order : Order) (call : Call) : Steady (r.applyIn order call).1 := by
  cases call with
  | start wanted => exact steady.start wanted
  | install spec make => exact steady.installIn order spec make
  | uninstall type => exact steady.stopDriver type
  | stop => exact steady.stopIn order

theorem runIn (steady : Steady r) (calls : List (Order × Call)) : Steady (r.runIn calls) := by
  induction calls generalizing r with
  | nil => exact steady
  | cons call calls ih => exact ih (steady.applyIn call.1 call.2)

end Steady
end FieldGateway.Rack
