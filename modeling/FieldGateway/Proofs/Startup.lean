import FieldGateway.Proofs.Rack.Balance
import FieldGateway.Startup

-- A gateway comes up by a row of calls to its rack, which ends at the first fault. However far
-- it came, nothing is left running when it has been taken down.
namespace FieldGateway

namespace Rack

variable {r : Rack} {calls before : List (Order × Call)} {call : Order × Call}

def attemptIn (r : Rack) : List (Order × Call) → Rack × Attempt Unit
  | [] => (r, .ok ())
  | (order, call) :: rest =>
    match r.applyIn order call with
    | (r, .ok ()) => attemptIn r rest
    | (r, .error fault) => (r, .error fault)

def Succeed (r : Rack) (calls : List (Order × Call)) : Prop :=
  ∀ before call after, calls = before ++ call :: after →
    ((r.runIn before).applyIn call.1 call.2).2 = .ok ()

-- The first of the calls that fails, with those before it, and its fault.
structure FailsFirst (r : Rack) (calls before : List (Order × Call)) (call : Order × Call) (fault : Fault) :
    Prop where
  position : ∃ after, calls = before ++ call :: after
  earlier : r.Succeed before
  fails : ((r.runIn before).applyIn call.1 call.2).2 = .error fault

theorem runIn_cons (r : Rack) (call : Order × Call) (calls : List (Order × Call)) :
    r.runIn (call :: calls) = (r.applyIn call.1 call.2).1.runIn calls := rfl

theorem attemptIn_goesOn (first : (r.applyIn call.1 call.2).2 = .ok ()) (calls : List (Order × Call)) :
    r.attemptIn (call :: calls) = (r.applyIn call.1 call.2).1.attemptIn calls := by
  rw [attemptIn]
  split <;> simp_all

theorem attemptIn_stops (fails : (r.applyIn call.1 call.2).2 = .error fault) (calls : List (Order × Call)) :
    r.attemptIn (call :: calls) = ((r.applyIn call.1 call.2).1, .error fault) := by
  rw [attemptIn]
  split <;> simp_all

theorem succeed_nil : r.Succeed [] := by
  intro before call after split
  simp at split

theorem succeed_cons_iff : r.Succeed (call :: calls) ↔
    (r.applyIn call.1 call.2).2 = .ok () ∧ (r.applyIn call.1 call.2).1.Succeed calls := by
  constructor
  · intro succeed
    refine ⟨succeed [] call calls rfl, ?_⟩
    intro before later after split
    exact succeed (call :: before) later after (congrArg (call :: ·) split)
  · rintro ⟨first, rest⟩ before later after split
    cases before with
    | nil =>
      cases split
      exact first
    | cons earlier before =>
      obtain ⟨rfl, tail⟩ := List.cons.inj split
      exact rest before later after tail

theorem Succeed.attemptIn (succeed : r.Succeed calls) : r.attemptIn calls = (r.runIn calls, .ok ()) := by
  induction calls generalizing r with
  | nil => rfl
  | cons call calls ih =>
    obtain ⟨first, rest⟩ := succeed_cons_iff.mp succeed
    rw [attemptIn_goesOn first, ih rest, runIn_cons]

theorem FailsFirst.attemptIn (fails : r.FailsFirst calls before call fault) :
    r.attemptIn calls = (r.runIn (before ++ [call]), .error fault) := by
  obtain ⟨⟨after, rfl⟩, earlier, fails⟩ := fails
  induction before generalizing r with
  | nil => exact attemptIn_stops fails after
  | cons first before ih =>
    obtain ⟨done, rest⟩ := succeed_cons_iff.mp earlier
    rw [List.cons_append, attemptIn_goesOn done, ih rest fails, List.cons_append, runIn_cons]

theorem succeed_or_failsFirst (r : Rack) (calls : List (Order × Call)) :
    r.Succeed calls ∨ ∃ before call fault, r.FailsFirst calls before call fault := by
  induction calls generalizing r with
  | nil => exact .inl succeed_nil
  | cons call calls ih =>
    cases result : (r.applyIn call.1 call.2).2 with
    | error fault => exact .inr ⟨[], call, fault, ⟨calls, rfl⟩, succeed_nil, result⟩
    | ok done =>
      rcases ih (r.applyIn call.1 call.2).1 with rest | ⟨before, later, fault, ⟨after, split⟩, earlier, fails⟩
      · exact .inl (succeed_cons_iff.mpr ⟨result, rest⟩)
      · refine .inr ⟨call :: before, later, fault, ⟨after, congrArg (call :: ·) split⟩, ?_, fails⟩
        exact succeed_cons_iff.mpr ⟨result, earlier⟩

-- Nothing is tracked, whatever was started has been stopped once, and no bus before a driver
-- that was made with it.
structure Withdrawn (r : Rack) : Prop where
  buses : r.buses = []
  drivers : r.drivers = []
  stopped : ∀ u : RackUnit, u.started ∈ r.history → StoppedOnce r.history u
  startedOnce : ((r.history.filterMap RackEvent.starts?).map RackUnit.serial).Nodup
  driversFirst : ∀ before b after, r.history = before ++ .busStopped b :: after →
    ∀ d, .driverStarted d ∈ r.history → b ∈ d.buses → .driverStopped d ∈ before

theorem Steady.withdrawn (steady : Steady r) (order : Order) : Withdrawn (r.stopIn order) := by
  have stopped := steady.stopIn order
  have balanced := stopped.balanced
  have untracked : ∀ u, ¬ (r.stopIn order).Tracks u := by
    intro u tracked
    cases u <;> exact absurd tracked List.not_mem_nil
  refine ⟨rfl, rfl, fun u started => balanced.gone u started (untracked u), balanced.startedOnce, ?_⟩
  intro before b after split d started held
  exact stopped.accounts.orderly.driver_stops_first split started held

end Rack

namespace Startup

open FieldGateway.Rack (Order)

variable {orders : Nat → Order} {disk : Disk} {directory : Text} {outcomes : Outcomes}

-- Each installation may go through the buses in an order of its own.
def installations (orders : Nat → Order) (outcomes : Outcomes) (drivers : List DriverSpec) :
    List (Order × Rack.Call) :=
  drivers.zipIdx.map fun (spec, place) => (orders place, .install spec (outcomes.driver place spec))

def calls (orders : Nat → Order) (plan : Plan) (outcomes : Outcomes) : List (Order × Rack.Call) :=
  (.kept, .start (plan.buses.zipIdx.map fun (spec, place) => (spec, outcomes.bus place spec))) ::
    installations orders outcomes plan.drivers

def ofPlanIn (orders : Nat → Order) (r : Rack) (plan : Plan) (outcomes : Outcomes) : Startup :=
  match r.attemptIn (calls orders plan outcomes) with
  | (r, .error fault) => ⟨r, [], some (.fault fault)⟩
  | (r, .ok ()) => ⟨r, offersOf r outcomes.device plan.devices, none⟩

def runIn (orders : Nat → Order) (disk : Disk) (directory : Text) (outcomes : Outcomes) : Startup :=
  match Plan.load disk directory with
  | .error failure => ⟨.empty, [], some failure⟩
  | .ok plan => ofPlanIn orders .empty plan outcomes

def finishIn (order : Order) (meanwhile : List (Order × Rack.Call)) (s : Startup) : Rack :=
  (if s.serves then s.rack.runIn meanwhile else s.rack).stopIn order

theorem attemptIn_installations (r : Rack) (outcomes : Outcomes) (drivers : List DriverSpec) (place : Nat) :
    r.attemptIn ((drivers.zipIdx place).map fun (spec, place) =>
        (.kept, .install spec (outcomes.driver place spec))) =
      installEach r ((drivers.zipIdx place).map fun (spec, place) => (spec, outcomes.driver place spec)) := by
  induction drivers generalizing r place with
  | nil => rfl
  | cons spec drivers ih =>
    have same : r.applyIn .kept (.install spec (outcomes.driver place spec)) =
        r.install spec (outcomes.driver place spec) := rfl
    rw [List.zipIdx_cons, List.map_cons, List.map_cons, Rack.attemptIn, installEach, same]
    cases r.install spec (outcomes.driver place spec) with
    | mk next result =>
      cases result with
      | error fault => rfl
      | ok done => exact ih next (place + 1)

theorem ofPlanIn_kept (r : Rack) (plan : Plan) (outcomes : Outcomes) :
    ofPlanIn (fun _ => .kept) r plan outcomes = ofPlan r plan outcomes := by
  have same : ∀ wanted, r.applyIn .kept (.start wanted) = r.start wanted := fun _ => rfl
  unfold ofPlanIn ofPlan calls installations
  rw [Rack.attemptIn, same]
  cases started : r.start (plan.buses.zipIdx.map fun (spec, place) => (spec, outcomes.bus place spec)) with
  | mk next result =>
    cases result with
    | error fault => rfl
    | ok done =>
      have installed := attemptIn_installations next outcomes plan.drivers 0
      exact congrArg (fun reached => match reached with
        | (r, .error fault) => Startup.mk r [] (some (.fault fault))
        | (r, .ok ()) => Startup.mk r (offersOf r outcomes.device plan.devices) none) installed

theorem runIn_kept : runIn (fun _ => .kept) disk directory outcomes = run disk directory outcomes := by
  unfold runIn run
  cases Plan.load disk directory with
  | error failure => rfl
  | ok plan => exact ofPlanIn_kept .empty plan outcomes

theorem finishIn_kept (s : Startup) : s.finishIn .kept [] = s.finish := by
  unfold finishIn finish
  rw [Rack.stopIn_kept, Rack.runIn, List.foldl_nil, ite_self]

def busList (disk : Disk) (directory : Text) : Except Failure (List BusSpec) :=
  Yaml.load disk (Plan.inside directory Plan.busFile) []
    (Plan.listed "MessageBusList" "messageBuses" BusSpec.decode)

def driverList (disk : Disk) (directory : Text) : Except Failure (List DriverSpec) :=
  Yaml.load disk (Plan.inside directory Plan.driverFile) []
    (Plan.listed "DriverList" "drivers" DriverSpec.decode)

def deviceList (disk : Disk) (directory : Text) : Except Failure (List Device) :=
  Yaml.load disk (Plan.inside directory Plan.deviceFile) []
    (Plan.listed "DeviceList" "devices" Device.decode)

inductive Unread (disk : Disk) (directory : Text) (cause : Failure) : Prop where
  | buses (unread : busList disk directory = .error cause)
  | drivers (buses : busList disk directory = .ok busSpecs) (unread : driverList disk directory = .error cause)
  | devices (buses : busList disk directory = .ok busSpecs) (drivers : driverList disk directory = .ok driverSpecs)
      (unread : deviceList disk directory = .error cause)

theorem load_eq_error_iff : Plan.load disk directory = .error cause ↔ Unread disk directory cause := by
  constructor
  · intro failed
    cases buses : busList disk directory with
    | error unread =>
      rw [busList] at buses
      simp only [Plan.load, buses] at failed
      cases failed
      exact .buses buses
    | ok busSpecs =>
      rw [busList] at buses
      cases drivers : driverList disk directory with
      | error unread =>
        rw [driverList] at drivers
        simp only [Plan.load, buses, drivers] at failed
        cases failed
        exact .drivers buses drivers
      | ok driverSpecs =>
        rw [driverList] at drivers
        cases devices : deviceList disk directory with
        | error unread =>
          rw [deviceList] at devices
          simp only [Plan.load, buses, drivers, devices] at failed
          cases failed
          exact .devices buses drivers devices
        | ok found =>
          rw [deviceList] at devices
          simp only [Plan.load, buses, drivers, devices] at failed
          cases failed
  · intro unread
    cases unread with
    | buses unread =>
      rw [busList] at unread
      simp only [Plan.load, unread]
    | drivers buses unread =>
      rw [busList] at buses
      rw [driverList] at unread
      simp only [Plan.load, buses, unread]
    | devices buses drivers unread =>
      rw [busList] at buses
      rw [driverList] at drivers
      rw [deviceList] at unread
      simp only [Plan.load, buses, drivers, unread]

inductive Fails (orders : Nat → Order) (disk : Disk) (directory : Text) (outcomes : Outcomes) : Failure → Prop where
  | unread {cause : Failure} (unread : Unread disk directory cause) : Fails orders disk directory outcomes cause
  | uncalled (loaded : Plan.load disk directory = .ok plan)
      (first : Rack.empty.FailsFirst (calls orders plan outcomes) before call fault) :
      Fails orders disk directory outcomes (.fault fault)

-- What is offered when a gateway has come up: every device of the plan whose type has a driver,
-- once and in their order, whatever the drivers answer.
structure Offered (r : Rack) (plan : Plan) (offers : List Offer) : Prop where
  devices : offers.map Offer.device = plan.devices.filter fun device => (r.driver? device.driverType).isSome
  drivers : ∀ offer ∈ offers, r.driver? offer.device.driverType = some offer.driver

theorem offersOf_offered (r : Rack) (plan : Plan) (outcome : Nat → DriverUnit → Device → Attempt Unit) :
    Offered r plan (offersOf r outcome plan.devices) := by
  have each : ∀ (devices : List Device) (start : Nat),
      ((devices.zipIdx start).filterMap fun entry => (r.driver? entry.1.driverType).map fun driver =>
        Offer.mk driver entry.1 (outcome entry.2 driver entry.1)).map Offer.device =
          devices.filter fun device => (r.driver? device.driverType).isSome := by
    intro devices
    induction devices with
    | nil => exact fun _ => rfl
    | cons device devices ih =>
      intro start
      cases found : r.driver? device.driverType <;> simp [List.zipIdx_cons, found, ih]
  refine ⟨each plan.devices 0, ?_⟩
  intro offer member
  obtain ⟨⟨device, place⟩, -, made⟩ := List.mem_filterMap.mp member
  obtain ⟨driver, found, rfl⟩ := Option.map_eq_some_iff.mp made
  exact found

theorem runIn_cases (orders : Nat → Order) (disk : Disk) (directory : Text) (outcomes : Outcomes) :
    (∃ cause, Plan.load disk directory = .error cause ∧
      runIn orders disk directory outcomes = ⟨.empty, [], some cause⟩) ∨
    ∃ plan, Plan.load disk directory = .ok plan ∧
      ((∃ before call fault, Rack.empty.FailsFirst (calls orders plan outcomes) before call fault ∧
        runIn orders disk directory outcomes =
          ⟨Rack.empty.runIn (before ++ [call]), [], some (.fault fault)⟩) ∨
      (Rack.empty.Succeed (calls orders plan outcomes) ∧
        runIn orders disk directory outcomes =
          ⟨Rack.empty.runIn (calls orders plan outcomes),
            offersOf (Rack.empty.runIn (calls orders plan outcomes)) outcomes.device plan.devices, none⟩)) := by
  unfold runIn
  cases Plan.load disk directory with
  | error cause => exact .inl ⟨cause, rfl, rfl⟩
  | ok plan =>
    refine .inr ⟨plan, rfl, ?_⟩
    simp only [ofPlanIn]
    rcases Rack.succeed_or_failsFirst .empty (calls orders plan outcomes) with succeed | ⟨before, call, fault, fails⟩
    · exact .inr ⟨succeed, by rw [succeed.attemptIn]⟩
    · exact .inl ⟨before, call, fault, fails, by rw [fails.attemptIn]⟩

theorem failure_eq_some_iff : (runIn orders disk directory outcomes).failure = some cause ↔
    Fails orders disk directory outcomes cause := by
  constructor
  · intro failed
    rcases runIn_cases orders disk directory outcomes with
      ⟨reason, unloaded, up⟩ | ⟨plan, loaded, ⟨before, call, fault, first, up⟩ | ⟨-, up⟩⟩
    · rw [up] at failed
      cases failed
      exact .unread (load_eq_error_iff.mp unloaded)
    · rw [up] at failed
      cases failed
      exact .uncalled loaded first
    · rw [up] at failed
      cases failed
  · intro fails
    cases fails with
    | unread unread =>
      unfold runIn
      rw [load_eq_error_iff.mpr unread]
    | uncalled loaded first =>
      unfold runIn
      simp only [loaded, ofPlanIn]
      rw [first.attemptIn]

theorem runIn_steady (orders : Nat → Order) (disk : Disk) (directory : Text) (outcomes : Outcomes) :
    (runIn orders disk directory outcomes).rack.Steady := by
  rcases runIn_cases orders disk directory outcomes with
    ⟨reason, -, up⟩ | ⟨plan, -, ⟨before, call, fault, -, up⟩ | ⟨-, up⟩⟩ <;> rw [up]
  · exact Rack.empty_steady
  · exact Rack.empty_steady.runIn _
  · exact Rack.empty_steady.runIn _

theorem finishIn_withdrawn {s : Startup} (steady : s.rack.Steady) (last : Order) (meanwhile : List (Order × Rack.Call)) :
    (s.finishIn last meanwhile).Withdrawn := by
  unfold finishIn
  split
  · exact (steady.runIn meanwhile).withdrawn last
  · exact steady.withdrawn last

theorem runIn_served (came : (runIn orders disk directory outcomes).failure = none) : ∃ plan,
    Plan.load disk directory = .ok plan ∧ Rack.empty.Succeed (calls orders plan outcomes) ∧
    (runIn orders disk directory outcomes).rack = Rack.empty.runIn (calls orders plan outcomes) ∧
    Offered (runIn orders disk directory outcomes).rack plan (runIn orders disk directory outcomes).offers := by
  rcases runIn_cases orders disk directory outcomes with
    ⟨reason, -, up⟩ | ⟨plan, loaded, ⟨before, call, fault, -, up⟩ | ⟨succeed, up⟩⟩ <;> rw [up] at came ⊢
  · cases came
  · cases came
  · exact ⟨plan, loaded, succeed, rfl, offersOf_offered _ plan outcomes.device⟩

theorem runIn_failed (failed : (runIn orders disk directory outcomes).failure ≠ none) :
    (runIn orders disk directory outcomes).offers = [] := by
  rcases runIn_cases orders disk directory outcomes with
    ⟨reason, -, up⟩ | ⟨plan, -, ⟨before, call, fault, -, up⟩ | ⟨-, up⟩⟩ <;> rw [up] at failed ⊢
  exact absurd rfl failed

-- However far a gateway came, and whatever was called while it served, nothing is left when it
-- has been taken down. It failed exactly when something went wrong as it came up, with the
-- first cause. Otherwise the devices were offered, each to the driver that is installed for it.
theorem taken_down (orders : Nat → Order) (last : Order) (meanwhile : List (Order × Rack.Call)) (disk : Disk)
    (directory : Text) (outcomes : Outcomes) :
    ((runIn orders disk directory outcomes).finishIn last meanwhile).Withdrawn ∧
    (∀ cause, (runIn orders disk directory outcomes).failure = some cause ↔
      Fails orders disk directory outcomes cause) ∧
    ((runIn orders disk directory outcomes).failure = none → ∃ plan,
      Plan.load disk directory = .ok plan ∧ Rack.empty.Succeed (calls orders plan outcomes) ∧
      (runIn orders disk directory outcomes).rack = Rack.empty.runIn (calls orders plan outcomes) ∧
      Offered (runIn orders disk directory outcomes).rack plan (runIn orders disk directory outcomes).offers) ∧
    ((runIn orders disk directory outcomes).failure ≠ none →
      (runIn orders disk directory outcomes).offers = []) :=
  ⟨finishIn_withdrawn (runIn_steady orders disk directory outcomes) last meanwhile, fun _ => failure_eq_some_iff,
    runIn_served, runIn_failed⟩

theorem run_finished (disk : Disk) (directory : Text) (outcomes : Outcomes) :
    (run disk directory outcomes).finish.Withdrawn ∧
    (∀ cause, (run disk directory outcomes).failure = some cause ↔
      Fails (fun _ => .kept) disk directory outcomes cause) ∧
    ((run disk directory outcomes).failure = none → ∃ plan,
      Plan.load disk directory = .ok plan ∧ Rack.empty.Succeed (calls (fun _ => .kept) plan outcomes) ∧
      (run disk directory outcomes).rack = Rack.empty.runIn (calls (fun _ => .kept) plan outcomes) ∧
      Offered (run disk directory outcomes).rack plan (run disk directory outcomes).offers) ∧
    ((run disk directory outcomes).failure ≠ none → (run disk directory outcomes).offers = []) := by
  rw [← finishIn_kept, ← runIn_kept]
  exact ⟨finishIn_withdrawn (runIn_steady _ disk directory outcomes) .kept [], fun _ => failure_eq_some_iff,
    runIn_served, runIn_failed⟩

def plant : Disk where
  files := [
    (["etc", "config.yaml"], Text.toBytes "messageBuses:\n  - type: mqtt\n    enabled: true\n    properties:\n      host: broker\n"),
    (["etc", "drivers.yaml"], Text.toBytes "drivers:\n  - type: opcua\n    properties:\n      endpoint: plc\n"),
    (["etc", "devices.yaml"], Text.toBytes "devices:\n  - name: boiler\n    driverType: opcua\n")]

def willing : Outcomes where
  bus _ _ := .made (.ok ())
  driver _ _ := .made (.ok ())
  device _ _ _ := .ok ()

example : (run plant "etc" willing).rack.busTypes = ["mqtt"] ∧ (run plant "etc" willing).rack.driverTypes = ["opcua"] ∧
    (run plant "etc" willing).offers.length = 1 ∧ (run plant "etc" willing).finish.history.length = 4 := by
  decide +kernel

example : (run ⟨[]⟩ "etc" willing).failure.map Failure.message =
    some "I/O error in etc/config.yaml: No such file or directory (os error 2)" := by
  decide +kernel

end Startup
end FieldGateway
