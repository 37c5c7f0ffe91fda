import FieldGateway.Proofs.Rack.Steady

-- Starts and stops balance over every run of a rack, and no bus stops under a driver.
namespace FieldGateway.Rack

def StoppedOnce (history : List RackEvent) (u : RackUnit) : Prop :=
  ∃ before between after, history = before ++ u.started :: between ++ u.stopped :: after ∧
    u.stopped ∉ before ++ between ++ after

theorem Orderly.stoppedOnce {history : List RackEvent} (orderly : Orderly history) (member : u.stopped ∈ history) :
    StoppedOnce history u := by
  obtain ⟨earlier, after, split⟩ := List.append_of_mem member
  obtain ⟨started, notBefore, notAfter⟩ := orderly.stop_parts split
  obtain ⟨before, between, rfl⟩ := List.append_of_mem started
  refine ⟨before, between, after, by simpa using split, ?_⟩
  intro again
  rcases List.mem_append.mp again with earlier | later
  · exact notBefore (by rcases List.mem_append.mp earlier with h | h <;> simp [h])
  · exact notAfter later

structure Balanced (r : Rack) : Prop where
  running : ∀ u, Running r.history u ↔ r.Tracks u
  busTypes : (r.busTypes).Nodup ∧ ∀ entry ∈ r.buses, entry.1 = entry.2.spec.type
  driverTypes : (r.driverTypes).Nodup ∧ ∀ entry ∈ r.drivers, entry.1 = entry.2.spec.type
  gone : ∀ u : RackUnit, u.started ∈ r.history → ¬ r.Tracks u → StoppedOnce r.history u
  kept : ∀ u, r.Tracks u → u.stopped ∉ r.history
  startedOnce : ((r.history.filterMap RackEvent.starts?).map RackUnit.serial).Nodup
  alone : ∀ before after, r.history = before ++ after → ∀ d e, Running before (.driver d) →
    Running before (.driver e) → d.spec.type = e.spec.type → d = e

theorem Steady.balanced (steady : Steady r) : Balanced r := by
  have orderly := steady.accounts.orderly
  have running := steady.accounts.running
  refine ⟨running, ⟨steady.buses.ascending.names_nodup, steady.buses.named⟩,
    ⟨steady.drivers.ascending.names_nodup, steady.drivers.named⟩, ?_, ?_, orderly.serials_nodup, ?_⟩
  · intro u started untracked
    by_contra neverStopped
    refine untracked ((running u).mp ⟨started, fun stopped => neverStopped (orderly.stoppedOnce stopped)⟩)
  · intro u tracked
    exact ((running u).mpr tracked).2
  · intro before after split d e first second same
    rw [split] at orderly
    exact orderly.of_append.driver_unique first second same

section Extension

theorem startMade_extends (r : Rack) (spec : BusSpec) (started : Attempt Unit) :
    r.history <+: (r.startMade spec started).1.history := by
  cases started with
  | error fault => simp [startMade_failed]
  | ok done =>
    cases replaced : Table.get? spec.type r.buses with
    | none => simp [startMade_added replaced]
    | some old => simp [startMade_replaced replaced]

theorem startBus_extends (r : Rack) (spec : BusSpec) (make : Made) :
    r.history <+: (r.startBus spec make).1.history := by
  unfold startBus
  split
  · exact List.prefix_rfl
  · split
    · cases make with
      | unknown => exact List.prefix_rfl
      | failed fault => exact List.prefix_rfl
      | made started => exact startMade_extends r spec started
    · exact List.prefix_rfl

theorem start_extends (r : Rack) (wanted : List (BusSpec × Made)) :
    r.history <+: (r.start wanted).1.history := by
  induction wanted generalizing r with
  | nil => exact List.prefix_rfl
  | cons first rest ih =>
    obtain ⟨spec, make⟩ := first
    have next := startBus_extends r spec make
    unfold start
    split
    · rename_i after outcome
      rw [outcome] at next
      exact next.trans (ih after)
    · rename_i after fault outcome
      rwa [outcome] at next

theorem stopDriver_extends (r : Rack) (type : Text) : r.history <+: (r.stopDriver type).history := by
  unfold stopDriver
  cases r.driver? type with
  | none => exact List.prefix_rfl
  | some old => exact List.prefix_append _ _

theorem installMadeIn_extends (order : Order) (r : Rack) (spec : DriverSpec) (started : Attempt Unit) :
    r.history <+: (r.installMadeIn order spec started).1.history := by
  have stopped := stopDriver_extends r spec.type
  cases started with
  | error fault =>
    rw [installMadeIn_failed, List.append_assoc]
    exact stopped.trans (List.prefix_append _ _)
  | ok done =>
    rw [installMadeIn_done]
    exact stopped.trans (List.prefix_append _ _)

theorem installIn_extends (order : Order) (r : Rack) (spec : DriverSpec) (make : Made) :
    r.history <+: (r.installIn order spec make).1.history := by
  unfold installIn
  split
  · exact List.prefix_rfl
  · cases make with
    | unknown => exact List.prefix_rfl
    | failed fault => exact List.prefix_rfl
    | made started => exact installMadeIn_extends order r spec started

theorem applyIn_extends (order : Order) (r : Rack) (call : Call) : r.history <+: (r.applyIn order call).1.history := by
  cases call with
  | start wanted => exact start_extends r wanted
  | install spec make => exact installIn_extends order r spec make
  | uninstall type => exact stopDriver_extends r type
  | stop =>
    simp only [applyIn, stopIn, List.append_assoc]
    exact List.prefix_append _ _

theorem runIn_extends (r : Rack) (calls : List (Order × Call)) : r.history <+: (r.runIn calls).history := by
  induction calls generalizing r with
  | nil => exact List.prefix_rfl
  | cons call calls ih => exact (applyIn_extends call.1 r call.2).trans (ih _)

end Extension

theorem runIn_append (r : Rack) (earlier later : List (Order × Call)) :
    r.runIn (earlier ++ later) = (r.runIn earlier).runIn later := List.foldl_append

-- After every call what is tracked is what runs, and the history of each earlier moment is
-- the beginning of the present one.
theorem run_balanced (calls : List (Order × Call)) :
    Balanced (empty.runIn calls) ∧
      ∀ n, (empty.runIn (calls.take n)).history <+: (empty.runIn calls).history := by
  refine ⟨(empty_steady.runIn calls).balanced, fun n => ?_⟩
  have rest := runIn_extends (empty.runIn (calls.take n)) (calls.drop n)
  rwa [← runIn_append, List.take_append_drop] at rest

-- Every bus of an installed driver is tracked and runs, and whenever a bus has stopped, all
-- drivers that were ever made with it had stopped before.
theorem run_spares_held_buses (calls : List (Order × Call)) :
    (∀ entry ∈ (empty.runIn calls).drivers, ∀ b ∈ entry.2.buses,
      (empty.runIn calls).Tracks (.bus b) ∧ .busStopped b ∉ (empty.runIn calls).history) ∧
    ∀ before b after, (empty.runIn calls).history = before ++ .busStopped b :: after →
      ∀ d, .driverStarted d ∈ (empty.runIn calls).history → b ∈ d.buses → .driverStopped d ∈ before := by
  have steady := empty_steady.runIn calls
  constructor
  · intro entry member b held
    have tracked := steady.accounts.buses_live (steady.drivers.mem member) b held
    exact ⟨tracked, ((steady.accounts.running _).mpr tracked).2⟩
  · intro before b after split d started held
    exact steady.accounts.orderly.driver_stops_first split started held

end FieldGateway.Rack
