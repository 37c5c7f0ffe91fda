import FieldGateway.Rack
import Mathlib.Data.List.Induction
import Mathlib.Tactic.ByContra

-- What a history of starts and stops says about single units, without any rack. A history is
-- orderly when each of its events was allowed by what had happened before it. Everything else
-- about starts and stops follows from this.
namespace FieldGateway

inductive RackUnit where
  | bus (unit : BusUnit)
  | driver (unit : DriverUnit)
deriving DecidableEq

namespace RackUnit

def serial : RackUnit → Nat
  | bus unit => unit.serial
  | driver unit => unit.serial

def started : RackUnit → RackEvent
  | bus unit => .busStarted unit
  | driver unit => .driverStarted unit

def stopped : RackUnit → RackEvent
  | bus unit => .busStopped unit
  | driver unit => .driverStopped unit

@[simp] theorem started_inj {u v : RackUnit} : u.started = v.started ↔ u = v := by
  cases u <;> cases v <;> simp [started]

@[simp] theorem stopped_inj {u v : RackUnit} : u.stopped = v.stopped ↔ u = v := by
  cases u <;> cases v <;> simp [stopped]

@[simp] theorem started_ne_stopped {u v : RackUnit} : u.started ≠ v.stopped := by
  cases u <;> cases v <;> simp [started, stopped]

@[simp] theorem stopped_ne_started {u v : RackUnit} : u.stopped ≠ v.started := started_ne_stopped.symm

end RackUnit

def RackEvent.starts? : RackEvent → Option RackUnit
  | .busStarted unit => some (.bus unit)
  | .driverStarted unit => some (.driver unit)
  | _ => none

theorem RackEvent.starts?_eq_some_iff {event : RackEvent} : event.starts? = some u ↔ event = u.started := by
  cases event <;> cases u <;> simp [starts?, RackUnit.started]

theorem RackEvent.eq_started_or_stopped (event : RackEvent) :
    ∃ u : RackUnit, event = u.started ∨ event = u.stopped := by
  cases event with
  | busStarted unit => exact ⟨.bus unit, .inl rfl⟩
  | busStopped unit => exact ⟨.bus unit, .inr rfl⟩
  | driverStarted unit => exact ⟨.driver unit, .inl rfl⟩
  | driverStopped unit => exact ⟨.driver unit, .inr rfl⟩

namespace Rack

variable {history before after : List RackEvent} {event : RackEvent} {u v : RackUnit}
  {b : BusUnit} {d e : DriverUnit}

def Running (history : List RackEvent) (u : RackUnit) : Prop :=
  u.started ∈ history ∧ u.stopped ∉ history

def Fresh (history : List RackEvent) (serial : Nat) : Prop :=
  ∀ u : RackUnit, u.started ∈ history → u.serial ≠ serial

-- Which event may come next. A driver starts when no other one of its type runs and all its
-- buses do, and a bus stops when no running driver holds it.
def Admits (history : List RackEvent) : RackEvent → Prop
  | .busStarted b => Fresh history b.serial
  | .driverStarted d => Fresh history d.serial ∧
      (∀ e, Running history (.driver e) → e.spec.type ≠ d.spec.type) ∧
      ∀ b ∈ d.buses, Running history (.bus b)
  | .busStopped b => Running history (.bus b) ∧ ∀ d, Running history (.driver d) → b ∉ d.buses
  | .driverStopped d => Running history (.driver d)

def Orderly (history : List RackEvent) : Prop :=
  ∀ before event after, history = before ++ event :: after → Admits before event

theorem orderly_nil : Orderly [] := by
  intro before event after split
  simp at split

theorem orderly_snoc : Orderly (history ++ [event]) ↔ Orderly history ∧ Admits history event := by
  constructor
  · intro orderly
    refine ⟨?_, orderly history event [] rfl⟩
    intro before e after split
    exact orderly before e (after ++ [event]) (by simp [split])
  · rintro ⟨orderly, admitted⟩ before e after split
    rcases List.eq_nil_or_concat after with rfl | ⟨init, last, rfl⟩
    · obtain ⟨rfl, equal⟩ := List.append_inj' split rfl
      cases equal
      exact admitted
    · have parts : history ++ [event] = (before ++ e :: init) ++ [last] := by simpa using split
      obtain ⟨equal, _⟩ := List.append_inj' parts rfl
      exact orderly before e init equal

theorem Orderly.of_append (orderly : Orderly (earlier ++ later)) : Orderly earlier := by
  intro before event after split
  exact orderly before event (after ++ later) (by simp [split])

theorem Admits.fresh (admitted : Admits history u.started) : Fresh history u.serial := by
  cases u with
  | bus b => exact admitted
  | driver d => exact admitted.1

theorem Admits.running (admitted : Admits history u.stopped) : Running history u := by
  cases u with
  | bus b => exact admitted.1
  | driver d => exact admitted

theorem running_start (fresh : u.stopped ∉ history) :
    Running (history ++ [u.started]) v ↔ v = u ∨ Running history v := by
  by_cases equal : v = u
  · subst equal
    simp [Running, fresh]
  · simp [Running, equal]

theorem running_stop : Running (history ++ [u.stopped]) v ↔ Running history v ∧ v ≠ u := by
  simp [Running, and_assoc]

namespace Orderly

theorem stop_parts (orderly : Orderly history) (split : history = before ++ u.stopped :: after) :
    u.started ∈ before ∧ u.stopped ∉ before ∧ u.stopped ∉ after := by
  have running := (orderly before _ after split).running
  refine ⟨running.1, running.2, fun again => ?_⟩
  obtain ⟨middle, rest, rfl⟩ := List.append_of_mem again
  have second := orderly (before ++ u.stopped :: middle) u.stopped rest (by simp [split])
  exact second.running.2 (by simp)

theorem started_of_stopped (orderly : Orderly history) (member : u.stopped ∈ history) :
    u.started ∈ history := by
  obtain ⟨before, after, split⟩ := List.append_of_mem member
  rw [split]
  exact List.mem_append_left _ (orderly.stop_parts split).1

theorem not_stopped_of_fresh (orderly : Orderly history) (fresh : Fresh history u.serial) :
    u.stopped ∉ history :=
  fun member => fresh u (orderly.started_of_stopped member) rfl

-- By induction on the history, because the serial number of each start is new to what is
-- before it.
theorem serials_nodup (orderly : Orderly history) :
    ((history.filterMap RackEvent.starts?).map RackUnit.serial).Nodup := by
  induction history using List.reverseRecOn with
  | nil => exact List.nodup_nil
  | append_singleton history event ih =>
    obtain ⟨earlier, admitted⟩ := orderly_snoc.mp orderly
    obtain ⟨u, rfl | rfl⟩ := event.eq_started_or_stopped
    · have starts : u.started.starts? = some u := RackEvent.starts?_eq_some_iff.mpr rfl
      rw [List.filterMap_append, List.filterMap_cons_some starts, List.filterMap_nil, List.map_append]
      refine List.nodup_append.mpr ⟨ih earlier, List.pairwise_singleton _ _, ?_⟩
      intro serial old other last equal
      obtain ⟨v, member, rfl⟩ := List.mem_map.mp old
      obtain ⟨event, present, startsV⟩ := List.mem_filterMap.mp member
      rw [RackEvent.starts?_eq_some_iff.mp startsV] at present
      simp only [List.map_cons, List.map_nil, List.mem_singleton] at last
      exact admitted.fresh v present (equal.trans last)
    · have startsNothing : u.stopped.starts? = none := by cases u <;> rfl
      simpa [List.filterMap_append, startsNothing] using ih earlier

theorem buses_running (orderly : Orderly history) (running : Running history (.driver d)) :
    ∀ b ∈ d.buses, Running history (.bus b) := by
  intro b held
  induction history using List.reverseRecOn with
  | nil => exact absurd running.1 List.not_mem_nil
  | append_singleton history event ih =>
    obtain ⟨earlier, admitted⟩ := orderly_snoc.mp orderly
    obtain ⟨u, rfl | rfl⟩ := event.eq_started_or_stopped
    · have unstopped := earlier.not_stopped_of_fresh admitted.fresh
      rw [running_start unstopped] at running ⊢
      rcases running with rfl | running
      · exact .inr (admitted.2.2 b held)
      · exact .inr (ih earlier running)
    · rw [running_stop] at running ⊢
      refine ⟨ih earlier running.1, ?_⟩
      rintro rfl
      exact admitted.2 d running.1 held

theorem driver_unique (orderly : Orderly history) (first : Running history (.driver d))
    (second : Running history (.driver e)) (same : d.spec.type = e.spec.type) : d = e := by
  induction history using List.reverseRecOn with
  | nil => exact absurd first.1 List.not_mem_nil
  | append_singleton history event ih =>
    obtain ⟨earlier, admitted⟩ := orderly_snoc.mp orderly
    obtain ⟨u, rfl | rfl⟩ := event.eq_started_or_stopped
    · have unstopped := earlier.not_stopped_of_fresh admitted.fresh
      rw [running_start unstopped] at first second
      rcases first with rfl | first <;> rcases second with equal | second
      · cases equal; rfl
      · exact absurd same.symm (admitted.2.1 e second)
      · subst equal; exact absurd same (admitted.2.1 d first)
      · exact ih earlier first second
    · rw [running_stop] at first second
      exact ih earlier first.1 second.1

-- A driver that was made with a bus has stopped by the time the bus does: it cannot run at
-- that moment, and it cannot start later.
theorem driver_stops_first (orderly : Orderly history) (split : history = before ++ .busStopped b :: after)
    (started : .driverStarted d ∈ history) (held : b ∈ d.buses) : .driverStopped d ∈ before := by
  have admitted := orderly before _ after split
  rw [split] at started
  rcases List.mem_append.mp started with earlier | later
  · by_contra running
    exact admitted.2 d ⟨earlier, running⟩ held
  · rcases List.mem_cons.mp later with equal | later
    · cases equal
    · obtain ⟨middle, rest, rfl⟩ := List.append_of_mem later
      have start := orderly (before ++ .busStopped b :: middle) (.driverStarted d) rest (by simp [split])
      have bus := start.2.2 b held
      exact absurd (show RackUnit.stopped (.bus b) ∈ _ by simp [RackUnit.stopped]) bus.2

end Orderly
end Rack
end FieldGateway
