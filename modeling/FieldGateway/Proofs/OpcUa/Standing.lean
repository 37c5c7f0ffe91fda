import FieldGateway.Proofs.OpcUa.Registry

-- A registration stands until a call renews or removes it, or its own task fails. Whatever
-- earlier tasks of the device still do passes it by.
namespace FieldGateway.OpcUa

def Move.Supersedes (device : Device) : Move → Prop
  | .add other =>
    other.name = device.name ∧ other.driverType = Fleet.driverType ∧ (device == other) = false
  | .remove name => name = device.name
  | .stop => True
  | _ => False

def Task.FailsLast (t : Task) : Prop := ∀ fault, t.answer = some (.error fault) → t.hasEnded = true

theorem Task.FailsLast.step {t : Task} (last : t.FailsLast) (step : Task.Step number t move e) :
    e.task.FailsLast := by
  have unended := step.unended
  have unfailed : ∀ fault, t.answer ≠ some (.error fault) := by
    intro fault failed
    rw [last fault failed] at unended
    cases unended
  cases step with
  | recorded => intro fault failed; cases failed
  | forgotten => intro fault failed; rfl
  | dropped | misplanned | began | connected | refused | subscribed | unsubscribed | abandoned | finished
  | withdrawn | looked | read | forwarded | rested | hungUp =>
    intro fault failed
    exact absurd failed (unfailed fault)

theorem Task.FailsLast.advance {t : Task} (last : t.FailsLast) (advance : t.Advance number u events) :
    u.FailsLast := by
  cases advance with
  | kept | cancelled | notified | severed => exact last
  | stepped step => exact last.step step

namespace Fleet

variable {f g : Fleet} {t : Task} {entry : Entry} {device : Device} {task generation number : Nat}

def Failed (f : Fleet) (number : Nat) : Prop :=
  ∃ t fault, f.tasks[number]? = some t ∧ t.answer = some (.error fault)

def FailuresLast (f : Fleet) : Prop :=
  ∀ (number : Nat) (t : Task), f.tasks[number]? = some t → t.FailsLast

theorem FailuresLast.step (last : FailuresLast f) (step : Step f move g) : FailuresLast g := by
  intro number u there
  rcases step.task_parts there with ⟨t, events, old, advance, -⟩ | ⟨device, carried, -, -, rfl, -⟩
  · exact (last number t old).advance advance
  · intro fault failed
    cases failed

theorem Failed.step (last : FailuresLast f) (failed : f.Failed number) (step : Step f move g) :
    g.Failed number := by
  obtain ⟨t, fault, there, answer⟩ := failed
  obtain ⟨u, events, present, advance, -⟩ := step.advances there
  cases advance with
  | kept | cancelled | notified | severed => exact ⟨_, fault, present, answer⟩
  | stepped step =>
    have ended := last number t there fault answer
    rw [step.unended] at ended
    cases ended

theorem Sound.touches_own (sound : Sound f) (there : f.tasks[number]? = some t)
    (step : Task.Step number t move e) (name : Text) :
    (f.absorb number t e).registration? name = f.registration? name ∨
    ∃ entry, f.registration? name = some entry ∧ entry.task = number ∧
      ((∃ known, (f.absorb number t e).registration? name = some { entry with requests := known }) ∨
      ((f.absorb number t e).registration? name = none ∧ (f.absorb number t e).Failed number)) := by
  rcases sound.absorb_registration? there e name with
    same | ⟨entry, found, mine, ⟨known, -, noted⟩ | ⟨edit, gone⟩⟩
  · exact .inl same
  · exact .inr ⟨entry, found, mine, .inl ⟨known, noted⟩⟩
  · refine .inr ⟨entry, found, mine, .inr ⟨gone, ?_⟩⟩
    have bound := (List.getElem?_eq_some_iff.mp there).1
    cases step with
    | @forgotten fault => exact ⟨_, fault, List.getElem?_set_self bound, rfl⟩
    | _ => cases edit

def Stands (f : Fleet) (device : Device) (task generation : Nat) : Prop :=
  ∃ known, f.registration? device.name = some ⟨device, known, task, generation⟩

theorem Stands.step (sound : Sound f) (stands : Stands f device task generation) (step : Step f move g)
    (spared : ¬ move.Supersedes device) : Stands g device task generation ∨ g.Failed task := by
  obtain ⟨known, found⟩ := stands
  cases step with
  | rejected | known | missing | cancelled | cleared | succeeded | answered | unanswered | gaveUp | notified
  | severed => exact .inl ⟨known, found⟩
  | @added other checked absent =>
    refine .inl ⟨known, ?_⟩
    have different : device.name ≠ other.name := by
      intro same
      rw [← same] at absent
      cases absent.symm.trans found
    exact (Table.get?_put ..).trans ((if_neg different).trans found)
  | @replaced old other checked present differs =>
    refine .inl ⟨known, ?_⟩
    have different : device.name ≠ other.name := by
      intro same
      rw [← same] at present
      cases present.symm.trans found
      exact spared ⟨same.symm, checkDriver_ok_iff.mp checked, differs⟩
    exact (Table.get?_put ..).trans ((if_neg different).trans found)
  | @removed name =>
    refine .inl ⟨known, ?_⟩
    have different : device.name ≠ name := fun same => spared same.symm
    exact sound.ascending.get?_erase.trans ((if_neg different).trans found)
  | stopped => exact absurd trivial spared
  | moved there step =>
    rcases sound.touches_own there step device.name with
      same | ⟨entry, present, mine, ⟨later, noted⟩ | ⟨-, failed⟩⟩
    · exact .inl ⟨known, same.trans found⟩
    · cases present.symm.trans found
      exact .inl ⟨later, noted⟩
    · cases present.symm.trans found
      cases mine
      exact .inr failed

theorem Stands.run (sound : Sound f) (last : FailuresLast f) (stands : Stands f device task generation)
    (ran : f.run later = some g) (spared : ∀ move ∈ later, ¬ move.Supersedes device) :
    Stands g device task generation ∨ g.Failed task := by
  have keeps : ∀ {f : Fleet} {move g}, ¬ move.Supersedes device →
      Sound f ∧ FailuresLast f ∧ (Stands f device task generation ∨ f.Failed task) → Step f move g →
      Sound g ∧ FailuresLast g ∧ (Stands g device task generation ∨ g.Failed task) := by
    intro f move g spared held step
    obtain ⟨sound, last, stands | failed⟩ := held
    · exact ⟨sound.step step, last.step step, stands.step sound step spared⟩
    · exact ⟨sound.step step, last.step step, .inr (failed.step last step)⟩
  exact (run_keeps_within keeps spared ⟨sound, last, .inl stands⟩ ran).2.2

theorem Reached.failuresLast (reached : Reached f) : FailuresLast f := by
  refine reached.keeps ?_ fun _ => FailuresLast.step
  intro settings buses number t there
  cases there

theorem add_stands (accepted : device.driverType = driverType)
    (renews : ∀ entry, f.registration? device.name = some entry → (entry.device == device) = false) :
    (f.add device).Stands device f.tasks.length f.generation := by
  have checked := checkDriver_ok_iff.mpr accepted
  unfold add
  rw [checked]
  cases found : Table.get? device.name f.entries with
  | none => exact ⟨[], (Table.get?_put ..).trans (if_pos rfl)⟩
  | some entry =>
    simp only [renews entry found, Bool.false_eq_true, if_false]
    refine ⟨entry.requests, (Table.get?_put ..).trans ((if_pos rfl).trans ?_)⟩
    simp [cancelTask]

-- Any move of a task leaves all registrations alone except the one that created the task. And
-- from the call that registers a device on, its registration stands with exactly its
-- configuration, through all moves that no later call of the device has made, as long as its
-- own task has not failed.
theorem registration_kept (reached : Reached f) :
    (∀ number move g, f.apply (.task number move) = some g → ∀ name,
      g.registration? name = f.registration? name ∨
      ∃ entry, f.registration? name = some entry ∧ entry.task = number ∧
        ((∃ known, g.registration? name = some { entry with requests := known }) ∨
        (g.registration? name = none ∧ g.Failed number))) ∧
    (∀ device later g, device.driverType = driverType →
      (∀ entry, f.registration? device.name = some entry → (entry.device == device) = false) →
      f.run (.add device :: later) = some g → (∀ move ∈ later, ¬ move.Supersedes device) →
      ¬ g.Failed f.tasks.length →
      ∃ known, g.registration? device.name = some ⟨device, known, f.tasks.length, f.generation⟩) := by
  have sound := reached.sound
  constructor
  · intro number move g applied name
    cases apply_sound applied with
    | moved there step => exact sound.touches_own there step name
  · intro device later g accepted renews ran spared unfailed
    have added : Step f (.add device) (f.add device) := add_sound
    have stands := add_stands accepted renews
    have result := stands.run (sound.step added) (reached.failuresLast.step added) ran spared
    exact result.resolve_right unfailed

-- The task of the first registration learns that it cannot connect after another one has taken
-- its place, and forgets nothing.
theorem registration_kept_late_refusal :
    ∃ f g, (idle unsecured []).run [.add (boilerAt "a"), .task 0 .begin] = some f ∧
      f.run [.add (boilerAt "b"), .task 0 (.refused (.connectionFailure "late")), .task 0 .forget,
        .joined 1] = some g ∧
      ∃ known, g.registration? "boiler" = some ⟨boilerAt "b", known, 1, 2⟩ := by
  obtain ⟨f, g, start, found, size, age, rest, answer⟩ : ∃ f g,
      (idle unsecured []).run [.add (boilerAt "a"), .task 0 .begin] = some f ∧
      f.registration? "boiler" = some ⟨boilerAt "a", [], 0, 1⟩ ∧ f.tasks.length = 1 ∧ f.generation = 2 ∧
      f.run [.add (boilerAt "b"), .task 0 (.refused (.connectionFailure "late")), .task 0 .forget,
        .joined 1] = some g ∧ (g.tasks[1]?).map Task.answer = some none := ⟨_, _, rfl, rfl, rfl, rfl, rfl, rfl⟩
  refine ⟨f, g, start, rest, ?_⟩
  have kept := (registration_kept ⟨_, _, _, start⟩).2 (boilerAt "b") _ g rfl ?renews rest ?spared ?unfailed
  · rwa [size, age] at kept
  case renews =>
    intro entry present
    cases found.symm.trans present
    rfl
  case spared => simp [Move.Supersedes]
  case unfailed =>
    rw [size]
    rintro ⟨t, fault, there, failed⟩
    simp [there, failed] at answer

end Fleet
end FieldGateway.OpcUa
