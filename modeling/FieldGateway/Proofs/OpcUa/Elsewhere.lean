import FieldGateway.Proofs.OpcUa.Custody

-- What a call that adds a device means for all the others: nothing. When no other call is under
-- way, the entries and tasks of the others are those to which their own moves alone lead.
namespace FieldGateway.OpcUa

def Move.IsCall : Move → Prop
  | .add _ | .remove _ | .stop => True
  | .cancelled _ _ | .joined _ | .answered _ | .gaveUp _ | .task _ _ | .notify _ _ | .sever _ => False

def Move.task? : Move → Option Nat
  | .task number _ | .notify number _ | .sever number => some number
  | .add _ | .remove _ | .stop | .cancelled _ _ | .joined _ | .answered _ | .gaveUp _ => none

def Call.IsPeaceful : Call → Prop
  | clearing _ _ => False
  | replacing _ _ | waiting _ | returned _ => True

def RegistryEdit.renewed (generation : Nat) (edit : RegistryEdit) : Option Entry → Option Entry
  | none => none
  | some entry =>
    if entry.generation = generation then
      match edit with
      | .keep => some entry
      | .record known => some { entry with requests := known }
      | .forget => none
    else some entry

theorem RegistryEdit.get?_apply (ascending : Table.Ascending entries) :
    Table.get? other (RegistryEdit.apply name generation edit entries) =
      if other = name then edit.renewed generation (Table.get? name entries) else Table.get? other entries := by
  cases found : Table.get? name entries with
  | none =>
    have kept : RegistryEdit.apply name generation edit entries = entries := by
      cases edit <;> simp [apply, found]
    rw [kept]
    split
    · rename_i same
      rw [same, found]
      rfl
    · rfl
  | some entry =>
    by_cases own : entry.generation = generation
    · cases edit with
      | keep =>
        simp only [apply, renewed, ite_self]
        split
        · rename_i same
          rw [same, found]
        · rfl
      | record known => simp [apply, renewed, found, own, Table.get?_put]
      | forget => simp [apply, renewed, found, own, ascending.get?_erase]
    · have kept : RegistryEdit.apply name generation edit entries = entries := by
        cases edit <;> simp [apply, found, own]
      rw [kept]
      split
      · rename_i same
        simp [same, found, renewed, own]
      · rfl

namespace Fleet

variable {f g h : Fleet} {t u : Task} {name : Text} {number : Nat}

def isElsewhere (f : Fleet) (name : Text) (move : Move) : Bool :=
  (move.task?.bind fun number => f.origins[number]?).any fun origin => origin.1.name ≠ name

theorem isElsewhere_iff (own : move.task? = some number) (there : f.tasks[number]? = some t) :
    f.isElsewhere name move = true ↔ t.device.name ≠ name := by
  simp [isElsewhere, own, origins_get? there, Task.origin]

theorem isElsewhere_parts (elsewhere : f.isElsewhere name move = true) :
    ∃ number t, move.task? = some number ∧ f.tasks[number]? = some t ∧ t.device.name ≠ name := by
  obtain ⟨origin, found, different⟩ := (Option.any_eq_true _ _).mp elsewhere
  obtain ⟨number, own, there⟩ := Option.bind_eq_some_iff.mp found
  rw [origins, List.getElem?_map] at there
  obtain ⟨t, present, rfl⟩ := Option.map_eq_some_iff.mp there
  exact ⟨number, t, own, present, of_decide_eq_true different⟩

theorem Step.origins_eq (step : Step f move g) (quiet : ¬ move.IsCall) : g.origins = f.origins := by
  cases step with
  | rejected | added | known | replaced | missing | removed | stopped => exact absurd trivial quiet
  | cleared | succeeded | answered | unanswered | gaveUp => rfl
  | cancelled => exact origins_cancelTask
  | moved there step => exact origins_set there step.origin_eq
  | notified there | severed there => exact origins_set there rfl

theorem Step.peaceful (step : Step f move g) (quiet : ¬ move.IsCall) (peaceful : ∀ c ∈ f.calls, c.IsPeaceful) :
    ∀ c ∈ g.calls, c.IsPeaceful := by
  cases step with
  | rejected | added | known | replaced | missing | removed | stopped => exact absurd trivial quiet
  | cancelled clearing => exact absurd (peaceful _ (List.mem_of_getElem? clearing)) id
  | cleared | succeeded | answered | unanswered | gaveUp => exact forall_calls_set peaceful trivial
  | moved | notified | severed => exact peaceful

-- Two fleets that have the same entries and tasks, except those of one device.
structure AgreeElsewhere (name : Text) (f g : Fleet) : Prop where
  entries : ∀ other, other ≠ name → f.registration? other = g.registration? other
  tasks : ∀ (number : Nat) (t : Task), t.device.name ≠ name → (f.tasks[number]? = some t ↔ g.tasks[number]? = some t)

namespace AgreeElsewhere

theorem of_eq (entries : f.entries = g.entries) (tasks : f.tasks = g.tasks) : AgreeElsewhere name f g := by
  refine ⟨fun other _ => ?_, fun number t _ => ?_⟩
  · rw [registration?, registration?, entries]
  · rw [tasks]

theorem trans (first : AgreeElsewhere name f g) (second : AgreeElsewhere name g h) : AgreeElsewhere name f h :=
  ⟨fun other different => (first.entries other different).trans (second.entries other different),
    fun number t different => (first.tasks number t different).trans (second.tasks number t different)⟩

theorem of_set (there : f.tasks[number]? = some t) (mine : t.device.name = name) (same : u.device = t.device)
    (tasks : g.tasks = f.tasks.set number u)
    (entries : ∀ other, other ≠ name → g.registration? other = f.registration? other) : AgreeElsewhere name g f := by
  refine ⟨entries, fun other w different => ?_⟩
  rw [tasks]
  by_cases equal : number = other
  · subst equal
    rw [List.getElem?_set_self (List.getElem?_eq_some_iff.mp there).1, there, Option.some.injEq, Option.some.injEq]
    constructor
    · rintro rfl
      exact absurd (same ▸ mine) different
    · rintro rfl
      exact absurd mine different
  · rw [List.getElem?_set_ne equal]

theorem set (agree : AgreeElsewhere name f g) (there : f.tasks[number]? = some t) (also : g.tasks[number]? = some t)
    (tasks : f'.tasks = f.tasks.set number u) (tasks' : g'.tasks = g.tasks.set number u)
    (entries : ∀ other, other ≠ name → f'.registration? other = g'.registration? other) :
    AgreeElsewhere name f' g' := by
  refine ⟨entries, fun other w different => ?_⟩
  rw [tasks, tasks']
  by_cases equal : number = other
  · subst equal
    rw [List.getElem?_set_self (List.getElem?_eq_some_iff.mp there).1,
      List.getElem?_set_self (List.getElem?_eq_some_iff.mp also).1]
  · rw [List.getElem?_set_ne equal, List.getElem?_set_ne equal]
    exact agree.tasks other w different

theorem here (sound : Sound f) (peaceful : ∀ c ∈ f.calls, c.IsPeaceful) (step : Step f move g)
    (quiet : ¬ move.IsCall) (own : f.isElsewhere name move = false) : AgreeElsewhere name g f := by
  have mine : ∀ {number t}, move.task? = some number → f.tasks[number]? = some t → t.device.name = name := by
    intro number t reaches there
    refine Decidable.not_not.mp fun different => ?_
    rw [(isElsewhere_iff reaches there).mpr different] at own
    cases own
  cases step with
  | rejected | added | known | replaced | missing | removed | stopped => exact absurd trivial quiet
  | cancelled clearing => exact absurd (peaceful _ (List.mem_of_getElem? clearing)) id
  | cleared | succeeded | answered | unanswered | gaveUp => exact of_eq rfl rfl
  | @moved number t move e there step =>
    have same : e.task.device = t.device := congrArg Prod.fst step.origin_eq
    refine of_set there (mine rfl there) same rfl fun other different => ?_
    rw [registration?, absorb, RegistryEdit.get?_apply sound.ascending, mine rfl there, if_neg different]
    rfl
  | @notified number t notification there =>
    have same : { t with inbox := t.inbox ++ [notification] }.device = t.device := rfl
    exact of_set there (mine rfl there) same rfl fun _ _ => rfl
  | @severed number t there =>
    have same : { t with severed := true }.device = t.device := rfl
    exact of_set there (mine rfl there) same rfl fun _ _ => rfl

theorem elsewhere (agree : AgreeElsewhere name f g) (sound : Sound f) (also : Sound g) (step : Step f move f')
    (other : g.isElsewhere name move = true) : ∃ g', g.apply move = some g' ∧ AgreeElsewhere name f' g' := by
  obtain ⟨number, t, reaches, there', different⟩ := isElsewhere_parts other
  have there := (agree.tasks number t different).mpr there'
  cases step with
  | rejected | added | known | replaced | missing | removed | stopped | cancelled | cleared | succeeded | answered
  | unanswered | gaveUp => cases reaches
  | @moved mover t' move e mine step =>
    cases reaches
    cases there.symm.trans mine
    refine ⟨g.absorb number t e, ?_, agree.set there there' rfl rfl fun name' apart => ?_⟩
    · simp only [apply, moveTask, there', Task.step_complete step, Option.map_some]
    · have own : Table.get? t.device.name f.entries = Table.get? t.device.name g.entries :=
        agree.entries _ different
      have others : Table.get? name' f.entries = Table.get? name' g.entries := agree.entries _ apart
      simp only [registration?, absorb, RegistryEdit.get?_apply sound.ascending,
        RegistryEdit.get?_apply also.ascending, own, others]
  | @notified mover t' notification mine subscribed served =>
    cases reaches
    cases there.symm.trans mine
    let u := { t with inbox := t.inbox ++ [notification] }
    refine ⟨g.setTask number u, ?_, agree.set there there' rfl rfl agree.entries⟩
    have guard : (t.phase.isSubscribed && !t.severed) = true := by rw [subscribed, served]; rfl
    simp only [apply, notify, there', guard, if_true, u]
  | @severed mover t' mine subscribed =>
    cases reaches
    cases there.symm.trans mine
    let u := { t with severed := true }
    refine ⟨g.setTask number u, ?_, agree.set there there' rfl rfl agree.entries⟩
    simp only [apply, sever, there', subscribed, if_true, u]

theorem isElsewhere_eq (agree : AgreeElsewhere name f g) : f.isElsewhere name = g.isElsewhere name := by
  have half : ∀ {f g : Fleet}, AgreeElsewhere name f g → ∀ move, f.isElsewhere name move = true →
      g.isElsewhere name move = true := by
    intro f g agree move elsewhere
    obtain ⟨number, t, reaches, there, different⟩ := isElsewhere_parts elsewhere
    exact (isElsewhere_iff reaches ((agree.tasks number t different).mp there)).mpr different
  have back : AgreeElsewhere name g f :=
    ⟨fun other different => (agree.entries other different).symm,
      fun number t different => (agree.tasks number t different).symm⟩
  funext move
  exact Bool.eq_iff_iff.mpr ⟨half agree move, half back move⟩

-- By induction on the moves, because each of them is either made on both sides or touches the
-- one device only.
theorem run (agree : AgreeElsewhere name f g) (sound : Sound f) (also : Sound g)
    (peaceful : ∀ c ∈ f.calls, c.IsPeaceful) (quiet : ∀ move ∈ moves, ¬ move.IsCall) (ran : f.run moves = some f') :
    ∃ g', g.run (moves.filter (g.isElsewhere name)) = some g' ∧ AgreeElsewhere name f' g' := by
  induction moves generalizing f g with
  | nil => cases ran; exact ⟨g, rfl, agree⟩
  | cons move moves ih =>
    obtain ⟨middle, step, rest⟩ := run_cons ran
    obtain ⟨mine, others⟩ := List.forall_mem_cons.mp quiet
    have calm := step.peaceful mine peaceful
    cases place : g.isElsewhere name move with
    | true =>
      obtain ⟨between, applied, agree⟩ := agree.elsewhere sound also step place
      have step' := apply_sound applied
      obtain ⟨g', ran', agree⟩ := ih agree (sound.step step) (also.step step') calm others rest
      have same : between.isElsewhere name = g.isElsewhere name := by
        funext other
        rw [isElsewhere, step'.origins_eq mine, isElsewhere]
      rw [same] at ran'
      exact ⟨g', by rw [List.filter_cons, if_pos place]; exact run_cons_iff.mpr ⟨between, applied, ran'⟩, agree⟩
    | false =>
      have nothing : AgreeElsewhere name middle f := here sound peaceful step mine (by rwa [agree.isElsewhere_eq])
      obtain ⟨g', ran', agree⟩ := ih (nothing.trans agree) (sound.step step) also calm others rest
      exact ⟨g', by rwa [List.filter_cons, if_neg (by simp [place])], agree⟩

end AgreeElsewhere

theorem openCall_agreeElsewhere (f : Fleet) (c : Call) : AgreeElsewhere name (f.openCall c) f := .of_eq rfl rfl

theorem register_agreeElsewhere (f : Fleet) (device : Device) (carried : List Request) :
    AgreeElsewhere device.name (f.register device carried) f := by
  refine ⟨fun other different => (Table.get?_put ..).trans (if_neg different), fun number t different => ?_⟩
  rw [register, List.getElem?_append]
  split
  · exact .rfl
  · rename_i late
    rw [List.getElem?_eq_none (Nat.le_of_not_lt late), List.getElem?_singleton]
    split
    · rw [Option.some.injEq]
      constructor
      · rintro rfl
        exact absurd rfl different
      · intro impossible
        cases impossible
    · exact .rfl

theorem cancelTask_agreeElsewhere (there : f.tasks[number]? = some t) (mine : t.device.name = name) :
    AgreeElsewhere name (f.cancelTask number) f := by
  have same : t.cancel.device = t.device := rfl
  refine .of_set there mine same ?_ fun _ _ => rfl
  refine List.ext_getElem? fun other => ?_
  rw [cancelTask, List.getElem?_modify, List.getElem?_set]
  split
  · rename_i equal
    subst equal
    rw [there, if_pos (List.getElem?_eq_some_iff.mp there).1]
    rfl
  · exact Option.map_id'

theorem add_agreeElsewhere (sound : Sound f) (device : Device) : AgreeElsewhere device.name (f.add device) f := by
  have step : Step f (.add device) (f.add device) := add_sound
  generalize f.add device = g at step
  cases step with
  | rejected | known => exact openCall_agreeElsewhere ..
  | added => exact (openCall_agreeElsewhere ..).trans (register_agreeElsewhere f device [])
  | @replaced entry _ checked found =>
    obtain ⟨t, there, same, -⟩ := sound.there found
    have mine : t.device.name = device.name := by rw [same, sound.named found]
    have cancelled := cancelTask_agreeElsewhere there mine
    exact (openCall_agreeElsewhere ..).trans ((register_agreeElsewhere ..).trans cancelled)

end Fleet
end FieldGateway.OpcUa
