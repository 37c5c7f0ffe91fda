import FieldGateway.Proofs.OpcUa.Numbering
import FieldGateway.Proofs.OpcUa.Custody

-- What a task knows of its device, and what it notes of it in the registry: the requests of the
-- tasks before, with its own over the beginning of them.
namespace FieldGateway.OpcUa

def Phase.asked? : Phase → Option (List Request)
  | connecting fresh | subscribing fresh | recording fresh => some fresh
  | created | abandoning _ | failed _ | looking _ | reading _ | forwarding _ _ _ | closing | ended => none

def Phase.known? : Phase → Option (List Request)
  | looking known | reading known | forwarding known _ _ => some known
  | created | connecting _ | subscribing _ | abandoning _ | recording _ | failed _ | closing | ended => none

theorem Phase.known?_workOff (known : List Request) (items : List Change) :
    (workOff known items).known? = some known := by
  cases items <;> rfl

theorem Phase.asked?_workOff (known : List Request) (items : List Change) :
    (workOff known items).asked? = none := by
  cases items <;> rfl

namespace Task

variable {t u : Task} {known fresh : List Request}

-- The requests of a device over those of the tasks before.
def Knows (t : Task) (known : List Request) : Prop :=
  ∃ fresh, Request.ofDevice t.device = .ok fresh ∧ known = Request.merge t.carried fresh

structure Informed (t : Task) : Prop where
  carried : Request.Numbered Request.firstHandle t.carried
  asked : ∀ fresh, t.phase.asked? = some fresh → Request.ofDevice t.device = .ok fresh
  known : ∀ known, t.phase.known? = some known → t.Knows known

theorem Knows.numbered (knows : t.Knows known) (carried : Request.Numbered Request.firstHandle t.carried) :
    Request.Numbered Request.firstHandle known := by
  obtain ⟨fresh, made, rfl⟩ := knows
  exact carried.merge (Request.ofResources_numbered made)

theorem Knows.unique (knows : t.Knows known) (also : t.Knows others) : known = others := by
  obtain ⟨fresh, made, rfl⟩ := knows
  obtain ⟨again, remade, rfl⟩ := also
  cases made.symm.trans remade
  rfl

theorem Advance.basis_eq (advance : t.Advance number u events) : u.device = t.device ∧ u.carried = t.carried := by
  cases advance with
  | kept | cancelled | notified | severed => exact ⟨rfl, rfl⟩
  | stepped step => cases step <;> exact ⟨rfl, rfl⟩

theorem Knows.advance (knows : t.Knows known) (advance : t.Advance number u events) : u.Knows known := by
  obtain ⟨device, carried⟩ := advance.basis_eq
  unfold Knows
  rwa [device, carried]

theorem plan_ofDevice (planned : t.plan = .ok (endpoint, fresh)) : Request.ofDevice t.device = .ok fresh := by
  unfold plan at planned
  split at planned
  · cases planned
  · cases made : Request.ofDevice t.device with
    | error defect => rw [made] at planned; cases planned
    | ok requests =>
      rw [made] at planned
      exact congrArg Except.ok (congrArg Prod.snd (Except.ok.inj planned))

theorem Informed.step (informed : t.Informed) (step : Step number t move e) : e.task.Informed := by
  have asked := informed.asked
  have known := informed.known
  cases step with
  | dropped | misplanned | refused | unsubscribed | abandoned | finished | forgotten | withdrawn | hungUp =>
    exact ⟨informed.carried, nofun, nofun⟩
  | @began endpoint fresh phase planned =>
    refine ⟨informed.carried, fun later same => ?_, nofun⟩
    cases same
    exact plan_ofDevice planned
  | connected phase | subscribed phase =>
    rw [phase] at asked
    exact ⟨informed.carried, asked, nofun⟩
  | @recorded fresh phase =>
    rw [phase] at asked
    refine ⟨informed.carried, nofun, fun later same => ?_⟩
    cases same
    exact ⟨fresh, asked fresh rfl, rfl⟩
  | looked phase | rested phase =>
    rw [phase] at known
    exact ⟨informed.carried, nofun, known⟩
  | @read before notification rest phase =>
    rw [phase] at known
    refine ⟨informed.carried, fun later same => ?_, fun later same => ?_⟩
    · rw [Phase.asked?_workOff] at same
      cases same
    · rw [Phase.known?_workOff] at same
      exact known later same
  | @forwarded before next rest stamp phase =>
    rw [phase] at known
    refine ⟨informed.carried, fun later same => ?_, fun later same => ?_⟩
    · rw [enter, Phase.asked?_workOff] at same
      cases same
    · rw [enter, Phase.known?_workOff] at same
      exact known later same

theorem Informed.advance (informed : t.Informed) (advance : t.Advance number u events) : u.Informed := by
  cases advance with
  | kept | cancelled | notified | severed => exact ⟨informed.carried, informed.asked, informed.known⟩
  | stepped step => exact informed.step step

theorem Step.record_knows (step : Step number t move e) (informed : t.Informed) (edit : e.edit = .record known) :
    t.Knows known := by
  cases step with
  | @recorded fresh phase =>
    cases edit
    exact ⟨fresh, informed.asked fresh (by rw [phase]; rfl), rfl⟩
  | _ => cases edit

theorem Step.answer_parts (step : Step number t move e) (answered : e.task.answer = some (.ok ())) :
    t.answer = some (.ok ()) ∨ ∃ known, e.edit = .record known := by
  cases step with
  | recorded => exact .inr ⟨_, rfl⟩
  | forgotten => cases answered
  | _ => exact .inl answered

end Task

namespace Fleet

variable {f g h : Fleet} {t u : Task} {entry : Entry} {name : Text} {device : Device} {number : Nat}

theorem Sound.records (sound : Sound f) (there : f.tasks[number]? = some t)
    (found : f.registration? name = some entry) (own : entry.task = number) (edit : e.edit = .record known) :
    (f.absorb number t e).registration? name = some { entry with requests := known } := by
  have mine : entry.generation = t.generation := (sound.own_iff there found).mpr own
  subst own
  obtain ⟨t', there', device, -⟩ := sound.there found
  cases there.symm.trans there'
  have same : t.device.name = name := by rw [device, sound.named found]
  unfold registration? at found
  simp only [registration?, Fleet.absorb, edit, RegistryEdit.apply, same, found, mine, if_true, Table.get?_put]

-- Where an entry comes from: it was there before, perhaps with other requests that its own task
-- has noted since, or it has just been made.
theorem Step.entry_parts (step : Step f move g) (sound : Sound f) (found : g.registration? name = some entry) :
    (∃ old, f.registration? name = some old ∧ old.device = entry.device ∧ old.task = entry.task ∧
      (old.requests = entry.requests ∨ ∃ t m e, f.tasks[old.task]? = some t ∧ Task.Step old.task t m e ∧
        e.edit = .record entry.requests)) ∨
    (move = .add entry.device ∧ entry.device.name = name ∧ entry.task = f.tasks.length ∧
      g.tasks[entry.task]? = some (Task.create entry.device entry.requests f.generation) ∧
      (f.registration? name = none ∧ entry.requests = [] ∨
        ∃ old, f.registration? name = some old ∧ (old.device == entry.device) = false ∧
          entry.requests = old.requests)) := by
  have kept : f.registration? name = some entry →
      ∃ old, f.registration? name = some old ∧ old.device = entry.device ∧ old.task = entry.task ∧
      (old.requests = entry.requests ∨ ∃ t m e, f.tasks[old.task]? = some t ∧ Task.Step old.task t m e ∧
        e.edit = .record entry.requests) := fun found => ⟨entry, found, rfl, rfl, .inl rfl⟩
  cases step with
  | rejected | known | missing | cancelled | cleared | succeeded | answered | unanswered | gaveUp | notified
  | severed => exact .inl (kept found)
  | @added device checked absent =>
    rw [registration?, openCall, register, Table.get?_put] at found
    split at found
    · rename_i same
      cases found
      exact .inr ⟨rfl, same.symm, rfl, by simp [openCall, register], .inl ⟨same ▸ absent, rfl⟩⟩
    · exact .inl (kept found)
  | @replaced old device checked present differs =>
    rw [registration?, openCall, register, Table.get?_put] at found
    split at found
    · rename_i same
      cases found
      have length : (f.cancelTask old.task).tasks.length = f.tasks.length := List.length_modify ..
      refine .inr ⟨rfl, same.symm, length, ?_, .inr ⟨old, same ▸ present, differs, rfl⟩⟩
      simp [openCall, register, cancelTask]
    · exact .inl (kept found)
  | removed =>
    rw [registration?, openCall, sound.ascending.get?_erase] at found
    split at found
    · cases found
    · exact .inl (kept found)
  | stopped => cases found
  | @moved mover t m e there step =>
    rcases sound.absorb_registration? there e name with
      same | ⟨old, present, rfl, ⟨known, edit, noted⟩ | ⟨-, gone⟩⟩
    · exact .inl (kept (same.symm.trans found))
    · cases noted.symm.trans found
      exact .inl ⟨old, present, rfl, rfl, .inr ⟨t, m, e, there, step, edit⟩⟩
    · cases gone.symm.trans found

theorem entry_before (sound : Sound f) (ran : f.run moves = some g) (alone : ∀ move ∈ moves, ¬ move.Adds name)
    (found : g.registration? name = some entry) :
    ∃ old, f.registration? name = some old ∧ old.device = entry.device ∧ old.task = entry.task := by
  induction moves generalizing f with
  | nil => cases ran; exact ⟨entry, found, rfl, rfl⟩
  | cons move moves ih =>
    obtain ⟨middle, step, rest⟩ := run_cons ran
    obtain ⟨between, present, device, task⟩ :=
      ih (sound.step step) rest fun later member => alone later (List.mem_cons_of_mem _ member)
    rcases step.entry_parts sound present with ⟨old, first, sameDevice, sameTask, -⟩ | ⟨rfl, named, -⟩
    · exact ⟨old, first, sameDevice.trans device, sameTask.trans task⟩
    · exact absurd named (alone _ List.mem_cons_self)

theorem Step.created_carried (step : Step f (.add device) g) (there : g.tasks[f.tasks.length]? = some u) :
    u.carried = [] ∨ ∃ old, f.registration? device.name = some old ∧ u.carried = old.requests := by
  cases step with
  | rejected | known => exact absurd there (by simp [openCall])
  | added =>
    simp only [openCall, register, List.getElem?_concat_length, Option.some.injEq] at there
    subst there
    exact .inl rfl
  | @replaced old device checked found =>
    have length : (f.cancelTask old.task).tasks.length = f.tasks.length := List.length_modify ..
    simp only [openCall, register, ← length, List.getElem?_concat_length, Option.some.injEq] at there
    subst there
    exact .inr ⟨old, found, rfl⟩

structure Informed (f : Fleet) : Prop where
  tasks : ∀ (number : Nat) (t : Task), f.tasks[number]? = some t → t.Informed
  entries : ∀ {name entry}, f.registration? name = some entry → Request.Numbered Request.firstHandle entry.requests
  noted : ∀ {name entry t}, f.registration? name = some entry → f.tasks[entry.task]? = some t →
    t.answer = some (.ok ()) → t.Knows entry.requests
  asked : ∀ number fresh, .subscribe number fresh ∈ f.history →
    ∃ t, f.tasks[number]? = some t ∧ Request.ofDevice t.device = .ok fresh

namespace Informed

theorem entries_step (informed : Informed f) (sound : Sound f) (step : Step f move g)
    (found : g.registration? name = some entry) : Request.Numbered Request.firstHandle entry.requests := by
  rcases step.entry_parts sound found with
    ⟨old, present, -, -, same | ⟨t, m, e, there, step, edit⟩⟩ | ⟨-, -, -, -, ⟨-, empty⟩ | ⟨old, present, -, same⟩⟩
  · rw [← same]
    exact informed.entries present
  · have knowing := informed.tasks _ t there
    exact (step.record_knows knowing edit).numbered knowing.carried
  · rw [empty]
    exact Request.numbered_nil
  · rw [same]
    exact informed.entries present

theorem tasks_step (informed : Informed f) (step : Step f move g) (there : g.tasks[number]? = some u) :
    u.Informed := by
  rcases step.task_parts there with ⟨t, events, old, advance, -⟩ | ⟨device, carried, rfl, rfl, created, -⟩
  · exact (informed.tasks number t old).advance advance
  · have numbered : Request.Numbered Request.firstHandle u.carried := by
      rcases step.created_carried there with empty | ⟨old, present, same⟩
      · rw [empty]
        exact Request.numbered_nil
      · rw [same]
        exact informed.entries present
    rw [created] at numbered ⊢
    exact ⟨numbered, nofun, nofun⟩

theorem noted_step (informed : Informed f) (sound : Sound f) (step : Step f move g)
    (found : g.registration? name = some entry) (there : g.tasks[entry.task]? = some u)
    (answered : u.answer = some (.ok ())) : u.Knows entry.requests := by
  rcases step.entry_parts sound found with ⟨old, present, -, same, origin⟩ | ⟨-, -, -, created, -⟩
  · obtain ⟨t, before, -⟩ := sound.there present
    rw [← same] at there
    obtain ⟨u', after, turn⟩ := step.turn before
    cases there.symm.trans after
    have knowing := informed.tasks _ t before
    obtain ⟨events, advance⟩ := turn.advance
    refine Task.Knows.advance ?_ advance
    rcases origin with kept | ⟨t', m, e, before', own, edit⟩
    · rw [← kept]
      cases turn with
      | stepped own =>
        rcases own.answer_parts answered with earlier | ⟨known, edit⟩
        · exact informed.noted present before earlier
        · have noted := sound.records before present rfl edit
          cases noted.symm.trans found
          rw [kept]
          exact own.record_knows knowing edit
      | notified | severed | cancelled | kept => exact informed.noted present before answered
    · cases before.symm.trans before'
      exact own.record_knows knowing edit
  · cases created.symm.trans there
    cases answered

theorem asked_step (informed : Informed f) (step : Step f move g) (member : .subscribe number fresh ∈ g.history) :
    ∃ u, g.tasks[number]? = some u ∧ Request.ofDevice u.device = .ok fresh := by
  have old : .subscribe number fresh ∈ f.history → ∃ u, g.tasks[number]? = some u ∧ Request.ofDevice u.device = .ok fresh := by
    intro member
    obtain ⟨t, there, made⟩ := informed.asked number fresh member
    obtain ⟨u, events, present, advance, -⟩ := step.advances there
    exact ⟨u, present, advance.basis_eq.1 ▸ made⟩
  cases step with
  | @moved mover t move e there own =>
    rcases List.mem_append.mp member with earlier | now
    · exact old earlier
    · have bound := (List.getElem?_eq_some_iff.mp there).1
      cases own with
      | @connected fresh phase =>
        have made := (informed.tasks mover t there).asked fresh (by rw [phase]; rfl)
        simp at now
        obtain ⟨rfl, rfl⟩ := now
        exact ⟨_, List.getElem?_set_self bound, made⟩
      | _ => simp at now
  | _ => exact old member

theorem step (informed : Informed f) (sound : Sound f) (step : Step f move g) : Informed g :=
  ⟨fun _ _ => informed.tasks_step step, informed.entries_step sound step, informed.noted_step sound step,
    fun _ _ => informed.asked_step step⟩

end Informed

theorem Reached.informed (reached : Reached f) : Informed f := by
  refine reached.keeps ?_ fun reached informed => informed.step reached.sound
  intro settings buses
  refine ⟨?_, ?_, ?_, ?_⟩
  · intro number t there
    cases there
  · intro name entry found
    cases found
  · intro name entry t found
    cases found
  · intro number fresh member
    cases member

end Fleet
end FieldGateway.OpcUa
