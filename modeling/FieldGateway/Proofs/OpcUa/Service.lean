import FieldGateway.Proofs.OpcUa.Custody
import FieldGateway.Proofs.OpcUa.Settling

-- What the registry names is being served: the task of an entry is never cancelled, and once the
-- tasks have gone as far as they can, it waits for its server. The one exception is a task whose
-- server has closed the subscription. It ends, and its entry stays.
namespace FieldGateway.OpcUa

namespace Task

-- A task that nobody has cancelled and that only stops serving when its server has hung up.
structure Attends (t : Task) : Prop where
  uncancelled : t.cancelled = false
  closing : t.phase = .closing → t.severed = true
  ended : t.hasEnded = true → t.severed = true

theorem attends_create (device : Device) (carried : List Request) (generation : Nat) :
    (create device carried generation).Attends := ⟨rfl, nofun, nofun⟩

theorem Attends.step {t : Task} (attends : t.Attends) (step : Step number t move e) (kept : e.edit ≠ .forget) :
    e.task.Attends := by
  have uncancelled := attends.uncancelled
  cases step with
  | dropped cancelled | withdrawn phase cancelled => rw [uncancelled] at cancelled; cases cancelled
  | forgotten => exact absurd rfl kept
  | finished phase => exact ⟨uncancelled, nofun, fun _ => attends.closing phase⟩
  | hungUp phase inbox severed => exact ⟨uncancelled, fun _ => severed, nofun⟩
  | misplanned | began | connected | refused | subscribed | unsubscribed | abandoned | recorded | looked | rested =>
    exact ⟨uncancelled, nofun, nofun⟩
  | @read known notification =>
    refine ⟨uncancelled, ?_, ?_⟩ <;> cases notification.items <;> exact nofun
  | @forwarded known next rest =>
    refine ⟨uncancelled, ?_, ?_⟩ <;> cases rest <;> exact nofun

end Task

def Call.Consistent : Call → Prop
  | clearing uncancelled tasks => ∀ task ∈ uncancelled, task ∈ tasks
  | replacing _ _ | waiting _ | returned _ => True

namespace Fleet

variable {f g : Fleet} {t u : Task} {entry : Entry} {name : Text} {number call : Nat}

theorem Sound.owns_unique (sound : Sound f) (owns : f.Owns name number) (again : f.Owns other number) :
    name = other := by
  obtain ⟨entry, found, rfl⟩ := owns
  obtain ⟨entry', found', same⟩ := again
  have origin := sound.owned found
  have origin' := sound.owned found'
  rw [same, origin] at origin'
  have devices : entry.device = entry'.device := congrArg Prod.fst (Option.some.inj origin')
  rw [← sound.named found, ← sound.named found', devices]

theorem Sound.owns_lt (sound : Sound f) (owns : f.Owns name number) : number < f.tasks.length := by
  obtain ⟨entry, found, rfl⟩ := owns
  obtain ⟨t, there, -⟩ := sound.there found
  exact (List.getElem?_eq_some_iff.mp there).1

theorem Sound.forgets (sound : Sound f) (there : f.tasks[number]? = some t) (owns : f.Owns name number)
    (edit : e.edit = .forget) : ¬ (f.absorb number t e).Owns name number := by
  obtain ⟨entry, found, rfl⟩ := owns
  obtain ⟨t', there', device, generation⟩ := sound.there found
  cases there.symm.trans there'
  have own : t.device.name = name := by rw [device, sound.named found]
  have erased : e.edit.apply t.device.name t.generation f.entries = Table.erase name f.entries := by
    rw [edit, own, generation]
    exact RegistryEdit.apply_forget found
  rintro ⟨entry', found', -⟩
  rw [registration?, Fleet.absorb, erased, sound.ascending.get?_erase, if_pos rfl] at found'
  cases found'

structure Tended (f : Fleet) : Prop where
  consistent : ∀ c ∈ f.calls, c.Consistent
  existing : ∀ {call number}, f.Holds call number → number < f.tasks.length
  apart : ∀ {name call number}, f.Owns name number → ¬ f.Holds call number
  attends : ∀ {name number}, f.Owns name number → ∃ t, f.tasks[number]? = some t ∧ t.Attends

theorem Step.consistent (step : Step f move g) (consistent : ∀ c ∈ f.calls, c.Consistent) :
    ∀ c ∈ g.calls, c.Consistent := by
  have opened : ∀ {c : Call}, c.Consistent → ∀ c' ∈ f.calls ++ [c], c'.Consistent := fun fine =>
    List.forall_mem_append.mpr ⟨consistent, List.forall_mem_singleton.mpr fine⟩
  cases step with
  | rejected | added | known | replaced | missing => exact opened trivial
  | removed | stopped => exact opened fun task member => member
  | cancelled clearing =>
    have fine := consistent _ (List.mem_of_getElem? clearing)
    exact forall_calls_set consistent fun task member => fine task (List.mem_of_mem_erase member)
  | cleared | succeeded | answered | unanswered | gaveUp => exact forall_calls_set consistent trivial
  | moved | notified | severed => exact consistent

theorem Step.owned_before (step : Step f move g) (sound : Sound f) (owns : g.Owns name number) :
    f.Owns name number ∨ number = f.tasks.length := by
  obtain ⟨entry, found, rfl⟩ := owns
  cases step with
  | rejected | known | missing | cancelled | cleared | succeeded | answered | unanswered | gaveUp | notified
  | severed => exact .inl ⟨entry, found, rfl⟩
  | added =>
    rw [registration?, openCall, register, Table.get?_put] at found
    split at found
    · cases found
      exact .inr rfl
    · exact .inl ⟨entry, found, rfl⟩
  | replaced =>
    rw [registration?, openCall, register, Table.get?_put] at found
    split at found
    · cases found
      exact .inr (List.length_modify ..)
    · exact .inl ⟨entry, found, rfl⟩
  | removed =>
    rw [registration?, openCall, sound.ascending.get?_erase] at found
    split at found
    · cases found
    · exact .inl ⟨entry, found, rfl⟩
  | stopped => cases found
  | @moved mover t move e there step =>
    rcases sound.absorb_registration? there e name with
      same | ⟨old, present, own, ⟨known, -, noted⟩ | ⟨-, gone⟩⟩
    · exact .inl ⟨entry, same.symm.trans found, rfl⟩
    · cases noted.symm.trans found
      exact .inl ⟨old, present, rfl⟩
    · cases gone.symm.trans found

theorem Holds.of_openCall (holds : g.Holds call number) (calls : g.calls = f.calls ++ [c]) :
    f.Holds call number ∨ number ∈ c.held := by
  obtain ⟨c', there, member⟩ := holds
  rw [calls, List.getElem?_append] at there
  split at there
  · exact .inl ⟨c', there, member⟩
  · cases List.mem_singleton.mp (List.mem_of_getElem? there)
    exact .inr member

theorem Holds.of_setCall (holds : g.Holds call number) (calls : g.calls = f.calls.set mover new)
    (mine : f.calls[mover]? = some old) (kept : number ∈ new.held → number ∈ old.held) : f.Holds call number := by
  obtain ⟨c, there, member⟩ := holds
  rw [calls, List.getElem?_set] at there
  split at there
  · rename_i same
    cases same
    split at there
    · cases there
      exact ⟨old, mine, kept member⟩
    · cases there
  · exact ⟨c, there, member⟩

theorem Step.held_before (step : Step f move g) (sound : Sound f) (holds : g.Holds call number) :
    f.Holds call number ∨ ∃ name, f.Owns name number ∧ ¬ g.Owns name number := by
  cases step with
  | rejected | known | missing | added =>
    exact .inl ((holds.of_openCall rfl).resolve_right List.not_mem_nil)
  | @replaced entry device checked found =>
    refine (holds.of_openCall rfl).imp_right fun member => ?_
    cases List.mem_singleton.mp member
    have owns : f.Owns device.name entry.task := ⟨entry, found, rfl⟩
    refine ⟨device.name, owns, ?_⟩
    rintro ⟨later, present, same⟩
    rw [registration?, openCall, register, Table.get?_put, if_pos rfl] at present
    cases present
    have bound := sound.owns_lt owns
    rw [← same] at bound
    exact absurd bound (by simp [cancelTask])
  | @removed name entry found =>
    refine (holds.of_openCall rfl).imp_right fun member => ?_
    cases List.mem_singleton.mp member
    refine ⟨name, ⟨entry, found, rfl⟩, ?_⟩
    rintro ⟨later, present, -⟩
    rw [registration?, openCall, sound.ascending.get?_erase, if_pos rfl] at present
    cases present
  | stopped =>
    refine (holds.of_openCall rfl).imp_right fun member => ?_
    obtain ⟨⟨name, entry⟩, present, rfl⟩ := List.mem_map.mp member
    refine ⟨name, ⟨entry, sound.ascending.get?_eq_some_iff.mpr present, rfl⟩, ?_⟩
    rintro ⟨later, present, -⟩
    cases present
  | cancelled clearing => exact .inl (holds.of_setCall rfl clearing id)
  | cleared clearing => exact .inl (holds.of_setCall rfl clearing fun member => absurd member List.not_mem_nil)
  | succeeded replacing => exact .inl (holds.of_setCall rfl replacing fun member => absurd member List.not_mem_nil)
  | answered waiting | unanswered waiting | gaveUp waiting => exact .inl (holds.of_setCall rfl waiting id)
  | moved | notified | severed => exact .inl (holds.congr rfl)

-- The task of an entry that stays keeps attending to its device.
theorem Tended.keeps (tended : Tended f) (sound : Sound f) (step : Step f move g) (owned : f.Owns name number)
    (owns : g.Owns name number) (apart : ∀ call, ¬ g.Holds call number) :
    ∃ u, g.tasks[number]? = some u ∧ u.Attends := by
  obtain ⟨t, there, attends⟩ := tended.attends owned
  have bound := (List.getElem?_eq_some_iff.mp there).1
  have spared : ∀ {task}, task ≠ number → (f.tasks.modify task Task.cancel)[number]? = some t :=
    fun different => (List.getElem?_modify_ne _ _ different).trans there
  cases step with
  | rejected | known | missing | removed | stopped | cleared | succeeded | answered | unanswered | gaveUp =>
    exact ⟨t, there, attends⟩
  | added => exact ⟨t, (List.getElem?_append_left bound).trans there, attends⟩
  | @replaced entry device =>
    have different : entry.task ≠ number := by
      rintro rfl
      exact apart f.calls.length (holds_opened rfl List.mem_cons_self)
    refine ⟨t, ?_, attends⟩
    rw [← spared different]
    exact List.getElem?_append_left (by simpa [cancelTask] using bound)
  | @cancelled call uncancelled task held clearing member =>
    have different : task ≠ number := by
      rintro rfl
      have mine := tended.consistent _ (List.mem_of_getElem? clearing) task member
      have length := (List.getElem?_eq_some_iff.mp clearing).1
      exact apart call ⟨_, List.getElem?_set_self length, mine⟩
    exact ⟨t, spared different, attends⟩
  | @moved mover old move e mine step =>
    by_cases same : mover = number
    · cases same
      cases there.symm.trans mine
      have kept : e.edit ≠ .forget := fun edit => sound.forgets there owned edit owns
      exact ⟨e.task, List.getElem?_set_self bound, attends.step step kept⟩
    · exact ⟨t, (List.getElem?_set_ne same).trans there, attends⟩
  | @notified mover old notification mine =>
    by_cases same : mover = number
    · cases same
      cases there.symm.trans mine
      exact ⟨_, List.getElem?_set_self bound, attends.uncancelled, attends.closing, attends.ended⟩
    · exact ⟨t, (List.getElem?_set_ne same).trans there, attends⟩
  | @severed mover old mine =>
    by_cases same : mover = number
    · cases same
      cases there.symm.trans mine
      exact ⟨_, List.getElem?_set_self bound, attends.uncancelled, fun _ => rfl, fun _ => rfl⟩
    · exact ⟨t, (List.getElem?_set_ne same).trans there, attends⟩

theorem Tended.step (tended : Tended f) (sound : Sound f) (step : Step f move g) : Tended g := by
  have apart : ∀ {name call number}, g.Owns name number → ¬ g.Holds call number := by
    intro name call number owns holds
    rcases step.held_before sound holds with held | ⟨taken, owned, gone⟩
    · rcases step.owned_before sound owns with owned | rfl
      · exact tended.apart owned held
      · exact Nat.lt_irrefl _ (tended.existing held)
    · rcases step.owned_before sound owns with still | rfl
      · cases sound.owns_unique still owned
        exact gone owns
      · exact Nat.lt_irrefl _ (sound.owns_lt owned)
  refine ⟨step.consistent tended.consistent, ?_, apart, ?_⟩
  · intro call number holds
    refine Nat.lt_of_lt_of_le ?_ step.length_le
    rcases step.held_before sound holds with held | ⟨name, owned, -⟩
    · exact tended.existing held
    · exact sound.owns_lt owned
  · intro name number owns
    rcases step.owned_before sound owns with owned | rfl
    · exact tended.keeps sound step owned owns fun call => apart owns
    · have there := List.getElem?_eq_getElem ((sound.step step).owns_lt owns)
      obtain ⟨device, carried, -, -, created, -⟩ := step.creates there (List.getElem?_eq_none (Nat.le_refl _))
      rw [created] at there
      exact ⟨_, there, Task.attends_create ..⟩

theorem Reached.tended (reached : Reached f) : Tended f := by
  refine reached.keeps ?_ fun reached tended => tended.step reached.sound
  intro settings buses
  refine ⟨List.forall_mem_nil _, ?_, ?_, ?_⟩
  · rintro call number ⟨c, there, -⟩
    cases there
  · rintro name call number ⟨entry, found, -⟩
    cases found
  · rintro name number ⟨entry, found, -⟩
    cases found

-- Once the tasks have gone as far as they can, the task of every registered device is still on
-- its way to the server or reads what the server sends, unless the server has hung up. To
-- register the device again as it is changes nothing in this.
theorem registered_served (reached : Reached f) (settled : f.Settled) (found : f.registration? name = some entry) :
    (∃ t, f.tasks[entry.task]? = some t ∧ t.device = entry.device ∧ entry.device.name = name ∧
      (t.cancelled = false ∧ t.Served ∨ t.hasEnded = true ∧ t.severed = true)) ∧
    ∀ device, device.name = name → device.driverType = driverType → (entry.device == device) = true →
      f.apply (.add device) = some (f.openCall (.returned (.ok ()))) := by
  constructor
  · obtain ⟨t, there, device, -⟩ := reached.sound.there found
    refine ⟨t, there, device, reached.sound.named found, ?_⟩
    obtain ⟨t', there', attends⟩ := reached.tended.attends ⟨entry, found, rfl⟩
    cases there.symm.trans there'
    rcases (settled entry.task t there).cases with ended | served
    · exact .inr ⟨ended, attends.ended ended⟩
    · exact .inl served
  · rintro device rfl accepted same
    have added : f.add device = f.openCall (.returned (.ok ())) := by
      unfold registration? at found
      simp [add, checkDriver_ok_iff.mpr accepted, found, same]
    exact congrArg some added

theorem registered_served_reading :
    ∃ f entry, (idle unsecured []).run [.add (boilerAt "a"), .task 0 .begin, .task 0 .connected,
        .task 0 .subscribed, .task 0 .record, .task 0 .look] = some f ∧
      f.registration? "boiler" = some entry ∧ f.hasEnded 0 = false ∧
      ∃ t, f.tasks[0]? = some t ∧ t.cancelled = false ∧ t.Served := by
  obtain ⟨f, t, entry, known, ran, tasks, found, mine, phase, inbox, unsevered, uncancelled⟩ :
      ∃ f t entry known, (idle unsecured []).run [.add (boilerAt "a"), .task 0 .begin, .task 0 .connected,
        .task 0 .subscribed, .task 0 .record, .task 0 .look] = some f ∧ f.tasks = [t] ∧
      f.registration? "boiler" = some entry ∧ entry.task = 0 ∧ t.phase = .reading known ∧ t.inbox = [] ∧
      t.severed = false ∧ t.cancelled = false := ⟨_, _, _, _, rfl, rfl, rfl, rfl, rfl, rfl, rfl, rfl⟩
  have served : t.Served := .subscribed phase inbox unsevered
  have settled : f.Settled := settled_of_single tasks fun _ => served.waits uncancelled
  obtain ⟨t', there, -, -, kept | ⟨-, severed⟩⟩ := (registered_served ⟨_, _, _, ran⟩ settled found).1
  · rw [mine] at there
    exact ⟨f, entry, ran, found, by simp [hasEnded, tasks, Task.hasEnded, phase, Phase.isEnded], t', there, kept⟩
  · rw [tasks] at there
    cases List.mem_singleton.mp (List.mem_of_getElem? there)
    rw [unsevered] at severed
    cases severed

-- The server closes the subscription. The task ends, the device stays registered, and to
-- register it again as it is starts no other task.
theorem severed_unserved :
    ∃ f g, (idle unsecured []).run [.add (boilerAt "a"), .task 0 .begin, .task 0 .connected,
        .task 0 .subscribed, .task 0 .record, .answered 0, .task 0 .look, .sever 0, .task 0 .hangUp,
        .task 0 .sessionClosed] = some f ∧
      f.Settled ∧ f.hasEnded 0 = true ∧ (f.registration? "boiler").map Entry.task = some 0 ∧
      f.run [.add (boilerAt "a")] = some g ∧ g.result? 1 = some (.ok ()) ∧
      g.tasks = f.tasks ∧ (g.registration? "boiler").map Entry.task = some 0 := by
  obtain ⟨f, g, t, ran, tasks, ended, found, again, returned, unchanged, still⟩ : ∃ f g t,
      (idle unsecured []).run [.add (boilerAt "a"), .task 0 .begin, .task 0 .connected,
        .task 0 .subscribed, .task 0 .record, .answered 0, .task 0 .look, .sever 0, .task 0 .hangUp,
        .task 0 .sessionClosed] = some f ∧
      f.tasks = [t] ∧ t.hasEnded = true ∧ (f.registration? "boiler").map Entry.task = some 0 ∧
      f.run [.add (boilerAt "a")] = some g ∧ g.result? 1 = some (.ok ()) ∧
      g.tasks = f.tasks ∧ (g.registration? "boiler").map Entry.task = some 0 :=
    ⟨_, _, _, rfl, rfl, rfl, rfl, rfl, rfl, rfl, rfl⟩
  have settled : f.Settled := settled_of_single tasks fun _ => Task.waits_of_hasEnded ended
  exact ⟨f, g, ran, settled, by simp [hasEnded, tasks, ended], found, again, returned, unchanged, still⟩

end Fleet
end FieldGateway.OpcUa
