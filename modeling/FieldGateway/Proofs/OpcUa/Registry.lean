import FieldGateway.Proofs.OpcUa.Moves

-- The registry and the tasks fit together: every entry names the task that was created with it,
-- and generations tell registrations apart. So a task can only reach its own entry, and a
-- registration stands until it is renewed, removed or has failed itself.
namespace FieldGateway.OpcUa

def Task.origin (t : Task) : Device × Nat := (t.device, t.generation)

theorem Task.Step.origin_eq {t : Task} (step : Task.Step number t move e) : e.task.origin = t.origin := by
  cases step <;> rfl

theorem RegistryEdit.apply_parts (edit : RegistryEdit) (name : Text) (generation : Nat) (entries : Table Entry) :
    edit.apply name generation entries = entries ∨
    ∃ entry, Table.get? name entries = some entry ∧ entry.generation = generation ∧
      ((∃ known, edit = .record known ∧
        edit.apply name generation entries = Table.put name { entry with requests := known } entries) ∨
      (edit = .forget ∧ edit.apply name generation entries = Table.erase name entries)) := by
  unfold apply
  split
  · rename_i known entry found
    split
    · rename_i same
      exact .inr ⟨entry, found, same, .inl ⟨known, rfl, rfl⟩⟩
    · exact .inl rfl
  · rename_i entry found
    split
    · rename_i same
      exact .inr ⟨entry, found, same, .inr ⟨rfl, rfl⟩⟩
    · exact .inl rfl
  · exact .inl rfl

theorem RegistryEdit.apply_forget (found : Table.get? name entries = some entry) :
    forget.apply name entry.generation entries = Table.erase name entries := by
  simp only [apply, found, if_true]

namespace Fleet

variable {f g : Fleet} {t : Task} {entry : Entry} {name : Text} {number : Nat}

def registration? (f : Fleet) (name : Text) : Option Entry := Table.get? name f.entries

def origins (f : Fleet) : List (Device × Nat) := f.tasks.map Task.origin

theorem origins_get? (there : f.tasks[number]? = some t) : f.origins[number]? = some t.origin := by
  simp [origins, there]

theorem origins_set (there : f.tasks[number]? = some t) (same : u.origin = t.origin) :
    (f.tasks.set number u).map Task.origin = f.origins := by
  obtain ⟨bound, value⟩ := List.getElem?_eq_some_iff.mp (origins_get? there)
  rw [List.map_set, same, ← value]
  exact List.set_getElem_self bound

theorem origins_cancelTask : (f.cancelTask number).origins = f.origins := by
  unfold origins cancelTask
  refine List.ext_getElem? fun n => ?_
  rw [List.getElem?_map, List.getElem?_map, List.getElem?_modify]
  cases f.tasks[n]? with
  | none => rfl
  | some t => by_cases same : number = n <;> simp [same, Task.cancel, Task.origin]

structure Sound (f : Fleet) : Prop where
  ascending : Table.Ascending f.entries
  named : ∀ {name entry}, f.registration? name = some entry → entry.device.name = name
  owned : ∀ {name entry}, f.registration? name = some entry →
    f.origins[entry.task]? = some (entry.device, entry.generation)
  numbered : ∀ origin ∈ f.origins, origin.2 < f.generation
  distinct : (f.origins.map Prod.snd).Nodup

namespace Sound

theorem congr (sound : Sound f) (entries : g.entries = f.entries) (origins : g.origins = f.origins)
    (generation : g.generation = f.generation) : Sound g := by
  obtain ⟨ascending, named, owned, numbered, distinct⟩ := sound
  unfold registration? at named owned
  rw [← entries] at ascending named owned
  rw [← origins] at owned numbered distinct
  rw [← generation] at numbered
  exact ⟨ascending, named, owned, numbered, distinct⟩

theorem idle (settings : Settings) (buses : List Bus) : Sound (.idle settings buses) := by
  refine ⟨.nil, ?_, ?_, ?_, List.nodup_nil⟩
  · intro name entry found
    cases found
  · intro name entry found
    cases found
  · intro origin member
    cases member

-- Generations are compared, and that is as good as comparing tasks.
theorem own_iff (sound : Sound f) (there : f.tasks[number]? = some t) (found : f.registration? name = some entry) :
    entry.generation = t.generation ↔ entry.task = number := by
  have mine := origins_get? there
  have its := sound.owned found
  constructor
  · intro same
    have bound : entry.task < (f.origins.map Prod.snd).length := by
      simpa using (List.getElem?_eq_some_iff.mp its).1
    refine (List.getElem?_inj bound sound.distinct).mp ?_
    simp [mine, its, same, Task.origin]
  · rintro rfl
    have equal : t.origin = (entry.device, entry.generation) := Option.some.inj (mine.symm.trans its)
    exact (congrArg Prod.snd equal).symm

theorem there (sound : Sound f) (found : f.registration? name = some entry) :
    ∃ t, f.tasks[entry.task]? = some t ∧ t.device = entry.device ∧ t.generation = entry.generation := by
  have origin := sound.owned found
  rw [origins, List.getElem?_map] at origin
  obtain ⟨t, there, equal⟩ := Option.map_eq_some_iff.mp origin
  exact ⟨t, there, congrArg Prod.fst equal, congrArg Prod.snd equal⟩

theorem erase (sound : Sound f) (key : Text) : Sound { f with entries := Table.erase key f.entries } := by
  have kept : ∀ {name entry}, Table.get? name (Table.erase key f.entries) = some entry →
      f.registration? name = some entry := by
    intro name entry found
    rw [sound.ascending.get?_erase] at found
    split at found
    · cases found
    · exact found
  exact ⟨sound.ascending.erase key, fun found => sound.named (kept found),
    fun found => sound.owned (kept found), sound.numbered, sound.distinct⟩

theorem clear (sound : Sound f) : Sound { f with entries := [] } := by
  refine ⟨.nil, ?_, ?_, sound.numbered, sound.distinct⟩
  · intro name entry found
    cases found
  · intro name entry found
    cases found

theorem record (sound : Sound f) (found : f.registration? name = some entry) (known : List Request) :
    Sound { f with entries := Table.put name { entry with requests := known } f.entries } := by
  have old : ∀ {key later}, Table.get? key (Table.put name { entry with requests := known } f.entries) =
      some later → ∃ before, f.registration? key = some before ∧ later.device = before.device ∧
        later.task = before.task ∧ later.generation = before.generation := by
    intro key later present
    rw [Table.get?_put] at present
    split at present
    · rename_i same
      cases present
      exact ⟨entry, same ▸ found, rfl, rfl, rfl⟩
    · exact ⟨later, present, rfl, rfl, rfl⟩
  refine ⟨sound.ascending.put _ _, ?_, ?_, sound.numbered, sound.distinct⟩
  · intro key later present
    obtain ⟨before, found, device, -, -⟩ := old present
    rw [device]
    exact sound.named found
  · intro key later present
    obtain ⟨before, found, device, task, generation⟩ := old present
    rw [device, task, generation]
    exact sound.owned found

theorem register (sound : Sound f) (device : Device) (carried : List Request) :
    Sound (f.register device carried) := by
  have origins : (f.register device carried).origins = f.origins ++ [(device, f.generation)] := by
    simp [Fleet.origins, Fleet.register, Task.create, Task.origin]
  have length : f.origins.length = f.tasks.length := List.length_map _
  refine ⟨sound.ascending.put _ _, ?_, ?_, ?_, ?_⟩
  · intro name entry found
    rw [registration?, Fleet.register, Table.get?_put] at found
    split at found
    · rename_i same
      cases found
      exact same.symm
    · exact sound.named found
  · intro name entry found
    rw [origins]
    rw [registration?, Fleet.register, Table.get?_put] at found
    split at found
    · cases found
      simp [← length]
    · have old := sound.owned found
      rwa [List.getElem?_append_left (List.getElem?_eq_some_iff.mp old).1]
  · intro origin member
    rw [origins] at member
    rcases List.mem_append.mp member with old | new
    · exact Nat.lt_succ_of_lt (sound.numbered origin old)
    · cases List.mem_singleton.mp new
      exact Nat.lt_succ_self _
  · rw [origins, List.map_append]
    refine List.nodup_append.mpr ⟨sound.distinct, List.pairwise_singleton _ _, ?_⟩
    intro old member new last equal
    obtain ⟨origin, present, rfl⟩ := List.mem_map.mp member
    cases List.mem_singleton.mp last
    exact Nat.ne_of_lt (sound.numbered origin present) equal

theorem absorb_registration? (sound : Sound f) (there : f.tasks[number]? = some t) (e : Effect) (name : Text) :
    (f.absorb number t e).registration? name = f.registration? name ∨
    ∃ entry, f.registration? name = some entry ∧ entry.task = number ∧
      ((∃ known, e.edit = .record known ∧
        (f.absorb number t e).registration? name = some { entry with requests := known }) ∨
      (e.edit = .forget ∧ (f.absorb number t e).registration? name = none)) := by
  rcases e.edit.apply_parts t.device.name t.generation f.entries with
    kept | ⟨entry, found, same, ⟨known, edit, result⟩ | ⟨edit, result⟩⟩
  · exact .inl (congrArg (Table.get? name) kept)
  · simp only [registration?, absorb, result, Table.get?_put]
    split
    · rename_i mine
      cases mine
      exact .inr ⟨entry, found, (sound.own_iff there found).mp same, .inl ⟨known, edit, rfl⟩⟩
    · exact .inl rfl
  · simp only [registration?, absorb, result, sound.ascending.get?_erase]
    split
    · rename_i mine
      cases mine
      exact .inr ⟨entry, found, (sound.own_iff there found).mp same, .inr ⟨edit, rfl⟩⟩
    · exact .inl rfl

theorem absorb (sound : Sound f) (there : f.tasks[number]? = some t) (same : e.task.origin = t.origin) :
    Sound (f.absorb number t e) := by
  have origins := origins_set there same
  rcases e.edit.apply_parts t.device.name t.generation f.entries with
    kept | ⟨entry, found, -, ⟨known, -, result⟩ | ⟨-, result⟩⟩
  · exact sound.congr kept origins rfl
  · exact (sound.record found known).congr result origins rfl
  · exact (sound.erase t.device.name).congr result origins rfl

theorem step (sound : Sound f) (step : Step f move g) : Sound g := by
  cases step with
  | rejected | known | missing | cleared | succeeded | answered | unanswered | gaveUp =>
    exact sound.congr rfl rfl rfl
  | @added device checked absent => exact (sound.register device []).congr rfl rfl rfl
  | @replaced entry device checked found differs =>
    have cancelled : Sound (f.cancelTask entry.task) := sound.congr rfl origins_cancelTask rfl
    exact (cancelled.register device entry.requests).congr rfl rfl rfl
  | @removed name => exact (sound.erase name).congr rfl rfl rfl
  | stopped => exact sound.clear.congr rfl rfl rfl
  | cancelled => exact sound.congr rfl origins_cancelTask rfl
  | moved there step => exact sound.absorb there step.origin_eq
  | notified there => exact sound.congr rfl (origins_set there rfl) rfl
  | severed there => exact sound.congr rfl (origins_set there rfl) rfl

end Sound

theorem Reached.sound (reached : Reached f) : Sound f := reached.keeps Sound.idle fun _ => Sound.step

end Fleet
end FieldGateway.OpcUa
