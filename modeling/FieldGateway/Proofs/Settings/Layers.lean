import FieldGateway.Proofs.Settings.Environment

-- What the layers settle: a setting is what its variable says, or else what the file says, or
-- else its standard value.
namespace FieldGateway.Settings
open Setting (Flat Over at? assign placed apply Apart Layer)

def Nested (found : Option Setting) : Prop := ∃ value, found = some value ∧ ¬ value.Flat

namespace Field

variable {α : Type} {f : Field α} {root value : Setting} {key : Text} {layer : Layer}

-- No key leads into the group as into a list. One that does takes a list for what is a table for
-- all others.
def Placeless (f : Field α) (keys : List Text) : Prop :=
  ∀ key ∈ keys, ∀ place rest, Setting.path key ≠ .key f.group :: .item place :: rest

def Outlasts (f : Field α) (root : Setting) (keys : List Text) : Prop :=
  (∀ key ∈ keys, Setting.path key ≠ [.key f.group]) ∧
    ((Settings.group f.group root).items = [] ∨ ∀ key ∈ keys, ∀ rest, Setting.path key ≠ .key f.group :: rest)

inductive Meets (f : Field α) (key : Text) : Prop where
  | apart (apart : Apart (Setting.path key) f.path)
  | own (same : key = f.key)
  | beyond {step : Setting.Step} {rest : List Setting.Step} (within : Setting.path key = f.path ++ step :: rest)
  | whole (whole : Setting.path key = [.key f.group])

theorem meets (placeless : ∀ place rest, Setting.path key ≠ .key f.group :: .item place :: rest) : f.Meets key := by
  obtain ⟨group, rest, split⟩ := Setting.path_cons key
  by_cases same : group = f.group
  · subst same
    match rest, split with
    | [], split => exact .whole split
    | .item place :: rest, split => exact absurd split (placeless place rest)
    | .key name :: below, split =>
      by_cases own : name = f.name
      · subst own
        obtain ⟨tail, text, ends⟩ := Setting.path_parts split
        cases below with
        | nil =>
          rw [ends.mpr rfl, List.append_nil] at text
          exact .own text
        | cons step below => exact .beyond split
      · refine .apart ?_
        rw [split]
        exact .deeper (.here own)
  · refine .apart ?_
    rw [split]
    exact .here same

theorem path_own (f : Field α) : Setting.path f.key = f.path := f.path_key

theorem at?_assign_within (f : Field α) (value : Setting) (rest : List Setting.Step) (root : Setting) :
    at? f.path (assign value (f.path ++ rest) root) = some (placed value rest (at? f.path root)) :=
  Setting.at?_placed [f.group, f.name] value rest (some root)

theorem at?_assign_own (flat : value.Flat) (root : Setting) :
    at? f.path (assign value (Setting.path f.key) root) = some value := by
  have within := at?_assign_within f value [] root
  rw [path_own]
  rwa [List.append_nil, flat.placed] at within

theorem at?_assign_whole (flat : value.Flat) (whole : Setting.path key = [.key f.group]) (root : Setting) :
    at? f.path (assign value (Setting.path key) root) = none := by
  rw [whole, at?_path, group_assign, if_pos rfl, flat.placed, flat.entries]
  rfl

-- A layer without the key of a setting leaves it, or takes the whole group away from it, or
-- buries it under keys that go on from it.
theorem at?_apply_absent (flat : ∀ entry ∈ layer, entry.2.Flat) (placeless : f.Placeless (Table.names layer))
    (absent : ∀ entry ∈ layer, entry.1 ≠ f.key) :
    at? f.path (apply root layer) = at? f.path root ∨
      (at? f.path (apply root layer) = none ∧ ∃ entry ∈ layer, Setting.path entry.1 = [.key f.group]) ∨
      Nested (at? f.path (apply root layer)) := by
  induction layer generalizing root with
  | nil => exact .inl rfl
  | cons entry layer ih =>
    obtain ⟨key, value⟩ := entry
    rw [Setting.apply_cons]
    have later := @ih (assign value (Setting.path key) root) (fun entry member => flat entry (List.mem_cons_of_mem _ member))
      (fun key member => placeless key (List.mem_cons_of_mem _ member))
      fun entry member => absent entry (List.mem_cons_of_mem _ member)
    rcases later with same | ⟨none, entry, member, whole⟩ | nested
    · rw [same]
      cases meets (placeless key List.mem_cons_self) with
      | apart apart => exact .inl (Setting.at?_assign_apart apart value root)
      | own own => exact absurd own (absent _ List.mem_cons_self)
      | beyond within =>
        rw [within, at?_assign_within]
        exact .inr (.inr ⟨_, rfl, Setting.placed_nested _ _ _ _⟩)
      | whole whole =>
        exact .inr (.inl ⟨at?_assign_whole (flat _ List.mem_cons_self) whole root, _, List.mem_cons_self, whole⟩)
    · exact .inr (.inl ⟨none, entry, List.mem_cons_of_mem _ member, whole⟩)
    · exact .inr (.inr nested)

theorem apply_split (root : Setting) (before after : Layer) (key : Text) (value : Setting) :
    apply root (before ++ (key, value) :: after) = apply (assign value (Setting.path key) (apply root before)) after := by
  unfold apply
  rw [List.foldl_append]
  rfl

theorem Placeless.mono {keys fewer : List Text} (placeless : f.Placeless keys) (subset : fewer ⊆ keys) : f.Placeless fewer :=
  fun key member => placeless key (subset member)

theorem at?_apply_own (distinct : (Table.names layer).Nodup) (flat : ∀ entry ∈ layer, entry.2.Flat)
    (placeless : f.Placeless (Table.names layer)) (own : (f.key, value) ∈ layer) :
    at? f.path (apply root layer) = some value ∨
      (at? f.path (apply root layer) = none ∧ ∃ entry ∈ layer, Setting.path entry.1 = [.key f.group]) ∨
      Nested (at? f.path (apply root layer)) := by
  obtain ⟨before, after, rfl⟩ := List.append_of_mem own
  have mine : value.Flat := flat (f.key, value) (by simp)
  have others : f.key ∉ Table.names after := by
    rw [Table.names, List.map_append] at distinct
    exact (List.nodup_cons.mp (List.nodup_append.mp distinct).2.1).1
  have rest := @at?_apply_absent α f (assign value (Setting.path f.key) (apply root before)) after
    (fun entry member => flat entry (by simp [member])) (placeless.mono (by simp [Table.names]))
    fun entry member same => others (same ▸ List.mem_map_of_mem member)
  rw [at?_assign_own mine] at rest
  rw [apply_split]
  rcases rest with same | ⟨none, entry, member, whole⟩ | nested
  · exact .inl same
  · exact .inr (.inl ⟨none, entry, by simp [member], whole⟩)
  · exact .inr (.inr nested)

theorem at?_apply_whole (flat : ∀ entry ∈ layer, entry.2.Flat) (placeless : f.Placeless (Table.names layer))
    (absent : ∀ entry ∈ layer, entry.1 ≠ f.key) (taken : ∃ entry ∈ layer, Setting.path entry.1 = [.key f.group]) :
    at? f.path (apply root layer) = none ∨ Nested (at? f.path (apply root layer)) := by
  obtain ⟨⟨key, value⟩, member, whole⟩ := taken
  obtain ⟨before, after, rfl⟩ := List.append_of_mem member
  have rest := @at?_apply_absent α f (assign value (Setting.path key) (apply root before)) after
    (fun entry member => flat entry (by simp [member])) (placeless.mono (by simp [Table.names]))
    fun entry member => absent entry (by simp [member])
  rw [at?_assign_whole (flat _ member) whole] at rest
  rw [apply_split]
  rcases rest with none | ⟨none, _⟩ | nested
  · exact .inl none
  · exact .inl none
  · exact .inr nested

theorem items_assign (flat : value.Flat) (placeless : ∀ place rest, Setting.path key ≠ .key f.group :: .item place :: rest)
    (entered : Setting.path key = .key f.group :: rest) (root : Setting) :
    (Settings.group f.group (assign value (Setting.path key) root)).items = [] := by
  rw [entered, group_assign, if_pos rfl]
  match rest, entered with
  | [], _ => rw [flat.placed, flat.items]
  | .item place :: rest, entered => exact absurd entered (placeless place rest)
  | .key name :: rest, _ =>
    rw [Setting.placed_cons, Setting.assign_key]
    rfl

theorem items_apply (flat : ∀ entry ∈ layer, entry.2.Flat) (placeless : f.Placeless (Table.names layer))
    (listless : (Settings.group f.group root).items = [] ∨
      ∃ entry ∈ layer, ∃ rest, Setting.path entry.1 = .key f.group :: rest) :
    (Settings.group f.group (apply root layer)).items = [] := by
  induction layer generalizing root with
  | nil =>
    rcases listless with before | ⟨_, member, _⟩
    · exact before
    · cases member
  | cons entry layer ih =>
    obtain ⟨key, value⟩ := entry
    rw [Setting.apply_cons]
    refine ih (fun entry member => flat entry (List.mem_cons_of_mem _ member))
      (fun key member => placeless key (List.mem_cons_of_mem _ member)) ?_
    obtain ⟨group, rest, split⟩ := Setting.path_cons key
    by_cases same : group = f.group
    · subst same
      exact .inl (items_assign (flat _ List.mem_cons_self) (placeless key List.mem_cons_self) split root)
    · rcases listless with before | ⟨entry, member, rest, entered⟩
      · left
        rwa [split, group_assign, if_neg (Ne.symm same)]
      · rcases List.mem_cons.mp member with rfl | later
        · rw [split] at entered
          cases entered
          exact absurd rfl same
        · exact .inr ⟨entry, later, rest, entered⟩

theorem group_apply (elsewhere : ∀ entry ∈ layer, ∀ rest, Setting.path entry.1 ≠ .key f.group :: rest) :
    Settings.group f.group (apply root layer) = Settings.group f.group root := by
  induction layer generalizing root with
  | nil => rfl
  | cons entry layer ih =>
    obtain ⟨key, value⟩ := entry
    obtain ⟨group, rest, split⟩ := Setting.path_cons key
    have other : f.group ≠ group := by
      rintro rfl
      exact elsewhere _ List.mem_cons_self rest split
    rw [Setting.apply_cons, ih fun entry member => elsewhere entry (List.mem_cons_of_mem _ member), split,
      group_assign, if_neg other]

theorem said_listless (listless : (Settings.group f.group root).items = []) : f.said root = at? f.path root := by
  rw [said_eq, listless]
  rfl

theorem said_apply_own (distinct : (Table.names layer).Nodup) (flat : ∀ entry ∈ layer, entry.2.Flat)
    (placeless : f.Placeless (Table.names layer)) (own : (f.key, value) ∈ layer) :
    f.said (apply root layer) = some value ∨
      (f.said (apply root layer) = none ∧ ∃ entry ∈ layer, Setting.path entry.1 = [.key f.group]) ∨
      Nested (f.said (apply root layer)) := by
  have listless : (Settings.group f.group (apply root layer)).items = [] :=
    items_apply flat placeless (.inr ⟨_, own, _, path_own f⟩)
  rw [said_listless listless]
  exact at?_apply_own distinct flat placeless own

theorem said_apply_outlasts (flat : ∀ entry ∈ layer, entry.2.Flat) (placeless : f.Placeless (Table.names layer))
    (absent : ∀ entry ∈ layer, entry.1 ≠ f.key) (outlasts : f.Outlasts root (Table.names layer)) :
    f.said (apply root layer) = f.said root ∨ Nested (f.said (apply root layer)) := by
  obtain ⟨parts, listless | elsewhere⟩ := outlasts
  · rw [said_listless (items_apply flat placeless (.inl listless)), said_listless listless]
    rcases at?_apply_absent flat placeless absent with same | ⟨_, entry, member, whole⟩ | nested
    · exact .inl same
    · exact absurd whole (parts _ (List.mem_map_of_mem member))
    · exact .inr nested
  · left
    rw [said, group_apply fun entry member => elsewhere _ (List.mem_map_of_mem member)]
    rfl

theorem entries_of_items {group : Setting} (listed : group.items ≠ []) : group.entries = [] := by
  cases group with
  | list items => rfl
  | _ => exact absurd rfl listed

theorem lost_parts (lost : ¬ f.Outlasts root (Table.names layer)) :
    (∃ entry ∈ layer, Setting.path entry.1 = [.key f.group]) ∨
      ((Settings.group f.group root).items ≠ [] ∧ ∃ entry ∈ layer, ∃ rest, Setting.path entry.1 = .key f.group :: rest) := by
  by_cases taken : ∃ entry ∈ layer, Setting.path entry.1 = [.key f.group]
  · exact .inl taken
  · have parts : ∀ key ∈ Table.names layer, Setting.path key ≠ [.key f.group] := by
      intro key member whole
      obtain ⟨entry, inside, rfl⟩ := List.mem_map.mp member
      exact taken ⟨entry, inside, whole⟩
    obtain ⟨listed, entered⟩ := not_or.mp fun either => lost ⟨parts, either⟩
    push Not at entered
    obtain ⟨key, member, rest, split⟩ := entered
    obtain ⟨entry, inside, rfl⟩ := List.mem_map.mp member
    exact .inr ⟨listed, entry, inside, rest, split⟩

theorem said_apply_lost (flat : ∀ entry ∈ layer, entry.2.Flat) (placeless : f.Placeless (Table.names layer))
    (absent : ∀ entry ∈ layer, entry.1 ≠ f.key) (lost : ¬ f.Outlasts root (Table.names layer)) :
    f.said (apply root layer) = none ∨ Nested (f.said (apply root layer)) := by
  rcases lost_parts lost with ⟨entry, member, whole⟩ | ⟨listed, entered⟩
  · rw [said_listless (items_apply flat placeless (.inr ⟨entry, member, _, whole⟩))]
    exact at?_apply_whole flat placeless absent ⟨entry, member, whole⟩
  · have nothing : at? f.path root = none := by
      rw [at?_path, entries_of_items listed]
      rfl
    rw [said_listless (items_apply flat placeless (.inr entered))]
    rcases at?_apply_absent flat placeless absent with same | ⟨none, _⟩ | nested
    · exact .inl (same.trans nothing)
    · exact .inl none
    · exact .inr nested

end Field

def fileLayer? (disk : Disk) : Option Text → Option Layer
  | some file => Setting.fileLayer disk file
  | none => some []

-- The settings that can be loaded, each with the tree that the file makes by itself. In what order
-- a layer makes its assignments is left open.
inductive Loads (disk : Disk) (file : Option Text) (start : Text) (environment : Environment) : Setting → Settings → Prop where
  | intro (known : fileLayer? disk file = some given) (filed : layer.Perm given)
      (set : above.Perm (environment.layer start))
      (read : ofSetting? (.ofLayers [standardLayer, layer, above]) = some s) :
      Loads disk file start environment (.ofLayers [layer]) s

variable {disk : Disk} {file : Option Text} {start : Text} {environment : Environment} {s : Settings} {tree : Setting}

theorem load_loads (loaded : load disk file (some start) environment = some s) :
    ∃ tree, Loads disk file start environment tree s := by
  unfold load at loaded
  simp only at loaded
  split at loaded
  · cases loaded
  · rename_i layer known
    exact ⟨_, .intro known (.refl _) (.refl _) loaded⟩

namespace Field

variable {α : Type} {f : Field α}

theorem settled (loads : Loads disk file start environment tree s) (placeless : f.Placeless (environment.keys start)) :
    (∀ text, environment.given? start f.key = some text → f.decode (Environment.setting text) = some (f.get s) ∨
      (f.get s = f.get standard ∧ ∃ key ∈ environment.keys start, Setting.path key = [.key f.group])) ∧
    (environment.given? start f.key = none →
      (f.Outlasts tree (environment.keys start) → f.reading (f.said tree) = some (f.get s)) ∧
      (¬ f.Outlasts tree (environment.keys start) → f.get s = f.get standard)) := by
  obtain @⟨given, layer, above, _, known, filed, set, decoded⟩ := loads
  have laid := f.laid_standard layer
  have flat : ∀ entry ∈ above, entry.2.Flat := fun _ member => Environment.layer_flat (set.mem_iff.mp member)
  have distinct : (Table.names above).Nodup := (set.map _).nodup_iff.mpr (environment.layer_ascending start).names_nodup
  have mem_keys : ∀ key, key ∈ environment.keys start ↔ key ∈ Table.names above := fun key =>
    Environment.mem_keys.symm.trans (set.map _).mem_iff.symm
  have found := read_said (f := f) decoded
  have whole : Setting.ofLayers [standardLayer, layer, above] = apply (.ofLayers [standardLayer, layer]) above := rfl
  rw [whole] at found decoded
  have read : ¬ Nested (f.said (apply (.ofLayers [standardLayer, layer]) above)) := by
    rintro ⟨value, said, nested⟩
    rw [said] at found
    exact nested (f.decoded_flat _ _ found)
  simp only [Placeless, Outlasts, mem_keys] at placeless ⊢
  rw [← laid.items]
  constructor
  · intro text given
    have own : (f.key, Environment.setting text) ∈ above := by
      refine set.mem_iff.mpr (Table.get?_mem ?_)
      rw [Environment.get?_layer, given]
      rfl
    rcases said_apply_own distinct flat placeless own with said | ⟨none, entry, member, whole⟩ | nested
    · rw [said] at found
      exact .inl found
    · rw [none] at found
      exact .inr ⟨(Option.some.inj found).symm, _, List.mem_map_of_mem member, whole⟩
    · exact absurd nested read
  · intro unset
    have absent : ∀ entry ∈ above, entry.1 ≠ f.key := by
      have none : Table.get? f.key (environment.layer start) = none := by
        rw [Environment.get?_layer, unset]
        rfl
      exact fun entry member => Table.get?_eq_none_iff.mp none entry (set.mem_iff.mp member)
    constructor
    · intro outlasts
      refine reading_said decoded ?_
      rw [(said_apply_outlasts flat placeless absent outlasts).resolve_right read]
      exact laid.said
    · intro lost
      rw [(said_apply_lost flat placeless absent lost).resolve_right read] at found
      exact (Option.some.inj found).symm

end Field
end FieldGateway.Settings
