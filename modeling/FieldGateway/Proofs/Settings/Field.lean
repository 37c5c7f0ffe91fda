import FieldGateway.Proofs.Settings.Tree
import FieldGateway.Settings.Basic

-- The settings one by one: what a tree says of each, and that the standard layer only adds what
-- is taken for granted where nothing is said.
namespace FieldGateway

namespace Setting

def Flat : Setting → Prop
  | .table _ | .list _ => False
  | _ => True

variable {s t value standing : Setting} {alone above : Option Setting}

theorem Flat.entries (flat : s.Flat) : s.entries = [] := by
  cases s with
  | table entries => exact flat.elim
  | _ => rfl

theorem Flat.items (flat : s.Flat) : s.items = [] := by
  cases s with
  | list items => exact flat.elim
  | _ => rfl

theorem Flat.placed (flat : value.Flat) (found : Option Setting) : placed value [] found = value := by
  cases value with
  | table incoming => exact flat.elim
  | _ => rfl

theorem placed_nested (value : Setting) (step : Step) (path : List Step) (found : Option Setting) :
    ¬ (Setting.placed value (step :: path) found).Flat := by
  cases step <;> cases path <;> exact id

-- What stands under a name once the layers are laid over a standing value, and what they would
-- give alone. Nothing, and a table without keys, leave the standing value.
def Over (standing : Setting) (alone above : Option Setting) : Prop :=
  above = alone ∨ ((alone = none ∨ alone = some (.table [])) ∧ above = some standing)

theorem assign_congr (entries : s.entries = t.entries) (items : s.items = t.items) (value : Setting) (step : Step)
    (path : List Step) : assign value (step :: path) s = assign value (step :: path) t := by
  cases step <;> cases path <;> simp only [assign, entries, items]

theorem mergeEach_congr (entries : s.entries = t.entries) (value : Text × Setting) (rest : List (Text × Setting)) :
    mergeEach (value :: rest) s = mergeEach (value :: rest) t := by
  rw [mergeEach, mergeEach, entries]

theorem Over.placed (flat : standing.Flat) (laid : Over standing alone above) (value : Setting) (path : List Step) :
    Over standing (some (placed value path alone)) (some (placed value path above)) := by
  rcases laid with rfl | ⟨bare, rfl⟩
  · exact .inl rfl
  · cases path with
    | nil =>
      cases value with
      | table incoming =>
        cases incoming with
        | nil =>
          refine .inr ⟨.inr ?_, rfl⟩
          rcases bare with rfl | rfl <;> rfl
        | cons first rest =>
          have same : (alone.getD (.table [])).entries = ((some standing).getD (.table [])).entries := by
            rcases bare with rfl | rfl <;> exact flat.entries.symm
          exact .inl (congrArg some (mergeEach_congr same first rest).symm)
      | _ => exact .inl rfl
    | cons step path =>
      have entries : (alone.getD .empty).entries = ((some standing).getD .empty).entries := by
        rcases bare with rfl | rfl <;> exact flat.entries.symm
      have items : (alone.getD .empty).items = ((some standing).getD .empty).items := by
        rcases bare with rfl | rfl <;> exact flat.items.symm
      exact .inl (congrArg some (assign_congr entries items value step path).symm)

theorem Over.mergeEach (flat : standing.Flat) (incoming : List (Text × Setting)) (name : Text)
    (laid : Over standing (Table.get? name s.entries) (Table.get? name t.entries)) :
    Over standing (Table.get? name (mergeEach incoming s).entries) (Table.get? name (mergeEach incoming t).entries) := by
  induction incoming generalizing s t with
  | nil => exact laid
  | cons entry incoming ih =>
    obtain ⟨key, value⟩ := entry
    rw [Setting.mergeEach, Setting.mergeEach]
    refine ih ?_
    simp only [entries, merge_eq, Table.get?_put]
    split
    · rename_i same
      rw [← same]
      exact laid.placed flat value []
    · exact laid

theorem mergeEach_items (incoming : List (Text × Setting)) (entries : Table Setting) :
    (Setting.mergeEach incoming (.table entries)).items = [] := by
  induction incoming generalizing entries with
  | nil => rfl
  | cons entry incoming ih => exact ih _

theorem items_placed (same : (alone.getD (.table [])).items = (above.getD (.table [])).items) (value : Setting)
    (path : List Step) : (Setting.placed value path alone).items = (Setting.placed value path above).items := by
  have inside : (alone.getD .empty).items = (above.getD .empty).items := by
    cases alone <;> cases above <;> exact same
  match path, value with
  | [], .table [] => exact same
  | [], .table (entry :: incoming) =>
    exact (mergeEach_items incoming _).trans (mergeEach_items incoming _).symm
  | [], .empty | [], .bool _ | [], .integer _ | [], .real _ | [], .text _ | [], .list _ => rfl
  | .key name :: path, value =>
    rw [placed_cons, placed_cons, assign_key, assign_key]
    rfl
  | .item place :: [], value => exact congrArg (replaceAt place value) inside
  | .item place :: step :: path, value =>
    show replaceAt place _ _ = replaceAt place _ _
    rw [inside]

end Setting

namespace Settings
open Setting (Flat Over at? assign placed apply)

structure Field (α : Type) where
  group : Text
  name : Text
  place : Nat
  standing : Setting
  decode : Setting → Option α
  get : Settings → α
  path_key : Setting.path (group ++ '.' :: name) = [.key group, .key name]
  standing_flat : standing.Flat
  standing_read : decode standing = some (get standard)
  decoded_flat : ∀ value x, decode value = some x → value.Flat
  standing_said : (Settings.group group (.ofLayers [standardLayer])).items = [] ∧
    at? [.key group, .key name] (.ofLayers [standardLayer]) = some standing
  read_off : ∀ root s, ofSetting? root = some s →
    fieldOr (get standard) decode place name (Settings.group group root) = some (get s)

theorem ofSetting?_parts {root : Setting} {s : Settings} (read : ofSetting? root = some s) :
    fieldOr standard.level Setting.toText? 0 "level" (group "logging" root) = some s.level ∧
      fieldOr standard.json Setting.toBool? 1 "json" (group "logging" root) = some s.json ∧
      fieldOr standard.directory Setting.toText? 0 "config_dir" (group "agent" root) = some s.directory := by
  unfold ofSetting? at read
  simp only [Option.bind_eq_bind, Option.bind_eq_some_iff, Option.some.injEq] at read
  obtain ⟨level, first, json, second, directory, third, rfl⟩ := read
  exact ⟨first, second, third⟩

theorem toText?_flat {value : Setting} {t : Text} (read : value.toText? = some t) : value.Flat := by
  cases value with
  | table entries | list items => cases read
  | _ => trivial

theorem toBool?_flat {value : Setting} {b : Bool} (read : value.toBool? = some b) : value.Flat := by
  cases value with
  | table entries | list items => cases read
  | _ => trivial

def Field.level : Field Text where
  group := "logging"
  name := "level"
  place := 0
  standing := .text standard.level
  decode := Setting.toText?
  get := Settings.level
  path_key := by decide
  standing_flat := trivial
  standing_read := rfl
  decoded_flat _ _ := toText?_flat
  standing_said := ⟨rfl, rfl⟩
  read_off _ _ read := (ofSetting?_parts read).1

def Field.json : Field Bool where
  group := "logging"
  name := "json"
  place := 1
  standing := .bool standard.json
  decode := Setting.toBool?
  get := Settings.json
  path_key := by decide
  standing_flat := trivial
  standing_read := rfl
  decoded_flat _ _ := toBool?_flat
  standing_said := ⟨rfl, rfl⟩
  read_off _ _ read := (ofSetting?_parts read).2.1

def Field.directory : Field Text where
  group := "agent"
  name := "config_dir"
  place := 0
  standing := .text standard.directory
  decode := Setting.toText?
  get := Settings.directory
  path_key := by decide
  standing_flat := trivial
  standing_read := rfl
  decoded_flat _ _ := toText?_flat
  standing_said := ⟨rfl, rfl⟩
  read_off _ _ read := (ofSetting?_parts read).2.2

namespace Field

variable {α : Type} {f : Field α} {root alone above : Setting} {s : Settings}

def key (f : Field α) : Text := f.group ++ '.' :: f.name

def path (f : Field α) : List Setting.Step := [.key f.group, .key f.name]

def said (f : Field α) (root : Setting) : Option Setting := (field f.place f.name (Settings.group f.group root)).join

def reading (f : Field α) : Option Setting → Option α
  | none | some (.table []) => some (f.get standard)
  | some value => f.decode value

theorem reading_flat {value : Setting} (flat : value.Flat) : f.reading (some value) = f.decode value := by
  cases value with
  | table entries => exact flat.elim
  | _ => rfl

theorem at?_path (f : Field α) (root : Setting) :
    at? f.path root = Table.get? f.name (Settings.group f.group root).entries := by
  unfold path Settings.group at?
  cases Table.get? f.group root.entries with
  | none => rfl
  | some group =>
    rw [Option.bind_some, at?]
    cases found : Table.get? f.name group.entries <;> simp [at?, found]

theorem said_eq (f : Field α) (root : Setting) :
    f.said root = ((Settings.group f.group root).items[f.place]?).or (at? f.path root) := by
  rw [at?_path, said]
  cases Settings.group f.group root with
  | list items => cases found : items[f.place]? <;> simp [field, Setting.items, Setting.entries, Table.get?, found]
  | table entries => simp [field, Setting.items, Setting.entries]
  | _ => rfl

theorem read_said (read : ofSetting? root = some s) : (f.said root).elim (some (f.get standard)) f.decode = some (f.get s) := by
  have found := f.read_off root s read
  unfold fieldOr at found
  unfold said
  split at found
  · cases found
  · rename_i nothing
    rw [nothing]
    exact found
  · rename_i value something
    rw [something]
    exact found

theorem reading_said {told : Option Setting} (read : ofSetting? root = some s)
    (laid : Over f.standing told (f.said root)) : f.reading told = some (f.get s) := by
  have found := read_said (f := f) read
  rcases laid with same | ⟨bare, standing⟩
  · rw [same] at found
    cases told with
    | none => exact found
    | some value => exact (reading_flat (f.decoded_flat _ _ found)).trans found
  · rw [standing, Option.elim_some, f.standing_read] at found
    rcases bare with rfl | rfl <;> exact found

theorem group_assign (value : Setting) (key : Text) (rest : List Setting.Step) (root : Setting) (group : Text) :
    Settings.group group (assign value (.key key :: rest) root) =
      if group = key then placed value rest (Table.get? key root.entries) else Settings.group group root := by
  unfold Settings.group
  rw [Setting.get?_assign_key]
  split <;> rfl

structure Laid (f : Field α) (alone above : Setting) : Prop where
  items : (Settings.group f.group above).items = (Settings.group f.group alone).items
  entry : Over f.standing (at? f.path alone) (at? f.path above)

theorem Laid.assign (laid : f.Laid alone above) (value : Setting) (key : Text) :
    f.Laid (Setting.assign value (Setting.path key) alone) (Setting.assign value (Setting.path key) above) := by
  obtain ⟨items, entry⟩ := laid
  obtain ⟨group, rest, split⟩ := Setting.path_cons key
  rw [at?_path, at?_path] at entry
  rw [split]
  constructor
  · rw [group_assign, group_assign]
    split
    · rename_i same
      rw [same] at items
      exact Setting.items_placed items value rest
    · exact items
  · rw [at?_path, at?_path, group_assign, group_assign]
    split
    · rename_i same
      rw [same] at entry
      match rest, value with
      | [], .table incoming => exact entry.mergeEach f.standing_flat incoming f.name
      | [], .empty | [], .bool _ | [], .integer _ | [], .real _ | [], .text _ | [], .list _ => exact .inl rfl
      | .item place :: [], value | .item place :: step :: rest, value => exact .inl rfl
      | .key name :: rest, value =>
        have under : ∀ found : Option Setting, (found.getD .empty).entries = (found.getD (.table [])).entries := by
          intro found
          cases found <;> rfl
        rw [Setting.placed_cons, Setting.placed_cons, Setting.get?_assign_key, Setting.get?_assign_key, under, under]
        split
        · rename_i named
          rw [named] at entry
          exact entry.placed f.standing_flat value rest
        · exact entry
    · exact entry

theorem Laid.apply (laid : f.Laid alone above) (layer : Setting.Layer) :
    f.Laid (Setting.apply alone layer) (Setting.apply above layer) := by
  induction layer generalizing alone above with
  | nil => exact laid
  | cons entry layer ih => exact ih (laid.assign entry.2 entry.1)

theorem laid_standard (f : Field α) (layer : Setting.Layer) :
    f.Laid (.ofLayers [layer]) (.ofLayers [standardLayer, layer]) := by
  obtain ⟨listless, standing⟩ := f.standing_said
  have start : f.Laid (.table []) (.ofLayers [standardLayer]) := ⟨listless, .inr ⟨.inl rfl, standing⟩⟩
  exact start.apply layer

theorem Laid.said (laid : f.Laid alone above) : Over f.standing (f.said alone) (f.said above) := by
  rw [said_eq, said_eq, laid.items]
  cases (Settings.group f.group alone).items[f.place]? with
  | none => exact laid.entry
  | some value => exact .inl rfl

end Field
end Settings
end FieldGateway
