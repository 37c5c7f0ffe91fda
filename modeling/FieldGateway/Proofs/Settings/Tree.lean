import FieldGateway.Proofs.Table
import FieldGateway.Settings.Layer

-- A tree of settings is changed by assignments to key paths. Each is felt at its own path and
-- below it, and in what it displaces above; other paths keep what they have.
namespace FieldGateway.Setting

def at? : List Step → Setting → Option Setting
  | [], s => some s
  | .key name :: path, s => (Table.get? name s.entries).bind (at? path)
  | .item place :: path, s => (s.items[place]?).bind (at? path)

-- Two paths that part at a name: neither goes on from the other, and neither takes what is a
-- table on the other one for a list.
inductive Apart : List Step → List Step → Prop where
  | here (different : a ≠ b) : Apart (.key a :: p) (.key b :: q)
  | deeper (later : Apart p q) : Apart (step :: p) (step :: q)

def placed (value : Setting) : List Step → Option Setting → Setting
  | [], found => match value with
    | .table incoming => mergeEach incoming (found.getD (.table []))
    | value => value
  | path, found => assign value path (found.getD .empty)

variable {s value : Setting} {found : Option Setting} {p q : List Step}

theorem placed_cons (value : Setting) (step : Step) (path : List Step) (found : Option Setting) :
    placed value (step :: path) found = assign value (step :: path) (found.getD .empty) := rfl

theorem merge_eq (key : Text) (value : Setting) (root : Table Setting) :
    merge key value root = Table.put key (placed value [] (Table.get? key root)) root := by
  cases value <;> rfl

theorem assign_key (value : Setting) (name : Text) (path : List Step) (s : Setting) :
    assign value (.key name :: path) s =
      .table (Table.put name (placed value path (Table.get? name s.entries)) s.entries) := by
  cases path with
  | nil => rw [assign, merge_eq]
  | cons step path => rfl

theorem get?_assign_key (value : Setting) (key : Text) (path : List Step) (s : Setting) (name : Text) :
    Table.get? name (assign value (.key key :: path) s).entries =
      if name = key then some (placed value path (Table.get? key s.entries)) else Table.get? name s.entries := by
  rw [assign_key]
  exact Table.get?_put _ _ _

theorem getElem?_replaceAt (place : Nat) (value : Setting) (items : List Setting) :
    (replaceAt place value items)[place]? = some value := by
  have reached : place < (items ++ List.replicate (place + 1 - items.length) Setting.empty).length := by
    rw [List.length_append, List.length_replicate]
    omega
  exact List.getElem?_set_self reached

theorem Apart.ne_nil (apart : Apart p q) : p ≠ [] ∧ q ≠ [] := by
  cases apart <;> exact ⟨nofun, nofun⟩

theorem Apart.irrefl (p : List Step) : ¬ Apart p p := by
  induction p with
  | nil => exact nofun
  | cons step p ih =>
    rintro (different | later)
    · exact different rfl
    · exact ih later

theorem Apart.placed_eq (apart : Apart p q) (value : Setting) (found : Option Setting) :
    placed value p found = assign value p (found.getD .empty) := by
  cases apart <;> exact placed_cons _ _ _ _

theorem at?_empty (more : q ≠ []) : at? q .empty = none := by
  cases q with
  | nil => exact absurd rfl more
  | cons step q => cases step <;> rfl

theorem at?_assign_apart (apart : Apart p q) (value s : Setting) : at? q (assign value p s) = at? q s := by
  induction apart generalizing s with
  | here different => rw [at?, get?_assign_key, if_neg (Ne.symm different), at?]
  | @deeper p q step later ih =>
    have inside : ∀ found : Option Setting, at? q (placed value p found) = found.bind (at? q) := by
      intro found
      rw [later.placed_eq, ih]
      cases found with
      | none => exact at?_empty later.ne_nil.2
      | some s => rfl
    cases step with
    | key name => rw [at?, get?_assign_key, if_pos rfl, at?, Option.bind_some, inside]
    | item place =>
      obtain ⟨first, rest, same⟩ := List.exists_cons_of_ne_nil later.ne_nil.1
      have entered : assign value (.item place :: p) s =
          .list (replaceAt place (placed value p s.items[place]?) s.items) := by
        rw [later.placed_eq, same]
        rfl
      rw [at?, entered, items, getElem?_replaceAt, at?, Option.bind_some, inside]

theorem at?_placed (names : List Text) (value : Setting) (rest : List Step) (found : Option Setting) :
    at? (names.map .key) (placed value (names.map .key ++ rest) found) =
      some (placed value rest (found.bind (at? (names.map .key)))) := by
  induction names generalizing found with
  | nil => simp [at?]
  | cons name names ih =>
    have entered : placed value ((name :: names).map .key ++ rest) found =
        assign value (.key name :: (names.map .key ++ rest)) (found.getD .empty) := placed_cons _ _ _ _
    rw [List.map_cons, at?, ← List.map_cons, entered, get?_assign_key, if_pos rfl, Option.bind_some, ih]
    cases found <;> rfl

theorem path_cons (key : Text) : ∃ name rest, path key = .key name :: rest := by
  unfold path
  simp only
  split
  · exact ⟨_, _, rfl⟩
  · exact ⟨_, _, rfl⟩

theorem apply_cons (root : Setting) (key : Text) (value : Setting) (layer : Layer) :
    apply root ((key, value) :: layer) = apply (assign value (path key) root) layer := rfl

end FieldGateway.Setting
