import FieldGateway.Proofs.Table
import FieldGateway.Yaml.Tree

-- What a YAML tree becomes: which trees have a counterpart in JSON, and what stands where in it.
-- Only numbers that are infinite or none at all are lost on the way.
namespace FieldGateway

namespace Yaml

section Shapes

variable {item : Yaml} {items : List Yaml} {entries : List (Yaml × Yaml)} {j : Json} {documents : List Json}
  {before fields : Json.Fields}

theorem toJson_list_iff : toJson (.list items) = .ok j ↔ ∃ documents, toItems items = .ok documents ∧ j = .array documents := by
  cases converted : toItems items <;> simp [toJson, converted, eq_comm]

theorem toJson_map_iff : toJson (.map entries) = .ok j ↔ ∃ fields, toFields [] entries = .ok fields ∧ j = .object fields := by
  cases converted : toFields [] entries <;> simp [toJson, converted, eq_comm]

theorem toJson_real_iff : toJson (.real t) = .ok j ↔ ∃ x, realValue? t = some x ∧ j = Json.ofBinary x := by
  cases read : realValue? t <;> simp [toJson, read, eq_comm]

theorem toItems_cons_iff : toItems (item :: items) = .ok documents ↔
    ∃ d ds, toJson item = .ok d ∧ toItems items = .ok ds ∧ documents = d :: ds := by
  cases first : toJson item with
  | error defect => simp [toItems, first]
  | ok d => cases rest : toItems items <;> simp [toItems, first, rest, eq_comm]

theorem toItems_ok_iff : toItems items = .ok documents ↔ documents.map .ok = items.map toJson := by
  induction items generalizing documents with
  | nil => simp [toItems, eq_comm]
  | cons item items ih =>
    rw [toItems_cons_iff, List.map_cons, List.map_eq_cons_iff]
    simp only [ih, eq_comm (a := toJson item)]
    grind

theorem toFields_cons_iff {k v : Yaml} : toFields before ((k, v) :: entries) = .ok fields ↔
    ∃ name d, keyText? k = some name ∧ toJson v = .ok d ∧ toFields (Table.put name d before) entries = .ok fields := by
  cases named : keyText? k with
  | none => simp [toFields, named]
  | some name => cases converted : toJson v <;> simp [toFields, named, converted]

end Shapes

end Yaml

inductive Step where
  | item (index : Nat)
  | member (key : Text)

def Json.at? : List Step → Json → Option Json
  | [], j => some j
  | .item index :: path, .array items => items[index]?.bind (at? path)
  | .member key :: path, .object fields => (Table.get? key fields).bind (at? path)
  | _ :: _, _ => none

namespace Yaml

def last? (key : Text) (entries : List (Yaml × Yaml)) : Option Yaml :=
  (entries.reverse.find? fun entry => keyText? entry.1 = some key).map Prod.snd

def at? : List Step → Yaml → Option Yaml
  | [], y => some y
  | .item index :: path, .list items => items[index]?.bind (at? path)
  | .member key :: path, .map entries => (last? key entries).bind (at? path)
  | _ :: _, _ => none

-- The nodes of a tree. Keys are no nodes of their own.
inductive Contains : Yaml → Yaml → Prop where
  | root : Contains y y
  | item (member : item ∈ items) (inside : Contains item node) : Contains (.list items) node
  | value (member : (key, value) ∈ entries) (inside : Contains value node) : Contains (.map entries) node

structure Convertible (y : Yaml) : Prop where
  noAlias : ∀ anchor, ¬ y.Contains (.alias anchor)
  noBad : ¬ y.Contains .bad
  keys : ∀ entries, y.Contains (.map entries) → ∀ entry ∈ entries,
    (∃ t, entry.1 = .text t) ∨ (∃ t, entry.1 = .real t) ∨ (∃ i, entry.1 = .integer i) ∨ ∃ b, entry.1 = .bool b
  numbers : ∀ t, y.Contains (.real t) → ∃ x, realValue? t = some x

def Converts (y : Yaml) : Prop := ∃ j, toJson y = .ok j

variable {y item node value : Yaml} {items : List Yaml} {entries : List (Yaml × Yaml)} {j d : Json}
  {documents : List Json} {before fields : Json.Fields} {key name : Text}

theorem keyText?_isSome_iff {key : Yaml} : (∃ name, keyText? key = some name) ↔
    (∃ t, key = .text t) ∨ (∃ t, key = .real t) ∨ (∃ i, key = .integer i) ∨ ∃ b, key = .bool b := by
  cases key with
  | bool b => cases b <;> simp [keyText?]
  | _ => simp [keyText?]

theorem last?_cons (key : Text) (k v : Yaml) (entries : List (Yaml × Yaml)) :
    last? key ((k, v) :: entries) = (last? key entries).or (if keyText? k = some key then some v else none) := by
  unfold last?
  rw [List.reverse_cons, List.find?_append, Option.map_or]
  by_cases same : keyText? k = some key <;> simp [same]

theorem toItems_converts_iff : (∃ documents, toItems items = .ok documents) ↔ ∀ item ∈ items, item.Converts := by
  induction items with
  | nil => simp [toItems]
  | cons item items ih =>
    rw [List.forall_mem_cons, ← ih]
    constructor
    · rintro ⟨_, converted⟩
      obtain ⟨d, ds, first, rest, _⟩ := toItems_cons_iff.mp converted
      exact ⟨⟨d, first⟩, ds, rest⟩
    · rintro ⟨⟨d, first⟩, ds, rest⟩
      exact ⟨d :: ds, toItems_cons_iff.mpr ⟨d, ds, first, rest, rfl⟩⟩

theorem toFields_converts_iff : (∃ fields, toFields before entries = .ok fields) ↔
    ∀ entry ∈ entries, (∃ name, keyText? entry.1 = some name) ∧ entry.2.Converts := by
  induction entries generalizing before with
  | nil => simp [toFields]
  | cons entry entries ih =>
    rw [List.forall_mem_cons]
    constructor
    · rintro ⟨fields, converted⟩
      obtain ⟨name, d, named, first, rest⟩ := toFields_cons_iff.mp converted
      exact ⟨⟨⟨name, named⟩, d, first⟩, ih.mp ⟨fields, rest⟩⟩
    · rintro ⟨⟨⟨name, named⟩, d, first⟩, others⟩
      obtain ⟨fields, rest⟩ := ih.mpr others
      exact ⟨fields, toFields_cons_iff.mpr ⟨name, d, named, first, rest⟩⟩

theorem toFields_ascending (ascending : Table.Ascending before) (converted : toFields before entries = .ok fields) :
    Table.Ascending fields := by
  induction entries generalizing before with
  | nil =>
    cases converted
    exact ascending
  | cons entry entries ih =>
    obtain ⟨name, d, _, _, rest⟩ := toFields_cons_iff.mp converted
    exact ih (ascending.put name d) rest

theorem get?_toFields (converted : toFields before entries = .ok fields) (key : Text) :
    (Table.get? key fields).map .ok = ((last? key entries).map toJson).or ((Table.get? key before).map .ok) := by
  induction entries generalizing before with
  | nil =>
    cases converted
    rfl
  | cons entry entries ih =>
    obtain ⟨name, d, named, first, rest⟩ := toFields_cons_iff.mp converted
    rw [ih rest, Table.get?_put, last?_cons, named]
    by_cases same : key = name
    · cases later : last? key entries <;> simp [same, first]
    · simp [same, Ne.symm same]

theorem Contains.converts (inside : y.Contains node) (converts : y.Converts) : node.Converts := by
  induction inside with
  | root => exact converts
  | item member _ ih =>
    obtain ⟨j, converted⟩ := converts
    obtain ⟨documents, each, _⟩ := toJson_list_iff.mp converted
    exact ih (toItems_converts_iff.mp ⟨documents, each⟩ _ member)
  | value member _ ih =>
    obtain ⟨j, converted⟩ := converts
    obtain ⟨fields, each, _⟩ := toJson_map_iff.mp converted
    exact ih (toFields_converts_iff.mp ⟨fields, each⟩ _ member).2

theorem Convertible.inside (convertible : y.Convertible) (within : ∀ inner, node.Contains inner → y.Contains inner) :
    node.Convertible where
  noAlias anchor inner := convertible.noAlias anchor (within _ inner)
  noBad inner := convertible.noBad (within _ inner)
  keys entries inner := convertible.keys entries (within _ inner)
  numbers t inner := convertible.numbers t (within _ inner)

theorem Convertible.converts {y : Yaml} (convertible : y.Convertible) : y.Converts := by
  match y with
  | .null => exact ⟨_, rfl⟩
  | .bool b => exact ⟨_, rfl⟩
  | .integer i => exact ⟨_, rfl⟩
  | .text t => exact ⟨_, rfl⟩
  | .real t =>
    obtain ⟨x, read⟩ := convertible.numbers t .root
    exact ⟨_, toJson_real_iff.mpr ⟨x, read, rfl⟩⟩
  | .list items =>
    have each : ∀ item ∈ items, item.Converts := fun item member =>
      (convertible.inside fun _ inner => .item member inner).converts
    obtain ⟨documents, converted⟩ := toItems_converts_iff.mpr each
    exact ⟨_, toJson_list_iff.mpr ⟨documents, converted, rfl⟩⟩
  | .map entries =>
    have each : ∀ entry ∈ entries, (∃ name, keyText? entry.1 = some name) ∧ entry.2.Converts := fun entry member =>
      ⟨keyText?_isSome_iff.mpr (convertible.keys entries .root entry member),
        (convertible.inside fun _ inner => .value member inner).converts⟩
    obtain ⟨fields, converted⟩ := toFields_converts_iff.mpr each
    exact ⟨_, toJson_map_iff.mpr ⟨fields, converted, rfl⟩⟩
  | .alias anchor => exact absurd .root (convertible.noAlias anchor)
  | .bad => exact absurd .root convertible.noBad
termination_by sizeOf y
decreasing_by
  · have smaller := List.sizeOf_lt_of_mem member
    rw [list.sizeOf_spec]
    omega
  · have smaller := List.sizeOf_lt_of_mem member
    obtain ⟨k, v⟩ := entry
    rw [Prod.mk.sizeOf_spec] at smaller
    rw [map.sizeOf_spec]
    dsimp only
    omega

theorem converts_iff : y.Converts ↔ y.Convertible := by
  constructor
  · intro converts
    refine ⟨fun anchor inside => ?_, fun inside => ?_, fun entries inside entry member => ?_, fun t inside => ?_⟩
    · obtain ⟨j, converted⟩ := inside.converts converts
      cases converted
    · obtain ⟨j, converted⟩ := inside.converts converts
      cases converted
    · obtain ⟨j, converted⟩ := inside.converts converts
      obtain ⟨fields, each, _⟩ := toJson_map_iff.mp converted
      exact keyText?_isSome_iff.mp (toFields_converts_iff.mp ⟨fields, each⟩ entry member).1
    · obtain ⟨j, converted⟩ := inside.converts converts
      obtain ⟨x, read, _⟩ := toJson_real_iff.mp converted
      exact ⟨x, read⟩
  · exact Convertible.converts

theorem bind_at? {path : List Step} {o : Option Json} {p : Option Yaml} (same : o.map .ok = p.map toJson)
    (further : ∀ {y j}, toJson y = .ok j → (j.at? path).map .ok = (y.at? path).map toJson) :
    (o.bind (Json.at? path)).map .ok = (p.bind (at? path)).map toJson := by
  cases o with
  | none =>
    cases p with
    | none => rfl
    | some y => cases same
  | some j =>
    cases p with
    | none => cases same
    | some y => exact further (Option.some.inj same).symm

theorem at?_toJson (converted : toJson y = .ok j) (path : List Step) :
    (j.at? path).map .ok = (y.at? path).map toJson := by
  induction path generalizing y j with
  | nil => simp [Json.at?, at?, converted]
  | cons step path ih =>
    cases y with
    | list items =>
      obtain ⟨documents, each, rfl⟩ := toJson_list_iff.mp converted
      cases step with
      | item index =>
        refine bind_at? ?_ ih
        rw [← List.getElem?_map, ← List.getElem?_map, toItems_ok_iff.mp each]
      | member key => rfl
    | map entries =>
      obtain ⟨fields, each, rfl⟩ := toJson_map_iff.mp converted
      cases step with
      | item index => rfl
      | member key =>
        refine bind_at? ?_ ih
        rw [get?_toFields each key]
        exact Option.or_none
    | real t =>
      obtain ⟨x, _, rfl⟩ := toJson_real_iff.mp converted
      cases x <;> cases step <;> rfl
    | null | bool b | integer i | text t =>
      cases converted
      cases step <;> rfl
    | «alias» anchor | bad => cases converted

-- Node by node: scalars keep their values, items their number and their order, and a key has what
-- the last entry with its text has become.
def Mirrors (y : Yaml) (j : Json) : Prop :=
  match y with
  | .null => j = .null
  | .bool b => j = .bool b
  | .integer i => j = Json.ofInt i
  | .text t => j = .text t
  | .real t => ∃ x, realValue? t = some x ∧ j = Json.ofBinary x
  | .list items => ∃ documents, j = .array documents ∧ documents.map .ok = items.map toJson
  | .map entries => ∃ fields, j = .object fields ∧ Table.Ascending fields ∧
      ∀ key, (Table.get? key fields).map .ok = (last? key entries).map toJson
  | .alias _ | .bad => False

theorem mirrors (converted : toJson y = .ok j) : Mirrors y j := by
  cases y with
  | null | bool b | integer i | text t =>
    cases converted
    rfl
  | real t => exact toJson_real_iff.mp converted
  | list items =>
    obtain ⟨documents, each, rfl⟩ := toJson_list_iff.mp converted
    exact ⟨documents, rfl, toItems_ok_iff.mp each⟩
  | map entries =>
    obtain ⟨fields, each, rfl⟩ := toJson_map_iff.mp converted
    refine ⟨fields, rfl, toFields_ascending .nil each, fun key => ?_⟩
    rw [get?_toFields each key]
    exact Option.or_none
  | «alias» anchor | bad => cases converted

def Unwritable (t : Text) : Prop := ∃ x, realValue? t = some x ∧ ∀ finite, x ≠ .finite finite

theorem toJson_null_iff : toJson node = .ok .null ↔ node = .null ∨ ∃ t, node = .real t ∧ Unwritable t := by
  cases node with
  | real t =>
    rw [toJson_real_iff]
    constructor
    · rintro ⟨x, read, absent⟩
      refine .inr ⟨t, rfl, x, read, ?_⟩
      rintro finite rfl
      cases absent
    · rintro (wrong | ⟨t, same, x, read, infinite⟩)
      · cases wrong
      · cases same
        refine ⟨x, read, ?_⟩
        cases x with
        | finite value => exact absurd rfl (infinite value)
        | infinite negative | nan => rfl
  | null => simp [toJson]
  | bool b | text t => simp [toJson]
  | integer i => simp [toJson, Json.ofInt]
  | list items => simp [toJson_list_iff]
  | map entries => simp [toJson_map_iff]
  | «alias» anchor | bad => simp [toJson]

theorem at?_null_iff (converted : toJson y = .ok j) (path : List Step) : j.at? path = some .null ↔
    y.at? path = some .null ∨ ∃ t, y.at? path = some (.real t) ∧ Unwritable t := by
  have same := at?_toJson converted path
  have here : j.at? path = some .null ↔ ∃ node, y.at? path = some node ∧ toJson node = .ok .null := by
    rw [← Option.map_eq_some_iff, ← same]
    cases j.at? path <;> simp
  rw [here]
  simp only [toJson_null_iff]
  constructor
  · rintro ⟨node, found, rfl | ⟨t, rfl, unwritable⟩⟩
    · exact .inl found
    · exact .inr ⟨t, found, unwritable⟩
  · rintro (found | ⟨t, found, unwritable⟩)
    · exact ⟨_, found, .inl rfl⟩
    · exact ⟨_, found, .inr ⟨t, rfl, unwritable⟩⟩

-- A tree is converted exactly when it is convertible, and the document mirrors it node by node.
-- Null stands where the tree has null, and where it has a number that JSON cannot write.
theorem toJson_mirrors (y : Yaml) : ((∃ j, toJson y = .ok j) ↔ y.Convertible) ∧
    ∀ j, toJson y = .ok j → Mirrors y j ∧ ∀ path, j.at? path = some .null ↔
      y.at? path = some .null ∨ ∃ t, y.at? path = some (.real t) ∧ Unwritable t :=
  ⟨converts_iff, fun _ converted => ⟨mirrors converted, at?_null_iff converted⟩⟩

theorem toJson_mirrors_list : ∃ j, toJson (.map [(.bool true, .text "first"), (.text "true", .list [.bool false, .null])]) = .ok j ∧
    j.at? [.member "true", .item 1] = some .null ∧ j.at? [.member "true"] ≠ some .null := by
  obtain ⟨j, converted⟩ :
    ∃ j, toJson (.map [(.bool true, .text "first"), (.text "true", .list [.bool false, .null])]) = .ok j := ⟨_, rfl⟩
  have nulls := ((toJson_mirrors _).2 j converted).2
  refine ⟨j, converted, (nulls _).mpr (.inl rfl), ?_⟩
  rw [ne_eq, nulls]
  rintro (found | ⟨t, found, _⟩)
  · cases found
  · cases found

theorem infinity_lost : realValue? ".inf" = some (.infinite false) ∧
    toJson (.map [(.text "minimum", .real ".inf")]) = .ok (.object [("minimum", .null)]) ∧
    at? [.member "minimum"] (.map [(.text "minimum", .real ".inf")]) = some (.real ".inf") :=
  ⟨rfl, rfl, rfl⟩

end Yaml
end FieldGateway
