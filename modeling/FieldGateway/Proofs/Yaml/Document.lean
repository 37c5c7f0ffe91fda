import FieldGateway.Yaml.Document

-- The tokens of a JSON document in flow style are read as the tree that it stands for.
namespace FieldGateway.Yaml

-- A number is read as any other plain word. Of two equal keys the later one counts.
mutual
def ofJson : Json → Yaml
  | .null => .null
  | .bool b => .bool b
  | .number n => ofPlain n.text
  | .text t => .text t
  | .array items => .list (ofItems items)
  | .object fields => .map (ofFields [] fields)
def ofItems : List Json → List Yaml
  | [] => []
  | item :: items => ofJson item :: ofItems items
def ofFields (entries : List (Yaml × Yaml)) : List (Text × Json) → List (Yaml × Yaml)
  | [] => entries
  | (key, value) :: fields => ofFields (insert (.text key) (ofJson value) entries) fields
end

mutual
def flowTokens : Json → List Token
  | .null => [.scalar true ['n', 'u', 'l', 'l']]
  | .bool true => [.scalar true ['t', 'r', 'u', 'e']]
  | .bool false => [.scalar true ['f', 'a', 'l', 's', 'e']]
  | .number n => [.scalar true n.text]
  | .text t => [.scalar false t]
  | .array [] => [.flowSequence, .flowSequenceEnd]
  | .array (item :: items) => .flowSequence :: (flowTokens item ++ itemTokens items)
  | .object [] => [.flowMapping, .flowMappingEnd]
  | .object ((key, value) :: fields) =>
    .flowMapping :: .key :: .scalar false key :: .value :: (flowTokens value ++ fieldTokens fields)
def itemTokens : List Json → List Token
  | [] => [.flowSequenceEnd]
  | item :: items => .flowEntry :: (flowTokens item ++ itemTokens items)
def fieldTokens : List (Text × Json) → List Token
  | [] => [.flowMappingEnd]
  | (key, value) :: fields =>
    .flowEntry :: .key :: .scalar false key :: .value :: (flowTokens value ++ fieldTokens fields)
end

def Begins : Token → Prop
  | .scalar _ _ | .flowSequence | .flowMapping => True
  | _ => False

theorem flowTokens_begins (document : Json) : ∃ t ts, flowTokens document = t :: ts ∧ Begins t := by
  match document with
  | .null | .bool true | .bool false | .number _ | .text _ | .array [] | .array (_ :: _) | .object []
  | .object (_ :: _) => exact ⟨_, _, rfl, trivial⟩

def inTurn : List (Text × Json) → List Yaml
  | [] => []
  | (key, value) :: fields => .text key :: ofJson value :: inTurn fields

theorem paired_inTurn (entries : List (Yaml × Yaml)) (fields : List (Text × Json)) :
    paired none (inTurn fields) entries = ofFields entries fields := by
  induction fields generalizing entries with
  | nil => simp [inTurn, paired, ofFields]
  | cons field fields ih => simp [inTurn, paired, ofFields, ih]

theorem mapOf_inTurn (fields : List (Text × Json)) : mapOf (inTurn fields) = .map (ofFields [] fields) :=
  congrArg Yaml.map (paired_inTurn [] fields)

section Nodes

variable {s : Source} {fuel : Nat} {isBlock indentless : Bool}

theorem node_scalar (isPlain : Bool) (t : Text) (rest : List Token) :
    node isBlock indentless (fuel + 1) { s with tokens := .scalar isPlain t :: rest } =
      some (scalarOf isPlain none t, { s with tokens := rest }) := by
  rw [node]
  rfl

theorem node_sequence (read : flowItems true fuel { s with tokens := ts } = some (items, left)) :
    node isBlock indentless (fuel + 1) { s with tokens := .flowSequence :: ts } = some (.list items, left) := by
  rw [node]
  simp [Source.head?, Properties.take, Source.complete, Source.drop, read]

theorem node_mapping (read : flowNodes true fuel { s with tokens := ts } = some (nodes, left)) :
    node isBlock indentless (fuel + 1) { s with tokens := .flowMapping :: ts } = some (mapOf nodes, left) := by
  rw [node]
  simp [Source.head?, Properties.take, Source.complete, Source.drop, read]

theorem flowItems_end (isFirst : Bool) (rest : List Token) :
    flowItems isFirst (fuel + 1) { s with tokens := .flowSequenceEnd :: rest } = some ([], { s with tokens := rest }) := by
  rw [flowItems]
  simp [Source.head?, Source.drop]

theorem flowItems_first (item : Json)
    (read : node false false fuel { s with tokens := flowTokens item ++ ts } = some (y, { s with tokens := ts }))
    (further : flowItems false fuel { s with tokens := ts } = some (items, left)) :
    flowItems true (fuel + 1) { s with tokens := flowTokens item ++ ts } = some (y :: items, left) := by
  obtain ⟨t, begun, first, begins⟩ := flowTokens_begins item
  have notEnd : t ≠ .flowSequenceEnd := by rintro rfl; cases begins
  have notKey : t ≠ .key := by rintro rfl; cases begins
  rw [first, List.cons_append] at read ⊢
  rw [flowItems]
  simp [Source.head?, notEnd, notKey, read, further]

theorem flowItems_next (item : Json) (ts : List Token) :
    flowItems false (fuel + 1) { s with tokens := .flowEntry :: (flowTokens item ++ ts) } =
      flowItems true (fuel + 1) { s with tokens := flowTokens item ++ ts } := by
  obtain ⟨t, begun, first, begins⟩ := flowTokens_begins item
  have notEnd : t ≠ .flowSequenceEnd := by rintro rfl; cases begins
  rw [first, flowItems, flowItems]
  simp [Source.head?, Source.drop, notEnd]

theorem flowNodes_end (isFirst : Bool) (rest : List Token) :
    flowNodes isFirst (fuel + 1) { s with tokens := .flowMappingEnd :: rest } = some ([], { s with tokens := rest }) := by
  rw [flowNodes]
  simp [Source.head?, Source.drop]

theorem flowNodes_first (key : Text) (value : Json)
    (read : node false false fuel { s with tokens := flowTokens value ++ ts } = some (y, { s with tokens := ts }))
    (further : flowNodes false (fuel + 1) { s with tokens := ts } = some (nodes, left)) :
    flowNodes true (fuel + 2) { s with tokens := .key :: .scalar false key :: .value :: (flowTokens value ++ ts) } =
      some (.text key :: y :: nodes, left) := by
  obtain ⟨t, begun, first, begins⟩ := flowTokens_begins value
  have notEnd : endsFlowValue .flowMappingEnd (some t) = false := by
    cases t <;> first | rfl | cases begins
  rw [first, List.cons_append] at read ⊢
  have keyRead : node false false (fuel + 1) { s with tokens := .scalar false key :: .value :: t :: (begun ++ ts) } =
      some (scalarOf false none key, { s with tokens := .value :: t :: (begun ++ ts) }) := node_scalar ..
  rw [flowNodes]
  simp [Source.head?, Source.drop, endsFlowKey, keyRead, flowValue, notEnd, read, further, scalarOf]

theorem flowNodes_next (ts : List Token) :
    flowNodes false (fuel + 1) { s with tokens := .flowEntry :: .key :: ts } =
      flowNodes true (fuel + 1) { s with tokens := .key :: ts } := by
  rw [flowNodes, flowNodes]
  simp [Source.head?, Source.drop]

end Nodes

theorem flowTokens_pos (document : Json) : 0 < (flowTokens document).length := by
  obtain ⟨t, ts, first, _⟩ := flowTokens_begins document
  rw [first]
  exact Nat.succ_pos _

theorem itemTokens_pos (items : List Json) : 0 < (itemTokens items).length := by
  cases items <;> simp [itemTokens]

theorem fieldTokens_pos (fields : List (Text × Json)) : 0 < (fieldTokens fields).length := by
  rcases fields with _ | ⟨⟨key, value⟩, fields⟩ <;> simp [fieldTokens]

-- A token more is read at every level, so as much fuel as there are tokens is enough.
mutual
theorem node_flowTokens (document : Json) (s : Source) (rest : List Token) (fuel : Nat) (isBlock indentless : Bool)
    (enough : (flowTokens document).length ≤ fuel) :
    node isBlock indentless fuel { s with tokens := flowTokens document ++ rest } =
      some (ofJson document, { s with tokens := rest }) := by
  obtain ⟨fuel, rfl⟩ := Nat.exists_eq_add_one.mpr (Nat.lt_of_lt_of_le (flowTokens_pos document) enough)
  match document with
  | .null | .bool true | .bool false | .number _ | .text _ => exact node_scalar ..
  | .array [] =>
    obtain ⟨fuel, rfl⟩ := Nat.exists_eq_add_one.mpr (Nat.le_of_succ_le_succ enough)
    exact node_sequence (flowItems_end true rest)
  | .array (item :: items) =>
    have later := itemTokens_pos items
    have now := flowTokens_pos item
    simp only [flowTokens, List.length_cons, List.length_append, Nat.add_le_add_iff_right] at enough
    obtain ⟨fuel, rfl⟩ := Nat.exists_eq_add_one.mpr (show 0 < fuel by omega)
    have here := node_flowTokens item s (itemTokens items ++ rest) fuel false false (by omega)
    have further := flowItems_itemTokens items s rest fuel (by omega)
    simp only [flowTokens, List.cons_append, List.append_assoc]
    exact node_sequence (flowItems_first item here further)
  | .object [] =>
    obtain ⟨fuel, rfl⟩ := Nat.exists_eq_add_one.mpr (Nat.le_of_succ_le_succ enough)
    exact node_mapping (flowNodes_end true rest)
  | .object ((key, value) :: fields) =>
    simp only [flowTokens, List.length_cons, List.length_append, Nat.add_le_add_iff_right] at enough
    obtain ⟨fuel, rfl⟩ := Nat.exists_eq_add_of_le' (show 2 ≤ fuel by omega)
    have here := node_flowTokens value s (fieldTokens fields ++ rest) fuel false false (by omega)
    have further := flowNodes_fieldTokens fields s rest (fuel + 1) (by omega)
    simp only [flowTokens, List.cons_append, List.append_assoc]
    rw [ofJson, ← mapOf_inTurn]
    exact node_mapping (flowNodes_first key value here further)
theorem flowItems_itemTokens (items : List Json) (s : Source) (rest : List Token) (fuel : Nat)
    (enough : (itemTokens items).length ≤ fuel) :
    flowItems false fuel { s with tokens := itemTokens items ++ rest } =
      some (ofItems items, { s with tokens := rest }) := by
  obtain ⟨fuel, rfl⟩ := Nat.exists_eq_add_one.mpr (Nat.lt_of_lt_of_le (itemTokens_pos items) enough)
  match items with
  | [] => exact flowItems_end false rest
  | item :: items =>
    have later := itemTokens_pos items
    have now := flowTokens_pos item
    simp only [itemTokens, List.length_cons, List.length_append, Nat.add_le_add_iff_right] at enough
    have here := node_flowTokens item s (itemTokens items ++ rest) fuel false false (by omega)
    have further := flowItems_itemTokens items s rest fuel (by omega)
    simp only [itemTokens, List.cons_append, List.append_assoc]
    exact (flowItems_next item _).trans (flowItems_first item here further)
theorem flowNodes_fieldTokens (fields : List (Text × Json)) (s : Source) (rest : List Token) (fuel : Nat)
    (enough : (fieldTokens fields).length ≤ fuel) :
    flowNodes false fuel { s with tokens := fieldTokens fields ++ rest } =
      some (inTurn fields, { s with tokens := rest }) := by
  obtain ⟨fuel, rfl⟩ := Nat.exists_eq_add_one.mpr (Nat.lt_of_lt_of_le (fieldTokens_pos fields) enough)
  match fields with
  | [] => exact flowNodes_end false rest
  | (key, value) :: fields =>
    simp only [fieldTokens, List.length_cons, List.length_append, Nat.add_le_add_iff_right] at enough
    obtain ⟨fuel, rfl⟩ := Nat.exists_eq_add_one.mpr (show 0 < fuel by omega)
    have here := node_flowTokens value s (fieldTokens fields ++ rest) fuel false false (by omega)
    have further := flowNodes_fieldTokens fields s rest (fuel + 1) (by omega)
    simp only [fieldTokens, List.cons_append, List.append_assoc]
    exact (flowNodes_next _).trans (flowNodes_first key value here further)
end

theorem documentsFrom_flowTokens (document : Json) (fuel : Nat) :
    documentsFrom true (fuel + 2) ⟨flowTokens document, [], [], 0⟩ = some [ofJson document] := by
  obtain ⟨t, ts, first, begins⟩ := flowTokens_begins document
  have read := node_flowTokens document ⟨flowTokens document, [], [], 0⟩ []
    (2 * (flowTokens document).length + 2) true false (by omega)
  have notDirective : t ≠ .directive := by rintro rfl; cases begins
  have notStart : t ≠ .documentStart := by rintro rfl; cases begins
  rw [List.append_nil, first, List.length_cons] at read
  have finished : documentsFrom false (fuel + 1) ⟨[], [], [], 0⟩ = some [] := by
    rw [documentsFrom]
    rfl
  rw [first, documentsFrom]
  simp [Source.head?, notDirective, notStart, List.length_cons, read, finished]

end FieldGateway.Yaml
