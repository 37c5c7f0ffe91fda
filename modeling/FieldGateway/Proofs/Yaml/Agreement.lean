import FieldGateway.Plan
import FieldGateway.Proofs.Text.Natural
import FieldGateway.Proofs.Yaml.Token

-- A JSON document whose numbers are whole is the same document when it is read as YAML.
namespace FieldGateway.Yaml

mutual
def Whole : Json → Prop
  | .number n => ∃ i, n = Json.Numeral.ofInt i ∧ i64Least ≤ i ∧ i ≤ i64Greatest
  | .array items => WholeItems items
  | .object fields => WholeFields fields
  | _ => True
def WholeItems : List Json → Prop
  | [] => True
  | item :: items => Whole item ∧ WholeItems items
def WholeFields : List (Text × Json) → Prop
  | [] => True
  | (_, value) :: fields => Whole value ∧ WholeFields fields
end

theorem text_ofInt (i : Int) : (Json.Numeral.ofInt i).text = Text.ofInt i := by
  unfold Json.Numeral.ofInt Text.ofInt
  split <;> simp_all [Json.Numeral.text]

theorem ofPlain_ofInt {i : Int} (low : i64Least ≤ i) (high : i ≤ i64Greatest) : ofPlain (Text.ofInt i) = .integer i := by
  have read : decimal? (Text.ofInt i) = some i := Text.signed?_ofInt low high
  have absent (c : Char) (dash : c ≠ '-') (digit : c.isDigit = false) : c ∉ Text.ofInt i := by
    refine Text.notMem_ofInt dash fun d same => ?_
    simp [same, Digit.char_isDigit] at digit
  have unmarked : marked? (Text.ofInt i) = none := by
    unfold marked?
    split
    · rename_i digits shown
      exact absurd (shown ▸ by simp) (absent 'x' (by decide) rfl)
    · rename_i digits shown
      exact absurd (shown ▸ by simp) (absent 'o' (by decide) rfl)
    · rename_i digits shown
      exact absurd (shown ▸ by simp) (absent '+' (by decide) rfl)
    · rfl
  have noWord (c : Char) (t : Text) (dash : c ≠ '-') (digit : c.isDigit = false) (present : c ∈ t) : Text.ofInt i ≠ t :=
    fun same => absent c dash digit (same ▸ present)
  rw [ofPlain, unmarked]
  dsimp only
  rw [if_neg (not_or.mpr ⟨noWord '~' "~" (by decide) rfl (by decide), noWord 'n' "null" (by decide) rfl (by decide)⟩),
    if_neg (noWord 't' "true" (by decide) rfl (by decide)), if_neg (noWord 'f' "false" (by decide) rfl (by decide)), read]

def entriesOf : List (Text × Json) → List (Yaml × Yaml)
  | [] => []
  | (key, value) :: fields => (.text key, ofJson value) :: entriesOf fields

theorem entriesOf_append (a b : List (Text × Json)) : entriesOf (a ++ b) = entriesOf a ++ entriesOf b := by
  induction a with
  | nil => rfl
  | cons field a ih => simp [entriesOf, ih]

theorem insert_last {key : Text} {before : List (Text × Json)} (absent : ∀ field ∈ before, field.1 ≠ key) (y : Yaml) :
    insert (.text key) y (entriesOf before) = entriesOf before ++ [(.text key, y)] := by
  have kept : (entriesOf before).filter (fun entry => !same entry.1 (.text key)) = entriesOf before := by
    induction before with
    | nil => rfl
    | cons field before ih =>
      rw [List.forall_mem_cons] at absent
      simp [entriesOf, same, absent.1, ih absent.2]
  rw [insert, kept]

theorem ofFields_eq {before fields : List (Text × Json)} (ascending : Table.Ascending (before ++ fields)) :
    ofFields (entriesOf before) fields = entriesOf (before ++ fields) := by
  induction fields generalizing before with
  | nil => rw [ofFields, List.append_nil]
  | cons field fields ih =>
    obtain ⟨key, value⟩ := field
    have absent : ∀ field ∈ before, field.1 ≠ key := fun field member =>
      Text.precedes_ne ((List.pairwise_append.mp ascending).2.2 field member _ List.mem_cons_self)
    have later : Table.Ascending ((before ++ [(key, value)]) ++ fields) := by simpa using ascending
    have appended : entriesOf before ++ [(.text key, ofJson value)] = entriesOf (before ++ [(key, value)]) := by
      rw [entriesOf_append]
      rfl
    rw [ofFields, insert_last absent, appended, ih later, List.append_assoc]
    rfl

mutual
theorem toJson_ofJson (j : Json) (whole : Whole j) (ordered : j.Ordered) : toJson (ofJson j) = .ok j := by
  match j with
  | .null => rfl
  | .bool b => rfl
  | .number n =>
    obtain ⟨i, rfl, low, high⟩ := whole
    rw [ofJson, text_ofInt, ofPlain_ofInt low high]
    rfl
  | .text t => rfl
  | .array items => rw [ofJson, toJson, toItems_ofItems items whole ordered]
  | .object fields =>
    have entries : ofFields (entriesOf []) fields = entriesOf ([] ++ fields) := ofFields_eq ordered.1
    change ofFields [] fields = entriesOf fields at entries
    rw [ofJson, entries, toJson, toFields_entriesOf fields [] whole ordered.2 ordered.1]
    rfl
theorem toItems_ofItems (items : List Json) (whole : WholeItems items) (ordered : Json.ItemsOrdered items) :
    toItems (ofItems items) = .ok items := by
  match items with
  | [] => rfl
  | item :: items =>
    rw [ofItems, toItems, toJson_ofJson item whole.1 ordered.1, toItems_ofItems items whole.2 ordered.2]
theorem toFields_entriesOf (fields : List (Text × Json)) (before : Json.Fields) (whole : WholeFields fields)
    (ordered : Json.FieldsOrdered fields) (ascending : Table.Ascending (before ++ fields)) :
    toFields before (entriesOf fields) = .ok (before ++ fields) := by
  match fields with
  | [] => rw [entriesOf, toFields, List.append_nil]
  | (key, value) :: fields =>
    have later : Table.Ascending ((before ++ [(key, value)]) ++ fields) := by simpa using ascending
    simp only [entriesOf, toFields, keyText?, toJson_ofJson value whole.1 ordered.1, Json.put_last ascending,
      toFields_entriesOf fields (before ++ [(key, value)]) whole.2 ordered.2 later, List.append_assoc, List.singleton_append]
end

-- A file of the plan may be written in JSON: it is decoded as the document that stands in it.
theorem load_render {disk : Disk} {file : Text} {whenEmpty : α} {decode : Schema.Decoder α} (j : Json)
    (held : disk.text (Path.ofText file) = .ok (Json.render j)) (present : j ≠ .null) (whole : Whole j)
    (ordered : j.Ordered) (short : Lexer.Short (Lexer.keysOf j)) (shallow : j.depth ≤ Lexer.deepestFlow) :
    load disk file whenEmpty decode = (decode j).mapError fun defect => .invalid file defect.message := by
  have converted := toJson_ofJson j whole ordered
  unfold load
  simp only [held, documents?_render j short shallow, converted]
  cases j with
  | null => exact absurd rfl present
  | _ => cases decode _ <;> rfl

end FieldGateway.Yaml
