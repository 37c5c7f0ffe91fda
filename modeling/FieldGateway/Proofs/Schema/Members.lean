import FieldGateway.Proofs.Json.Canonical
import FieldGateway.Proofs.Json.Structure
import FieldGateway.Schema.FieldSet

-- What is decoded is written again, in no more room than the document had. What is written of a
-- configuration is decoded by the same fields, one by one.
namespace FieldGateway

namespace Json

theorem itemsDepth_le_iff {items : List Json} : itemsDepth items ≤ room ↔ ∀ item ∈ items, item.depth ≤ room := by
  induction items with
  | nil => simp [itemsDepth]
  | cons item items ih => simp [itemsDepth, ih]

theorem fieldsDepth_le_iff {fields : Fields} : fieldsDepth fields ≤ room ↔ ∀ field ∈ fields, field.2.depth ≤ room := by
  induction fields with
  | nil => simp [fieldsDepth]
  | cons field fields ih => simp [fieldsDepth, ih]

theorem settledItems_eq_map (items : List Json) : settledItems items = items.map settled := by
  induction items with
  | nil => rfl
  | cons item items ih => simp [settledItems, ih]

theorem last_of_mem {members : Fields} (distinct : (members.map Prod.fst).Nodup) (member : (key, value) ∈ members) :
    Last members key value := by
  obtain ⟨before, after, rfl⟩ := List.append_of_mem member
  rw [List.map_append, List.map_cons] at distinct
  have absent := (List.nodup_cons.mp distinct.of_append_right).1
  refine ⟨before, after, rfl, fun other later equal => absent ?_⟩
  exact List.mem_map.mpr ⟨other, later, equal⟩

end Json

namespace Schema

structure Returns (decode : Decoder α) (room : Nat) (written : Json) (a : α) : Prop where
  shallow : written.depth ≤ room
  decoded : decode written.settled = .ok a

-- Whatever is decoded out of some room is written into that room, and returns as `again` says.
def Restores (decode : Decoder α) (write : α → Json) (again : α → α) (least : Nat) : Prop :=
  ∀ room document a, least ≤ room → document.Fits room → decode document = .ok a → Returns decode room (write a) (again a)

namespace Restores

theorem text : Restores (Decoder.text .own) .text id 0 := by
  intro room document t _ _ decoded
  cases document with
  | text t =>
    cases decoded
    exact ⟨Nat.zero_le _, rfl⟩
  | null | bool b | number n | array items | object fields => cases decoded

theorem bool : Restores Decoder.bool .bool id 0 := by
  intro room document b _ _ decoded
  cases document with
  | bool b =>
    cases decoded
    exact ⟨Nat.zero_le _, rfl⟩
  | null | text t | number n | array items | object fields => cases decoded

theorem unsigned (width : Text) (greatest : Nat) : Restores (Decoder.unsigned .own width greatest) Json.ofNat id 0 := by
  intro room document i _ _ decoded
  cases document with
  | number n =>
    simp only [Decoder.unsigned] at decoded
    split at decoded
    · rename_i natural
      cases decoded
      have bound : i ≤ greatest := by
        simp only [Json.Numeral.toUnsigned?] at natural
        grind
      have again : (Json.Numeral.ofNat i).toUnsigned? greatest = some i := by
        simp [Json.Numeral.toUnsigned?, Json.Numeral.ofNat, bound]
      refine ⟨Nat.zero_le _, ?_⟩
      simp [Json.ofNat, Json.settled, Decoder.unsigned, again]
    · cases decoded
  | null | bool b | text t | array items | object fields => cases decoded

theorem signed64 : Restores Decoder.signed64 Json.ofInt id 0 := by
  intro room document i _ _ decoded
  cases document with
  | number n =>
    simp only [Decoder.signed64] at decoded
    split at decoded
    · rename_i whole
      cases decoded
      have bounds : i64Least ≤ i ∧ i ≤ i64Greatest := by
        simp only [Json.Numeral.toSigned?] at whole
        grind
      have again : (Json.Numeral.ofInt i).toSigned? i64Least i64Greatest = some i := by
        simp [Json.Numeral.toSigned?, Json.Numeral.toInt?_ofInt, bounds]
      refine ⟨Nat.zero_le _, ?_⟩
      simp [Json.ofInt, Json.settled, Decoder.signed64, again]
    · cases decoded
  | null | bool b | text t | array items | object fields => cases decoded

theorem document : Restores Decoder.document id id 0 := by
  intro room document kept _ fits decoded
  cases decoded
  obtain ⟨ordered, shallow⟩ := fits.canonical
  refine ⟨shallow, ?_⟩
  simp [Decoder.document, Json.settled_of_ordered _ ordered, Json.canonical_canonical]

theorem properties : Restores Decoder.properties .object id 0 := by
  intro room document bag _ fits decoded
  cases document with
  | object fields =>
    cases decoded
    obtain ⟨ordered, shallow⟩ := fits.canonical
    refine ⟨shallow, ?_⟩
    have settled := Json.settled_of_ordered _ ordered
    rw [Json.canonical] at settled
    simp [settled, Decoder.properties, Json.canonicalFields_twice]
  | null | bool b | text t | number n | array items => cases decoded

variable {decode : Decoder α} {write : α → Json} {again : α → α}

theorem items (restores : Restores decode write again least) (enough : least ≤ room) {given : List Json} {decoded : List α}
    (fits : ∀ item ∈ given, item.Fits room) (read : Decoder.items decode given = .ok decoded) :
    Decoder.items decode (decoded.map fun a => (write a).settled) = .ok (decoded.map again) ∧
      ∀ a ∈ decoded, (write a).depth ≤ room := by
  induction given generalizing decoded with
  | nil =>
    cases read
    exact ⟨rfl, fun _ member => absurd member List.not_mem_nil⟩
  | cons item given ih =>
    obtain ⟨first, others⟩ := List.forall_mem_cons.mp fits
    simp only [Decoder.items] at read
    split at read
    · cases read
    · rename_i a head
      cases tail : Decoder.items decode given with
      | error defect =>
        rw [tail] at read
        cases read
      | ok rest =>
        rw [tail] at read
        cases read
        have returns := restores room item a enough first head
        obtain ⟨again, shallow⟩ := ih others tail
        refine ⟨?_, List.forall_mem_cons.mpr ⟨returns.shallow, shallow⟩⟩
        simp [Decoder.items, returns.decoded, again, Except.map]

theorem list (restores : Restores decode write again least) :
    Restores (Decoder.list decode) (fun decoded => .array (decoded.map write)) (List.map again) (least + 1) := by
  intro room document decoded enough fits read
  obtain ⟨room, rfl⟩ : ∃ inner, room = inner + 1 := ⟨room - 1, by omega⟩
  cases document with
  | array given =>
    obtain ⟨again, shallow⟩ := restores.items (by omega) (Json.fits_array_iff.mp fits) read
    constructor
    · rw [Json.depth, Nat.add_le_add_iff_right, Json.itemsDepth_le_iff]
      exact List.forall_mem_map.mpr shallow
    · simpa [Json.settled, Json.settledItems_eq_map, Decoder.list, Function.comp_def] using again
  | null | bool b | text t | number n | object fields => cases read

end Restores

def GivenFits (room : Nat) (given : Text → Option Json) : Prop := ∀ name value, given name = some value → value.Fits room

theorem Outcome.apply_complete_iff {f : Outcome (α → β)} {x : Outcome α} :
    f.apply x = .complete b ↔ ∃ g a, f = .complete g ∧ x = .complete a ∧ g a = b := by
  cases f <;> cases x <;> simp [Outcome.apply, Outcome.map]

namespace FieldSet

variable {given : Text → Option Json} {decode : Decoder α} {write : α → Json} {again : α → α}

def Completes (s : FieldSet α) (given : Text → Option Json) (known : α → Prop) : Prop :=
  ∃ a, s.read given = .complete a ∧ known a

theorem completes_done_iff {a : α} {known : α → Prop} : (done a).Completes given known ↔ known a := by
  simp [Completes, done]

theorem completes_next_iff {before : FieldSet (α → β)} {fields : FieldSet α} {known : β → Prop} :
    (before.next fields).Completes given known ↔
      ∃ x, fields.read given = .complete x ∧ before.Completes given fun f => known (f x) := by
  constructor
  · intro ⟨b, read, knownB⟩
    obtain ⟨f, x, first, second, rfl⟩ := Outcome.apply_complete_iff.mp read
    exact ⟨x, second, f, first, knownB⟩
  · intro ⟨x, second, f, first, knownB⟩
    exact ⟨f x, Outcome.apply_complete_iff.mpr ⟨f, x, first, second, rfl⟩, knownB⟩

theorem decode_parts {s : FieldSet α} {document : Json} (fits : document.Fits (room + 1))
    (decoded : s.decode title document = .ok a) : ∃ given, GivenFits room given ∧ s.read given = .complete a := by
  cases document with
  | object fields =>
    refine ⟨fun name => Table.get? name fields, fun name value found => ?_, ?_⟩
    · exact (Json.fits_object_iff.mp fits).2 _ (Table.get?_mem found)
    · simp only [FieldSet.decode, ofObject] at decoded
      split at decoded
      · rename_i complete
        cases decoded
        exact complete
      · split at decoded <;> cases decoded
  | array items =>
    refine ⟨atPosition s.names items, fun name value found => ?_, ?_⟩
    · obtain ⟨before, after, pairs, -⟩ := List.lookup_eq_some_iff.mp found
      have pair : (name, value) ∈ s.names.zip items := by simp [pairs]
      exact Json.fits_array_iff.mp fits value (List.of_mem_zip pair).2
    · simp only [FieldSet.decode, ofArray] at decoded
      split at decoded
      · rename_i complete
        split at decoded
        · cases decoded
        · cases decoded
          exact complete
      · cases decoded
      · cases decoded
  | null | bool b | text t | number n => cases decoded

theorem field_parts (read : (field name absent decode).read given = .complete a) :
    (∃ value, given name = some value ∧ decode value = .ok a) ∨ absent = some a := by
  simp only [field] at read
  split at read
  · rename_i value found
    split at read
    · rename_i decoded
      cases read
      exact .inl ⟨value, found, decoded⟩
    · cases read
  · cases read
    exact .inr rfl
  · cases read

-- Members that make the fields complete again when they are read, and that take no more room
-- than there is. A member without a value is left out.
structure Written (room : Nat) (s : FieldSet α) (members : List (Text × Option Json)) (a : α) : Prop where
  names : s.names = members.map Prod.fst
  shallow : ∀ member ∈ members, ∀ value ∈ member.2, value.depth ≤ room
  read : ∀ given, (∀ member ∈ members, given member.1 = member.2.map Json.settled) → s.read given = .complete a

namespace Written

theorem done (a : α) : Written room (done a) [] a :=
  ⟨rfl, fun _ member => absurd member List.not_mem_nil, fun _ _ => rfl⟩

theorem next {before : FieldSet (α → β)} {fields : FieldSet α} {f : α → β} {x : α} (first : Written room before members f)
    (second : Written room fields more x) : Written room (before.next fields) (members ++ more) (f x) := by
  constructor
  · simp [FieldSet.next, first.names, second.names]
  · exact List.forall_mem_append.mpr ⟨first.shallow, second.shallow⟩
  · intro given values
    obtain ⟨early, late⟩ := List.forall_mem_append.mp values
    simp [FieldSet.next, first.read given early, second.read given late, Outcome.apply, Outcome.map]

theorem present (returns : Returns decode room document a) (name : Text) (absent : Option α) :
    Written room (field name absent decode) [(name, some document)] a := by
  refine ⟨rfl, by simpa using returns.shallow, fun given values => ?_⟩
  have found : given name = some document.settled := by simpa using values
  simp [field, found, returns.decoded]

theorem absent (room : Nat) (name : Text) (a : α) (decode : Decoder α) :
    Written room (field name (some a) decode) [(name, none)] a := by
  refine ⟨rfl, by simp, fun given values => ?_⟩
  have missing : given name = none := by simpa using values
  simp [field, missing]

end Written

theorem required_written (restores : Restores decode write again least) (enough : least ≤ room) (fits : GivenFits room given)
    (read : (required name decode).read given = .complete a) :
    Written room (required name decode) [(name, some (write a))] (again a) := by
  rcases field_parts read with ⟨value, found, decoded⟩ | missing
  · exact .present (restores room value a enough (fits name value found) decoded) name none
  · cases missing

theorem defaulted_written (restores : Restores decode write again least) (sample : Json) (sampled : decode sample = .ok standard)
    (sampleFits : sample.Fits room) (enough : least ≤ room) (fits : GivenFits room given)
    (read : (defaulted name standard decode).read given = .complete a) :
    Written room (defaulted name standard decode) [(name, some (write a))] (again a) := by
  rcases field_parts read with ⟨value, found, decoded⟩ | missing
  · exact .present (restores room value a enough (fits name value found) decoded) name _
  · cases missing
    exact .present (restores room sample _ enough sampleFits sampled) name _

theorem optional_written (restores : Restores decode write id least) (solid : ∀ a, (write a).settled.isNull = false)
    (enough : least ≤ room) (fits : GivenFits room given) (read : (optional name decode).read given = .complete a) :
    Written room (optional name decode) [(name, a.map write)] a := by
  cases a with
  | none => exact .absent room name none _
  | some a =>
    rcases field_parts read with ⟨value, found, decoded⟩ | missing
    · have inner : decode value = .ok a := by
        cases taken : decode value <;> cases value <;> simp_all [Decoder.optional, Except.map]
      have returns := restores room value a enough (fits name value found) inner
      refine .present ⟨returns.shallow, ?_⟩ name _
      have present := solid a
      have decoded := returns.decoded
      cases written : (write a).settled <;> simp_all [Decoder.optional, Except.map, Json.isNull]
    · cases missing

theorem optionalText_written (fits : GivenFits room given) (read : (optional name (Decoder.text .own)).read given = .complete t) :
    Written room (optional name (Decoder.text .own)) [(name, t.map .text)] t :=
  optional_written Restores.text (fun _ => rfl) (Nat.zero_le room) fits read

theorem bag_written (enough : 1 ≤ room) (fits : GivenFits room given)
    (read : (defaulted name [] Decoder.properties).read given = .complete bag) :
    Written room (defaulted name [] Decoder.properties) [(name, some (.object bag))] bag :=
  defaulted_written Restores.properties (.object []) rfl ⟨⟨Table.Ascending.nil, trivial⟩, enough⟩ (Nat.zero_le room) fits read

end FieldSet

def kept (members : List (Text × Option Json)) : Json.Fields :=
  members.filterMap fun (name, value) => value.map fun v => (name, v)

theorem written_eq (members : List (Text × Option Json)) : written members = .object (kept members) := rfl

theorem mem_kept_iff {members : List (Text × Option Json)} : (name, v) ∈ kept members ↔ (name, some v) ∈ members := by
  simp [kept]

theorem kept_distinct {members : List (Text × Option Json)} (distinct : (members.map Prod.fst).Nodup) :
    ((kept members).map Prod.fst).Nodup := by
  refine List.pairwise_map.mpr (List.Pairwise.filterMap _ ?_ (List.pairwise_map.mp distinct))
  intro a b different x fromA y fromB
  obtain ⟨v, -, rfl⟩ := Option.map_eq_some_iff.mp fromA
  obtain ⟨w, -, rfl⟩ := Option.map_eq_some_iff.mp fromB
  exact different

theorem get?_kept {members : List (Text × Option Json)} (distinct : (members.map Prod.fst).Nodup)
    (member : (name, value) ∈ members) :
    Table.get? name (Json.settledMembers [] (kept members)) = value.map Json.settled := by
  refine Option.ext fun found => ?_
  rw [Json.get?_settledMembers]
  constructor
  · rintro (⟨v, ⟨before, after, split, -⟩, rfl⟩ | ⟨missing, -⟩)
    · have other : (name, some v) ∈ members := mem_kept_iff.mp (by simp [split])
      have same := List.inj_on_of_nodup_map distinct member other rfl
      cases same
      rfl
    · cases missing
  · intro written
    obtain ⟨v, rfl, rfl⟩ := Option.map_eq_some_iff.mp written
    exact .inl ⟨v, Json.last_of_mem (kept_distinct distinct) (mem_kept_iff.mpr member), rfl⟩

namespace FieldSet

theorem Written.returns {s : FieldSet α} (all : Written room s members a) (distinct : s.names.Nodup) (title : Text) :
    Returns (s.decode title) (room + 1) (written members) a := by
  rw [all.names] at distinct
  rw [written_eq]
  constructor
  · rw [Json.depth, Nat.add_le_add_iff_right, Json.fieldsDepth_le_iff]
    intro field member
    exact all.shallow _ (mem_kept_iff.mp member) field.2 rfl
  · have read := all.read (fun name => Table.get? name (Json.settledMembers [] (kept members)))
      fun member source => get?_kept distinct source
    simp only [Json.settled, FieldSet.decode, ofObject, read]

theorem restores {s : FieldSet α} {members : α → List (Text × Option Json)} {again : α → α} (distinct : s.names.Nodup)
    (each : ∀ room given a, least ≤ room → GivenFits room given → (s.Completes given fun b => b = a) →
      Written room s (members a) (again a)) (title : Text) :
    Restores (s.decode title) (fun a => written (members a)) again (least + 1) := by
  intro room document a enough fits decoded
  obtain ⟨room, rfl⟩ : ∃ inner, room = inner + 1 := ⟨room - 1, by omega⟩
  obtain ⟨given, givenFits, read⟩ := decode_parts fits decoded
  exact (each room given a (by omega) givenFits ⟨a, read, rfl⟩).returns distinct title

end FieldSet
end Schema
end FieldGateway
