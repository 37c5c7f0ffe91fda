import FieldGateway.Mqtt.Inbound
import FieldGateway.Mqtt.Payload
import FieldGateway.Proofs.Telemetry.RoundTrip
import FieldGateway.Proofs.Text.Bytes

-- A published result is written without a document of its own or as the only member of one. Both
-- ways write its value alike, and both payloads are read back.
namespace FieldGateway

variable {type : ValueType} {reading : Json} {v : Value} {t : Telemetry}

theorem Json.renderFields_eq (fields : Json.Fields) :
    Json.renderFields fields =
      (fields.flatMap fun field => ',' :: Json.quotedText field.1 ++ ':' :: field.2.render) ++ ['}'] := by
  induction fields with
  | nil => rfl
  | cons field fields ih => simp [Json.renderFields, ih]

theorem Json.renderWritten_render (fields : Json.Fields) :
    Json.renderWritten (fields.map fun field => (field.1, field.2.render)) = (Json.object fields).render := by
  cases fields with
  | nil => rfl
  | cons field fields => simp [Json.renderWritten, Json.render, Json.renderFields_eq, List.flatMap_map]

theorem Json.render_ofInt (i : Int) : (Json.ofInt i).render = Text.ofInt i := by
  by_cases negative : i < 0
  · simp [Json.ofInt, Json.render, Json.Numeral.ofInt, Json.Numeral.text, Text.ofInt, negative]
  · simp [Json.ofInt, Json.render, Json.Numeral.ofInt, Json.Numeral.text, Text.ofInt, negative]

namespace Value

theorem render_toJson (v : Value) : v.toJson.render = v.render := by
  cases v with
  | bool b => cases b <;> rfl
  | integer type i within => exact Json.render_ofInt i
  | single x => cases x <;> rfl
  | double x => cases x <;> rfl
  | text t | object document => rfl

theorem ofReading_ordered (ordered : reading.Ordered) (coerced : ofReading type reading = .ok v) :
    v.toJson.Ordered := by
  cases type with
  | bool => obtain ⟨b, rfl⟩ := ofBool_parts coerced; trivial
  | text => obtain ⟨t, rfl⟩ := ofText_parts coerced; trivial
  | integer type => obtain ⟨i, within, rfl⟩ := ofInteger_parts coerced; trivial
  | single => obtain ⟨y, rfl⟩ := ofSingle_parts coerced; trivial
  | double => obtain ⟨x, rfl⟩ := ofDouble_parts coerced; trivial
  | object =>
    cases coerced
    exact ordered
  | other name => cases coerced

theorem ofReading_null_iff (coerced : ofReading type reading = .ok v) :
    v.toJson = .null ↔ type = .object ∧ reading = .null := by
  cases type with
  | bool => obtain ⟨b, rfl⟩ := ofBool_parts coerced; simp [toJson]
  | text => obtain ⟨t, rfl⟩ := ofText_parts coerced; simp [toJson]
  | integer type => obtain ⟨i, within, rfl⟩ := ofInteger_parts coerced; simp [toJson, Json.ofInt]
  | single => obtain ⟨y, rfl⟩ := ofSingle_parts coerced; simp [toJson, Json.ofSingle]
  | double => obtain ⟨x, rfl⟩ := ofDouble_parts coerced; simp [toJson, Json.ofBinary, Json.ofDouble]
  | object =>
    cases coerced
    simp [toJson]
  | other name => cases coerced

theorem ofReading_finite (coerced : ofReading type reading = .ok v) (real : type = .single ∨ type = .double) :
    ∃ n x, v.toJson = .number n ∧ n.toBinary .double = .finite x := by
  rcases real with rfl | rfl
  · obtain ⟨y, rfl⟩ := ofSingle_parts coerced
    obtain ⟨x, double, -⟩ := Json.Numeral.toBinary_ofSingle y
    exact ⟨_, x, rfl, double⟩
  · obtain ⟨x, rfl⟩ := ofDouble_parts coerced
    exact ⟨_, x, rfl, Json.Numeral.toBinary_ofDouble x⟩

end Value

namespace Telemetry

theorem ofReading_parts {name : Text} {stamp : Int} (coerced : ofReading name type stamp reading = .ok t) :
    ∃ v, Value.ofReading type reading = .ok v ∧ t = ⟨name, type, v, stamp⟩ := by
  unfold ofReading at coerced
  split at coerced
  · rename_i v found
    cases coerced
    exact ⟨v, found, rfl⟩
  · cases coerced

def members (t : Telemetry) : Json.Fields :=
  [("name", .text t.name), ("type", .text t.type.name), ("value", t.value.toJson), ("createTimestamp", .ofInt t.stamp)]

theorem render_members (t : Telemetry) : t.render = (Json.object t.members).render := by
  rw [← Json.renderWritten_render]
  simp [render, members, Value.render_toJson, Json.render_ofInt, Json.render]

end Telemetry

namespace Mqtt

theorem payloadFields?_render {members : Json.Fields} (shallow : (Json.object members).depth ≤ Json.deepest) :
    payloadFields? (Text.toBytes (Json.object members).render) = some (Json.settledMembers [] members) := by
  unfold payloadFields?
  rw [Text.ofBytes?_toBytes, Option.bind_some, Json.read?_render_settled, if_pos shallow]
  rfl

-- Both layouts are read back, with the same text for the value. It is null only where a reading of
-- null was asked for as it is, and a real value is a number that has a double.
theorem encode_readsBack {name : Text} {stamp : Int} (ordered : reading.Ordered)
    (coerced : Telemetry.ofReading name type stamp reading = .ok t) (shallow : t.value.toJson.depth ≤ 126) :
    Value.ofReading type reading = .ok t.value ∧
    payloadFields? (Text.toBytes (Layout.map.encode t)) = some [(name, t.value.toJson)] ∧
    payloadFields? (Text.toBytes (Layout.object.encode t)) = some
      ([("createTimestamp", .ofInt stamp), ("name", .text name), ("type", .text type.name),
        ("value", t.value.toJson)] : Json.Fields) ∧
    (∃ text, text = t.value.toJson.render ∧ Layout.map.encode t = Json.renderWritten [(name, text)] ∧
      Layout.object.encode t = Json.renderWritten [("name", Json.quotedText name),
        ("type", Json.quotedText type.name), ("value", text), ("createTimestamp", Text.ofInt stamp)]) ∧
    (t.value.toJson = .null ↔ type = .object ∧ reading = .null) ∧
    (type = .single ∨ type = .double → ∃ n x, t.value.toJson = .number n ∧ n.toBinary .double = .finite x) := by
  obtain ⟨v, accepted, rfl⟩ := Telemetry.ofReading_parts coerced
  have shallow : v.toJson.depth ≤ 126 := shallow
  have same : v.toJson.settled = v.toJson :=
    Json.settled_of_ordered _ (Value.ofReading_ordered ordered accepted)
  refine ⟨accepted, ?_, ?_, ⟨v.toJson.render, rfl, ?_, ?_⟩, Value.ofReading_null_iff accepted,
    Value.ofReading_finite accepted⟩
  · have room : (Json.object [(name, v.toJson)]).depth ≤ Json.deepest := by
      simp only [Json.depth, Json.fieldsDepth, Json.deepest]
      omega
    simp [Layout.encode, payloadFields?_render room, Json.settledMembers, Table.put, same]
  · let result : Telemetry := ⟨name, type, v, stamp⟩
    have room : (Json.object result.members).depth ≤ Json.deepest := by
      simp only [result, Telemetry.members, Json.depth, Json.fieldsDepth, Json.deepest, Json.ofInt]
      omega
    have sorted : Json.settledMembers [] result.members =
        ([("createTimestamp", .ofInt stamp), ("name", .text name), ("type", .text type.name),
          ("value", v.toJson.settled)] : Json.Fields) := rfl
    have encoded : Layout.object.encode result = (Json.object result.members).render := result.render_members
    rw [encoded, payloadFields?_render room, sorted, same]
  · exact (Json.renderWritten_render [(name, v.toJson)]).symm
  · rw [Value.render_toJson]
    rfl

theorem encode_readsBack_list :
    ∃ t, Telemetry.ofReading "le\"vel" .object (-5) (.array [.null, .array [.bool true]]) = .ok t ∧
      payloadFields? (Text.toBytes (Layout.map.encode t)) = some
        ([("le\"vel", .array [.null, .array [.bool true]])] : Json.Fields) ∧
      payloadFields? (Text.toBytes (Layout.object.encode t)) = some
        ([("createTimestamp", .ofInt (-5)), ("name", .text "le\"vel"), ("type", .text "Object"),
          ("value", .array [.null, .array [.bool true]])] : Json.Fields) := by
  let reading : Json := .array [.null, .array [.bool true]]
  have ordered : reading.Ordered := ⟨trivial, ⟨trivial, trivial⟩, trivial⟩
  have coerced : Telemetry.ofReading "le\"vel" .object (-5) reading =
      .ok ⟨"le\"vel", .object, .object reading, -5⟩ := rfl
  obtain ⟨-, map, object, -⟩ := encode_readsBack ordered coerced (by decide)
  exact ⟨_, coerced, map, object⟩

end Mqtt
end FieldGateway
