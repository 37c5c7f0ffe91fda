import FieldGateway.Proofs.Schema.Device
import FieldGateway.Proofs.Schema.Members

-- Configurations are decoded again from what is written of them. Only a limit that no double holds
-- is lost: it has become infinite, and an infinity is written as null.
namespace FieldGateway

open Schema

theorem Binary.equals_self (x : Finite f) : Binary.equals (.finite x) (.finite x) = true := by
  simp [Binary.equals]

theorem Access.restores : Restores Access.decode Access.toJson id 0 := by
  intro room document access _ _ _
  refine ⟨Nat.zero_le _, ?_⟩
  cases access <;> rfl

theorem ValueType.name_ofName (t : Text) : (ofName t).name = t := by
  unfold ofName
  split
  · rename_i found
    simpa using List.find?_some found
  · rfl

theorem ValueType.restores : Restores ValueType.decode (fun type => .text type.name) id 0 := by
  intro room document type _ _ decoded
  cases document with
  | text t =>
    cases decoded
    refine ⟨Nat.zero_le _, ?_⟩
    simp [Json.settled, ValueType.decode, Decoder.text, Except.map, name_ofName]
  | null | bool b | number n | array items | object fields => cases decoded

namespace Traits

def limits (t : Traits) : List (Option (Binary .double)) := [t.minimum, t.maximum, t.scale, t.offset, t.base]

def Bounded (t : Traits) : Prop := ∀ limit ∈ t.limits, limit.all Binary.isFinite = true

def bounded (t : Traits) : Traits :=
  { t with
    minimum := t.minimum.filter Binary.isFinite
    maximum := t.maximum.filter Binary.isFinite
    scale := t.scale.filter Binary.isFinite
    offset := t.offset.filter Binary.isFinite
    base := t.base.filter Binary.isFinite }

theorem limit_returns (room : Nat) (limit : Binary .double) :
    Returns (Decoder.optional Decoder.double) room (Json.ofBinary limit) ((some limit).filter Binary.isFinite) := by
  cases limit with
  | finite x =>
    refine ⟨Nat.zero_le _, ?_⟩
    simp only [Json.ofBinary, Json.ofDouble, Json.settled, Decoder.optional, Decoder.double,
      Json.Numeral.toBinary_ofDouble]
    rfl
  | infinite negative | nan => exact ⟨Nat.zero_le _, rfl⟩

theorem limit_written (room : Nat) (name : Text) (limit : Option (Binary .double)) :
    FieldSet.Written room (.optional name Decoder.double) [(name, limit.map Json.ofBinary)] (limit.filter Binary.isFinite) := by
  cases limit with
  | none => exact .absent room name none _
  | some limit => exact .present (limit_returns room limit) name _

theorem fields_distinct : fields.names.Nodup := by decide

theorem restores : Restores decode toJson bounded 2 := by
  refine FieldSet.restores fields_distinct (fun room given t enough fits read => ?_) "ResourceProperties"
  simp only [fields, FieldSet.completes_next_iff, FieldSet.completes_done_iff] at read
  obtain ⟨bag, readBag, base, readBase, offset, readOffset, scale, readScale, shift, readShift, mask, readMask, maximum,
    readMaximum, minimum, readMinimum, mediaType, readMediaType, assertion, readAssertion, defaultValue, readDefaultValue,
    units, readUnits, type, readType, access, readAccess, rfl⟩ := read
  exact (FieldSet.Written.done Traits.mk)
    |>.next (FieldSet.defaulted_written Access.restores (.text "R") rfl ⟨trivial, Nat.zero_le _⟩ (Nat.zero_le _) fits readAccess)
    |>.next (FieldSet.required_written ValueType.restores (Nat.zero_le _) fits readType)
    |>.next (FieldSet.optionalText_written fits readUnits)
    |>.next (FieldSet.optionalText_written fits readDefaultValue)
    |>.next (FieldSet.optionalText_written fits readAssertion)
    |>.next (FieldSet.optionalText_written fits readMediaType)
    |>.next (limit_written room "minimum" minimum)
    |>.next (limit_written room "maximum" maximum)
    |>.next (FieldSet.optional_written (Restores.unsigned "u64" u64Greatest) (fun _ => rfl) (Nat.zero_le _) fits readMask)
    |>.next (FieldSet.optional_written Restores.signed64 (fun _ => rfl) (Nat.zero_le _) fits readShift)
    |>.next (limit_written room "scale" scale)
    |>.next (limit_written room "offset" offset)
    |>.next (limit_written room "base" base)
    |>.next (FieldSet.bag_written enough fits readBag)

theorem sameLimit_filter (limit : Option (Binary .double)) :
    sameLimit limit (limit.filter Binary.isFinite) = limit.all Binary.isFinite := by
  match limit with
  | none | some (.infinite negative) | some .nan => rfl
  | some (.finite x) => exact Binary.equals_self x

theorem beq_bounded_iff (t : Traits) : (t == t.bounded) = true ↔ t.Bounded := by
  change t.equals t.bounded = true ↔ t.Bounded
  simp [equals, bounded, Bounded, limits, sameLimit_filter, and_assoc]

end Traits

namespace Resource

def Bounded (r : Resource) : Prop := r.traits.Bounded

def bounded (r : Resource) : Resource := { r with traits := r.traits.bounded }

theorem fields_distinct : fields.names.Nodup := by decide

theorem restores : Restores decode toJson bounded 3 := by
  refine FieldSet.restores fields_distinct (fun room given r enough fits read => ?_) "DeviceResource"
  simp only [fields, FieldSet.completes_next_iff, FieldSet.completes_done_iff] at read
  obtain ⟨attributes, readAttributes, traits, readTraits, description, readDescription, name, readName, rfl⟩ := read
  have plain : (Json.object [("valueType", .text "String")]).Fits room :=
    ⟨⟨List.pairwise_singleton _ _, trivial, trivial⟩, Nat.le_of_succ_le enough⟩
  exact (FieldSet.Written.done Resource.mk)
    |>.next (FieldSet.required_written Restores.text (Nat.zero_le _) fits readName)
    |>.next (FieldSet.optionalText_written fits readDescription)
    |>.next (FieldSet.defaulted_written Traits.restores _ rfl plain enough fits readTraits)
    |>.next (FieldSet.bag_written (Nat.le_of_succ_le enough) fits readAttributes)

theorem beq_bounded_iff (r : Resource) : (r == r.bounded) = true ↔ r.Bounded := by
  simp [Resource.beq_eq, bounded, Traits.beq_bounded_iff, Bounded]

end Resource

namespace Profile

def Bounded (p : Profile) : Prop := ∀ resource ∈ p.resources, resource.Bounded

def bounded (p : Profile) : Profile := ⟨p.resources.map Resource.bounded⟩

theorem fields_distinct : fields.names.Nodup := by decide

theorem restores : Restores decode toJson bounded 5 := by
  refine FieldSet.restores fields_distinct (fun room given p enough fits read => ?_) "DeviceProfile"
  simp only [fields, FieldSet.completes_next_iff, FieldSet.completes_done_iff] at read
  obtain ⟨resources, readResources, rfl⟩ := read
  have empty : (Json.array []).Fits room := ⟨trivial, Nat.le_trans (by decide) enough⟩
  exact (FieldSet.Written.done Profile.mk)
    |>.next (FieldSet.defaulted_written Resource.restores.list _ rfl empty enough fits readResources)

theorem beq_bounded_iff (p : Profile) : (p == p.bounded) = true ↔ p.Bounded := by
  rw [Profile.beq_eq, bounded, Bounded]
  induction p.resources with
  | nil => simp
  | cons resource resources ih => simp [ih, Resource.beq_bounded_iff]

end Profile

namespace Device

def Bounded (d : Device) : Prop := d.profile.Bounded

def bounded (d : Device) : Device := { d with profile := d.profile.bounded }

theorem fields_distinct : fields.names.Nodup := by decide

theorem restores : Restores decode toJson bounded 6 := by
  refine FieldSet.restores fields_distinct (fun room given d enough fits read => ?_) "DeviceConfig"
  simp only [fields, FieldSet.completes_next_iff, FieldSet.completes_done_iff] at read
  obtain ⟨profile, readProfile, addressing, readAddressing, description, readDescription, model, readModel, manufacturer,
    readManufacturer, driverType, readDriverType, name, readName, rfl⟩ := read
  have opened : 1 ≤ room := Nat.le_trans (by decide) enough
  have empty : (Json.object []).Fits room := ⟨⟨Table.Ascending.nil, trivial⟩, opened⟩
  exact (FieldSet.Written.done Device.mk)
    |>.next (FieldSet.required_written Restores.text (Nat.zero_le _) fits readName)
    |>.next (FieldSet.required_written Restores.text (Nat.zero_le _) fits readDriverType)
    |>.next (FieldSet.optionalText_written fits readManufacturer)
    |>.next (FieldSet.optionalText_written fits readModel)
    |>.next (FieldSet.optionalText_written fits readDescription)
    |>.next (FieldSet.bag_written opened fits readAddressing)
    |>.next (FieldSet.defaulted_written Profile.restores _ rfl empty enough fits readProfile)

theorem beq_bounded_iff (d : Device) : (d == d.bounded) = true ↔ d.Bounded := by
  simp [Device.beq_eq, bounded, Profile.beq_bounded_iff, Bounded]

end Device

namespace DriverSpec

theorem fields_distinct : fields.names.Nodup := by decide

theorem restores : Restores decode toJson id 2 := by
  refine FieldSet.restores fields_distinct (fun room given spec enough fits read => ?_) "DriverConfig"
  simp only [fields, FieldSet.completes_next_iff, FieldSet.completes_done_iff] at read
  obtain ⟨properties, readProperties, type, readType, rfl⟩ := read
  exact (FieldSet.Written.done DriverSpec.mk)
    |>.next (FieldSet.required_written Restores.text (Nat.zero_le _) fits readType)
    |>.next (FieldSet.bag_written enough fits readProperties)

end DriverSpec

namespace BusSpec

theorem fields_distinct : fields.names.Nodup := by decide

theorem restores : Restores decode toJson id 2 := by
  refine FieldSet.restores fields_distinct (fun room given spec enough fits read => ?_) "MessageBusConfig"
  simp only [fields, FieldSet.completes_next_iff, FieldSet.completes_done_iff] at read
  obtain ⟨properties, readProperties, type, readType, enabled, readEnabled, rfl⟩ := read
  exact (FieldSet.Written.done BusSpec.mk)
    |>.next (FieldSet.defaulted_written Restores.bool (.bool false) rfl ⟨trivial, Nat.zero_le _⟩ (Nat.zero_le _) fits readEnabled)
    |>.next (FieldSet.required_written Restores.text (Nat.zero_le _) fits readType)
    |>.next (FieldSet.bag_written enough fits readProperties)

end BusSpec

namespace Command

theorem fields_distinct : fields.names.Nodup := by decide

theorem restores : Restores decode toJson id 1 := by
  refine FieldSet.restores fields_distinct (fun room given command enough fits read => ?_) "Command"
  simp only [fields, FieldSet.completes_next_iff, FieldSet.completes_done_iff] at read
  obtain ⟨value, readValue, resource, readResource, device, readDevice, rfl⟩ := read
  exact (FieldSet.Written.done Command.mk)
    |>.next (FieldSet.required_written Restores.text (Nat.zero_le _) fits readDevice)
    |>.next (FieldSet.required_written Restores.text (Nat.zero_le _) fits readResource)
    |>.next (FieldSet.required_written Restores.document (Nat.zero_le _) fits readValue)

end Command

namespace Schema

-- What is written of a document's configuration is decoded again: as it is, and by way of its text
-- unless more containers are open at once in the document than the reader allows.
structure Rewritten (decode : Decoder α) (document written : Json) (again : α) : Prop where
  decoded : decode written.settled = .ok again
  read : document.depth ≤ Json.deepest → Json.read? written.render = some written.settled

theorem Restores.rewritten {decode : Decoder α} {write : α → Json} {again : α → α} {document : Json}
    (restores : Restores decode write again least) (shallow : least ≤ Json.deepest) (ordered : document.Ordered)
    (decoded : decode document = .ok a) : Rewritten decode document (write a) (again a) := by
  constructor
  · exact (restores (max least document.depth) document a (Nat.le_max_left _ _) ⟨ordered, Nat.le_max_right _ _⟩ decoded).decoded
  · intro readable
    have returns := restores Json.deepest document a shallow ⟨ordered, readable⟩ decoded
    rw [Json.read?_render_settled, if_pos returns.shallow]

-- Configurations are the same after they have been written and decoded again, but for limits that
-- no double holds: these are lost.
theorem configurations_restored (document : Json) (ordered : document.Ordered) :
    (∀ spec, DriverSpec.decode document = .ok spec → Rewritten DriverSpec.decode document spec.toJson spec) ∧
    (∀ spec, BusSpec.decode document = .ok spec → Rewritten BusSpec.decode document spec.toJson spec) ∧
    (∀ command, Command.decode document = .ok command → Rewritten Command.decode document command.toJson command) ∧
    (∀ traits, Traits.decode document = .ok traits →
      Rewritten Traits.decode document traits.toJson traits.bounded ∧ ((traits == traits.bounded) = true ↔ traits.Bounded)) ∧
    (∀ resource, Resource.decode document = .ok resource →
      Rewritten Resource.decode document resource.toJson resource.bounded ∧
        ((resource == resource.bounded) = true ↔ resource.Bounded)) ∧
    (∀ profile, Profile.decode document = .ok profile →
      Rewritten Profile.decode document profile.toJson profile.bounded ∧
        ((profile == profile.bounded) = true ↔ profile.Bounded)) ∧
    (∀ device, Device.decode document = .ok device →
      Rewritten Device.decode document device.toJson device.bounded ∧ ((device == device.bounded) = true ↔ device.Bounded)) := by
  refine ⟨?driver, ?bus, ?command, ?traits, ?resource, ?profile, ?device⟩
  case driver =>
    intro spec decoded
    exact DriverSpec.restores.rewritten (by decide) ordered decoded
  case bus =>
    intro spec decoded
    exact BusSpec.restores.rewritten (by decide) ordered decoded
  case command =>
    intro command decoded
    exact Command.restores.rewritten (by decide) ordered decoded
  case traits =>
    intro traits decoded
    exact ⟨Traits.restores.rewritten (by decide) ordered decoded, traits.beq_bounded_iff⟩
  case resource =>
    intro resource decoded
    exact ⟨Resource.restores.rewritten (by decide) ordered decoded, resource.beq_bounded_iff⟩
  case profile =>
    intro profile decoded
    exact ⟨Profile.restores.rewritten (by decide) ordered decoded, profile.beq_bounded_iff⟩
  case device =>
    intro device decoded
    exact ⟨Device.restores.rewritten (by decide) ordered decoded, device.beq_bounded_iff⟩

def five : Digit := ⟨5, by decide⟩

def temperatureDocument : Json :=
  .object [("attributes", .object [("gain", .number ⟨false, 1, [five, Digit.zero], none⟩)]), ("name", .text "temp"),
    ("properties", .object [("maximum", .number ⟨false, 1, [five], some ⟨false, ⟨3, by decide⟩, []⟩⟩),
      ("valueType", .text "Float64")])]

def boilerDocument : Json :=
  .object [("driverType", .text "opcua"), ("name", .text "boiler"),
    ("profile", .object [("deviceResources", .array [temperatureDocument])])]

theorem configurations_restored_boiler : ∃ device, boilerDocument.Ordered ∧ Device.decode boilerDocument = .ok device ∧
    device.Bounded ∧ Rewritten Device.decode boilerDocument device.toJson device.bounded := by
  have resource : temperatureDocument.Ordered :=
    ⟨by decide, ⟨by decide, trivial, trivial⟩, trivial, ⟨by decide, trivial, trivial, trivial⟩, trivial⟩
  have ordered : boilerDocument.Ordered :=
    ⟨by decide, trivial, trivial, ⟨by decide, ⟨resource, trivial⟩, trivial⟩, trivial⟩
  have restored := (configurations_restored boilerDocument ordered).2.2.2.2.2.2
  refine ⟨_, ordered, rfl, ?_⟩
  obtain ⟨rewritten, same⟩ := restored _ rfl
  exact ⟨same.mp (by decide +kernel), rewritten⟩

-- A limit of 1e400 is above all doubles.
def unlimitedDocument : Json :=
  .object [("minimum", .number ⟨false, 1, [], some ⟨false, ⟨4, by decide⟩, [Digit.zero, Digit.zero]⟩⟩),
    ("valueType", .text "Int8")]

theorem limit_lost : ∃ traits again, Traits.decode unlimitedDocument = .ok traits ∧
    Traits.decode traits.toJson.settled = .ok again ∧ (traits == again) = false :=
  ⟨_, _, rfl, rfl, rfl⟩

end Schema
end FieldGateway
