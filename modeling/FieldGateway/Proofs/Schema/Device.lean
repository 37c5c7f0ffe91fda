import FieldGateway.Schema.Device

-- What a device is to the drivers: they check its type, look its resources up by name, and take
-- two devices that count as the same for one.
namespace FieldGateway

theorem checkDriver_ok_iff {device : Device} : device.checkDriver type = .ok () ↔ device.driverType = type := by
  unfold Device.checkDriver
  split <;> simp_all

structure Resource.Named (resources : List Resource) (name : Text) (resource : Resource) : Prop where
  own : resource.name = name
  first : ∃ before after, resources = before ++ resource :: after ∧ ∀ other ∈ before, other.name ≠ name

theorem Resource.Named.mem {resources : List Resource} {name : Text} (named : Resource.Named resources name resource) :
    resource ∈ resources := by
  obtain ⟨before, after, rfl, -⟩ := named.first
  simp

theorem Resource.find?_eq_some_iff {resources : List Resource} {name : Text} :
    Resource.find? name resources = some resource ↔ Resource.Named resources name resource := by
  unfold Resource.find?
  rw [List.find?_eq_some_iff_append]
  constructor
  · rintro ⟨own, before, after, split, others⟩
    exact ⟨by simpa using own, before, after, split, fun other member => by simpa using others other member⟩
  · rintro ⟨own, before, after, split, others⟩
    exact ⟨by simpa using own, before, after, split, fun other member => by simpa using others other member⟩

theorem Resource.find?_eq_none_iff {resources : List Resource} {name : Text} :
    Resource.find? name resources = none ↔ ∀ resource ∈ resources, resource.name ≠ name := by
  simp [Resource.find?]

theorem Resource.beq_eq (a b : Resource) : (a == b) = (a.name == b.name && (a.description == b.description &&
    (a.traits == b.traits && a.attributes == b.attributes))) := by
  cases a
  cases b
  rfl

theorem Profile.beq_eq (a b : Profile) : (a == b) = (a.resources == b.resources) := by
  cases a
  cases b
  rfl

theorem Device.beq_eq (a b : Device) : (a == b) = (a.name == b.name && (a.driverType == b.driverType &&
    (a.manufacturer == b.manufacturer && (a.model == b.model && (a.description == b.description &&
      (a.addressing == b.addressing && a.profile == b.profile)))))) := by
  cases a
  cases b
  rfl

theorem Resource.attributes_eq {a b : Resource} (same : (a == b) = true) : a.attributes = b.attributes := by
  rw [Resource.beq_eq] at same
  simp only [Bool.and_eq_true] at same
  exact eq_of_beq same.2.2.2

theorem Device.resources_beq {a b : Device} (same : (a == b) = true) : (a.resources == b.resources) = true := by
  rw [Device.beq_eq] at same
  simp only [Bool.and_eq_true, Profile.beq_eq] at same
  exact same.2.2.2.2.2.2

theorem Device.resource_beq {a b : Device} {i : Nat} (same : (a == b) = true)
    (there : a.resources[i]? = some resource) :
    ∃ other, b.resources[i]? = some other ∧ (resource == other) = true := by
  have lists : a.resources.isEqv b.resources (· == ·) = true := by
    rw [← List.beq_eq_isEqv]
    exact Device.resources_beq same
  rw [List.isEqv_eq_decide] at lists
  split at lists
  · rename_i length
    obtain ⟨bound, rfl⟩ := List.getElem?_eq_some_iff.mp there
    exact ⟨b.resources[i], List.getElem?_eq_getElem _, of_decide_eq_true lists i bound⟩
  · cases lists

end FieldGateway
