import FieldGateway.Mqtt.Subscriber
import FieldGateway.Proofs.Schema.Device
import FieldGateway.Proofs.Table

-- The devices that a subscriber knows, told by what has happened to it: under a name stands the
-- first configuration that has come since the last removal of the name.
namespace FieldGateway.Mqtt.Subscriber

variable {past : List Action} {action : Action} {name : Text} {device : Device} {devices : Table Device}
  {s : Subscriber}

structure Offers (name : Text) (device : Device) (action : Action) : Prop where
  call : action = .add device
  named : device.name = name
  own : device.driverType = driverType

-- Whatever was registered under the name has been removed since.
def Vacant (past : List Action) (name : Text) : Prop :=
  ∀ before action after device, past = before ++ action :: after → Offers name device action →
    .remove name ∈ after

def Registers (past : List Action) (name : Text) (device : Device) : Prop :=
  ∃ before action after, past = before ++ action :: after ∧ Offers name device action ∧
    Vacant before name ∧ .remove name ∉ after

theorem Offers.not_remove (offers : Offers name device action) : action ≠ .remove name := by
  rw [offers.call]
  exact nofun

theorem vacant_nil : Vacant [] name := by
  intro before action after device split
  simp at split

theorem not_registers_nil : ¬ Registers [] name device := by
  rintro ⟨before, action, after, split, -⟩
  simp at split

theorem concat_split {last : Action} : past ++ [last] = before ++ action :: after ↔
    (past = before ∧ last = action ∧ after = []) ∨ ∃ rest, past = before ++ action :: rest ∧ after = rest ++ [last] := by
  constructor
  · intro split
    rcases after.eq_nil_or_concat with rfl | ⟨rest, other, rfl⟩
    · obtain ⟨rfl, rfl⟩ := List.append_singleton_inj.mp split
      exact .inl ⟨rfl, rfl, rfl⟩
    · rw [List.concat_eq_append, ← List.cons_append, ← List.append_assoc] at split
      obtain ⟨rfl, rfl⟩ := List.append_singleton_inj.mp split
      exact .inr ⟨rest, rfl, List.concat_eq_append⟩
  · rintro (⟨rfl, rfl, rfl⟩ | ⟨rest, rfl, rfl⟩)
    · rfl
    · simp

theorem vacant_concat_iff : Vacant (past ++ [action]) name ↔
    action = .remove name ∨ (Vacant past name ∧ ∀ device, ¬ Offers name device action) := by
  constructor
  · intro vacant
    by_cases removal : action = .remove name
    · exact .inl removal
    · refine .inr ⟨?_, ?_⟩
      · intro before earlier after device split offers
        have gone := vacant before earlier (after ++ [action]) device (by simp [split]) offers
        rcases List.mem_append.mp gone with old | new
        · exact old
        · exact absurd (List.mem_singleton.mp new).symm removal
      · intro device offers
        exact absurd (vacant past action [] device rfl offers) List.not_mem_nil
  · intro cases before earlier after device split offers
    rcases concat_split.mp split with ⟨rfl, rfl, rfl⟩ | ⟨rest, rfl, rfl⟩
    · rcases cases with removal | ⟨-, none⟩
      · exact absurd removal offers.not_remove
      · exact absurd offers (none device)
    · rcases cases with rfl | ⟨vacant, -⟩
      · simp
      · exact List.mem_append_left _ (vacant before earlier rest device rfl offers)

theorem registers_concat_iff : Registers (past ++ [action]) name device ↔
    (Registers past name device ∧ action ≠ .remove name) ∨ (Vacant past name ∧ Offers name device action) := by
  constructor
  · rintro ⟨before, first, after, split, offers, vacant, kept⟩
    rcases concat_split.mp split with ⟨rfl, rfl, rfl⟩ | ⟨rest, rfl, rfl⟩
    · exact .inr ⟨vacant, offers⟩
    · simp only [List.mem_append, List.mem_singleton, not_or] at kept
      exact .inl ⟨⟨before, first, rest, rfl, offers, vacant, kept.1⟩, fun removal => kept.2 removal.symm⟩
  · rintro (⟨⟨before, first, after, rfl, offers, vacant, kept⟩, other⟩ | ⟨vacant, offers⟩)
    · exact ⟨before, first, after ++ [action], by simp, offers, vacant, by simp [kept, Ne.symm other]⟩
    · exact ⟨past, action, [], rfl, offers, vacant, List.not_mem_nil⟩

theorem offers_add_iff : Offers name device (.add other) ↔
    device = other ∧ other.name = name ∧ other.driverType = driverType := by
  constructor
  · rintro ⟨call, named, own⟩
    cases call
    exact ⟨rfl, named, own⟩
  · rintro ⟨rfl, named, own⟩
    exact ⟨rfl, named, own⟩

theorem not_offers_remove : ¬ Offers name device (.remove other) := by
  rintro ⟨call, -⟩
  cases call

theorem not_offers_message : ¬ Offers name device (.message stamp m) := by
  rintro ⟨call, -⟩
  cases call

structure Tracks (past : List Action) (devices : Table Device) : Prop where
  ascending : Table.Ascending devices
  registered : ∀ name device, Table.get? name devices = some device ↔ Registers past name device
  vacant : ∀ name, Table.get? name devices = none ↔ Vacant past name

theorem Tracks.nil : Tracks [] [] := by
  refine ⟨.nil, ?_, ?_⟩
  · intro name device
    simp [Table.get?, not_registers_nil]
  · intro name
    simp [Table.get?, vacant_nil]

theorem Tracks.remove (tracks : Tracks past devices) (removed : Text) :
    Tracks (past ++ [.remove removed]) (Table.erase removed devices) := by
  refine ⟨tracks.ascending.erase removed, ?_, ?_⟩
  · intro name device
    rw [tracks.ascending.get?_erase, registers_concat_iff]
    by_cases same : name = removed
    · simp [same, not_offers_remove]
    · simp [same, Ne.symm same, tracks.registered, not_offers_remove]
  · intro name
    rw [tracks.ascending.get?_erase, vacant_concat_iff]
    by_cases same : name = removed
    · simp [same]
    · simp [same, Ne.symm same, tracks.vacant, not_offers_remove]

theorem Tracks.keep (tracks : Tracks past devices) (other : ∀ name, action ≠ .remove name)
    (nothing : ∀ name device, Offers name device action → ¬ Vacant past name) :
    Tracks (past ++ [action]) devices := by
  refine ⟨tracks.ascending, ?_, ?_⟩
  · intro name device
    rw [tracks.registered, registers_concat_iff]
    constructor
    · intro registered
      exact .inl ⟨registered, other name⟩
    · rintro (⟨registered, -⟩ | ⟨vacant, offers⟩)
      · exact registered
      · exact absurd vacant (nothing name device offers)
  · intro name
    rw [tracks.vacant, vacant_concat_iff]
    constructor
    · intro vacant
      exact .inr ⟨vacant, fun device offers => nothing name device offers vacant⟩
    · rintro (removal | ⟨vacant, -⟩)
      · exact absurd removal (other name)
      · exact vacant

theorem Tracks.put (tracks : Tracks past devices) (own : device.driverType = driverType)
    (absent : Table.get? device.name devices = none) :
    Tracks (past ++ [.add device]) (Table.put device.name device devices) := by
  have vacant := (tracks.vacant device.name).mp absent
  refine ⟨tracks.ascending.put _ _, ?_, ?_⟩
  · intro name found
    rw [Table.get?_put, registers_concat_iff, offers_add_iff, ← tracks.registered]
    by_cases same : name = device.name
    · cases same
      simp [absent, vacant, own, eq_comm]
    · simp [same, Ne.symm same]
  · intro name
    rw [Table.get?_put, vacant_concat_iff, ← tracks.vacant]
    by_cases same : name = device.name
    · simp [same, offers_add_iff, own]
    · simp [same, Ne.symm same, offers_add_iff]

theorem Tracks.step (tracks : Tracks past s.devices) (action : Action) :
    Tracks (past ++ [action]) (s.apply action).devices := by
  cases action with
  | message stamp m => exact tracks.keep nofun fun name device offers => absurd offers not_offers_message
  | remove name => exact tracks.remove name
  | add device =>
    unfold apply addDevice
    dsimp only
    split
    · rename_i fault checked
      refine tracks.keep nofun fun name other offers => ?_
      rw [checkDriver_ok_iff.mpr (offers_add_iff.mp offers).2.2] at checked
      cases checked
    · rename_i checked
      split
      · rename_i present found
        refine tracks.keep nofun fun name other offers vacant => ?_
        rw [(offers_add_iff.mp offers).2.1, (tracks.vacant name).mpr vacant] at found
        cases found
      · rename_i absent
        exact tracks.put (checkDriver_ok_iff.mp checked) absent

end FieldGateway.Mqtt.Subscriber
