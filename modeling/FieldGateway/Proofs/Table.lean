import FieldGateway.Proofs.Text.Order
import FieldGateway.Table

-- A table is read like a finite map. The order of its names makes it one: every name is there
-- at most once, so membership and look-up say the same.
namespace FieldGateway.Table

def Ascending (t : Table α) : Prop := t.Pairwise fun a b => Text.precedes a.1 b.1 = true

instance (t : Table α) : Decidable (Ascending t) :=
  inferInstanceAs (Decidable (t.Pairwise fun a b => Text.precedes a.1 b.1 = true))

theorem Ascending.nil : Ascending ([] : Table α) := List.Pairwise.nil

theorem Ascending.tail (ordered : Ascending (entry :: t)) : Ascending t := (List.pairwise_cons.mp ordered).2

theorem Ascending.head (ordered : Ascending (entry :: t)) (member : x ∈ t) :
    Text.precedes entry.1 x.1 = true := (List.pairwise_cons.mp ordered).1 x member

theorem Ascending.head_ne (ordered : Ascending (entry :: t)) (member : x ∈ t) : x.1 ≠ entry.1 :=
  fun equal => Text.precedes_ne (ordered.head member) equal.symm

theorem Ascending.names_nodup (ordered : Ascending t) : (names t).Nodup :=
  List.pairwise_map.mpr (List.Pairwise.imp (fun before => Text.precedes_ne before) ordered)

theorem get?_mem (found : get? key t = some value) : (key, value) ∈ t := by
  induction t with
  | nil => simp [get?] at found
  | cons entry t ih =>
    obtain ⟨k, v⟩ := entry
    simp only [get?] at found
    split at found
    · rename_i equal
      cases equal
      cases found
      exact List.mem_cons_self
    · exact List.mem_cons_of_mem _ (ih found)

theorem Ascending.get?_eq_some_iff (ordered : Ascending t) : get? key t = some value ↔ (key, value) ∈ t := by
  refine ⟨get?_mem, fun member => ?_⟩
  induction t with
  | nil => cases member
  | cons entry t ih =>
    obtain ⟨k, v⟩ := entry
    rcases List.mem_cons.mp member with equal | later
    · cases equal
      simp [get?]
    · have different : k ≠ key := (ordered.head_ne later).symm
      simpa [get?, different] using ih ordered.tail later

theorem get?_eq_none_iff : get? key t = none ↔ ∀ entry ∈ t, entry.1 ≠ key := by
  induction t with
  | nil => simp [get?]
  | cons entry t ih =>
    obtain ⟨k, v⟩ := entry
    by_cases equal : k = key <;> simp [get?, equal, ih]

theorem get?_put (key : Text) (value : α) (t : Table α) :
    get? name (put key value t) = if name = key then some value else get? name t := by
  induction t with
  | nil => simp only [put, get?, eq_comm]
  | cons entry t ih =>
    obtain ⟨k, v⟩ := entry
    simp only [put]
    split
    · simp only [get?, eq_comm]
    · split
      · rename_i equal
        cases equal
        by_cases same : name = key
        · simp [get?, same]
        · simp [get?, same, Ne.symm same]
      · rename_i different
        simp only [get?, ih]
        split
        · rename_i found
          cases found
          simp [Ne.symm different]
        · rfl

theorem Ascending.mem_put (ordered : Ascending t) :
    entry ∈ put key value t ↔ entry = (key, value) ∨ (entry ∈ t ∧ entry.1 ≠ key) := by
  induction t with
  | nil => simp [put]
  | cons first t ih =>
    obtain ⟨k, v⟩ := first
    have behind : Text.precedes key k = true ∨ key = k → ∀ x ∈ t, x.1 ≠ key := by
      intro notBehind x member equal
      have later := ordered.head member
      rcases notBehind with before | same
      · exact Text.precedes_ne (Text.precedes_trans before later) equal.symm
      · exact Text.precedes_ne later (by simpa [same] using equal.symm)
    simp only [put]
    split
    · rename_i before
      have different : k ≠ key := (Text.precedes_ne before).symm
      have others := behind (.inl before)
      simp only [List.mem_cons]
      constructor
      · rintro (rfl | rfl | member)
        · exact .inl rfl
        · exact .inr ⟨.inl rfl, different⟩
        · exact .inr ⟨.inr member, others _ member⟩
      · rintro (rfl | ⟨rfl | member, _⟩)
        · exact .inl rfl
        · exact .inr (.inl rfl)
        · exact .inr (.inr member)
    · split
      · rename_i equal
        have others := behind (.inr equal)
        cases equal
        simp only [List.mem_cons]
        constructor
        · rintro (rfl | member)
          · exact .inl rfl
          · exact .inr ⟨.inr member, others _ member⟩
        · rintro (rfl | ⟨rfl | member, different⟩)
          · exact .inl rfl
          · exact absurd rfl different
          · exact .inr member
      · rename_i different
        simp only [List.mem_cons, ih ordered.tail]
        constructor
        · rintro (rfl | rfl | ⟨member, other⟩)
          · exact .inr ⟨.inl rfl, fun equal => different equal.symm⟩
          · exact .inl rfl
          · exact .inr ⟨.inr member, other⟩
        · rintro (rfl | ⟨rfl | member, other⟩)
          · exact .inr (.inl rfl)
          · exact .inl rfl
          · exact .inr (.inr ⟨member, other⟩)

theorem Ascending.put {t : Table α} (ordered : Ascending t) (key : Text) (value : α) :
    Ascending (Table.put key value t) := by
  induction t with
  | nil => exact List.pairwise_singleton _ _
  | cons first t ih =>
    obtain ⟨k, v⟩ := first
    simp only [Table.put]
    split
    · rename_i before
      refine List.pairwise_cons.mpr ⟨fun x member => ?_, ordered⟩
      rcases List.mem_cons.mp member with rfl | later
      · exact before
      · exact Text.precedes_trans before (ordered.head later)
    · split
      · rename_i equal
        cases equal
        exact List.pairwise_cons.mpr ⟨fun x member => ordered.head member, ordered.tail⟩
      · rename_i notBefore different
        have after : Text.precedes k key = true := by
          rcases Text.precedes_total key k with before | same | after
          · exact absurd before notBefore
          · exact absurd same different
          · exact after
        refine List.pairwise_cons.mpr ⟨fun x member => ?_, ih ordered.tail⟩
        rcases ordered.tail.mem_put.mp member with rfl | ⟨old, _⟩
        · exact after
        · exact ordered.head old

theorem erase_sublist (key : Text) (t : Table α) : (erase key t).Sublist t := by
  induction t with
  | nil => exact .slnil
  | cons first t ih =>
    obtain ⟨k, v⟩ := first
    simp only [erase]
    split
    · exact List.sublist_cons_self _ _
    · exact ih.cons_cons _

theorem Ascending.erase (ordered : Ascending t) (key : Text) : Ascending (Table.erase key t) :=
  List.Pairwise.sublist (erase_sublist key t) ordered

theorem Ascending.mem_erase (ordered : Ascending t) :
    entry ∈ Table.erase key t ↔ entry ∈ t ∧ entry.1 ≠ key := by
  induction t with
  | nil => simp [Table.erase]
  | cons first t ih =>
    obtain ⟨k, v⟩ := first
    simp only [Table.erase]
    split
    · rename_i equal
      cases equal
      refine ⟨fun member => ⟨List.mem_cons_of_mem _ member, ordered.head_ne member⟩, ?_⟩
      rintro ⟨member, different⟩
      rcases List.mem_cons.mp member with rfl | later
      · exact absurd rfl different
      · exact later
    · rename_i different
      simp only [List.mem_cons, ih ordered.tail]
      constructor
      · rintro (rfl | ⟨member, other⟩)
        · exact ⟨.inl rfl, different⟩
        · exact ⟨.inr member, other⟩
      · rintro ⟨rfl | member, other⟩
        · exact .inl rfl
        · exact .inr ⟨member, other⟩

theorem Ascending.get?_erase (ordered : Ascending t) :
    get? name (Table.erase key t) = if name = key then none else get? name t := by
  split
  · rename_i same
    refine get?_eq_none_iff.mpr fun entry member => ?_
    rw [same]
    exact (ordered.mem_erase.mp member).2
  · rename_i different
    refine Option.ext fun value => ?_
    rw [(ordered.erase key).get?_eq_some_iff, ordered.get?_eq_some_iff, ordered.mem_erase]
    exact and_iff_left different

theorem Ascending.ext {t u : Table α} (ordered : Ascending t) (also : Ascending u)
    (same : ∀ entry, entry ∈ t ↔ entry ∈ u) : t = u := by
  induction t generalizing u with
  | nil =>
    cases u with
    | nil => rfl
    | cons y u => exact absurd ((same y).mpr List.mem_cons_self) List.not_mem_nil
  | cons x t ih =>
    cases u with
    | nil => exact absurd ((same x).mp List.mem_cons_self) List.not_mem_nil
    | cons y u =>
      have first : x = y := by
        rcases List.mem_cons.mp ((same x).mp List.mem_cons_self) with equal | later
        · exact equal
        · rcases List.mem_cons.mp ((same y).mpr List.mem_cons_self) with equal | earlier
          · exact equal.symm
          · have before := ordered.head earlier
            rw [Text.precedes_asymm (also.head later)] at before
            cases before
      subst first
      rw [ih ordered.tail also.tail]
      intro entry
      have whole := same entry
      simp only [List.mem_cons] at whole
      by_cases equal : entry = x
      · subst equal
        exact iff_of_false (fun later => ordered.head_ne later rfl) fun later => also.head_ne later rfl
      · simpa [equal] using whole

structure Filed (nameOf : α → Text) (t : Table α) : Prop where
  ascending : Ascending t
  named : ∀ entry ∈ t, entry.1 = nameOf entry.2

namespace Filed

variable {nameOf : α → Text} {t : Table α} {value old : α}

theorem nil : Filed nameOf [] := ⟨.nil, fun _ member => absurd member List.not_mem_nil⟩

theorem mem (filed : Filed nameOf t) (member : (key, value) ∈ t) : (nameOf value, value) ∈ t := by
  have same : key = nameOf value := filed.named _ member
  rwa [same] at member

theorem put (filed : Filed nameOf t) (value : α) : Filed nameOf (Table.put (nameOf value) value t) := by
  refine ⟨filed.ascending.put _ _, fun entry member => ?_⟩
  rcases filed.ascending.mem_put.mp member with rfl | ⟨old, _⟩
  · rfl
  · exact filed.named entry old

theorem erase (filed : Filed nameOf t) (key : Text) : Filed nameOf (Table.erase key t) :=
  ⟨filed.ascending.erase key, fun entry member => filed.named entry (filed.ascending.mem_erase.mp member).1⟩

theorem mem_put (filed : Filed nameOf t) : (nameOf old, old) ∈ Table.put (nameOf value) value t ↔
    old = value ∨ ((nameOf old, old) ∈ t ∧ nameOf old ≠ nameOf value) := by
  rw [filed.ascending.mem_put, Prod.mk.injEq]
  refine or_congr_left ⟨And.right, ?_⟩
  rintro rfl
  exact ⟨rfl, rfl⟩

theorem name_eq_iff (filed : Filed nameOf t) (found : get? key t = some old) (member : (nameOf value, value) ∈ t) :
    nameOf value = key ↔ value = old := by
  constructor
  · rintro rfl
    have again := filed.ascending.get?_eq_some_iff.mpr member
    rw [found] at again
    exact (Option.some.inj again).symm
  · rintro rfl
    exact (filed.named _ (get?_mem found)).symm

theorem values_nodup (filed : Filed nameOf t) : (t.map Prod.snd).Nodup := by
  refine List.pairwise_map.mpr (List.Pairwise.imp_of_mem ?_ filed.ascending)
  intro x y memberX memberY before equal
  refine Text.precedes_ne before ?_
  rw [filed.named x memberX, filed.named y memberY, equal]

end Filed
end FieldGateway.Table
