import FieldGateway.OpcUa.Request
import Mathlib.Data.List.Nodup

-- The requests of a device are numbered without a gap, so merging two lists of them lays the
-- newer one over the beginning of the older one.
namespace FieldGateway.OpcUa.Request

variable {start handle : Nat} {r : Request} {resource : Resource} {known fresh requests : List Request}

def Numbered (start : Nat) (requests : List Request) : Prop :=
  requests.map Request.handle = List.range' start requests.length

theorem numbered_nil : Numbered start [] := rfl

theorem numbered_cons_iff : Numbered start (r :: requests) ↔ r.handle = start ∧ Numbered (start + 1) requests := by
  simp [Numbered, List.range'_succ]

namespace Numbered

theorem handle_mem (numbered : Numbered start requests) (member : r ∈ requests) :
    start ≤ r.handle ∧ r.handle < start + requests.length := by
  have present : r.handle ∈ requests.map Request.handle := List.mem_map_of_mem member
  rw [numbered, List.mem_range'_1] at present
  exact present

theorem nodup (numbered : Numbered start requests) : (requests.map Request.handle).Nodup := by
  rw [numbered]
  exact List.nodup_range'

theorem find?_eq (numbered : Numbered start requests) (there : requests[i]? = some r) :
    find? (start + i) requests = some r := by
  induction requests generalizing start i with
  | nil => cases there
  | cons first requests ih =>
    obtain ⟨own, rest⟩ := numbered_cons_iff.mp numbered
    cases i with
    | zero =>
      cases there
      simp [find?, own]
    | succ i =>
      have later := ih rest there
      have different : first.handle ≠ start + (i + 1) := by omega
      rw [Nat.add_right_comm, Nat.add_assoc] at later
      simpa [find?, different] using later

end Numbered

theorem merge_cons (others : ∀ newer ∈ fresh, newer.handle ≠ r.handle) :
    merge (r :: known) fresh = r :: merge known fresh := by
  induction fresh generalizing known with
  | nil => rfl
  | cons newer fresh ih =>
    have different : r.handle ≠ newer.handle := (others newer List.mem_cons_self).symm
    have rest := @ih (put newer known) fun later member => others later (List.mem_cons_of_mem _ member)
    simpa [merge, put, different] using rest

theorem merge_eq (older : Numbered start known) (newer : Numbered start fresh) :
    merge known fresh = fresh ++ known.drop fresh.length := by
  induction fresh generalizing start known with
  | nil => rfl
  | cons first fresh ih =>
    obtain ⟨own, rest⟩ := numbered_cons_iff.mp newer
    have others : ∀ later ∈ fresh, later.handle ≠ first.handle := by
      intro later member
      have above := (rest.handle_mem member).1
      omega
    cases known with
    | nil =>
      have tail : merge [] fresh = fresh ++ ([] : List Request).drop fresh.length := ih numbered_nil rest
      have placed : merge [] (first :: fresh) = merge [first] fresh := rfl
      rw [placed, merge_cons others, tail]
      simp
    | cons old known =>
      obtain ⟨its, below⟩ := numbered_cons_iff.mp older
      have placed : merge (old :: known) (first :: fresh) = merge (first :: known) fresh := by
        simp [merge, put, its, own]
      rw [placed, merge_cons others, ih below rest]
      rfl

theorem Numbered.drop (numbered : Numbered start requests) (n : Nat) :
    Numbered (start + n) (requests.drop n) := by
  unfold Numbered at *
  rw [List.map_drop, numbered, List.drop_range', List.length_drop, Nat.mul_one]

theorem Numbered.append (front : Numbered start requests) (back : Numbered (start + requests.length) more) :
    Numbered start (requests ++ more) := by
  unfold Numbered at *
  rw [List.map_append, front, back, List.length_append, List.range'_append_1]

theorem Numbered.merge (older : Numbered start known) (newer : Numbered start fresh) :
    Numbered start (Request.merge known fresh) := by
  rw [merge_eq older newer]
  exact newer.append (older.drop fresh.length)

theorem ofResource_handle (made : ofResource handle resource = .ok r) : r.handle = handle := by
  unfold ofResource at made
  split at made
  · cases made
  · split at made
    · cases made
      rfl
    · cases made

theorem ofResources_cons (made : ofResources handle (resource :: resources) = .ok requests) :
    ∃ request others, ofResource handle resource = .ok request ∧ ofResources (handle + 1) resources = .ok others ∧
      requests = request :: others := by
  unfold ofResources at made
  cases first : ofResource handle resource with
  | error defect => rw [first] at made; cases made
  | ok request =>
    rw [first] at made
    cases rest : ofResources (handle + 1) resources with
    | error defect => rw [rest] at made; cases made
    | ok others =>
      rw [rest] at made
      exact ⟨request, others, rfl, rfl, (Except.ok.inj made).symm⟩

theorem ofResources_numbered (made : ofResources handle resources = .ok requests) : Numbered handle requests := by
  induction resources generalizing handle requests with
  | nil => cases made; exact numbered_nil
  | cons resource resources ih =>
    obtain ⟨request, others, first, rest, rfl⟩ := ofResources_cons made
    exact numbered_cons_iff.mpr ⟨ofResource_handle first, ih rest⟩

theorem ofResources_length (made : ofResources handle resources = .ok requests) :
    requests.length = resources.length := by
  induction resources generalizing handle requests with
  | nil => cases made; rfl
  | cons resource resources ih =>
    obtain ⟨request, others, -, rest, rfl⟩ := ofResources_cons made
    rw [List.length_cons, List.length_cons, ih rest]

theorem ofResources_get? (made : ofResources handle resources = .ok requests) (there : requests[i]? = some r) :
    ∃ resource, resources[i]? = some resource ∧ ofResource (handle + i) resource = .ok r := by
  induction resources generalizing handle requests i with
  | nil => cases made; cases there
  | cons resource resources ih =>
    obtain ⟨request, others, first, rest, rfl⟩ := ofResources_cons made
    cases i with
    | zero =>
      cases there
      exact ⟨resource, rfl, first⟩
    | succ i =>
      obtain ⟨later, present, its⟩ := ih rest there
      rw [Nat.add_right_comm, Nat.add_assoc] at its
      exact ⟨later, present, its⟩

end FieldGateway.OpcUa.Request
