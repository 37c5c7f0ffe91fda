import FieldGateway.Proofs.Binary.Stray
import FieldGateway.Proofs.Settings.Field
import FieldGateway.Settings.Environment
import Mathlib.Data.List.Induction

-- What environment variables set: which key each of them names, and what becomes of its text.
namespace FieldGateway

namespace Setting

variable {key group name t : Text} {fuel : Nat} {rest : List Step}

theorem steps?_eq_nil (read : steps? fuel t = some []) : t = [] := by
  unfold steps? at read
  split at read
  · rfl
  · cases read
  · simp only at read
    split at read
    · cases read
    · simp at read
  · split at read
    · cases read
    · split at read
      · cases read
      · simp at read
  · cases read

theorem steps?_key (read : steps? fuel t = some (.key name :: rest)) :
    ∃ fuel tail, t = '.' :: (name ++ tail) ∧ steps? fuel tail = some rest := by
  unfold steps? at read
  split at read
  · cases read
  · cases read
  · rename_i fuel behind
    simp only at read
    split at read
    · cases read
    · obtain ⟨later, tail, same⟩ := Option.map_eq_some_iff.mp read
      cases same
      exact ⟨fuel, _, by rw [List.takeWhile_append_dropWhile], tail⟩
  · split at read
    · cases read
    · split at read
      · cases read
      · obtain ⟨later, tail, same⟩ := Option.map_eq_some_iff.mp read
        cases same
  · cases read

theorem path_parts (split : path key = .key group :: .key name :: rest) :
    ∃ tail, key = group ++ '.' :: (name ++ tail) ∧ (tail = [] ↔ rest = []) := by
  unfold path at split
  simp only at split
  split at split
  · rename_i later read
    cases split
    split at read
    · cases read
    · obtain ⟨fuel, tail, behind, further⟩ := steps?_key read
      refine ⟨tail, by rw [← behind, List.takeWhile_append_dropWhile], ?_, ?_⟩
      · rintro rfl
        unfold steps? at further
        cases fuel <;> cases further <;> rfl
      · rintro rfl
        exact steps?_eq_nil further
  · cases split

end Setting

namespace Environment

variable {start name text key t : Text} {e : Environment}

-- The text of the variable for a key. Case does not count in its name, and of several that
-- name one key the last one counts.
def given? (start key : Text) (e : Environment) : Option Text :=
  (e.filter fun entry => key? start entry.1 = some key).getLast?.map Prod.snd

theorem layer_append (start : Text) (e : Environment) (name text : Text) :
    layer start (e ++ [(name, text)]) = match key? start name with
      | some key => Table.put key (setting text) (layer start e)
      | none => layer start e := by
  unfold layer
  rw [List.foldl_append]
  rfl

theorem layer_ascending (start : Text) (e : Environment) : Table.Ascending (layer start e) := by
  induction e using List.reverseRecOn with
  | nil => exact .nil
  | append_singleton e entry ih =>
    rw [layer_append]
    split
    · exact ih.put _ _
    · exact ih

theorem given?_append (start key : Text) (e : Environment) (name text : Text) :
    given? start key (e ++ [(name, text)]) =
      if key? start name = some key then some text else given? start key e := by
  unfold given?
  rw [List.filter_append]
  split
  · rename_i named
    simp [named]
  · rename_i other
    simp [other]

theorem given?_insert {before after : Environment} (other : key? start name ≠ some key) (text : Text) :
    given? start key (before ++ (name, text) :: after) = given? start key (before ++ after) := by
  unfold given?
  simp [other]

theorem get?_layer (start key : Text) (e : Environment) :
    Table.get? key (layer start e) = (given? start key e).map setting := by
  induction e using List.reverseRecOn with
  | nil => rfl
  | append_singleton e entry ih =>
    obtain ⟨name, text⟩ := entry
    rw [layer_append, given?_append]
    split
    · rename_i own found
      rw [Table.get?_put, found, ih]
      simp only [Option.some.injEq, eq_comm]
      split <;> rfl
    · rename_i none
      rw [none, ih]
      rfl

def keys (start : Text) (e : Environment) : List Text := e.filterMap fun entry => key? start entry.1

theorem mem_keys : key ∈ Table.names (layer start e) ↔ key ∈ keys start e := by
  constructor
  · intro member
    obtain ⟨entry, inside, rfl⟩ := List.mem_map.mp member
    have found := (layer_ascending start e).get?_eq_some_iff.mpr inside
    rw [get?_layer, given?, Option.map_map] at found
    obtain ⟨own, last, _⟩ := Option.map_eq_some_iff.mp found
    obtain ⟨given, named⟩ := List.mem_filter.mp (List.mem_of_getLast? last)
    exact List.mem_filterMap.mpr ⟨own, given, of_decide_eq_true named⟩
  · intro member
    obtain ⟨entry, inside, named⟩ := List.mem_filterMap.mp member
    cases found : Table.get? key (layer start e) with
    | some value => exact List.mem_map_of_mem (Table.get?_mem found)
    | none =>
      rw [get?_layer, given?, Option.map_map, Option.map_eq_none_iff, List.getLast?_eq_none_iff] at found
      exact absurd (decide_eq_true named) (List.filter_eq_nil_iff.mp found entry inside)

theorem mem_keys_insert {before after : Environment} :
    key ∈ keys start (before ++ (name, text) :: after) ↔
      key? start name = some key ∨ key ∈ keys start (before ++ after) := by
  unfold keys
  simp only [List.filterMap_append, List.mem_append, List.mem_filterMap, List.mem_cons, exists_eq_or_imp]
  exact or_left_comm

theorem setting_flat (text : Text) : (setting text).Flat := by
  unfold setting
  simp only
  split
  · trivial
  · split
    · trivial
    · split
      · trivial
      · split <;> trivial

theorem layer_flat (member : entry ∈ layer start e) : entry.2.Flat := by
  have found := (layer_ascending start e).get?_eq_some_iff.mpr member
  rw [get?_layer] at found
  obtain ⟨text, _, same⟩ := Option.map_eq_some_iff.mp found
  rw [← same]
  exact setting_flat text

-- Texts that are not kept: what they are taken for is written in another way.
inductive Respelled (text : Text) : Prop where
  | word (taken : Text.lower text = "true" ∨ Text.lower text = "false") (other : text ≠ Text.lower text)
  | integer (taken : Text.signed? 10 i64Least i64Greatest text = some i) (other : Text.ofInt i ≠ text)
  | real (whole : Text.signed? 10 i64Least i64Greatest text = none) (taken : Binary.read? .double text = some x)
      (other : (Setting.real x).toText? ≠ some text)

section

variable {i : Int} {x : Binary .double}

theorem not_number (word : text = "true" ∨ text = "false") :
    Text.signed? 10 i64Least i64Greatest text = none ∧ Binary.read? .double text = none := by
  rcases word with rfl | rfl <;> exact ⟨rfl, rfl⟩

theorem respelled_word (taken : Text.lower text = "true" ∨ Text.lower text = "false") :
    Respelled text ↔ text ≠ Text.lower text := by
  refine ⟨?_, .word taken⟩
  rintro respelled same
  rw [← same] at taken
  obtain ⟨whole, unread⟩ := not_number taken
  rcases respelled with ⟨_, other⟩ | ⟨number, _⟩ | ⟨_, number, _⟩
  · exact other same
  · rw [whole] at number
    cases number
  · rw [unread] at number
    cases number

variable (noWord : ¬ (Text.lower text = "true" ∨ Text.lower text = "false"))
include noWord

theorem respelled_integer (taken : Text.signed? 10 i64Least i64Greatest text = some i) :
    Respelled text ↔ Text.ofInt i ≠ text := by
  refine ⟨?_, .integer taken⟩
  rintro (⟨word, _⟩ | ⟨number, other⟩ | ⟨whole, _, _⟩)
  · exact absurd word noWord
  · rw [taken] at number
    cases number
    exact other
  · rw [taken] at whole
    cases whole

theorem respelled_real (whole : Text.signed? 10 i64Least i64Greatest text = none)
    (taken : Binary.read? .double text = some x) : Respelled text ↔ (Setting.real x).toText? ≠ some text := by
  refine ⟨?_, .real whole taken⟩
  rintro (⟨word, _⟩ | ⟨number, _⟩ | ⟨_, number, other⟩)
  · exact absurd word noWord
  · rw [whole] at number
    cases number
  · rw [taken] at number
    cases number
    exact other

theorem not_respelled (whole : Text.signed? 10 i64Least i64Greatest text = none)
    (unread : Binary.read? .double text = none) : ¬ Respelled text := by
  rintro (⟨word, _⟩ | ⟨number, _⟩ | ⟨_, number, _⟩)
  · exact absurd word noWord
  · rw [whole] at number
    cases number
  · rw [unread] at number
    cases number

end

theorem not_respelled_stray {c : Char} (stray : Stray c) (member : c ∈ text) : ¬ Respelled text := by
  rintro (⟨word, _⟩ | ⟨number, _⟩ | ⟨_, number, _⟩)
  · rcases word with word | word
    · exact stray.word rfl word member
    · exact stray.word rfl word member
  · exact stray.integer number member
  · exact stray.number number member

example : ¬ Respelled "./config" := by
  have slash : Stray '/' := by decide
  exact not_respelled_stray slash (by decide)

theorem kept_iff (read : (setting text).toText? = some t) : t = text ↔ ¬ Respelled text := by
  unfold setting at read
  simp only at read
  split at read
  · rename_i taken
    cases read
    rw [respelled_word (.inl taken), taken, not_not, eq_comm]
  · rename_i notTrue
    split at read
    · rename_i taken
      cases read
      rw [respelled_word (.inr taken), taken, not_not, eq_comm]
    · rename_i notFalse
      have noWord := not_or.mpr ⟨notTrue, notFalse⟩
      split at read
      · rename_i i taken
        cases read
        rw [respelled_integer noWord taken, not_not]
      · rename_i whole
        split at read
        · rename_i x taken
          rw [respelled_real noWord whole taken, read, not_not, Option.some.injEq]
        · rename_i unread
          cases read
          exact iff_of_true rfl (not_respelled noWord whole unread)

end Environment
end FieldGateway
