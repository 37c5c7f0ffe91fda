import FieldGateway.Text.Basic

-- A text is cut at its separators and put together again, and nothing is lost either way.
namespace FieldGateway.Text

variable {separator c : Char} {t u piece filler : Text} {pieces : List Text}

theorem after?_eq_some_iff {start : Text} : after? start t = some u ↔ t = start ++ u := by
  induction start generalizing t with
  | nil => simp [after?]
  | cons c start ih =>
    cases t with
    | nil => simp [after?]
    | cons d t =>
      unfold after?
      split
      · rename_i same
        simp [ih, same]
      · rename_i different
        simp [Ne.symm different]

theorem cutFirst?_eq_some_iff : cutFirst? separator t = some (piece, u) ↔ t = piece ++ separator :: u ∧ separator ∉ piece := by
  induction t generalizing piece with
  | nil => simp [cutFirst?]
  | cons c t ih =>
    unfold cutFirst?
    split
    · rename_i same
      cases piece with
      | nil => simp [same]
      | cons d piece =>
        refine iff_of_false (by simp) ?_
        rintro ⟨whole, absent⟩
        cases whole
        exact absent (by simp [same])
    · rename_i different
      constructor
      · intro cut
        obtain ⟨⟨before, behind⟩, rest, same⟩ := Option.map_eq_some_iff.mp cut
        cases same
        obtain ⟨rfl, absent⟩ := ih.mp rest
        exact ⟨rfl, by simp [Ne.symm different, absent]⟩
      · rintro ⟨whole, absent⟩
        cases piece with
        | nil =>
          cases whole
          exact absurd rfl different
        | cons d piece =>
          cases whole
          rw [ih.mpr ⟨rfl, fun member => absent (List.mem_cons_of_mem _ member)⟩]
          rfl

theorem cutLast?_eq_none_iff : cutLast? separator t = none ↔ separator ∉ t := by
  induction t with
  | nil => simp [cutLast?]
  | cons c t ih =>
    unfold cutLast?
    cases rest : cutLast? separator t with
    | some parts =>
      have inside : separator ∈ t := Classical.not_not.mp fun absent => by simp [ih.mpr absent] at rest
      simp [inside]
    | none => simp [ih.mp rest, eq_comm]

theorem cutLast?_eq_some_iff : cutLast? separator t = some (piece, u) ↔ t = piece ++ separator :: u ∧ separator ∉ u := by
  constructor
  · intro cut
    induction t generalizing piece with
    | nil => cases cut
    | cons c t ih =>
      unfold cutLast? at cut
      split at cut
      · rename_i before behind later
        cases cut
        obtain ⟨rfl, absent⟩ := ih later
        exact ⟨rfl, absent⟩
      · rename_i none
        split at cut
        · rename_i same
          cases cut
          exact ⟨by rw [same, List.nil_append], cutLast?_eq_none_iff.mp none⟩
        · cases cut
  · rintro ⟨rfl, absent⟩
    induction piece with
    | nil => simp [cutLast?, cutLast?_eq_none_iff.mpr absent]
    | cons c piece ih => simp [cutLast?, ih]

theorem splitAll_eq_splitOn (separator : Char) (t : Text) : splitAll separator t = t.splitOn separator := by
  induction t with
  | nil => rfl
  | cons c t ih =>
    rw [splitAll, ih, List.splitOn_cons_eq_if_modifyHead]
    cases pieces : t.splitOn separator with
    | nil => exact absurd pieces (List.splitOn_ne_nil _ _)
    | cons piece pieces => simp

theorem joinAll_eq_intercalate (separator : Char) (pieces : List Text) :
    joinAll separator pieces = [separator].intercalate pieces := by
  induction pieces with
  | nil => rfl
  | cons piece pieces ih =>
    cases pieces with
    | nil => simp [joinAll]
    | cons next pieces => simp [joinAll, ih, List.intercalate_cons_cons]

theorem joinAll_splitAll (separator : Char) (t : Text) : joinAll separator (splitAll separator t) = t := by
  rw [joinAll_eq_intercalate, splitAll_eq_splitOn]
  exact List.intercalate_splitOn separator

theorem splitAll_joinAll (whole : ∀ piece ∈ pieces, separator ∉ piece) (some : pieces ≠ []) :
    splitAll separator (joinAll separator pieces) = pieces := by
  rw [joinAll_eq_intercalate, splitAll_eq_splitOn]
  exact List.splitOn_intercalate separator whole some

theorem splitAll_joinAll_flatMap (some : pieces ≠ []) :
    splitAll separator (joinAll separator pieces) = pieces.flatMap (splitAll separator) := by
  induction pieces with
  | nil => exact absurd rfl some
  | cons piece pieces ih =>
    cases pieces with
    | nil => simp [joinAll]
    | cons next pieces =>
      rw [List.flatMap_cons, ← ih nofun]
      simp only [joinAll, splitAll_eq_splitOn, List.splitOn_append_cons_self]

theorem splitAll_of_notMem (whole : separator ∉ t) : splitAll separator t = [t] := by
  rw [splitAll_eq_splitOn]
  exact List.splitOn_eq_singleton whole

theorem splitAll_injective (same : splitAll separator t = splitAll separator u) : t = u := by
  rw [← joinAll_splitAll separator t, same, joinAll_splitAll]

-- By induction on the text, because a character that is no separator only lengthens the first
-- piece.
theorem separator_notMem (member : piece ∈ splitAll separator t) : separator ∉ piece := by
  induction t generalizing piece with
  | nil => simp [List.mem_singleton.mp member]
  | cons c t ih =>
    unfold splitAll at member
    split at member
    · rcases List.mem_cons.mp member with rfl | later
      · exact List.not_mem_nil
      · exact ih later
    · rename_i different
      split at member
      · simp [List.mem_singleton.mp member, Ne.symm different]
      · rename_i first rest cut
        rw [cut] at ih
        rcases List.mem_cons.mp member with rfl | later
        · simp [Ne.symm different, ih List.mem_cons_self]
        · exact ih (List.mem_cons_of_mem _ later)

theorem mem_joinAll_iff (different : c ≠ separator) :
    c ∈ joinAll separator pieces ↔ ∃ piece ∈ pieces, c ∈ piece := by
  induction pieces with
  | nil => simp [joinAll]
  | cons piece pieces ih =>
    cases pieces with
    | nil => simp [joinAll]
    | cons next pieces => simp [joinAll, ih, different]

theorem count_joinAll (different : c ≠ separator) : (joinAll separator pieces).count c = pieces.flatten.count c := by
  induction pieces with
  | nil => rfl
  | cons piece pieces ih =>
    cases pieces with
    | nil => simp [joinAll]
    | cons next pieces =>
      rw [List.flatten_cons, List.count_append, ← ih, joinAll, List.count_append, List.count_cons_of_ne different.symm]

theorem substitute_of_notMem (absent : c ∉ t) : substitute c filler t = t := by
  induction t with
  | nil => rfl
  | cons d t ih =>
    rw [List.mem_cons, not_or] at absent
    rw [substitute, List.flatMap_cons, if_neg (Ne.symm absent.1)]
    exact congrArg (d :: ·) (ih absent.2)

theorem substitute_joinAll (different : c ≠ separator) :
    substitute c filler (joinAll separator pieces) = joinAll separator (pieces.map (substitute c filler)) := by
  induction pieces with
  | nil => rfl
  | cons piece pieces ih =>
    cases pieces with
    | nil => rfl
    | cons next pieces =>
      have behind : substitute c filler (separator :: joinAll separator (next :: pieces)) =
          separator :: substitute c filler (joinAll separator (next :: pieces)) := by
        simp [substitute, Ne.symm different]
      rw [joinAll, substitute, List.flatMap_append, ← substitute, ← substitute, behind, ih]
      rfl

theorem splitAll_substitute (different : c ≠ separator) (whole : separator ∉ filler) :
    splitAll separator (substitute c filler t) = (splitAll separator t).map (substitute c filler) := by
  have apart : ∀ piece ∈ (splitAll separator t).map (substitute c filler), separator ∉ piece := by
    intro piece member
    obtain ⟨old, mine, rfl⟩ := List.mem_map.mp member
    intro inside
    obtain ⟨d, origin, place⟩ := List.mem_flatMap.mp inside
    split at place
    · exact whole place
    · cases List.mem_singleton.mp place
      exact separator_notMem mine origin
  have some : (splitAll separator t).map (substitute c filler) ≠ [] := by
    rw [splitAll_eq_splitOn]
    simp [List.splitOn_ne_nil]
  rw [← splitAll_joinAll apart some, ← substitute_joinAll different, joinAll_splitAll]

end FieldGateway.Text
