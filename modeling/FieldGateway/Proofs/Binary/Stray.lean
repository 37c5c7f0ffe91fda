import FieldGateway.Binary.Reader
import FieldGateway.Proofs.Text.Natural

-- Which characters can stand in a number, or in a word that is read as a value.
namespace FieldGateway

variable {t : Text} {c : Char}

-- A character that stands in no number, and in no word for a number or a truth value, in either
-- case.
structure Stray (c : Char) : Prop where
  digit : Digit.ofChar? c = none
  mark : c ∉ ("+-." : Text)
  letter : c.toLower ∉ ("aefilnrstuy" : Text)

instance (c : Char) : Decidable (Stray c) :=
  decidable_of_iff (Digit.ofChar? c = none ∧ c ∉ ("+-." : Text) ∧ c.toLower ∉ ("aefilnrstuy" : Text))
    ⟨fun ⟨digit, mark, letter⟩ => ⟨digit, mark, letter⟩, fun ⟨digit, mark, letter⟩ => ⟨digit, mark, letter⟩⟩

namespace Stray

theorem unsigned (stray : Stray c) : c ≠ '+' ∧ c ≠ '-' ∧ c ≠ '.' := by
  refine ⟨?_, ?_, ?_⟩ <;> rintro rfl <;> exact stray.mark (by decide)

theorem exponentless (stray : Stray c) : c ≠ 'e' ∧ c ≠ 'E' := by
  refine ⟨?_, ?_⟩ <;> rintro rfl <;> exact stray.letter (by decide)

theorem splitSign (stray : Stray c) (member : c ∈ t) : c ∈ (splitSign t).2 := by
  obtain ⟨plus, minus, -⟩ := stray.unsigned
  unfold FieldGateway.splitSign
  split
  · exact (List.mem_cons.mp member).resolve_left minus
  · exact (List.mem_cons.mp member).resolve_left plus
  · exact member

theorem run (stray : Stray c) (member : c ∈ t) : c ∈ (Digit.run t).2 := by
  induction t with
  | nil => cases member
  | cons d t ih =>
    unfold Digit.run
    split
    · rename_i digit
      refine ih ((List.mem_cons.mp member).resolve_left ?_)
      rintro rfl
      rw [stray.digit] at digit
      cases digit
    · exact member

theorem exponent? (stray : Stray c) (read : Decimal.exponent? t = some e) : c ∉ t := by
  intro member
  obtain ⟨lower, upper⟩ := stray.exponentless
  unfold Decimal.exponent? at read
  split at read
  · cases member
  · rename_i mark rest
    split at read
    · rename_i marked
      have behind : c ∈ rest := by
        refine (List.mem_cons.mp member).resolve_left ?_
        rintro rfl
        exact marked.elim lower upper
      have left := stray.run (stray.splitSign behind)
      simp only at read
      split at read
      · rename_i nothing
        rw [nothing] at left
        cases left
      · cases read
    · cases read

theorem decimal (stray : Stray c) (read : Decimal.read? t = some d) : c ∉ t := by
  intro member
  have signless := stray.run (stray.splitSign member)
  unfold Decimal.read? at read
  simp only at read
  split at read
  · rename_i rest point
    have behind := stray.run ((List.mem_cons.mp (point ▸ signless)).resolve_left stray.unsigned.2.2)
    split at read
    · cases read
    · obtain ⟨e, power, -⟩ := Option.map_eq_some_iff.mp read
      exact stray.exponent? power behind
  · split at read
    · cases read
    · obtain ⟨e, power, -⟩ := Option.map_eq_some_iff.mp read
      exact stray.exponent? power signless

theorem word (stray : Stray c) {word : Text} (letters : word.all fun d => d ∈ ("aefilnrstuy" : Text))
    (same : Text.lower t = word) : c ∉ t := by
  intro member
  have inside : c.toLower ∈ word := by
    rw [← same]
    exact List.mem_map_of_mem member
  exact stray.letter (of_decide_eq_true (List.all_eq_true.mp letters _ inside))

theorem number {f : Format} {x : Binary f} (stray : Stray c) (read : Binary.read? f t = some x) : c ∉ t := by
  unfold Binary.read? at read
  split at read
  · rename_i decimal
    exact stray.decimal decimal
  · intro member
    have name := stray.splitSign member
    unfold Binary.named? at read
    simp only at read
    split at read
    · rename_i infinite
      rcases infinite with word | word
      · exact stray.word rfl word name
      · exact stray.word rfl word name
    · split at read
      · rename_i word
        exact stray.word rfl word name
      · cases read

theorem integer {least greatest i : Int} (stray : Stray c) (read : Text.signed? 10 least greatest t = some i) : c ∉ t := by
  obtain ⟨plus, minus, -⟩ := stray.unsigned
  refine Text.signed?_notMem read plus minus ?_
  have digit := stray.digit
  unfold Digit.ofChar? at digit
  unfold Text.digit? Text.hexDigit?
  grind

end Stray
end FieldGateway
