import FieldGateway.Text.Blank
import FieldGateway.Text.Digits
import Mathlib.Data.List.DropRight

-- What is dropped at the ends of a text, and that blanks around it do not matter once it is
-- trimmed.
namespace FieldGateway.Text

variable {drops : Char → Bool} {before core after : Text}

theorem dropWhile_padded (blank : ∀ c ∈ before, drops c = true) (rest : Text) :
    (before ++ rest).dropWhile drops = rest.dropWhile drops := by
  induction before with
  | nil => rfl
  | cons c before ih =>
    rw [List.cons_append, List.dropWhile_cons_of_pos (blank c List.mem_cons_self)]
    exact ih fun d member => blank d (List.mem_cons_of_mem _ member)

theorem dropWhile_solid (first : ∀ c ∈ core.head?, drops c = false) : core.dropWhile drops = core := by
  cases core with
  | nil => rfl
  | cons c core =>
    have solid : drops c = false := first c rfl
    simp [solid]

theorem dropTrailing_padded (padding : ∀ c ∈ after, drops c = true) (solid : ∀ c ∈ core.getLast?, drops c = false) :
    dropTrailing drops (core ++ after) = core := by
  have behind : ∀ c ∈ after.reverse, drops c = true := fun c member => padding c (List.mem_reverse.mp member)
  have back : ∀ c ∈ core.reverse.head?, drops c = false := by rwa [List.head?_reverse]
  unfold dropTrailing
  rw [List.reverse_append, dropWhile_padded behind, dropWhile_solid back, List.reverse_reverse]

theorem dropTrailing_parts (drops : Char → Bool) (t : Text) :
    ∃ after, t = dropTrailing drops t ++ after ∧ ∀ c ∈ after, drops c = true :=
  ⟨t.rtakeWhile drops, List.rdropWhile_append_rtakeWhile.symm, fun _ => List.mem_rtakeWhile_imp⟩

theorem last_dropTrailing (last : c ∈ (dropTrailing drops t).getLast?) : drops c = false := by
  unfold dropTrailing at last
  rw [List.getLast?_reverse] at last
  have solid := List.head?_dropWhile_not drops t.reverse
  rw [Option.mem_def.mp last] at solid
  exact solid

theorem trim_padded (blankBefore : ∀ c ∈ before, isBlank c = true) (blankAfter : ∀ c ∈ after, isBlank c = true)
    (solid : ∀ c ∈ core, isBlank c = false) : trim (before ++ core ++ after) = core := by
  have front : ∀ c ∈ core.head?, isBlank c = false := fun c first => solid c (List.mem_of_mem_head? first)
  have back : ∀ c ∈ core.getLast?, isBlank c = false := fun c last => solid c (List.mem_of_getLast? last)
  unfold trim trimWhere
  rw [List.append_assoc, dropWhile_padded blankBefore]
  cases core with
  | nil =>
    have none : after.dropWhile isBlank = [] := by
      have whole := dropWhile_padded blankAfter []
      rwa [List.append_nil] at whole
    rw [List.nil_append, none]
    rfl
  | cons c core =>
    have starts : (c :: core ++ after).dropWhile isBlank = c :: core ++ after := dropWhile_solid front
    rw [starts, dropTrailing_padded blankAfter back]

theorem trim_solid (first : ∀ c ∈ t.head?, isBlank c = false) (last : ∀ c ∈ t.getLast?, isBlank c = false) :
    trim t = t := by
  have padding : ∀ c ∈ ([] : Text), isBlank c = true := nofun
  have whole := dropTrailing_padded padding last
  rw [List.append_nil] at whole
  rwa [trim, trimWhere, dropWhile_solid first]

theorem last_trim (last : c ∈ (trim t).getLast?) : isBlank c = false := last_dropTrailing last

theorem isBlank_char (d : Digit) : isBlank d.char = false := by
  revert d
  decide

end FieldGateway.Text
