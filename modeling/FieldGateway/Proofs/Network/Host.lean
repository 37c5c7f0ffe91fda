import FieldGateway.Network.Host
import FieldGateway.Proofs.Text.Blank
import FieldGateway.Proofs.Text.Natural

-- Which texts are read as a host, and which host they name.
namespace FieldGateway.Network

-- What may stand between a scheme and the slashes at the end.
inductive Host.Spells : Text → Host → Prop where
  | alone {name : Text} (present : name ≠ []) (whole : ':' ∉ name) : Spells name ⟨name, standardPort⟩
  | withPort {name digits : Text} (number : Text.unsigned? 10 greatestPort digits = some n) :
      Spells (name ++ ':' :: digits) ⟨name, n⟩

namespace Host

variable {given text digits name scheme : Text} {host : Host} {count n : Nat}

theorem port_notMem (number : Text.unsigned? 10 greatestPort digits = some n) : ':' ∉ digits ∧ '/' ∉ digits :=
  ⟨Text.unsigned?_notMem number (by decide) (by decide), Text.unsigned?_notMem number (by decide) (by decide)⟩

theorem port_ne_nil (number : Text.unsigned? 10 greatestPort digits = some n) : digits ≠ [] := by
  rintro rfl
  cases number

theorem read_eq_ok_iff : read given = .ok host ↔ Spells (bare given) host := by
  unfold read
  generalize bare given = text
  constructor
  · intro found
    simp only at found
    split at found
    · cases found
    · rename_i present
      split at found
      · rename_i whole
        cases found
        exact .alone (by simpa using present) (Text.cutLast?_eq_none_iff.mp whole)
      · rename_i name digits cut
        split at found
        · rename_i n number
          cases found
          rw [(Text.cutLast?_eq_some_iff.mp cut).1]
          exact .withPort number
        · cases found
  · intro spelled
    cases spelled with
    | alone present whole => simp [present, Text.cutLast?_eq_none_iff.mpr whole]
    | @withPort n name digits number =>
      have cut : Text.cutLast? ':' (name ++ ':' :: digits) = some (name, digits) :=
        Text.cutLast?_eq_some_iff.mpr ⟨rfl, (port_notMem number).1⟩
      simp [cut, number]

theorem bare_parts (given : Text) :
    ∃ scheme ∈ [] :: schemes, ∃ count, given = scheme ++ bare given ++ List.replicate count '/' := by
  obtain ⟨scheme, known, whole⟩ : ∃ scheme ∈ [] :: schemes,
      given = scheme ++ (schemes.findSome? fun s => Text.after? s given).getD given := by
    cases behind : schemes.findSome? fun s => Text.after? s given with
    | none => exact ⟨[], List.mem_cons_self, rfl⟩
    | some rest =>
      obtain ⟨scheme, known, found⟩ := List.exists_of_findSome?_eq_some behind
      exact ⟨scheme, List.mem_cons_of_mem _ known, Text.after?_eq_some_iff.mp found⟩
  obtain ⟨slashes, rest, only⟩ := Text.dropTrailing_parts (· = '/')
    ((schemes.findSome? fun s => Text.after? s given).getD given)
  have same : slashes = List.replicate slashes.length '/' :=
    List.eq_replicate_of_mem fun c member => of_decide_eq_true (only c member)
  refine ⟨scheme, known, slashes.length, ?_⟩
  calc given = scheme ++ (schemes.findSome? fun s => Text.after? s given).getD given := whole
    _ = scheme ++ (bare given ++ slashes) := congrArg (scheme ++ ·) rest
    _ = scheme ++ bare given ++ List.replicate slashes.length '/' := by rw [← same, List.append_assoc]

theorem scheme_colon (known : scheme ∈ schemes) (rest : Text) :
    ∃ word behind, scheme ++ rest = word ++ ':' :: '/' :: behind ∧ ':' ∉ word := by
  rcases List.mem_cons.mp known with rfl | other
  · exact ⟨"tcp", '/' :: rest, rfl, by decide⟩
  · rw [List.mem_singleton.mp other]
    exact ⟨"mqtt", '/' :: rest, rfl, by decide⟩

theorem unmarked (plain : ∀ word behind, given = word ++ ':' :: '/' :: behind → ':' ∈ word) :
    (schemes.findSome? fun s => Text.after? s given) = none := by
  refine List.findSome?_eq_none_iff.mpr fun scheme known => ?_
  cases behind : Text.after? scheme given with
  | none => rfl
  | some rest =>
    obtain ⟨word, slash, split, whole⟩ := scheme_colon known rest
    exact absurd (plain word slash ((Text.after?_eq_some_iff.mp behind).trans split)) whole

theorem bare_spelled (known : scheme ∈ [] :: schemes) (last : text.getLast? ≠ some '/')
    (plain : ∀ word behind, text ++ List.replicate count '/' = word ++ ':' :: '/' :: behind → ':' ∈ word) :
    bare (scheme ++ text ++ List.replicate count '/') = text := by
  have behind : (schemes.findSome? fun s => Text.after? s (scheme ++ text ++ List.replicate count '/')).getD
      (scheme ++ text ++ List.replicate count '/') = text ++ List.replicate count '/' := by
    rw [List.append_assoc]
    rcases List.mem_cons.mp known with rfl | marked
    · rw [List.nil_append, unmarked plain]
      rfl
    · rcases List.mem_cons.mp marked with rfl | other
      · rfl
      · rw [List.mem_singleton.mp other]
        rfl
  unfold bare
  rw [behind]
  refine Text.dropTrailing_padded (fun c member => ?_) fun c final => ?_
  · exact decide_eq_true (List.eq_of_mem_replicate member)
  · refine decide_eq_false ?_
    rintro rfl
    exact last final

theorem bare_withPort (known : scheme ∈ [] :: schemes) (whole : ':' ∉ name)
    (number : Text.unsigned? 10 greatestPort digits = some n) :
    bare (scheme ++ (name ++ ':' :: digits) ++ List.replicate count '/') = name ++ ':' :: digits := by
  have slashless := (port_notMem number).2
  refine bare_spelled known (fun last => ?_) fun word behind split => ?_
  · rw [List.getLast?_append_of_ne_nil _ (List.cons_ne_nil _ _), List.getLast?_cons_of_ne_nil (port_ne_nil number)] at last
    exact slashless (List.mem_of_getLast? last)
  · refine Classical.not_not.mp fun other => ?_
    have first := Text.cutFirst?_eq_some_iff.mpr ⟨split, other⟩
    rw [List.append_assoc, List.cons_append, Text.cutFirst?_eq_some_iff.mpr ⟨rfl, whole⟩] at first
    obtain ⟨d, rest, same⟩ := List.exists_cons_of_ne_nil (port_ne_nil number)
    rw [same] at first slashless
    cases first
    exact slashless List.mem_cons_self

theorem bare_alone (known : scheme ∈ [] :: schemes) (whole : ':' ∉ name) (last : name.getLast? ≠ some '/') :
    bare (scheme ++ name ++ List.replicate count '/') = name := by
  refine bare_spelled known last fun word behind split => absurd ?_ whole
  have colon : ':' ∈ name ++ List.replicate count '/' := by simp [split]
  rcases List.mem_append.mp colon with mine | slash
  · exact mine
  · cases List.eq_of_mem_replicate slash

theorem Spells.nameless (spelled : Spells text ⟨[], n⟩) :
    ∃ digits, text = ':' :: digits ∧ Text.unsigned? 10 greatestPort digits = some n := by
  cases spelled with
  | alone present => exact absurd rfl present
  | withPort number => exact ⟨_, rfl, number⟩

-- A text with a name is read as that name, with its port or the standard one. A port alone, with
-- nothing in front of its colon, is read as a host without a name, and so is no other text.
theorem hosts_recognized (given : Text) :
    (∀ n, read given = .ok ⟨[], n⟩ ↔ ∃ scheme ∈ [] :: schemes, ∃ digits count,
      given = scheme ++ ':' :: digits ++ List.replicate count '/' ∧
        Text.unsigned? 10 greatestPort digits = some n) ∧
    ∀ scheme ∈ [] :: schemes, ∀ name count, name ≠ [] → ':' ∉ name → name.getLast? ≠ some '/' →
      (∀ n ≤ greatestPort, given = scheme ++ (name ++ ':' :: Text.ofNat n) ++ List.replicate count '/' →
        read given = .ok ⟨name, n⟩) ∧
      (given = scheme ++ name ++ List.replicate count '/' → read given = .ok ⟨name, standardPort⟩) := by
  constructor
  · intro n
    rw [read_eq_ok_iff]
    constructor
    · intro spelled
      obtain ⟨digits, only, number⟩ := spelled.nameless
      obtain ⟨scheme, known, count, whole⟩ := bare_parts given
      rw [only] at whole
      exact ⟨scheme, known, digits, count, whole, number⟩
    · rintro ⟨scheme, known, digits, count, rfl, number⟩
      have only : bare (scheme ++ ':' :: digits ++ List.replicate count '/') = ':' :: digits :=
        bare_withPort known List.not_mem_nil number
      rw [only]
      exact @Spells.withPort n [] digits number
  · intro scheme known name count present whole last
    constructor
    · rintro n fits rfl
      have number := Text.unsigned?_ofNat fits
      rw [read_eq_ok_iff, bare_withPort known whole number]
      exact .withPort number
    · rintro rfl
      rw [read_eq_ok_iff, bare_alone known whole last]
      exact .alone present whole

theorem hosts_recognized_marked :
    read "mqtt://plant/broker:8883//" = .ok ⟨"plant/broker", 8883⟩ ∧
      read "mqtt://plant/broker//" = .ok ⟨"plant/broker", standardPort⟩ := by
  have named : ("plant/broker" : Text) ≠ [] ∧ ':' ∉ ("plant/broker" : Text) ∧
      ("plant/broker" : Text).getLast? ≠ some '/' := by
    decide
  obtain ⟨present, whole, last⟩ := named
  have known : ("mqtt://" : Text) ∈ [] :: schemes := by decide
  have number : Text.ofNat 8883 = "8883" := by decide +kernel
  constructor
  · refine ((hosts_recognized _).2 "mqtt://" known "plant/broker" 2 present whole last).1 8883 (by decide) ?_
    rw [number]
    rfl
  · exact ((hosts_recognized _).2 "mqtt://" known "plant/broker" 2 present whole last).2 rfl

-- A port alone passes for a host, though no text at all does not.
theorem nameless_host :
    read ":1883" = .ok ⟨[], 1883⟩ ∧ read "mqtt://:5/" = .ok ⟨[], 5⟩ ∧ read "" = .error .missing := by
  decide

end Host
end FieldGateway.Network
