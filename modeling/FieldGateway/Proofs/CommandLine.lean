import FieldGateway.CommandLine
import FieldGateway.Proofs.Text.Pieces

-- Which command lines start a gateway, and what they choose.
namespace FieldGateway.CommandLine

inductive Marks (choice : Choice) : Option Text → Text → Prop where
  | long : Marks choice none ('-' :: '-' :: choice.name)
  | longWith : Marks choice (some value) ('-' :: '-' :: (choice.name ++ '=' :: value))
  | short : Marks choice none ['-', choice.letter]
  | shortWith (present : value ≠ []) (unmarked : value.head? ≠ some '=') :
    Marks choice (some value) ('-' :: choice.letter :: value)
  | shortMarked : Marks choice (some value) ('-' :: choice.letter :: '=' :: value)

-- What a command line gives, in order. With a choice that waits, its value comes first; a value
-- that has a word of its own looks like no option.
inductive Spells : Option Choice → List (Choice × Text) → List Text → Prop where
  | nil : Spells none [] []
  | ended : Spells none [] [['-', '-']]
  | attached (marks : Marks choice (some value) word) (later : Spells none given words) :
    Spells none ((choice, value) :: given) (word :: words)
  | begun (marks : Marks choice none word) (later : Spells (some choice) given words) :
    Spells none given (word :: words)
  | value (plain : Word.ofText value = .plain) (later : Spells none given words) :
    Spells (some choice) ((choice, value) :: given) (value :: words)

inductive Takes : CommandLine → List (Choice × Text) → CommandLine → Prop where
  | nil : Takes c [] c
  | cons (set : c.set choice value = .ok d) (later : Takes d given e) : Takes c ((choice, value) :: given) e

variable {c d : CommandLine} {choice other : Choice} {word value : Text} {attached : Option Text}
  {words : List Text} {given : List (Choice × Text)}

namespace Word

theorem choiceBy_iff [DecidableEq α] {label : Choice → α} (injective : ∀ a b, label a = label b → a = b) :
    choiceBy label x = some choice ↔ x = label choice := by
  have belongs : ∀ {x : α} {other}, choiceBy label x = some other → label other = x :=
    fun {x other} found => by simpa using List.find?_some found
  constructor
  · exact fun found => (belongs found).symm
  · rintro rfl
    have listed : choice ∈ [Choice.settingsFile, .directory] := by cases choice <;> simp
    cases found : choiceBy label (label choice) with
    | none => exact absurd (List.find?_eq_none.mp found choice listed) (by simp)
    | some other => rw [injective other choice (belongs found)]

theorem choiceBy_name_iff : choiceBy Choice.name word = some choice ↔ word = choice.name :=
  choiceBy_iff fun a b same => by cases a <;> cases b <;> first | rfl | exact absurd same (by decide)

theorem choiceBy_letter_iff : choiceBy Choice.letter letter = some choice ↔ letter = choice.letter :=
  choiceBy_iff fun a b same => by cases a <;> cases b <;> first | rfl | exact absurd same (by decide)

theorem name_unmarked (choice : Choice) : '=' ∉ choice.name := by cases choice <;> decide

theorem letter_ne_dash (choice : Choice) : choice.letter ≠ '-' := by cases choice <;> decide

theorem ofText_long (word : Text) (present : word ≠ []) : ofText ('-' :: '-' :: word) = ofLong word := by
  cases word with
  | nil => exact absurd rfl present
  | cons c rest => rfl

theorem ofText_short (letter : Char) (behind : Text) (other : letter ≠ '-') :
    ofText ('-' :: letter :: behind) = ofShort letter behind := by
  unfold ofText
  split
  · rename_i same
    cases same
    exact absurd rfl other
  · rename_i same
    cases same
    exact absurd rfl other
  · rename_i same
    cases same
    rfl
  · rename_i different
    exact absurd rfl (different letter behind)

theorem ofLong_parts (is : ofLong word = .option choice attached) :
    (attached = none ∧ word = choice.name) ∨ ∃ value, attached = some value ∧ word = choice.name ++ '=' :: value := by
  unfold ofLong at is
  split at is
  · rename_i name value cut
    obtain ⟨rfl, -⟩ := Text.cutFirst?_eq_some_iff.mp cut
    split at is
    · rename_i named
      cases is
      exact .inr ⟨value, rfl, by rw [choiceBy_name_iff.mp named]⟩
    · cases is
  · split at is
    · rename_i named
      cases is
      exact .inl ⟨rfl, choiceBy_name_iff.mp named⟩
    · cases is
    · cases is

theorem attachment?_eq_none_iff : attachment? behind = none ↔ behind = [] := by
  unfold attachment?
  split
  · simp
  · simp
  · rename_i present _
    exact ⟨nofun, fun empty => absurd empty present⟩

theorem attachment?_eq_some_iff :
    attachment? behind = some value ↔ behind = '=' :: value ∨ behind = value ∧ value ≠ [] ∧ value.head? ≠ some '=' := by
  unfold attachment?
  split
  · constructor
    · nofun
    · rintro (empty | ⟨rfl, present, -⟩)
      · cases empty
      · exact absurd rfl present
  · rename_i marked
    constructor
    · exact fun same => .inl (by rw [Option.some.inj same])
    · rintro (same | ⟨rfl, -, unmarked⟩)
      · rw [(List.cons.inj same).2]
      · exact absurd rfl unmarked
  · rename_i present unmarked
    constructor
    · intro same
      cases same
      refine .inr ⟨rfl, present, ?_⟩
      intro mark
      obtain ⟨rest, rfl⟩ := List.head?_eq_some_iff.mp mark
      exact unmarked rest rfl
    · rintro (rfl | ⟨rfl, -, -⟩)
      · exact absurd rfl (unmarked _)
      · rfl

theorem ofShort_parts (is : ofShort letter behind = .option choice attached) :
    letter = choice.letter ∧ attached = attachment? behind := by
  unfold ofShort at is
  split at is
  · rename_i named
    cases is
    exact ⟨choiceBy_letter_iff.mp named, rfl⟩
  · cases is
  · cases is

theorem ofShort_letter (choice : Choice) (behind : Text) :
    ofShort choice.letter behind = .option choice (attachment? behind) := by
  rw [ofShort]
  simp only [choiceBy_letter_iff.mpr rfl]

theorem ofLong_ne_ending : ofLong word ≠ .ending := by
  unfold ofLong
  split <;> split <;> nofun

theorem ofShort_ne_ending : ofShort letter behind ≠ .ending := by
  unfold ofShort
  split <;> nofun

theorem ofText_option_iff : ofText word = .option choice attached ↔ Marks choice attached word := by
  constructor
  · intro is
    unfold ofText at is
    split at is
    · cases is
    · rcases ofLong_parts is with ⟨rfl, rfl⟩ | ⟨value, rfl, rfl⟩
      · exact .long
      · exact .longWith
    · obtain ⟨rfl, rfl⟩ := ofShort_parts is
      cases found : attachment? _ with
      | none =>
        rw [attachment?_eq_none_iff.mp found]
        exact .short
      | some value =>
        rcases attachment?_eq_some_iff.mp found with rfl | ⟨rfl, present, unmarked⟩
        · exact .shortMarked
        · exact .shortWith present unmarked
    · cases is
  · intro marks
    cases marks with
    | long => cases choice <;> rfl
    | @longWith value =>
      have cut : Text.cutFirst? '=' (choice.name ++ '=' :: value) = some (choice.name, value) :=
        Text.cutFirst?_eq_some_iff.mpr ⟨rfl, name_unmarked choice⟩
      rw [ofText_long _ (by simp), ofLong]
      simp only [cut, choiceBy_name_iff.mpr rfl]
    | short => cases choice <;> rfl
    | @shortWith value present unmarked =>
      rw [ofText_short _ _ (letter_ne_dash choice), ofShort_letter,
        attachment?_eq_some_iff.mpr (.inr ⟨rfl, present, unmarked⟩)]
    | shortMarked =>
      rw [ofText_short _ _ (letter_ne_dash choice), ofShort_letter]
      rfl

end Word

theorem set_eq_ok_iff : c.set choice value = .ok d ↔ c.get? choice = none ∧ value ≠ [] ∧ d = c.put choice value := by
  unfold set
  split
  · rename_i taken
    constructor
    · nofun
    · rintro ⟨free, -⟩
      simp [free] at taken
  · rename_i free
    split
    · rename_i empty
      constructor
      · nofun
      · rintro ⟨-, present, -⟩
        exact absurd (List.isEmpty_iff.mp empty) present
    · rename_i present
      simp only [Bool.not_eq_true, Option.isSome_eq_false_iff, Option.isNone_iff_eq_none] at free
      simp only [List.isEmpty_iff] at present
      constructor
      · intro same
        cases same
        exact ⟨free, present, rfl⟩
      · rintro ⟨-, -, rfl⟩
        rfl

theorem get?_put (c : CommandLine) (choice other : Choice) (value : Text) :
    (c.put choice value).get? other = if other = choice then some value else c.get? other := by
  cases choice <;> cases other <;> rfl

theorem ofText_ending (is : Word.ofText word = .ending) : word = ['-', '-'] := by
  unfold Word.ofText at is
  split at is
  · rfl
  · exact absurd is Word.ofLong_ne_ending
  · exact absurd is Word.ofShort_ne_ending
  · cases is

theorem addWords_parts (read : addWords c waiting words = .ok d) :
    ∃ given, Spells waiting given words ∧ Takes c given d := by
  fun_induction addWords c waiting words with
  | case1 c =>
    cases read
    exact ⟨[], .nil, .nil⟩
  | case5 c word rest choice plain later set ih =>
    obtain ⟨given, spells, takes⟩ := ih read
    exact ⟨_, .value plain spells, .cons set takes⟩
  | case8 c word ending =>
    cases read
    exact ⟨[], ofText_ending ending ▸ .ended, .nil⟩
  | case13 c word rest choice marks ih =>
    obtain ⟨given, spells, takes⟩ := ih read
    exact ⟨given, .begun (Word.ofText_option_iff.mp marks) spells, takes⟩
  | case14 c word rest choice value marks later set ih =>
    obtain ⟨given, spells, takes⟩ := ih read
    exact ⟨_, .attached (Word.ofText_option_iff.mp marks) spells, .cons set takes⟩
  | _ => cases read

theorem addWords_spelled (spells : Spells waiting given words) (takes : Takes c given d) :
    addWords c waiting words = .ok d := by
  induction spells generalizing c with
  | nil =>
    cases takes
    rfl
  | ended =>
    cases takes
    rfl
  | attached marks later ih =>
    obtain _ | ⟨set, rest⟩ := takes
    unfold addWords
    simp only [Word.ofText_option_iff.mpr marks, set, ih rest]
  | begun marks later ih =>
    unfold addWords
    simp only [Word.ofText_option_iff.mpr marks, ih takes]
  | value plain later ih =>
    obtain _ | ⟨set, rest⟩ := takes
    unfold addWords
    simp only [plain, set, ih rest]

theorem addWords_eq_ok_iff :
    addWords c waiting words = .ok d ↔ ∃ given, Spells waiting given words ∧ Takes c given d :=
  ⟨addWords_parts, fun ⟨_, spells, takes⟩ => addWords_spelled spells takes⟩

theorem ext_get? (same : ∀ choice, c.get? choice = d.get? choice) : c = d := by
  obtain ⟨file, directory⟩ := c
  obtain ⟨otherFile, otherDirectory⟩ := d
  cases show file = otherFile from same .settingsFile
  cases show directory = otherDirectory from same .directory
  rfl

theorem lookup_put (absent : choice ∉ given.map Prod.fst) (other : Choice) :
    (given.lookup other).or ((c.put choice value).get? other) =
      (((choice, value) :: given).lookup other).or (c.get? other) := by
  rw [get?_put, List.lookup_cons]
  by_cases same : other = choice
  · subst same
    have unset : given.lookup other = none := by
      rw [List.lookup_eq_none_iff]
      intro g member
      have different : other ≠ g.1 := fun equal => absent (List.mem_map.mpr ⟨g, member, equal.symm⟩)
      simpa using different
    simp [unset]
  · have different : (other == choice) = false := beq_false_of_ne same
    simp [same, different]

theorem takes_iff : Takes c given d ↔
    (given.map Prod.fst).Nodup ∧ (∀ g ∈ given, c.get? g.1 = none ∧ g.2 ≠ []) ∧
      ∀ choice, d.get? choice = (given.lookup choice).or (c.get? choice) := by
  induction given generalizing c with
  | nil =>
    constructor
    · rintro ⟨⟩
      simp
    · rintro ⟨-, -, same⟩
      have unchanged : c = d := ext_get? fun choice => by simp [same]
      rw [unchanged]
      exact .nil
  | cons g given ih =>
    obtain ⟨choice, value⟩ := g
    rw [List.map_cons, List.nodup_cons, List.forall_mem_cons]
    constructor
    · rintro (_ | ⟨set, later⟩)
      obtain ⟨unset, present, rfl⟩ := set_eq_ok_iff.mp set
      obtain ⟨distinct, free, chosen⟩ := ih.mp later
      have others : ∀ g ∈ given, g.1 ≠ choice ∧ c.get? g.1 = none ∧ g.2 ≠ [] := by
        intro g member
        obtain ⟨unset, filled⟩ := free g member
        rw [get?_put] at unset
        split at unset
        · cases unset
        · rename_i different
          exact ⟨different, unset, filled⟩
      have absent : choice ∉ given.map Prod.fst := by
        intro member
        obtain ⟨g, listed, same⟩ := List.mem_map.mp member
        exact (others g listed).1 same
      exact ⟨⟨absent, distinct⟩, ⟨⟨unset, present⟩, fun g member => (others g member).2⟩,
        fun other => (chosen other).trans (lookup_put absent other)⟩
    · rintro ⟨⟨absent, distinct⟩, ⟨⟨unset, present⟩, others⟩, chosen⟩
      refine .cons (set_eq_ok_iff.mpr ⟨unset, present, rfl⟩) (ih.mpr ⟨distinct, ?_, ?_⟩)
      · intro g member
        have different : g.1 ≠ choice := fun same => absent (List.mem_map.mpr ⟨g, member, same⟩)
        rw [get?_put, if_neg different]
        exact others g member
      · exact fun other => (chosen other).trans (lookup_put absent other).symm

-- A command line starts a gateway when it gives a value to each of some choices, none of them
-- twice and no value empty, and then these are the values that are chosen.
theorem ofWords_eq_ok_iff : ofWords words = .ok d ↔
    ∃ given, Spells none given words ∧ (given.map Prod.fst).Nodup ∧ (∀ g ∈ given, g.2 ≠ []) ∧
      ∀ choice, d.get? choice = given.lookup choice := by
  have free : ∀ choice, empty.get? choice = none := fun choice => by cases choice <;> rfl
  unfold ofWords
  simp only [addWords_eq_ok_iff, takes_iff, free, true_and, Option.or_none]

example : ofWords ["--settings", "devgate.toml", "-c/etc/devgate"] = .ok ⟨some "devgate.toml", some "/etc/devgate"⟩ := by
  rfl

end FieldGateway.CommandLine
