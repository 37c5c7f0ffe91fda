import FieldGateway.Proofs.Text.Pieces
import FieldGateway.Topic.Filter
import Mathlib.Data.List.Forall2

-- A topic matches a filter when it falls into one run of levels for each level of the filter.
-- Reading a device's name off a topic decides that, and no name is read off two topics.
namespace FieldGateway.Topic

variable {filter topic other taken : List Text} {name : Text}

-- The run of levels that one level of a filter may stand for.
inductive StandsFor : Text → List Text → Prop where
  | all : StandsFor allLevels run
  | one : StandsFor oneLevel [level]
  | itself (notAll : pattern ≠ allLevels) (notOne : pattern ≠ oneLevel) : StandsFor pattern [pattern]

def Matches (filter topic : List Text) (runs : List (List Text)) : Prop :=
  List.Forall₂ StandsFor filter runs ∧ runs.flatten = topic

def wildcard (pattern : Text) : Bool := pattern = oneLevel || pattern = allLevels

def kept (pattern : Text) (run : List Text) : List Text := if wildcard pattern then run else []

def wildcardLevels (filter : List Text) (runs : List (List Text)) : List Text :=
  (List.zipWith kept filter runs).flatten

def AllLevelsLast (filter : List Text) : Prop := allLevels ∉ filter.dropLast

instance (filter : List Text) : Decidable (AllLevelsLast filter) :=
  inferInstanceAs (Decidable (allLevels ∉ filter.dropLast))

theorem matches_nil_iff : Matches [] topic runs ↔ topic = [] ∧ runs = [] := by
  unfold Matches
  rw [List.forall₂_nil_left_iff]
  constructor
  · intro matched
    obtain ⟨rfl, rfl⟩ := matched
    exact ⟨rfl, rfl⟩
  · intro empty
    obtain ⟨rfl, rfl⟩ := empty
    exact ⟨rfl, rfl⟩

theorem matches_cons_iff : Matches (pattern :: filter) topic runs ↔
    ∃ run rest runs', StandsFor pattern run ∧ Matches filter rest runs' ∧ topic = run ++ rest ∧
      runs = run :: runs' := by
  unfold Matches
  rw [List.forall₂_cons_left_iff]
  constructor
  · intro matched
    obtain ⟨⟨run, runs', stands, others, rfl⟩, rfl⟩ := matched
    exact ⟨run, runs'.flatten, runs', stands, ⟨others, rfl⟩, rfl, rfl⟩
  · intro parts
    obtain ⟨run, rest, runs', stands, ⟨others, rfl⟩, rfl, rfl⟩ := parts
    exact ⟨⟨run, runs', stands, others, rfl⟩, rfl⟩

theorem AllLevelsLast.tail (last : AllLevelsLast (pattern :: filter)) : AllLevelsLast filter := by
  cases filter with
  | nil => exact List.not_mem_nil
  | cons next filter => exact fun member => last (List.mem_cons_of_mem _ member)

theorem AllLevelsLast.nothing_follows (last : AllLevelsLast (allLevels :: filter)) : filter = [] := by
  cases filter with
  | nil => rfl
  | cons next filter => exact absurd List.mem_cons_self last

theorem standsFor_one_iff : StandsFor oneLevel run ↔ ∃ level, run = [level] := by
  constructor
  · intro stands
    cases stands with
    | one => exact ⟨_, rfl⟩
    | itself _ notOne => exact absurd rfl notOne
  · intro single
    obtain ⟨level, rfl⟩ := single
    exact .one

theorem standsFor_itself_iff (notAll : pattern ≠ allLevels) (notOne : pattern ≠ oneLevel) :
    StandsFor pattern run ↔ run = [pattern] := by
  constructor
  · intro stands
    cases stands with
    | all => exact absurd rfl notAll
    | one => exact absurd rfl notOne
    | itself => rfl
  · intro same
    subst same
    exact .itself notAll notOne

-- A wildcard for all levels takes whatever is left, which is right only because nothing
-- follows it.
theorem captured?_cons_iff (last : AllLevelsLast (pattern :: filter)) :
    captured? (pattern :: filter) topic = some taken ↔ ∃ run rest taken', StandsFor pattern run ∧
      captured? filter rest = some taken' ∧ topic = run ++ rest ∧ taken = kept pattern run ++ taken' := by
  by_cases all : pattern = allLevels
  · subst all
    cases last.nothing_follows
    have whole : captured? [allLevels] topic = some topic := by simp [captured?]
    rw [whole, Option.some.injEq]
    constructor
    · intro same
      subst same
      exact ⟨topic, [], [], .all, rfl, by simp, by simp [kept, wildcard]⟩
    · intro parts
      obtain ⟨run, rest, taken', -, found, rfl, rfl⟩ := parts
      cases rest with
      | nil => cases found; simp [kept, wildcard]
      | cons level rest => cases found
  by_cases one : pattern = oneLevel
  · subst one
    constructor
    · intro found
      cases topic with
      | nil => simp [captured?, all] at found
      | cons level topic =>
        obtain ⟨taken', behind, rfl⟩ : ∃ taken', captured? filter topic = some taken' ∧ level :: taken' = taken := by
          simpa [captured?, all] using found
        exact ⟨[level], topic, taken', .one, behind, rfl, by simp [kept, wildcard]⟩
    · intro parts
      obtain ⟨run, rest, taken', stands, found, rfl, rfl⟩ := parts
      obtain ⟨level, rfl⟩ := standsFor_one_iff.mp stands
      simp [captured?, all, found, kept, wildcard]
  · constructor
    · intro found
      cases topic with
      | nil => simp [captured?, all] at found
      | cons level topic =>
        obtain ⟨rfl, behind⟩ : pattern = level ∧ captured? filter topic = some taken := by
          simpa [captured?, all, one] using found
        exact ⟨[pattern], topic, taken, .itself all one, behind, rfl, by simp [kept, wildcard, all, one]⟩
    · intro parts
      obtain ⟨run, rest, taken', stands, found, rfl, rfl⟩ := parts
      cases (standsFor_itself_iff all one).mp stands
      simp [captured?, all, one, found, kept, wildcard]

theorem captured?_eq_some_iff (last : AllLevelsLast filter) : captured? filter topic = some taken ↔
    ∃ runs, Matches filter topic runs ∧ wildcardLevels filter runs = taken := by
  induction filter generalizing topic taken with
  | nil =>
    simp only [matches_nil_iff]
    constructor
    · intro found
      cases topic with
      | nil => exact ⟨[], ⟨rfl, rfl⟩, Option.some.inj found⟩
      | cons level topic => cases found
    · intro matched
      obtain ⟨runs, ⟨rfl, rfl⟩, rfl⟩ := matched
      rfl
  | cons pattern filter ih =>
    rw [captured?_cons_iff last]
    simp only [matches_cons_iff]
    constructor
    · intro parts
      obtain ⟨run, rest, taken', stands, found, rfl, rfl⟩ := parts
      obtain ⟨runs, matched, rfl⟩ := (ih last.tail).mp found
      exact ⟨run :: runs, ⟨run, rest, runs, stands, matched, rfl, rfl⟩, rfl⟩
    · intro parts
      obtain ⟨_, ⟨run, rest, runs, stands, matched, rfl, rfl⟩, rfl⟩ := parts
      exact ⟨run, rest, _, stands, (ih last.tail).mpr ⟨runs, matched, rfl⟩, rfl, rfl⟩

theorem captured?_sublist (found : captured? filter topic = some taken) : taken.Sublist topic := by
  fun_induction captured? filter topic generalizing taken with
  | case1 => cases found; exact .refl _
  | case2 => cases found
  | case3 => cases found; exact .refl _
  | case4 => cases found
  | case5 filter level topic _ ih =>
    obtain ⟨taken', behind, rfl⟩ := Option.map_eq_some_iff.mp found
    exact (ih behind).cons_cons level
  | case6 filter level topic _ _ ih => exact (ih found).cons level
  | case7 => cases found

theorem captured?_injective (found : captured? filter topic = some taken)
    (also : captured? filter other = some taken) : topic = other := by
  fun_induction captured? filter topic generalizing other taken with
  | case1 =>
    cases other with
    | nil => rfl
    | cons level other => cases also
  | case2 => cases found
  | case3 => simp_all [captured?]
  | case4 => cases found
  | case5 filter level topic all ih =>
    obtain ⟨taken', behind, rfl⟩ := Option.map_eq_some_iff.mp found
    cases other with
    | nil => simp [captured?, all] at also
    | cons level' other =>
      obtain ⟨behind', rfl⟩ : captured? filter other = some taken' ∧ level' = level := by
        simpa [captured?, all] using also
      rw [ih behind behind']
  | case6 filter level topic all one ih =>
    cases other with
    | nil => simp [captured?, all] at also
    | cons level' other =>
      obtain ⟨rfl, behind⟩ : level = level' ∧ captured? filter other = some taken := by
        simpa [captured?, all, one] using also
      rw [ih found behind]
  | case7 => cases found

theorem deviceName?_eq_some_iff {filter topic : Text} : deviceName? filter topic = some name ↔
    ∃ taken, captured? (levels filter) (levels topic) = some taken ∧ name = joined taken ∧ name ≠ [] := by
  unfold deviceName?
  constructor
  · intro found
    split at found
    · rename_i taken captured
      by_cases nothing : joined taken = []
      · simp [nothing] at found
      · obtain rfl : joined taken = name := by simpa [nothing] using found
        exact ⟨taken, captured, rfl, nothing⟩
    · cases found
  · intro parts
    obtain ⟨taken, captured, rfl, something⟩ := parts
    rw [captured]
    simp [something]

-- No level has a slash in it, so a name tells which levels were taken. Only no level at all and
-- one empty level are joined to the same, and that is no name.
theorem captured?_of_deviceName? {filter topic : Text} (found : deviceName? filter topic = some name) :
    captured? (levels filter) (levels topic) = some (levels name) := by
  obtain ⟨taken, captured, rfl, something⟩ := deviceName?_eq_some_iff.mp found
  have whole : ∀ level ∈ taken, '/' ∉ level := fun level member =>
    Text.separator_notMem ((captured?_sublist captured).mem member)
  have some : taken ≠ [] := by
    intro nothing
    subst nothing
    exact something rfl
  have same : levels (joined taken) = taken := Text.splitAll_joinAll whole some
  rw [same, captured]

-- The device that a topic speaks of is what the wildcards of the filter stand for, joined by
-- slashes, as long as that is not empty; and no other topic speaks of it.
theorem deviceName_matches :
    (∀ filter topic name, AllLevelsLast (levels filter) → (deviceName? filter topic = some name ↔
      ∃ runs, Matches (levels filter) (levels topic) runs ∧
        name = joined (wildcardLevels (levels filter) runs) ∧ name ≠ [])) ∧
    ∀ filter topic other name, deviceName? filter topic = some name → deviceName? filter other = some name →
      topic = other := by
  constructor
  · intro filter topic name last
    rw [deviceName?_eq_some_iff]
    constructor
    · intro parts
      obtain ⟨taken, captured, named, something⟩ := parts
      obtain ⟨runs, matched, rfl⟩ := (captured?_eq_some_iff last).mp captured
      exact ⟨runs, matched, named, something⟩
    · intro parts
      obtain ⟨runs, matched, named, something⟩ := parts
      exact ⟨_, (captured?_eq_some_iff last).mpr ⟨runs, matched, rfl⟩, named, something⟩
  · intro filter topic other name found also
    have captured := captured?_of_deviceName? found
    have captured' := captured?_of_deviceName? also
    exact Text.splitAll_injective (captured?_injective captured captured')

theorem deviceName_matches_site :
    AllLevelsLast (levels "site/+/boiler/#") ∧
    deviceName? "site/+/boiler/#" "site/north/boiler/2/" = some "north/2/" ∧
    (∃ runs, Matches (levels "site/+/boiler/#") (levels "site/north/boiler/2/") runs ∧
      "north/2/" = joined (wildcardLevels (levels "site/+/boiler/#") runs) ∧ "north/2/" ≠ ([] : Text)) ∧
    ∀ other, deviceName? "site/+/boiler/#" other = some "north/2/" → "site/north/boiler/2/" = other := by
  have last : AllLevelsLast (levels "site/+/boiler/#") := by decide
  have found : deviceName? "site/+/boiler/#" "site/north/boiler/2/" = some "north/2/" := by decide
  exact ⟨last, found, (deviceName_matches.1 _ _ _ last).mp found, fun other => deviceName_matches.2 _ _ other _ found⟩

example : deviceName? "site/#/boiler" "site/north/pump" = some "north/pump" := by decide

end FieldGateway.Topic
