import FieldGateway.Proofs.Topic.Filter
import FieldGateway.Topic.Template

-- A template gives its places to the names, in their order, and keeps its other levels. Of a
-- topic that comes of it the names can be told again, also a device name of several levels: the
-- template has as many levels before and behind it, whatever the name.
namespace FieldGateway.Topic

theorem levels_ne_nil (t : Text) : levels t ≠ [] := by
  rw [levels, Text.splitAll_eq_splitOn]
  exact List.splitOn_ne_nil _ _

theorem level_whole (member : level ∈ levels t) : '/' ∉ level := Text.separator_notMem member

theorem flatMap_levels {ls : List Text} (whole : ∀ level ∈ ls, '/' ∉ level) : ls.flatMap levels = ls := by
  induction ls with
  | nil => rfl
  | cons level ls ih =>
    obtain ⟨mine, others⟩ := List.forall_mem_cons.mp whole
    rw [List.flatMap_cons, ih others, levels, Text.splitAll_of_notMem mine]
    rfl

namespace Template

variable {given : Text} {t : Template} {level name device resource device' resource' : Text}
  {names ls before after : List Text} {c : Char}

theorem read_parts (accepted : read given = .ok t) :
    t.levels = Topic.levels given ∧ allLevels ∉ t.levels ∧ t.levels.count oneLevel ≤ 2 := by
  simp only [read] at accepted
  split at accepted
  · cases accepted
  · rename_i unbounded
    split at accepted
    · cases accepted
    · rename_i few
      cases accepted
      refine ⟨rfl, ?_, ?_⟩
      · simpa using unbounded
      · simpa only [List.count_eq_length_filter, beq_eq_decide] using Nat.le_of_not_lt few

theorem levels_whole (accepted : read given = .ok t) : ∀ level ∈ t.levels, '/' ∉ level := by
  rw [(read_parts accepted).1]
  exact fun level member => level_whole member

theorem filled_nil (ls : List Text) : filled [] ls = ls := by
  cases ls <;> rfl

theorem filled_place (name : Text) (names ls : List Text) :
    filled (name :: names) (oneLevel :: ls) = name :: filled names ls := if_pos rfl

theorem filled_literal (literal : level ≠ oneLevel) : filled names (level :: ls) = level :: filled names ls := by
  cases names with
  | nil => rw [filled_nil, filled_nil]
  | cons name names => exact if_neg literal

theorem filled_append (literal : oneLevel ∉ before) : filled names (before ++ ls) = before ++ filled names ls := by
  induction before with
  | nil => rfl
  | cons level before ih =>
    rw [List.mem_cons, not_or] at literal
    rw [List.cons_append, filled_literal (Ne.symm literal.1), ih literal.2]
    rfl

theorem filled_ne_nil (some : ls ≠ []) : filled names ls ≠ [] := by
  cases ls with
  | nil => exact absurd rfl some
  | cons level ls =>
    by_cases place : level = oneLevel
    · subst place
      cases names with
      | nil => rwa [filled_nil]
      | cons name names => rw [filled_place]; exact nofun
    · rw [filled_literal place]
      exact nofun

theorem levels_render (accepted : read given = .ok t) :
    Topic.levels (t.render device resource) = (filled [device, resource] t.levels).flatMap Topic.levels := by
  have some : t.levels ≠ [] := (read_parts accepted).1 ▸ levels_ne_nil given
  exact Text.splitAll_joinAll_flatMap (filled_ne_nil some)

theorem mem_filled (member : level ∈ filled names ls) : level ∈ names ∨ level ∈ ls := by
  induction ls generalizing names with
  | nil =>
    cases names <;> cases member
  | cons first ls ih =>
    by_cases place : first = oneLevel
    · subst place
      cases names with
      | nil => exact .inr member
      | cons name names =>
        rw [filled_place] at member
        rcases List.mem_cons.mp member with rfl | later
        · exact .inl List.mem_cons_self
        · exact (ih later).imp (List.mem_cons_of_mem _) (List.mem_cons_of_mem _)
    · rw [filled_literal place] at member
      rcases List.mem_cons.mp member with rfl | later
      · exact .inr List.mem_cons_self
      · exact (ih later).imp_right (List.mem_cons_of_mem _)

theorem levels_render_single (accepted : read given = .ok t) (whole : '/' ∉ device) (also : '/' ∉ resource) :
    Topic.levels (t.render device resource) = filled [device, resource] t.levels := by
  rw [levels_render accepted]
  refine flatMap_levels fun level member => ?_
  rcases mem_filled member with name | literal
  · simp only [List.mem_cons, List.not_mem_nil, or_false] at name
    rcases name with rfl | rfl
    · exact whole
    · exact also
  · exact levels_whole accepted level literal

theorem exists_place (some : 0 < ls.count oneLevel) :
    ∃ before after, ls = before ++ oneLevel :: after ∧ oneLevel ∉ before ∧
      ls.count oneLevel = after.count oneLevel + 1 := by
  obtain ⟨before, after, rfl, literal⟩ := List.eq_append_cons_of_mem (List.count_pos_iff.mp some)
  refine ⟨before, after, rfl, literal, ?_⟩
  rw [List.count_append, List.count_eq_zero_of_not_mem literal, List.count_cons_self, Nat.zero_add]

theorem filled_two_places (two : ls.count oneLevel = 2) :
    ∃ before between after, (∀ level ∈ before ++ (between ++ after), level ∈ ls) ∧
      ∀ device resource, filled [device, resource] ls = before ++ device :: (between ++ resource :: after) := by
  obtain ⟨before, rest, rfl, literal, counted⟩ := exists_place (two ▸ Nat.two_pos)
  have more : 0 < rest.count oneLevel := by omega
  obtain ⟨between, after, rfl, literal', -⟩ := exists_place more
  refine ⟨before, between, after, ?_, ?_⟩
  · intro level member
    simp only [List.mem_append, List.mem_cons] at member ⊢
    tauto
  · intro device resource
    rw [filled_append literal, filled_place, filled_append literal', filled_place, filled_nil]

theorem captured?_filled (bounded : allLevels ∉ ls) (enough : ls.count oneLevel ≤ names.length) :
    captured? ls (filled names ls) = some (names.take (ls.count oneLevel)) := by
  induction ls generalizing names with
  | nil => cases names <;> rfl
  | cons level ls ih =>
    rw [List.mem_cons, not_or] at bounded
    by_cases place : level = oneLevel
    · subst place
      rw [List.count_cons_self] at enough ⊢
      cases names with
      | nil => cases enough
      | cons name names =>
        have behind := ih bounded.2 (Nat.le_of_succ_le_succ enough)
        simp [filled_place, captured?, Ne.symm bounded.1, behind]
    · rw [List.count_cons_of_ne place] at enough ⊢
      have behind := ih bounded.2 enough
      simp [filled_literal place, captured?, Ne.symm bounded.1, place, behind]

theorem deviceName?_filled {filter topic : Text} (bounded : allLevels ∉ Topic.levels filter)
    (filling : Topic.levels topic = filled names (Topic.levels filter))
    (enough : (Topic.levels filter).count oneLevel ≤ names.length)
    (named : joined (names.take ((Topic.levels filter).count oneLevel)) = name) (something : name ≠ []) :
    deviceName? filter topic = some name := by
  refine deviceName?_eq_some_iff.mpr ⟨_, ?_, named.symm, something⟩
  rw [filling, captured?_filled bounded enough]

-- Every place is filled, so a character that no name has comes from another level.
theorem mem_filled_iff (enough : ls.count oneLevel ≤ names.length) (absent : ∀ name ∈ names, c ∉ name) :
    (∃ level ∈ filled names ls, c ∈ level) ↔ ∃ level ∈ ls, level ≠ oneLevel ∧ c ∈ level := by
  induction ls generalizing names with
  | nil => cases names <;> simp [filled]
  | cons level ls ih =>
    by_cases place : level = oneLevel
    · subst place
      rw [List.count_cons_self] at enough
      cases names with
      | nil => cases enough
      | cons name names =>
        obtain ⟨mine, others⟩ := List.forall_mem_cons.mp absent
        simp [filled_place, mine, ih (Nat.le_of_succ_le_succ enough) others]
    · rw [List.count_cons_of_ne place] at enough
      simp [filled_literal place, place, ih enough absent]

theorem mem_render_iff (accepted : read given = .ok t) (different : c ≠ '/') (mine : c ∉ device)
    (its : c ∉ resource) :
    c ∈ t.render device resource ↔ ∃ level ∈ Topic.levels given, level ≠ oneLevel ∧ c ∈ level := by
  obtain ⟨levels, -, few⟩ := read_parts accepted
  have absent : ∀ name ∈ [device, resource], c ∉ name := by simp [mine, its]
  rw [render, joined, Text.mem_joinAll_iff different, mem_filled_iff few absent, levels]

-- No two values are published under one topic: device and resource can be told from it. The
-- name of the device may have any number of levels, the template's own among them.
theorem render_injective (accepted : read given = .ok t) (two : t.levels.count oneLevel = 2)
    (whole : '/' ∉ resource) (also : '/' ∉ resource')
    (same : t.render device resource = t.render device' resource') : device = device' ∧ resource = resource' := by
  obtain ⟨before, between, after, inside, filled⟩ := filled_two_places two
  have literal : ∀ ls : List Text, (∀ level ∈ ls, level ∈ before ++ (between ++ after)) → ls.flatMap Topic.levels = ls :=
    fun ls within => flatMap_levels fun level member => levels_whole accepted level (inside level (within level member))
  have split : ∀ d r, '/' ∉ r →
      Topic.levels (t.render d r) = before ++ (Topic.levels d ++ (between ++ r :: after)) := by
    intro d r single
    have mine : Topic.levels r = [r] := Text.splitAll_of_notMem single
    rw [levels_render accepted, filled, List.flatMap_append, List.flatMap_cons, List.flatMap_append,
      List.flatMap_cons, mine, literal before (by simp +contextual), literal between (by simp +contextual),
      literal after (by simp +contextual)]
    rfl
  have levels : Topic.levels device ++ (between ++ resource :: after) =
      Topic.levels device' ++ (between ++ resource' :: after) := by
    have topics := congrArg Topic.levels same
    rw [split device resource whole, split device' resource' also] at topics
    exact List.append_cancel_left topics
  have length : (Topic.levels device).length = (Topic.levels device').length := by
    have total := congrArg List.length levels
    simp only [List.length_append, List.length_cons] at total
    omega
  obtain ⟨devices, rest⟩ := List.append_inj levels length
  have resources := List.append_cancel_left rest
  exact ⟨Text.splitAll_injective devices, (List.cons.inj resources).1⟩

theorem render_injective_nested :
    ∃ t, read "devices/+/data/+" = .ok t ∧ t.levels.count oneLevel = 2 ∧
      t.render "north/data/boiler" "burning" = "devices/north/data/boiler/data/burning" ∧
      ∀ device resource, '/' ∉ resource →
        "devices/north/data/boiler/data/burning" = t.render device resource →
        "north/data/boiler" = device ∧ "burning" = resource := by
  obtain ⟨t, accepted, two, topic⟩ : ∃ t, read "devices/+/data/+" = .ok t ∧ t.levels.count oneLevel = 2 ∧
      t.render "north/data/boiler" "burning" = "devices/north/data/boiler/data/burning" :=
    ⟨_, rfl, by decide, by decide⟩
  refine ⟨t, accepted, two, topic, fun device resource single same => ?_⟩
  exact render_injective accepted two (by decide) single (topic.trans same)

end Template
end FieldGateway.Topic
