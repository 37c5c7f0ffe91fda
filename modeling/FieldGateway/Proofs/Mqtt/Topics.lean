import FieldGateway.Mqtt.Publisher
import FieldGateway.Proofs.Topic.Template

-- The topics that the gateway writes itself: those of results, built from a template, and those
-- of commands, built by putting a name in the place of a plus sign.
namespace FieldGateway.Mqtt
open Topic (levels oneLevel allLevels deviceName? Template)

variable {given topic device resource : Text} {t : Template}

theorem map_substitute {ls : List Text} (absent : ∀ level ∈ ls, '+' ∉ level) :
    ls.map (Text.substitute '+' device) = ls := by
  rw [List.map_congr_left fun level member => Text.substitute_of_notMem (absent level member)]
  exact List.map_id' ls

theorem only_place (single : topic.count '+' = 1) (place : oneLevel ∈ levels topic) :
    ∃ before after, levels topic = before ++ oneLevel :: after ∧ ∀ level ∈ before ++ after, '+' ∉ level := by
  obtain ⟨before, after, split⟩ := List.append_of_mem place
  refine ⟨before, after, split, ?_⟩
  have total : (levels topic).flatten.count '+' = 1 := by
    have different : '+' ≠ '/' := by decide
    rw [← single, levels, ← Text.count_joinAll different, Text.joinAll_splitAll]
  have mine : oneLevel.count '+' = 1 := by decide
  rw [split, List.flatten_append, List.flatten_cons, List.count_append, List.count_append, mine] at total
  have others : (before ++ after).flatten.count '+' = 0 := by
    rw [List.flatten_append, List.count_append]
    omega
  intro level member plus
  exact List.count_eq_zero.mp others (List.mem_flatten.mpr ⟨level, member, plus⟩)

theorem levels_substitute (single : topic.count '+' = 1) (place : oneLevel ∈ levels topic) (whole : '/' ∉ device) :
    levels (Text.substitute '+' device topic) = Template.filled [device] (levels topic) ∧
      (levels topic).count oneLevel = 1 := by
  obtain ⟨before, after, split, absent⟩ := only_place single place
  obtain ⟨ahead, behind⟩ := List.forall_mem_append.mp absent
  have literal : ∀ ls : List Text, (∀ level ∈ ls, '+' ∉ level) → oneLevel ∉ ls :=
    fun ls absent member => absent oneLevel member List.mem_cons_self
  have itself : Text.substitute '+' device oneLevel = device := List.append_nil device
  constructor
  · rw [levels, Text.splitAll_substitute (by decide) whole, ← levels, split, List.map_append, List.map_cons,
      map_substitute ahead, map_substitute behind, itself, Template.filled_append (literal before ahead),
      Template.filled_place, Template.filled_nil]
  · rw [split, List.count_append, List.count_cons_self, List.count_eq_zero_of_not_mem (literal before ahead),
      List.count_eq_zero_of_not_mem (literal after behind)]

-- What the gateway writes to a topic is read off it again by the same filter: the names that
-- have gone into a topic of results, and the device whose commands a topic takes.
theorem built_topics_named :
    (∀ given t device resource, Template.read given = .ok t → '/' ∉ device → '/' ∉ resource →
      (t.levels.count oneLevel = 2 →
        deviceName? given (t.render device resource) = some (device ++ '/' :: resource)) ∧
      (t.levels.count oneLevel = 1 → device ≠ [] →
        deviceName? given (t.render device resource) = some device)) ∧
    ∀ (s : Subscriber) topic device, s.settings.pubTopic = some topic → topic.count '+' = 1 →
      oneLevel ∈ levels topic → allLevels ∉ levels topic → '/' ∉ device → device ≠ [] →
      ∃ commands, s.commandTopic device = .ok commands ∧ deviceName? topic commands = some device := by
  constructor
  · intro given t device resource accepted single whole
    obtain ⟨same, bounded, few⟩ := Template.read_parts accepted
    have filled := Template.levels_render_single accepted single whole
    rw [same] at bounded few filled ⊢
    constructor
    · intro two
      exact Template.deviceName?_filled bounded filled few (by rw [two]; rfl) (by simp)
    · intro one something
      exact Template.deviceName?_filled bounded filled few (by rw [one]; rfl) something
  · intro s topic device given single place bounded whole something
    obtain ⟨filled, one⟩ := levels_substitute single place whole
    refine ⟨_, by rw [Subscriber.commandTopic, given], ?_⟩
    exact Template.deviceName?_filled bounded filled (Nat.le_of_eq one) (by rw [one]; rfl) something

def commanding : Subscriber :=
  ⟨⟨.ofHost "localhost", "site/#", some "site/+/commands"⟩, .atMostOnce, [], [], none, 0, []⟩

theorem built_topics_named_pump :
    ∃ t commands, Template.read "site+1/+/data/+" = .ok t ∧ t.levels.count oneLevel = 2 ∧
      deviceName? "site+1/+/data/+" (t.render "pump+" "#") = some "pump+/#" ∧
      commanding.commandTopic "pump+" = .ok commands ∧ deviceName? "site/+/commands" commands = some "pump+" := by
  obtain ⟨t, accepted, two⟩ : ∃ t, Template.read "site+1/+/data/+" = .ok t ∧ t.levels.count oneLevel = 2 :=
    ⟨_, rfl, by decide⟩
  obtain ⟨both, -⟩ := built_topics_named.1 _ t "pump+" "#" accepted (by decide) (by decide)
  obtain ⟨commands, topic, named⟩ := built_topics_named.2 commanding _ "pump+" rfl (by decide) (by decide)
    (by decide) (by decide) (by decide)
  exact ⟨t, commands, accepted, two, both two, topic, named⟩

theorem hasWildcard_iff : hasWildcard topic = true ↔ '+' ∈ topic ∨ '#' ∈ topic := by
  simp [hasWildcard, and_or_left, exists_or]

-- The client refuses a topic with a wildcard in it. Names without wildcards give one only if the
-- template has it in a level besides its places.
theorem rendered_publishable (accepted : Template.read given = .ok t) (mine : hasWildcard device = false)
    (its : hasWildcard resource = false) :
    (hasWildcard (t.render device resource) = true ↔
      ∃ level ∈ levels given, level ≠ oneLevel ∧ hasWildcard level = true) ∧
    ∀ c : Connection, c.publishOutcome (t.render device resource) = .refused ↔
      ∃ level ∈ levels given, level ≠ oneLevel ∧ hasWildcard level = true := by
  have same : hasWildcard (t.render device resource) = true ↔
      ∃ level ∈ levels given, level ≠ oneLevel ∧ hasWildcard level = true := by
    rw [Bool.eq_false_iff, ne_eq, hasWildcard_iff, not_or] at mine its
    have plus := Template.mem_render_iff accepted (by decide) mine.1 its.1
    have hash := Template.mem_render_iff accepted (by decide) mine.2 its.2
    simp only [hasWildcard_iff, plus, hash, and_or_left, exists_or]
  refine ⟨same, fun c => ?_⟩
  rw [← same, Connection.publishOutcome]
  cases hasWildcard (t.render device resource) with
  | true => simp
  | false => cases c.hasRoom <;> simp

theorem rendered_publishable_standard :
    ∃ t, Template.read Template.standard = .ok t ∧ hasWildcard (t.render "north/boiler" "burning") = false ∧
      ∀ c : Connection, c.publishOutcome (t.render "north/boiler" "burning") ≠ .refused := by
  obtain ⟨t, accepted⟩ : ∃ t, Template.read Template.standard = .ok t := ⟨_, rfl⟩
  have mine : hasWildcard "north/boiler" = false := by decide
  have its : hasWildcard "burning" = false := by decide
  obtain ⟨wild, refused⟩ := rendered_publishable accepted mine its
  have clean : ¬ ∃ level ∈ levels Template.standard, level ≠ oneLevel ∧ hasWildcard level = true := by decide
  refine ⟨t, accepted, ?_, fun c => ?_⟩
  · rwa [← wild, Bool.not_eq_true] at clean
  · rwa [← refused c] at clean

theorem Publisher.receive_refused {p : Publisher} (wild : hasWildcard (p.template.render d.device d.telemetry.name) = true) :
    p.receive d = p := by
  unfold receive
  split
  · rfl
  · simp [Subscriber.publish, Connection.publishOutcome, wild]

-- A wildcard within a level is accepted, and the bus publishes nothing to a topic that has it.
theorem stray_wildcard :
    ∃ t, Template.read "site#1/+/data/+" = .ok t ∧ hasWildcard "boiler" = false ∧ hasWildcard "burning" = false ∧
      t.render "boiler" "burning" = "site#1/boiler/data/burning" ∧
      ∀ p : Publisher, p.template = t → p.receive ⟨"boiler", ⟨"burning", .bool, .bool true, 7⟩⟩ = p := by
  obtain ⟨t, accepted, topic⟩ : ∃ t, Template.read "site#1/+/data/+" = .ok t ∧
      t.render "boiler" "burning" = "site#1/boiler/data/burning" := ⟨_, rfl, by decide⟩
  refine ⟨t, accepted, by decide, by decide, topic, ?_⟩
  rintro p rfl
  refine Publisher.receive_refused ?_
  rw [topic]
  decide

end FieldGateway.Mqtt
