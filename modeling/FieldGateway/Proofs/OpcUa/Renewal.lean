import FieldGateway.Proofs.OpcUa.Custody
import FieldGateway.Proofs.OpcUa.Handles
import FieldGateway.Proofs.OpcUa.Session
import Mathlib.Data.List.Induction

-- What the handles of a device mean after it has been registered again and again.
namespace FieldGateway.OpcUa

namespace Request

structure Resolves (r : Request) (place : Nat) (resource : Resource) : Prop where
  handle : r.handle = firstHandle + place
  node : ∃ given, resource.attribute? "nodeId" = some given ∧ NodeId.read given = .ok r.node
  resource : r.resource = resource ∨ (r.resource == resource) = true

variable {r : Request} {handle place : Nat} {made other : Resource}

theorem ofResource_parts (resolved : ofResource handle made = .ok r) :
    r.handle = handle ∧ (∃ given, made.attribute? "nodeId" = some given ∧ NodeId.read given = .ok r.node) ∧
      r.resource = made := by
  unfold ofResource at resolved
  split at resolved
  · cases resolved
  · rename_i given named
    split at resolved
    · rename_i node read
      cases resolved
      exact ⟨rfl, ⟨given, named, read⟩, rfl⟩
    · cases resolved

theorem ofResource_resolves (resolved : ofResource (firstHandle + place) made = .ok r) : r.Resolves place made := by
  obtain ⟨handle, node, resource⟩ := ofResource_parts resolved
  exact ⟨handle, node, .inl resource⟩

theorem ofResource_resolves_same (resolved : ofResource (firstHandle + place) made = .ok r)
    (same : (made == other) = true) : r.Resolves place other := by
  obtain ⟨handle, ⟨given, named, read⟩, rfl⟩ := ofResource_parts resolved
  refine ⟨handle, ⟨given, ?_, read⟩, .inr same⟩
  rwa [Resource.attribute?, ← Resource.attributes_eq same]

end Request

def mostResources (configurations : List Device) : Nat :=
  configurations.foldl (fun most device => max most device.resources.length) 0

theorem mostResources_append (configurations : List Device) (device : Device) :
    mostResources (configurations ++ [device]) = max (mostResources configurations) device.resources.length :=
  List.foldl_concat ..

theorem mostResources_lt {bound : Nat} (positive : 0 < bound)
    (short : ∀ device ∈ configurations, device.resources.length < bound) : mostResources configurations < bound := by
  induction configurations using List.reverseRecOn with
  | nil => exact positive
  | append_singleton configurations last ih =>
    rw [mostResources_append]
    refine Nat.max_lt.mpr ⟨ih fun device member => short device (List.mem_append_left _ member), ?_⟩
    exact short last (by simp)

structure Latest (configurations : List Device) (place : Nat) (device : Device) (resource : Resource) : Prop where
  there : device.resources[place]? = some resource
  last : ∃ earlier later, configurations = earlier ++ device :: later ∧
    ∀ other ∈ later, other.resources.length ≤ place

namespace Latest

variable {configurations : List Device} {place : Nat} {device last : Device} {resource : Resource}

theorem concat (there : device.resources[place]? = some resource) :
    Latest (configurations ++ [device]) place device resource :=
  ⟨there, configurations, [], rfl, List.forall_mem_nil _⟩

theorem beyond (latest : Latest configurations place device resource) (short : last.resources.length ≤ place) :
    Latest (configurations ++ [last]) place device resource := by
  obtain ⟨there, earlier, later, rfl, shorter⟩ := latest
  refine ⟨there, earlier, later ++ [last], by simp, ?_⟩
  intro other member
  rcases List.mem_append.mp member with old | new
  · exact shorter other old
  · cases List.mem_singleton.mp new
    exact short

theorem eq_last (latest : Latest (configurations ++ [last]) place device resource)
    (reaches : place < last.resources.length) : device = last := by
  obtain ⟨-, earlier, later, split, shorter⟩ := latest
  rcases later.eq_nil_or_concat with rfl | ⟨later, other, rfl⟩
  · exact (List.append_singleton_inj.mp split).2.symm
  · rw [List.concat_eq_append, ← List.cons_append, ← List.append_assoc] at split
    obtain ⟨-, rfl⟩ := List.append_singleton_inj.mp split
    exact absurd (shorter last (by simp)) (Nat.not_le_of_lt reaches)

end Latest

-- What is known of a device that has had these configurations: at every place, what the latest
-- of them that reaches so far has there.
structure Accumulated (configurations : List Device) (known : List Request) : Prop where
  handles : known.map Request.handle = List.range' Request.firstHandle (mostResources configurations)
  latest : ∀ place r, known[place]? = some r →
    ∃ device resource, Latest configurations place device resource ∧ r.Resolves place resource

namespace Accumulated

variable {configurations : List Device} {known fresh : List Request} {device registered : Device}

theorem nil : Accumulated [] [] := ⟨rfl, fun i r there => by cases there⟩

theorem length (accumulated : Accumulated configurations known) : known.length = mostResources configurations := by
  simpa using congrArg List.length accumulated.handles

theorem numbered (accumulated : Accumulated configurations known) : Request.Numbered Request.firstHandle known := by
  unfold Request.Numbered
  rw [accumulated.handles, accumulated.length]

theorem renewed (accumulated : Accumulated configurations known) (made : Request.ofDevice device = .ok fresh) :
    Accumulated (configurations ++ [device]) (Request.merge known fresh) := by
  have newer := Request.ofResources_numbered made
  have length : fresh.length = device.resources.length := Request.ofResources_length made
  have merged := Request.merge_eq accumulated.numbered newer
  constructor
  · have numbered := accumulated.numbered.merge newer
    rw [numbered, mostResources_append, merged]
    congr 1
    rw [List.length_append, List.length_drop, accumulated.length]
    omega
  · intro i r there
    rw [merged, List.getElem?_append] at there
    split at there
    · obtain ⟨resource, found, resolved⟩ := Request.ofResources_get? made there
      exact ⟨device, resource, .concat found, Request.ofResource_resolves resolved⟩
    · rename_i beyond
      rw [List.getElem?_drop, Nat.add_sub_cancel' (Nat.le_of_not_lt beyond)] at there
      obtain ⟨older, resource, latest, resolves⟩ := accumulated.latest i r there
      exact ⟨older, resource, latest.beyond (by omega), resolves⟩

theorem repeated (accumulated : Accumulated configurations (fresh ++ older))
    (made : Request.ofDevice registered = .ok fresh) (same : (registered == device) = true) :
    Accumulated (configurations ++ [device]) (fresh ++ older) := by
  have length : fresh.length = device.resources.length := by
    rw [Request.ofResources_length made]
    exact List.length_eq_of_beq (Device.resources_beq same)
  have all := accumulated.length
  rw [List.length_append] at all
  constructor
  · rw [accumulated.handles, mostResources_append, ← all, Nat.max_eq_left (by omega)]
  · intro i r there
    by_cases own : i < fresh.length
    · rw [List.getElem?_append_left own] at there
      obtain ⟨resource, found, resolved⟩ := Request.ofResources_get? made there
      obtain ⟨other, present, equal⟩ := Device.resource_beq same found
      exact ⟨device, other, .concat present, Request.ofResource_resolves_same resolved equal⟩
    · obtain ⟨older, resource, latest, resolves⟩ := accumulated.latest i r there
      exact ⟨older, resource, latest.beyond (by omega), resolves⟩

end Accumulated

namespace Fleet

variable {f g h : Fleet} {t : Task} {entry : Entry} {name : Text} {device : Device} {configurations : List Device}
  {moves : List Move} {number : Nat}

def Connected (f : Fleet) (name : Text) : Prop :=
  ∃ entry t, f.registration? name = some entry ∧ f.tasks[entry.task]? = some t ∧ t.answer = some (.ok ())

-- The configurations of a device that are registered one after the other, each of them once the
-- one before is connected. Everything else may happen in between, but a removal would leave
-- nothing that is connected.
inductive Renewals (name : Text) (f : Fleet) : List Device → Fleet → Prop where
  | unregistered (absent : f.registration? name = none) : Renewals name f [] f
  | renewed {g h : Fleet} {configurations : List Device} {device : Device} {moves : List Move}
      (before : Renewals name f configurations g) (named : device.name = name)
      (accepted : device.driverType = driverType) (ran : g.run (.add device :: moves) = some h)
      (alone : ∀ move ∈ moves, ¬ move.Adds name) (connected : h.Connected name) :
      Renewals name f (configurations ++ [device]) h

theorem task_after (there : f.tasks[number]? = some t) (ran : f.run moves = some g) :
    ∃ u, g.tasks[number]? = some u ∧ u.device = t.device ∧ u.carried = t.carried := by
  have keeps : ∀ {middle : Fleet} {move later}, (∃ u, middle.tasks[number]? = some u ∧ u.device = t.device ∧
      u.carried = t.carried) → Step middle move later →
      ∃ u, later.tasks[number]? = some u ∧ u.device = t.device ∧ u.carried = t.carried := by
    rintro middle move later ⟨u, there, device, carried⟩ step
    obtain ⟨v, events, present, advance, -⟩ := step.advances there
    exact ⟨v, present, advance.basis_eq.1.trans device, advance.basis_eq.2.trans carried⟩
  exact run_keeps keeps ⟨t, there, rfl, rfl⟩ ran

structure Established (f : Fleet) (name : Text) (configurations : List Device) (entry : Entry) (t : Task) : Prop where
  registered : f.registration? name = some entry
  there : f.tasks[entry.task]? = some t
  answered : t.answer = some (.ok ())
  accumulated : Accumulated configurations entry.requests
  current : ∃ earlier last, configurations = earlier ++ [last] ∧
    entry.device.resources.length = last.resources.length

theorem knows_registered (reached : Reached f) (found : f.registration? name = some entry)
    (there : f.tasks[entry.task]? = some t) (answered : t.answer = some (.ok ())) :
    ∃ fresh, Request.ofDevice entry.device = .ok fresh ∧ entry.requests = Request.merge t.carried fresh := by
  obtain ⟨t', present, device, -⟩ := reached.sound.there found
  cases there.symm.trans present
  obtain ⟨fresh, made, known⟩ := reached.informed.noted found there answered
  exact ⟨fresh, device ▸ made, known⟩

theorem established_new (reached : Reached g) (connected : g.Connected name)
    (mine : ∀ entry t, g.registration? name = some entry → g.tasks[entry.task]? = some t →
      entry.device = device ∧ t.carried = carried) (accumulated : Accumulated configurations carried) :
    ∃ entry t, g.Established name (configurations ++ [device]) entry t := by
  obtain ⟨entry, t, found, there, answered⟩ := connected
  obtain ⟨fresh, made, known⟩ := knows_registered reached found there answered
  obtain ⟨rfl, rfl⟩ := mine entry t found there
  refine ⟨entry, t, found, there, answered, ?_, configurations, _, rfl, rfl⟩
  rw [known]
  exact accumulated.renewed made

theorem established_same (reached : Reached f) (before : f.Established name configurations entry t)
    (later : Reached g) (connected : g.Connected name)
    (mine : ∀ renewed u, g.registration? name = some renewed → g.tasks[renewed.task]? = some u →
      renewed.device = entry.device ∧ u.carried = t.carried) (same : (entry.device == device) = true) :
    ∃ entry t, g.Established name (configurations ++ [device]) entry t := by
  obtain ⟨renewed, u, found, there, answered⟩ := connected
  obtain ⟨fresh, made, known⟩ := knows_registered reached before.registered before.there before.answered
  obtain ⟨again, remade, noted⟩ := knows_registered later found there answered
  obtain ⟨its, carried⟩ := mine renewed u found there
  rw [its, made] at remade
  cases remade
  rw [carried] at noted
  have merged := Request.merge_eq (reached.informed.tasks _ t before.there).carried (Request.ofResources_numbered made)
  refine ⟨renewed, u, found, there, answered, ?_, configurations, device, rfl, ?_⟩
  · have accumulated := before.accumulated
    rw [known, merged] at accumulated
    rw [noted, merged]
    exact accumulated.repeated made same
  · rw [its]
    exact List.length_eq_of_beq (Device.resources_beq same)

theorem entry_task_before (sound : Sound f) (ran : f.run moves = some g) (alone : ∀ move ∈ moves, ¬ move.Adds name)
    (found : g.registration? name = some entry) (there : g.tasks[entry.task]? = some t) :
    ∃ old u, f.registration? name = some old ∧ f.tasks[old.task]? = some u ∧ entry.device = old.device ∧
      t.carried = u.carried := by
  obtain ⟨old, before, device, task⟩ := entry_before sound ran alone found
  obtain ⟨u, present, -⟩ := sound.there before
  obtain ⟨later, after, -, carried⟩ := task_after present ran
  rw [task] at after
  cases there.symm.trans after
  exact ⟨old, u, before, present, device.symm, carried⟩

theorem registered_created (carried : List Request) :
    (f.register device carried).registration? device.name =
        some ⟨device, carried, f.tasks.length, f.generation⟩ ∧
      (f.register device carried).tasks[f.tasks.length]? = some (.create device carried f.generation) := by
  constructor
  · exact (Table.get?_put ..).trans (if_pos rfl)
  · exact List.getElem?_concat_length

theorem established_step (reached : Reached f)
    (before : configurations = [] ∧ f.registration? device.name = none ∨
      ∃ entry t, f.Established device.name configurations entry t)
    (accepted : device.driverType = driverType) (ran : f.run (.add device :: moves) = some g)
    (alone : ∀ move ∈ moves, ¬ move.Adds device.name) (connected : g.Connected device.name) :
    ∃ entry t, g.Established device.name (configurations ++ [device]) entry t := by
  obtain ⟨middle, step, rest⟩ := run_cons ran
  have later : Reached g := reached.run ran
  have origin : ∀ entry t, g.registration? device.name = some entry → g.tasks[entry.task]? = some t → _ :=
    fun entry t found there => entry_task_before (reached.sound.step step) rest alone found there
  cases step with
  | rejected checked => rw [checkDriver_ok_iff.mpr accepted] at checked; cases checked
  | added checked absent =>
    rcases before with ⟨rfl, -⟩ | ⟨entry, t, established⟩
    · obtain ⟨registered, created⟩ := @registered_created f device []
      refine established_new later connected (fun entry t found there => ?_) .nil
      obtain ⟨old, u, before, present, own, carried⟩ := origin entry t found there
      cases registered.symm.trans before
      cases created.symm.trans present
      exact ⟨own, carried⟩
    · cases absent.symm.trans established.registered
  | @known entry _ checked present same =>
    rcases before with ⟨-, absent⟩ | ⟨entry', t, established⟩
    · cases absent.symm.trans present
    · cases established.registered.symm.trans present
      refine established_same reached established later connected (fun renewed v found there => ?_) same
      obtain ⟨old, u, before, present, own, carried⟩ := origin renewed v found there
      cases established.registered.symm.trans before
      cases established.there.symm.trans present
      exact ⟨own, carried⟩
  | @replaced entry _ checked present =>
    rcases before with ⟨-, absent⟩ | ⟨entry', t, established⟩
    · cases absent.symm.trans present
    · cases established.registered.symm.trans present
      obtain ⟨registered, created⟩ := @registered_created (f.cancelTask entry.task) device entry.requests
      refine established_new later connected (fun renewed v found there => ?_) established.accumulated
      obtain ⟨old, u, before, present, own, carried⟩ := origin renewed v found there
      cases registered.symm.trans before
      cases created.symm.trans present
      exact ⟨own, carried⟩

theorem Renewals.established (reached : Reached f) (renewals : Renewals name f configurations g) :
    Reached g ∧ (configurations = [] ∧ g.registration? name = none ∨
      ∃ entry t, g.Established name configurations entry t) := by
  induction renewals with
  | unregistered absent => exact ⟨reached, .inl ⟨rfl, absent⟩⟩
  | renewed before named accepted ran alone connected ih =>
    obtain ⟨between, state⟩ := ih
    subst named
    exact ⟨between.run ran, .inr (established_step between state accepted ran alone connected)⟩

def Subscribed (f : Fleet) : Prop :=
  ∀ (number : Nat) (t : Task), f.tasks[number]? = some t → t.answer = some (.ok ()) →
    ∃ asked, .subscribe number asked ∈ f.history

theorem Subscribed.step (subscribed : Subscribed f) (truthful : Truthful f) (step : Step f move g) :
    Subscribed g := by
  intro number u there answered
  rcases step.task_parts there with ⟨t, events, old, advance, trace⟩ | ⟨device, carried, -, rfl, rfl, -⟩
  · have grown : ∀ {asked}, .subscribe number asked ∈ f.trace number → .subscribe number asked ∈ g.history := by
      intro asked member
      refine (List.mem_filter.mp (?_ : _ ∈ g.trace number)).1
      rw [trace]
      exact List.mem_append_left _ member
    have before : t.answer = some (.ok ()) → ∃ asked, .subscribe number asked ∈ g.history := by
      intro earlier
      obtain ⟨asked, member⟩ := subscribed number t old earlier
      exact ⟨asked, grown (mem_trace.mpr member)⟩
    cases advance with
    | kept | cancelled | notified | severed => exact before answered
    | stepped own =>
      rcases own.answer_parts answered with earlier | ⟨known, edit⟩
      · exact before earlier
      · cases own with
        | recorded phase =>
          have fits := (truthful.fitting number t old).phase
          rw [phase] at fits
          obtain ⟨asked, seen⟩ := fits
          exact ⟨asked, grown (by simp [seen, Session.opening])⟩
        | _ => cases edit
  · cases answered

theorem Reached.subscribed (reached : Reached f) : Subscribed f := by
  refine reached.keeps ?_ fun reached subscribed => subscribed.step reached.truthful
  intro settings buses number t there
  cases there

-- However often a device has been registered with another configuration, each time connected
-- before the next: its requests have the handles from 42 on without a gap, as many as the
-- configuration with the most resources has needed, and each was resolved from the latest
-- configuration that reaches so far. So what was subscribed for the last one is found again.
theorem handles_renewed (reached : Reached f) (renewals : Renewals name f configurations g)
    (added : configurations ≠ []) :
    ∃ entry t, g.registration? name = some entry ∧ g.tasks[entry.task]? = some t ∧
      (∀ known, t.phase.known? = some known → known = entry.requests) ∧
      entry.requests.map Request.handle = List.range' 42 (mostResources configurations) ∧
      (∀ place, place < mostResources configurations → ∃ r device resource,
        Request.find? (42 + place) entry.requests = some r ∧ Latest configurations place device resource ∧
          r.Resolves place resource) ∧
      (∃ asked, .subscribe entry.task asked ∈ g.history) ∧
      (∀ asked, .subscribe entry.task asked ∈ g.history → ∃ last, configurations.getLast? = some last ∧
        asked.length = last.resources.length ∧
        ∀ place r, asked[place]? = some r → Request.find? r.handle entry.requests = some r ∧
          ∃ resource, last.resources[place]? = some resource ∧ r.Resolves place resource) ∧
      ((∀ device ∈ configurations, device.resources.length < UInt32.size - 42) →
        ∀ r ∈ entry.requests, r.handle < UInt32.size) := by
  obtain ⟨later, ⟨rfl, -⟩ | ⟨entry, t, established⟩⟩ := renewals.established reached
  · exact absurd rfl added
  obtain ⟨found, there, answered, accumulated, earlier, last, rfl, length⟩ := established
  obtain ⟨fresh, made, known⟩ := knows_registered later found there answered
  have numbered := accumulated.numbered
  have merged := Request.merge_eq (later.informed.tasks _ t there).carried (Request.ofResources_numbered made)
  refine ⟨entry, t, found, there, ?_, accumulated.handles, ?_, later.subscribed _ t there answered,
    ?_, ?_⟩
  · intro known working
    exact ((later.informed.tasks _ t there).known known working).unique (later.informed.noted found there answered)
  · intro place bound
    rw [← accumulated.length] at bound
    obtain ⟨device, resource, latest, resolves⟩ := accumulated.latest place _ (List.getElem?_eq_getElem bound)
    exact ⟨_, device, resource, numbered.find?_eq (List.getElem?_eq_getElem bound), latest, resolves⟩
  · intro asked member
    obtain ⟨t', present, remade⟩ := later.informed.asked _ asked member
    cases there.symm.trans present
    obtain ⟨t', present, device, -⟩ := later.sound.there found
    cases there.symm.trans present
    rw [device, made] at remade
    cases remade
    have reaches := (Request.ofResources_length made).trans length
    refine ⟨last, List.getLast?_concat, reaches, fun place r own => ?_⟩
    have bound := (List.getElem?_eq_some_iff.mp own).1
    have placed : entry.requests[place]? = some r := by
      rw [known, merged]
      exact (List.getElem?_append_left bound).trans own
    obtain ⟨device, resource, latest, resolves⟩ := accumulated.latest place r placed
    cases latest.eq_last (by omega)
    refine ⟨?_, resource, latest.there, resolves⟩
    rw [resolves.handle]
    exact numbered.find?_eq placed
  · intro short r member
    have bound := (numbered.handle_mem member).2
    have most := mostResources_lt (by decide) short
    rw [accumulated.length, Request.firstHandle] at bound
    omega

def boilerPair : Device :=
  { boilerAt "a" with
    profile := ⟨[⟨"level", none, .ofType (.integer .int64), [("nodeId", .text "i=8")]⟩,
      ⟨"flow", none, .ofType (.integer .int64), [("nodeId", .text "i=9")]⟩]⟩ }

theorem handles_renewed_shrunk :
    ∃ g entry first resource, Renewals "boiler" (idle unsecured []) [boilerPair, boilerAt "b"] g ∧
      g.registration? "boiler" = some entry ∧ entry.requests.map Request.handle = [42, 43] ∧
      Request.find? 42 entry.requests = some first ∧ (boilerAt "b").resources[0]? = some resource ∧
      first.Resolves 0 resource := by
  obtain ⟨f, g, served, connected, renewed, again⟩ : ∃ f g,
      (idle unsecured []).run [.add boilerPair, .task 0 .begin, .task 0 .connected, .task 0 .subscribed,
        .task 0 .record] = some f ∧ f.Connected "boiler" ∧
      f.run [.add (boilerAt "b"), .task 0 .look, .task 0 .sessionClosed, .joined 1, .task 1 .begin,
        .task 1 .connected, .task 1 .subscribed, .task 1 .record] = some g ∧ g.Connected "boiler" :=
    ⟨_, _, rfl, ⟨_, _, rfl, rfl, rfl⟩, rfl, ⟨_, _, rfl, rfl, rfl⟩⟩
  have pair : Renewals "boiler" (idle unsecured []) ([] ++ [boilerPair]) f :=
    .renewed (.unregistered rfl) rfl rfl served (by simp [Move.Adds]) connected
  have both : Renewals "boiler" (idle unsecured []) ([boilerPair] ++ [boilerAt "b"]) g :=
    .renewed pair rfl rfl renewed (by simp [Move.Adds]) again
  obtain ⟨entry, t, found, -, -, handles, placed, -⟩ := handles_renewed ⟨_, _, [], rfl⟩ both (List.cons_ne_nil _ _)
  obtain ⟨first, device, resource, known, latest, resolves⟩ := placed 0 (by decide)
  cases latest.eq_last (by decide)
  exact ⟨g, entry, first, resource, both, found, handles, known, latest.there, resolves⟩

end Fleet

end FieldGateway.OpcUa
