import FieldGateway.Proofs.OpcUa.Answers
import FieldGateway.Proofs.OpcUa.Elsewhere

-- What a call that adds a device answers when no other call is under way, and what stands in the
-- registry then.
namespace FieldGateway.OpcUa

def Call.awaited? : Call → Option Nat
  | replacing _ created | waiting created => some created
  | clearing _ _ | returned _ => none

theorem Move.Supersedes.isCall {move : Move} {device : Device} (supersedes : move.Supersedes device) : move.IsCall := by
  cases move with
  | add | remove | stop => trivial
  | cancelled | joined | answered | gaveUp | task | notify | sever => exact supersedes

theorem Move.Adds.isCall {move : Move} {name : Text} (adds : move.Adds name) : move.IsCall := by
  cases move with
  | add => trivial
  | remove | stop | cancelled | joined | answered | gaveUp | task | notify | sever => exact adds.elim

namespace Fleet

variable {start f g h : Fleet} {t u : Task} {entry : Entry} {device : Device} {name : Text} {number : Nat}
  {before earlier past later : List Move} {result : Attempt Unit} {settings : Settings} {buses : List Bus}

def TimedOut (f : Fleet) (moves : List Move) (number : Nat) : Prop :=
  ∃ earlier call rest middle, moves = earlier ++ .gaveUp call :: rest ∧ f.run earlier = some middle ∧
    middle.calls[call]? = some (.waiting number)

theorem TimedOut.append (late : f.TimedOut earlier number) (more : List Move) : f.TimedOut (earlier ++ more) number := by
  obtain ⟨before, call, rest, middle, rfl, ran, waiting⟩ := late
  exact ⟨before, call, rest ++ more, middle, by simp, ran, waiting⟩

theorem TimedOut.prepend (ran : f.run earlier = some g) (late : g.TimedOut later number) :
    f.TimedOut (earlier ++ later) number := by
  obtain ⟨before, call, rest, middle, rfl, ran', waiting⟩ := late
  exact ⟨earlier ++ before, call, rest, middle, by simp, run_append ran ran', waiting⟩

def Awaited (f : Fleet) (number : Nat) : Prop := ∃ c ∈ f.calls, c.awaited? = some number

theorem Awaited.step (awaited : f.Awaited number) (step : Step f move g)
    (unanswered : ∀ t, f.tasks[number]? = some t → t.answer = none → t.hasEnded = false)
    (silent : ¬ ∃ result, f.Answered number result) :
    g.Awaited number ∨ ∃ call, move = .gaveUp call ∧ f.calls[call]? = some (.waiting number) := by
  have opened : ∀ c, ∃ c' ∈ f.calls ++ [c], c'.awaited? = some number := by
    intro c
    obtain ⟨c', member, its⟩ := awaited
    exact ⟨c', List.mem_append_left _ member, its⟩
  cases step with
  | rejected | added | known | replaced | missing | removed | stopped => exact .inl (opened _)
  | cancelled clearing | cleared clearing => exact exists_calls_set awaited clearing nofun
  | succeeded replacing => exact exists_calls_set awaited replacing .inl
  | answered waiting there answer =>
    refine exists_calls_set awaited waiting fun its => absurd ⟨_, _, ?_, answer⟩ silent
    cases its
    exact there
  | unanswered waiting there answer ended =>
    refine exists_calls_set awaited waiting fun its => ?_
    cases its
    rw [unanswered _ there answer] at ended
    cases ended
  | gaveUp waiting =>
    refine exists_calls_set awaited waiting fun its => .inr ⟨_, rfl, ?_⟩
    cases its
    exact waiting
  | moved | notified | severed => exact .inl awaited

theorem Step.awaits (step : Step f (.add device) g) (there : g.tasks[f.tasks.length]? = some u) :
    ∃ c, g.calls = f.calls ++ [c] ∧ c.awaited? = some f.tasks.length := by
  cases step with
  | rejected | known => exact absurd there (by simp [openCall])
  | added | replaced => exact ⟨_, rfl, rfl⟩

-- As long as a registered task has not answered, its call waits for it or has given up.
structure Owing (start : Fleet) (past : List Move) (g : Fleet) : Prop where
  ran : start.run past = some g
  owed : ∀ name number, g.Owns name number →
    (∃ result, g.Answered number result) ∨ g.Awaited number ∨ start.TimedOut past number

theorem Owing.step (begun : Reached start) (owing : Owing start past g) (applied : g.apply move = some h) :
    Owing start (past ++ [move]) h := by
  have reached : Reached g := begun.run owing.ran
  have step := apply_sound applied
  refine ⟨run_append owing.ran (run_single applied), ?_⟩
  rintro name number ⟨entry, found, rfl⟩
  rcases step.entry_parts reached.sound found with ⟨old, present, -, same, -⟩ | ⟨rfl, -, newest, there, -⟩
  · have owns : g.Owns name entry.task := ⟨old, present, same⟩
    by_cases silent : ∃ result, g.Answered entry.task result
    · obtain ⟨result, answered⟩ := silent
      exact .inl ⟨result, answered.step reached.candid step⟩
    have running : ∀ t, g.tasks[entry.task]? = some t → t.answer = none → t.hasEnded = false := by
      intro t there answer
      obtain ⟨t', there', attends⟩ := reached.tended.attends owns
      cases there.symm.trans there'
      refine Bool.eq_false_iff.mpr fun ended => ?_
      exact (reached.candid _ t there).answer_of_ended ended attends.uncancelled answer
    rcases (owing.owed name entry.task owns).resolve_left silent with awaited | late
    · rcases awaited.step step running silent with still | ⟨call, rfl, waiting⟩
      · exact .inr (.inl still)
      · exact .inr (.inr ⟨past, call, [], g, rfl, owing.ran, waiting⟩)
    · exact .inr (.inr (late.append [move]))
  · rw [newest] at there ⊢
    obtain ⟨c, calls, its⟩ := step.awaits there
    refine .inr (.inl ⟨c, ?_, its⟩)
    rw [calls]
    exact List.mem_append_right _ List.mem_cons_self

theorem owing_started (started : (idle settings buses).run before = some f) : Owing (idle settings buses) before f := by
  have begun : Reached (idle settings buses) := ⟨settings, buses, [], rfl⟩
  have begins : Owing (idle settings buses) [] (idle settings buses) := by
    refine ⟨rfl, ?_⟩
    rintro name number ⟨entry, found, -⟩
    cases found
  exact run_keeps_past (fun _ owing applied => owing.step begun applied) (fun _ _ => trivial) begins started

theorem Reached.ownType (reached : Reached f) :
    ∀ (number : Nat) (t : Task), f.tasks[number]? = some t → t.device.driverType = driverType := by
  have keeps : ∀ {f : Fleet} {move g}, Reached f →
      (∀ (number : Nat) (t : Task), f.tasks[number]? = some t → t.device.driverType = driverType) → Step f move g →
      ∀ (number : Nat) (t : Task), g.tasks[number]? = some t → t.device.driverType = driverType := by
    intro f move g _ accepted step number u there
    rcases step.task_parts there with ⟨t, events, old, advance, -⟩ | ⟨device, carried, rfl, rfl, rfl, -⟩
    · rw [advance.device_eq]
      exact accepted number t old
    · cases step with
      | rejected | known => exact absurd there (by simp [openCall])
      | added checked | replaced checked => exact checkDriver_ok_iff.mp checked
  refine reached.keeps ?_ keeps
  intro settings buses number t there
  cases there

def AtRest (f : Fleet) : Prop := ∀ c ∈ f.calls, ∃ result, c = .returned result

namespace AtRest

theorem peaceful (rest : f.AtRest) : ∀ c ∈ f.calls, c.IsPeaceful := by
  intro c member
  obtain ⟨result, rfl⟩ := rest c member
  trivial

theorem concat (rest : f.AtRest) (calls : g.calls = f.calls ++ [.returned result]) : g.AtRest := by
  rw [AtRest, calls]
  exact List.forall_mem_append.mpr ⟨rest, List.forall_mem_singleton.mpr ⟨result, rfl⟩⟩

theorem calls_eq (rest : f.AtRest) (step : Step f move g) (quiet : ¬ move.IsCall) : g.calls = f.calls := by
  have returned : ∀ {call : Nat} {c : Call}, f.calls[call]? = some c → ∃ result, c = .returned result :=
    fun there => rest _ (List.mem_of_getElem? there)
  cases step with
  | rejected | added | known | replaced | missing | removed | stopped => exact absurd trivial quiet
  | cancelled calls | cleared calls | succeeded calls | answered calls | unanswered calls | gaveUp calls =>
    obtain ⟨result, same⟩ := returned calls
    cases same
  | moved | notified | severed => rfl

theorem run (rest : f.AtRest) (quiet : ∀ move ∈ moves, ¬ move.IsCall) (ran : f.run moves = some g) :
    g.calls = f.calls := by
  have keeps : ∀ {g : Fleet} {move h}, ¬ move.IsCall → g.calls = f.calls → Step g move h → h.calls = f.calls := by
    intro g move h quiet same step
    have resting : g.AtRest := by rwa [AtRest, same]
    exact (resting.calls_eq step quiet).trans same
  exact run_keeps_within keeps quiet rfl ran

theorem only_open {c c' : Call} {call : Nat} (rest : f.AtRest) (calls : g.calls = f.calls ++ [c])
    (there : g.calls[call]? = some c') (running : ∀ result, c' ≠ .returned result) :
    call = f.calls.length ∧ c' = c := by
  rw [calls, List.getElem?_append] at there
  split at there
  · obtain ⟨result, rfl⟩ := rest c' (List.mem_of_getElem? there)
    exact absurd rfl (running result)
  · rw [List.getElem?_singleton] at there
    split at there
    · exact ⟨by omega, (Option.some.inj there).symm⟩
    · cases there

theorem single (rest : f.AtRest) (reached : Reached f) (there : f.tasks[number]? = some t)
    (also : f.tasks[other]? = some u) (same : t.device.name = u.device.name) (running : t.hasEnded = false)
    (running' : u.hasEnded = false) : number = other := by
  have free : ∀ {number}, ¬ ∃ call, f.Holds call number := by
    rintro number ⟨call, c, there, member⟩
    obtain ⟨result, rfl⟩ := rest c (List.mem_of_getElem? there)
    cases member
  obtain ⟨entry, found, rfl⟩ := (reached.kept number t there running).resolve_right free
  obtain ⟨entry', found', rfl⟩ := (reached.kept other u also running').resolve_right free
  rw [same] at found
  cases found.symm.trans found'
  rfl

end AtRest

-- How far a call has come that has created a task.
inductive Progress (start : Fleet) (past : List Move) (g : Fleet) (number : Nat) : Call → Prop where
  | replacing : Progress start past g number (.replacing old number)
  | waiting : Progress start past g number (.waiting number)
  | answered (answered : g.Answered number told) : Progress start past g number (.returned told)
  | unanswered (there : g.tasks[number]? = some last) (ended : last.hasEnded = true) (answer : last.answer = none) :
      Progress start past g number (.returned (.ok ()))
  | gaveUp (late : start.TimedOut past number) : Progress start past g number (.returned (.ok ()))

theorem Progress.moved {c : Call} (progress : Progress f past g number c) (candid : Candid g) (step : Step g move h) :
    Progress f (past ++ [move]) h number c := by
  cases progress with
  | replacing => exact .replacing
  | waiting => exact .waiting
  | answered answered => exact .answered (answered.step candid step)
  | @unanswered t there ended answer =>
    obtain ⟨u, events, present, advance, -⟩ := step.advances there
    refine .unanswered present (advance.hasEnded ended) ?_
    cases advance with
    | kept | cancelled | notified | severed => exact answer
    | stepped step => rw [step.unended] at ended; cases ended
  | gaveUp late => exact .gaveUp (late.append [move])

structure Underway (f : Fleet) (device : Device) (past : List Move) (g : Fleet) : Prop where
  ran : (f.add device).run past = some g
  candid : Candid g
  told : ∃ t, g.tasks[f.tasks.length]? = some t ∧ t.Told device (ownMoves f.tasks.length past)
  call : ∃ c, g.calls = f.calls ++ [c] ∧ Progress (f.add device) past g f.tasks.length c

theorem Underway.told_step (underway : Underway f device past g) (step : Step g move h) :
    ∃ u, h.tasks[f.tasks.length]? = some u ∧ u.Told device (ownMoves f.tasks.length (past ++ [move])) := by
  obtain ⟨t, there, told⟩ := underway.told
  obtain ⟨u, present, turn⟩ := step.turn there
  refine ⟨u, present, ?_⟩
  rw [ownMoves_concat]
  cases turn with
  | stepped own =>
    rw [Move.own?, if_pos rfl]
    exact told.step own
  | notified | severed =>
    simp only [Move.own?, Option.toList_none, List.append_nil]
    exact ⟨told.own, told.phase, told.failed⟩
  | cancelled other | kept other =>
    rw [Move.own?_eq_none, Option.toList_none, List.append_nil]
    · exact ⟨told.own, told.phase, told.failed⟩
    · rintro own rfl
      exact other rfl

theorem Underway.step (rest : f.AtRest) (underway : Underway f device past g) (quiet : ¬ move.IsCall)
    (applied : g.apply move = some h) : Underway f device (past ++ [move]) h := by
  have step := apply_sound applied
  refine ⟨run_append underway.ran (run_single applied), underway.candid.step step, underway.told_step step, ?_⟩
  obtain ⟨c, calls, progress⟩ := underway.call
  have replaced : ∀ new, (f.calls ++ [c]).set f.calls.length new = f.calls ++ [new] := by simp
  have moved := progress.moved underway.candid step
  cases step with
  | rejected | added | known | replaced | missing | removed | stopped => exact absurd trivial quiet
  | cancelled clearing | cleared clearing =>
    obtain ⟨-, rfl⟩ := rest.only_open calls clearing (by simp)
    cases progress
  | succeeded replacing =>
    obtain ⟨rfl, rfl⟩ := rest.only_open calls replacing (by simp)
    cases progress
    exact ⟨_, by rw [setCall, calls, replaced], .waiting⟩
  | answered waiting there answer =>
    obtain ⟨rfl, rfl⟩ := rest.only_open calls waiting (by simp)
    cases progress
    exact ⟨_, by rw [setCall, calls, replaced], .answered ⟨_, there, answer⟩⟩
  | unanswered waiting there answer ended =>
    obtain ⟨rfl, rfl⟩ := rest.only_open calls waiting (by simp)
    cases progress
    exact ⟨_, by rw [setCall, calls, replaced], .unanswered there ended answer⟩
  | gaveUp waiting =>
    obtain ⟨rfl, rfl⟩ := rest.only_open calls waiting (by simp)
    cases progress
    exact ⟨_, by rw [setCall, calls, replaced], .gaveUp ⟨past, _, [], g, rfl, underway.ran, waiting⟩⟩
  | moved | notified | severed => exact ⟨c, calls, moved⟩

theorem Underway.run (rest : f.AtRest) (underway : Underway f device [] g) (quiet : ∀ move ∈ later, ¬ move.IsCall)
    (ran : g.run later = some h) : Underway f device later h :=
  run_keeps_past (fun calm held applied => held.step rest calm applied) quiet underway ran

theorem underway_add (reached : Reached f) (accepted : device.driverType = driverType)
    (renews : ∀ entry, f.registration? device.name = some entry → (entry.device == device) = false) :
    Underway f device [] (f.add device) := by
  have step : Step f (.add device) (f.add device) := add_sound
  obtain ⟨known, found⟩ := add_stands accepted renews
  obtain ⟨t, there, -⟩ := (reached.sound.step step).there found
  obtain ⟨c, calls, awaited⟩ := step.awaits there
  obtain ⟨device', carried, same, -, rfl, -⟩ := step.creates there (List.getElem?_eq_none (Nat.le_refl _))
  cases same
  refine ⟨rfl, reached.candid.step step, ⟨_, there, rfl, rfl, nofun⟩, c, calls, ?_⟩
  cases c with
  | replacing | waiting => cases awaited; constructor
  | clearing | returned => cases awaited

theorem returned_last (calls : g.calls = f.calls ++ [c]) (returned : g.result? f.calls.length = some result) :
    c = .returned result := by
  rw [result?, calls, List.getElem?_concat_length] at returned
  cases c with
  | returned => cases returned; rfl
  | clearing | replacing | waiting => cases returned

def Lasts (start : Fleet) (moves : List Move) (g : Fleet) (device : Device) (task generation : Nat) : Prop :=
  g.Stands device task generation ∨ g.Failed task ∧ start.TimedOut moves task

structure Answer (start : Fleet) (before : List Move) (f : Fleet) (device : Device) (later : List Move) (g : Fleet)
    (result : Attempt Unit) : Prop where
  calls : g.calls = f.calls ++ [.returned result]
  registered : result = .ok () → device.driverType = driverType ∧
    ((∃ entry, f.registration? device.name = some entry ∧ (entry.device == device) = true ∧
        Lasts start (before ++ .add device :: later) g entry.device entry.task entry.generation) ∨
      Lasts start (before ++ .add device :: later) g device f.tasks.length f.generation)
  refused : ∀ fault, result = .error fault →
    (device.driverType ≠ driverType ∧ device.checkDriver driverType = .error fault ∧
      f.apply (.add device) = some (f.openCall (.returned (.error fault)))) ∨
    (device.driverType = driverType ∧ g.registration? device.name = none ∧
      ∃ moves, FailsWith device fault moves ∧ ownMoves f.tasks.length later = moves ++ [.forget])

theorem Underway.answer (underway : Underway f device later g) (started : start.run before = some f)
    (reached : Reached f) (accepted : device.driverType = driverType)
    (renews : ∀ entry, f.registration? device.name = some entry → (entry.device == device) = false)
    (quiet : ∀ move ∈ later, ¬ move.IsCall) (returned : g.result? f.calls.length = some result) :
    Answer start before f device later g result := by
  obtain ⟨c, calls, progress⟩ := underway.call
  cases returned_last calls returned
  have applied : f.apply (.add device) = some (f.add device) := rfl
  have step := apply_sound applied
  have sound := reached.sound.step step
  have registered := add_stands accepted renews
  refine ⟨calls, ?_, ?_⟩
  · rintro rfl
    have stands := registered.run sound (reached.failuresLast.step step) underway.ran
      fun move member supersedes => quiet move member supersedes.isCall
    refine ⟨accepted, .inr (stands.imp_right fun failed => ⟨failed, ?_⟩)⟩
    obtain ⟨fault, failure⟩ := failed.answered
    cases progress with
    | answered answered => cases answered.unique failure
    | unanswered there ended answer =>
      obtain ⟨t, there', answer'⟩ := failure
      cases there.symm.trans there'
      cases answer.symm.trans answer'
    | gaveUp late =>
      have whole := late.prepend (run_append started (run_single applied))
      rwa [List.append_assoc] at whole
  · rintro fault rfl
    cases progress with
    | answered answered =>
      obtain ⟨t, there, answer⟩ := answered
      obtain ⟨t', there', told⟩ := underway.told
      cases there.symm.trans there'
      refine .inr ⟨accepted, Option.eq_none_iff_forall_ne_some.mpr fun entry found => ?_, (told.failed fault answer).2⟩
      obtain ⟨old, present, -, same⟩ :=
        entry_before sound underway.ran (fun move member adds => quiet move member adds.isCall) found
      obtain ⟨known, newest⟩ := registered
      cases newest.symm.trans present
      have later : Reached g := (reached.run (run_single applied)).run underway.ran
      exact later.unfailed found (same ▸ ⟨t, fault, there, answer⟩)

theorem AtRest.returned_at_once (rest : f.AtRest) (quiet : ∀ move ∈ later, ¬ move.IsCall)
    (ran : (f.openCall (.returned told)).run later = some g) (returned : g.result? f.calls.length = some result) :
    g.calls = f.calls ++ [.returned result] ∧ told = result := by
  have resting : (f.openCall (.returned told)).AtRest := rest.concat rfl
  have calls : g.calls = f.calls ++ [.returned told] := resting.run quiet ran
  cases returned_last calls returned
  exact ⟨calls, rfl⟩

theorem AtRest.answer_rejected (rest : f.AtRest) (checked : device.checkDriver driverType = .error fault)
    (applied : f.apply (.add device) = some (f.openCall (.returned (.error fault))))
    (quiet : ∀ move ∈ later, ¬ move.IsCall) (ran : (f.openCall (.returned (.error fault))).run later = some g)
    (returned : g.result? f.calls.length = some result) : Answer start before f device later g result := by
  obtain ⟨calls, rfl⟩ := rest.returned_at_once quiet ran returned
  refine ⟨calls, nofun, fun fault' same => ?_⟩
  cases same
  refine .inl ⟨fun accepted => ?_, checked, applied⟩
  rw [checkDriver_ok_iff.mpr accepted] at checked
  cases checked

theorem AtRest.answer_known (rest : f.AtRest) (owing : Owing start before f)
    (reached : Reached f) (accepted : device.driverType = driverType)
    (found : f.registration? device.name = some entry) (same : (entry.device == device) = true)
    (quiet : ∀ move ∈ later, ¬ move.IsCall) (ran : (f.openCall (.returned (.ok ()))).run later = some g)
    (returned : g.result? f.calls.length = some result) : Answer start before f device later g result := by
  obtain ⟨calls, rfl⟩ := rest.returned_at_once quiet ran returned
  refine ⟨calls, fun _ => ⟨accepted, .inl ⟨entry, found, same, ?_⟩⟩, nofun⟩
  have step : Step f (.add device) (f.openCall (.returned (.ok ()))) :=
    .known (checkDriver_ok_iff.mpr accepted) found same
  have own : f.Stands entry.device entry.task entry.generation := by
    refine ⟨entry.requests, ?_⟩
    rw [reached.sound.named found]
    exact found
  have stands := own.run (reached.sound.step step) (reached.failuresLast.step step) ran
    fun move member supersedes => quiet move member supersedes.isCall
  refine stands.imp_right fun failed => ⟨failed, ?_⟩
  rcases owing.owed device.name entry.task ⟨entry, found, rfl⟩ with ⟨result, answered⟩ | ⟨c, member, awaited⟩ | late
  · obtain ⟨fault, failure⟩ := failed.answered
    cases ((answered.step reached.candid step).run (reached.candid.step step) ran).unique failure
    obtain ⟨t, there, answer⟩ := answered
    exact absurd ⟨t, fault, there, answer⟩ (reached.unfailed found)
  · obtain ⟨result, rfl⟩ := rest c member
    cases awaited
  · exact late.append (.add device :: later)

theorem AtRest.answer (started : (idle settings buses).run before = some f) (rest : f.AtRest)
    (ran : (f.add device).run later = some g) (quiet : ∀ move ∈ later, ¬ move.IsCall)
    (returned : g.result? f.calls.length = some result) :
    Answer (idle settings buses) before f device later g result := by
  have reached : Reached f := ⟨settings, buses, before, started⟩
  have renewed : device.driverType = driverType →
      (∀ entry, f.registration? device.name = some entry → (entry.device == device) = false) →
      Answer (idle settings buses) before f device later g result := fun accepted renews =>
    ((underway_add reached accepted renews).run rest quiet ran).answer started reached accepted renews quiet returned
  have applied : f.apply (.add device) = some (f.add device) := rfl
  have step := apply_sound applied
  generalize f.add device = middle at step applied ran
  cases step with
  | rejected checked => exact rest.answer_rejected checked applied quiet ran returned
  | known checked found same =>
    exact rest.answer_known (owing_started started) reached (checkDriver_ok_iff.mp checked) found same quiet ran returned
  | added checked absent =>
    refine renewed (checkDriver_ok_iff.mp checked) fun entry found => ?_
    cases absent.symm.trans found
  | replaced checked found differs =>
    refine renewed (checkDriver_ok_iff.mp checked) fun entry present => ?_
    cases found.symm.trans present
    exact differs

theorem AtRest.peaceful_add (rest : f.AtRest) (device : Device) : ∀ c ∈ (f.add device).calls, c.IsPeaceful := by
  have step : Step f (.add device) (f.add device) := add_sound
  generalize f.add device = g at step
  cases step with
  | rejected | added | known | replaced =>
    exact List.forall_mem_append.mpr ⟨rest.peaceful, List.forall_mem_singleton.mpr trivial⟩

-- What a call that adds a device comes to, for its own device and for all the others.
structure Added (start : Fleet) (before : List Move) (f : Fleet) (device : Device) (later : List Move) (g : Fleet)
    (result : Attempt Unit) : Prop extends Answer start before f device later g result where
  others : ∃ h, f.run (later.filter (f.isElsewhere device.name)) = some h ∧ AgreeElsewhere device.name g h
  ownType : ∀ name entry, g.registration? name = some entry → entry.device.driverType = driverType
  single : ∀ (number other : Nat) (t u : Task), g.tasks[number]? = some t → g.tasks[other]? = some u →
    t.device.name = u.device.name → t.hasEnded = false → u.hasEnded = false → number = other

-- When the call has returned and no other was made meanwhile, a success means that the device
-- is registered as it was given, and a refusal that it is not registered, and why: in the first
-- of the things that its task has to do and cannot.
theorem addition_answered (started : (idle settings buses).run before = some f) (rest : f.AtRest)
    (ran : f.run (.add device :: later) = some g) (alone : ∀ move ∈ later, ¬ move.IsCall)
    (returned : g.result? f.calls.length = some result) :
    Added (idle settings buses) before f device later g result := by
  have reached : Reached f := ⟨settings, buses, before, started⟩
  have after : Reached g := reached.run ran
  obtain ⟨middle, applied, ran⟩ := run_cons_iff.mp ran
  cases applied
  have answer := rest.answer started ran alone returned
  have resting : g.AtRest := rest.concat answer.calls
  have step : Step f (.add device) (f.add device) := add_sound
  have agree := add_agreeElsewhere reached.sound device
  refine ⟨answer, ?_, ?_, fun number other t u there also => resting.single after there also⟩
  · exact agree.run (reached.sound.step step) reached.sound (rest.peaceful_add device) alone ran
  · intro name entry found
    obtain ⟨t, there, same, -⟩ := after.sound.there found
    rw [← same]
    exact after.ownType entry.task t there

def served : List Move :=
  [.add (boilerAt "a"), .task 0 .begin, .task 0 .connected, .task 0 .subscribed, .task 0 .record, .answered 0]

-- It is configured anew, and cannot be reached at its new endpoint.
theorem addition_answered_refused :
    ∃ f g, (idle unsecured []).run served = some f ∧
      f.run [.add (boilerAt "b"), .task 0 .look, .task 0 .sessionClosed, .joined 1, .task 1 .begin,
        .task 1 (.refused (.connectionFailure "unreachable")), .task 1 .forget, .answered 1] = some g ∧
      g.result? 1 = some (.error (.connectionFailure "unreachable")) ∧
      g.registration? "boiler" = none ∧ FailsWith (boilerAt "b") (.connectionFailure "unreachable")
        [.begin, .refused (.connectionFailure "unreachable")] := by
  obtain ⟨f, g, start, calls, size, ran, returned⟩ : ∃ f g, (idle unsecured []).run served = some f ∧
      f.calls = [.returned (.ok ())] ∧ f.tasks.length = 1 ∧
      f.run [.add (boilerAt "b"), .task 0 .look, .task 0 .sessionClosed, .joined 1, .task 1 .begin,
        .task 1 (.refused (.connectionFailure "unreachable")), .task 1 .forget, .answered 1] = some g ∧
      g.result? 1 = some (.error (.connectionFailure "unreachable")) := ⟨_, _, rfl, rfl, rfl, rfl, rfl⟩
  have rest : f.AtRest := by simp [AtRest, calls]
  have added := addition_answered start rest ran (by simp [Move.IsCall]) (by rw [calls]; exact returned)
  obtain ⟨different, -⟩ | ⟨-, gone, moves, fails, whole⟩ := added.refused _ rfl
  · exact absurd rfl different
  · rw [size] at whole
    have same : [TaskMove.begin, .refused (.connectionFailure "unreachable")] ++ [.forget] = moves ++ [.forget] := whole
    cases List.append_cancel_right same
    exact ⟨f, g, start, ran, returned, gone, fails⟩

end Fleet
end FieldGateway.OpcUa
