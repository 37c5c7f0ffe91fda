import FieldGateway.Proofs.OpcUa.Handles
import FieldGateway.Proofs.OpcUa.Service
import FieldGateway.Proofs.OpcUa.Standing

-- What a task tells the call that created it. It answers once: that it serves, or in what it
-- failed first, and then it has forgotten its entry.
namespace FieldGateway.OpcUa

def Planned (device : Device) : Prop :=
  ∃ endpoint fresh, endpointOf device = .ok endpoint ∧ Request.ofDevice device = .ok fresh

-- The first thing in which a task fails, and the moves that lead to it: it looks for the
-- endpoint, makes the requests, connects and subscribes, in this order.
inductive FailsWith (device : Device) : Fault → List TaskMove → Prop where
  | endpoint (missing : endpointOf device = .error defect) :
      FailsWith device (.configInvalid defect.message) [.begin]
  | requests (found : endpointOf device = .ok endpoint) (unmade : Request.ofDevice device = .error defect) :
      FailsWith device (.configInvalid defect.message) [.begin]
  | connecting (planned : Planned device) : FailsWith device fault [.begin, .refused fault]
  | subscribing (planned : Planned device) :
      FailsWith device fault [.begin, .connected, .unsubscribed fault, .sessionClosed]

def Phase.Follows (device : Device) (past : List TaskMove) : Phase → Prop
  | created => past = []
  | connecting _ => Planned device ∧ past = [.begin]
  | subscribing _ => Planned device ∧ past = [.begin, .connected]
  | abandoning fault => Planned device ∧ past = [.begin, .connected, .unsubscribed fault]
  | failed fault => FailsWith device fault past
  | recording _ | looking _ | reading _ | forwarding _ _ _ | closing | ended => True

def Phase.awaitsAnswer : Phase → Bool
  | created | connecting _ | subscribing _ | abandoning _ | recording _ | failed _ => true
  | looking _ | reading _ | forwarding _ _ _ | closing | ended => false

theorem Phase.awaitsAnswer_workOff (known : List Request) (items : List Change) :
    (workOff known items).awaitsAnswer = false := by
  cases items <;> rfl

namespace Task

variable {t u : Task} {device : Device} {past : List TaskMove} {number : Nat}

theorem plan_fails (planned : t.plan = .error defect) :
    FailsWith t.device (.configInvalid defect.message) [.begin] := by
  unfold plan at planned
  split at planned
  · rename_i missing
    cases planned
    exact .endpoint missing
  · rename_i found
    cases made : Request.ofDevice t.device with
    | error defect =>
      rw [made] at planned
      cases planned
      exact .requests found made
    | ok fresh => rw [made] at planned; cases planned

theorem plan_succeeds (planned : t.plan = .ok (endpoint, fresh)) : Planned t.device := by
  have made := plan_ofDevice planned
  unfold plan at planned
  split at planned
  · cases planned
  · rename_i found
    exact ⟨_, _, found, made⟩

structure Candid (t : Task) : Prop where
  silent : t.phase.awaitsAnswer = true → t.answer = none
  spoken : t.phase.awaitsAnswer = false → t.answer.isSome = true ∨ t.cancelled = true

theorem candid_create (device : Device) (carried : List Request) (generation : Nat) :
    (create device carried generation).Candid := ⟨fun _ => rfl, nofun⟩

theorem Candid.step (candid : t.Candid) (step : Step number t move e) : e.task.Candid := by
  have spoken := candid.spoken
  cases step with
  | dropped cancelled => exact ⟨nofun, fun _ => .inr cancelled⟩
  | recorded | forgotten => exact ⟨nofun, fun _ => .inl rfl⟩
  | misplanned phase | began phase | connected phase | refused phase | subscribed phase | unsubscribed phase
  | abandoned phase => exact ⟨fun _ => candid.silent (by rw [phase]; rfl), nofun⟩
  | finished phase | withdrawn phase | looked phase | rested phase | hungUp phase =>
    rw [phase] at spoken
    exact ⟨nofun, fun _ => spoken rfl⟩
  | @read known notification rest phase =>
    rw [phase] at spoken
    refine ⟨fun awaits => ?_, fun _ => spoken rfl⟩
    rw [Phase.awaitsAnswer_workOff] at awaits
    cases awaits
  | @forwarded known next rest stamp phase =>
    rw [phase] at spoken
    refine ⟨fun awaits => ?_, fun _ => spoken rfl⟩
    rw [enter, Phase.awaitsAnswer_workOff] at awaits
    cases awaits

theorem Candid.advance (candid : t.Candid) (advance : t.Advance number u events) : u.Candid := by
  cases advance with
  | kept | notified | severed => exact ⟨candid.silent, candid.spoken⟩
  | cancelled => exact ⟨candid.silent, fun _ => .inr rfl⟩
  | stepped step => exact candid.step step

theorem Candid.keeps_answer (candid : t.Candid) (advance : t.Advance number u events)
    (answered : t.answer = some result) : u.answer = some result := by
  have unasked : t.phase.awaitsAnswer = false := by
    refine Bool.eq_false_iff.mpr fun awaits => ?_
    rw [candid.silent awaits] at answered
    cases answered
  cases advance with
  | kept | cancelled | notified | severed => exact answered
  | stepped step =>
    cases step with
    | recorded phase | forgotten phase => rw [phase] at unasked; cases unasked
    | _ => exact answered

theorem Candid.answer_of_ended (candid : t.Candid) (ended : t.hasEnded = true) (uncancelled : t.cancelled = false) :
    t.answer ≠ none := by
  have unasked : t.phase.awaitsAnswer = false := by
    cases phase : t.phase <;> simp_all [hasEnded, Phase.isEnded, Phase.awaitsAnswer]
  have answered := (candid.spoken unasked).resolve_right (by simp [uncancelled])
  exact Option.isSome_iff_ne_none.mp answered

-- What the moves of a task tell of it.
structure Told (device : Device) (past : List TaskMove) (t : Task) : Prop where
  own : t.device = device
  phase : t.phase.Follows device past
  failed : ∀ fault, t.answer = some (.error fault) →
    t.hasEnded = true ∧ ∃ moves, FailsWith device fault moves ∧ past = moves ++ [.forget]

theorem Told.step (told : t.Told device past) (step : Step number t move e) : e.task.Told device (past ++ [move]) := by
  have own : e.task.device = device := (congrArg Prod.fst step.origin_eq).trans told.own
  have unfailed : ∀ {claim : Fault → Prop} fault, t.answer = some (.error fault) → claim fault := by
    intro claim fault answer
    have ended := (told.failed fault answer).1
    rw [step.unended] at ended
    cases ended
  have before := told.phase
  have same : t.device = device := told.own
  cases step with
  | recorded => exact ⟨own, trivial, nofun⟩
  | forgotten phase =>
    rw [phase] at before
    refine ⟨own, trivial, fun fault answer => ⟨rfl, past, ?_, rfl⟩⟩
    cases answer
    exact before
  | misplanned phase planned =>
    rw [phase] at before
    cases before
    exact ⟨own, same ▸ plan_fails planned, unfailed⟩
  | began phase planned =>
    rw [phase] at before
    cases before
    exact ⟨own, ⟨same ▸ plan_succeeds planned, rfl⟩, unfailed⟩
  | connected phase | unsubscribed phase =>
    rw [phase] at before
    obtain ⟨planned, rfl⟩ := before
    exact ⟨own, ⟨planned, rfl⟩, unfailed⟩
  | refused phase =>
    rw [phase] at before
    obtain ⟨planned, rfl⟩ := before
    exact ⟨own, .connecting planned, unfailed⟩
  | abandoned phase =>
    rw [phase] at before
    obtain ⟨planned, rfl⟩ := before
    exact ⟨own, .subscribing planned, unfailed⟩
  | dropped | subscribed | finished | withdrawn | looked | rested | hungUp =>
    exact ⟨own, trivial, unfailed⟩
  | @read known notification =>
    refine ⟨own, ?_, unfailed⟩
    cases notification.items <;> exact trivial
  | @forwarded known next rest =>
    refine ⟨own, ?_, unfailed⟩
    cases rest <;> exact trivial

end Task

def Move.own? (number : Nat) : Move → Option TaskMove
  | .task mover move => if mover = number then some move else none
  | _ => none

def ownMoves (number : Nat) (moves : List Move) : List TaskMove := moves.filterMap (Move.own? number)

theorem ownMoves_concat (number : Nat) (past : List Move) (move : Move) :
    ownMoves number (past ++ [move]) = ownMoves number past ++ (move.own? number).toList := by
  rw [ownMoves, List.filterMap_append]
  cases own : move.own? number <;> simp [ownMoves, own]

theorem Move.own?_eq_none {move : Move} {number : Nat} (other : ∀ own, move ≠ .task number own) :
    move.own? number = none := by
  cases move with
  | task mover own =>
    refine if_neg ?_
    rintro rfl
    exact other own rfl
  | _ => rfl

namespace Fleet

variable {f g h : Fleet} {t u : Task} {entry : Entry} {device : Device} {name : Text} {number : Nat}
  {result : Attempt Unit}

def Candid (f : Fleet) : Prop := ∀ (number : Nat) (t : Task), f.tasks[number]? = some t → t.Candid

theorem Candid.step (candid : Candid f) (step : Step f move g) : Candid g := by
  intro number u there
  rcases step.task_parts there with ⟨t, events, old, advance, -⟩ | ⟨device, carried, -, -, rfl, -⟩
  · exact (candid number t old).advance advance
  · exact Task.candid_create ..

theorem Reached.candid (reached : Reached f) : Candid f := by
  refine reached.keeps ?_ fun _ => Candid.step
  intro settings buses number t there
  cases there

def Answered (f : Fleet) (number : Nat) (result : Attempt Unit) : Prop :=
  ∃ t, f.tasks[number]? = some t ∧ t.answer = some result

theorem Answered.unique (answered : f.Answered number result) (also : f.Answered number other) : result = other := by
  obtain ⟨t, there, answer⟩ := answered
  obtain ⟨t', there', answer'⟩ := also
  cases there.symm.trans there'
  exact Option.some.inj (answer.symm.trans answer')

theorem Failed.answered (failed : f.Failed number) : ∃ fault, f.Answered number (.error fault) := by
  obtain ⟨t, fault, there, answer⟩ := failed
  exact ⟨fault, t, there, answer⟩

theorem Answered.step (candid : Candid f) (answered : f.Answered number result) (step : Step f move g) :
    g.Answered number result := by
  obtain ⟨t, there, answer⟩ := answered
  obtain ⟨u, events, present, advance, -⟩ := step.advances there
  exact ⟨u, present, (candid number t there).keeps_answer advance answer⟩

theorem Answered.run (candid : Candid f) (answered : f.Answered number result) (ran : f.run moves = some g) :
    g.Answered number result := by
  have keeps : ∀ {f : Fleet} {move g}, Candid f ∧ f.Answered number result → Step f move g →
      Candid g ∧ g.Answered number result :=
    fun held step => ⟨held.1.step step, held.2.step held.1 step⟩
  exact (run_keeps keeps ⟨candid, answered⟩ ran).2

theorem Reached.unfailed (reached : Reached f) (found : f.registration? name = some entry) : ¬ f.Failed entry.task := by
  have keeps : ∀ {f : Fleet} {move g}, Reached f →
      (∀ name entry, f.registration? name = some entry → ¬ f.Failed entry.task) → Step f move g →
      ∀ name entry, g.registration? name = some entry → ¬ g.Failed entry.task := by
    rintro f move g reached unfailed step name entry found ⟨u, fault, there, answer⟩
    rcases step.entry_parts reached.sound found with ⟨old, present, -, same, -⟩ | ⟨-, -, -, created, -⟩
    · rw [← same] at there
      obtain ⟨t, before, -⟩ := reached.sound.there present
      have fine : t.answer ≠ some (.error fault) := fun answer => unfailed name old present ⟨t, fault, before, answer⟩
      obtain ⟨u', after, turn⟩ := step.turn before
      cases there.symm.trans after
      cases turn with
      | stepped own =>
        cases own with
        | forgotten => exact reached.sound.forgets before ⟨old, present, rfl⟩ rfl ⟨entry, found, same.symm⟩
        | recorded => cases answer
        | _ => exact fine answer
      | notified | severed | cancelled | kept => exact fine answer
    · cases created.symm.trans there
      cases answer
  refine reached.keeps ?_ keeps name entry found
  intro settings buses name entry found
  cases found

end Fleet
end FieldGateway.OpcUa
