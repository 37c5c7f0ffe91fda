import FieldGateway.Proofs.OpcUa.Moves
import Mathlib.Data.List.Basic

-- What a server has seen of a task fits how far the task has come: a session is opened, used and
-- closed, in this order and at most once. Only a task that is cancelled between opening its
-- session and answering its call leaves the session open.
namespace FieldGateway.OpcUa

namespace Session

def opening (number : Nat) (fresh : List Request) : List SessionEvent :=
  [.connect number, .opened number, .subscribe number fresh]

def Unopened (number : Nat) (seen : List SessionEvent) : Prop := seen = [] ∨ seen = [.connect number]

def Open (number : Nat) (seen : List SessionEvent) : Prop :=
  ∃ fresh, seen = opening number fresh ∨ seen = opening number fresh ++ [.subscribed number]

def Closed (number : Nat) (seen : List SessionEvent) : Prop :=
  ∃ before, Open number before ∧ seen = before ++ [.closed number]

inductive Shape (number : Nat) (seen : List SessionEvent) : Prop where
  | unopened (shape : Unopened number seen)
  | opened (shape : Open number seen)
  | closed (shape : Closed number seen)

variable {number : Nat} {seen before after : List SessionEvent}

theorem Unopened.opened_notMem (shape : Unopened number seen) : .opened number ∉ seen := by
  rcases shape with rfl | rfl <;> simp

theorem Unopened.closed_notMem (shape : Unopened number seen) : .closed number ∉ seen := by
  rcases shape with rfl | rfl <;> simp

theorem Open.opened_mem (shape : Open number seen) : .opened number ∈ seen := by
  obtain ⟨fresh, rfl | rfl⟩ := shape <;> simp [opening]

theorem Open.closed_notMem (shape : Open number seen) : .closed number ∉ seen := by
  obtain ⟨fresh, rfl | rfl⟩ := shape <;> simp [opening]

theorem Open.opened_parts (shape : Open number seen) :
    ∃ rest, seen = [.connect number] ++ .opened number :: rest ∧ .opened number ∉ rest := by
  obtain ⟨fresh, rfl | rfl⟩ := shape
  · exact ⟨[.subscribe number fresh], rfl, by simp⟩
  · exact ⟨[.subscribe number fresh, .subscribed number], rfl, by simp⟩

theorem Closed.closed_mem (shape : Closed number seen) : .closed number ∈ seen := by
  obtain ⟨before, -, rfl⟩ := shape
  exact List.mem_append_right _ List.mem_cons_self

theorem Shape.opened_once (shape : Shape number seen) (split : seen = before ++ .opened number :: after) :
    .opened number ∉ before ∧ .opened number ∉ after := by
  have alone : ∀ {rest}, seen = [.connect number] ++ .opened number :: rest → .opened number ∉ rest →
      .opened number ∉ before ∧ .opened number ∉ after := by
    intro rest parts absent
    obtain ⟨rfl, -, rfl⟩ := (List.append_cons_inj_of_notMem (by simp) absent).mp (parts.symm.trans split)
    exact ⟨by simp, absent⟩
  cases shape with
  | unopened shape => exact absurd (split ▸ List.mem_append_right _ List.mem_cons_self) shape.opened_notMem
  | opened shape =>
    obtain ⟨rest, parts, absent⟩ := shape.opened_parts
    exact alone parts absent
  | closed shape =>
    obtain ⟨start, shape, rfl⟩ := shape
    obtain ⟨rest, rfl, absent⟩ := shape.opened_parts
    exact alone (List.append_assoc ..) (by simp [absent])

theorem Shape.closed_last (shape : Shape number seen) (split : seen = before ++ .closed number :: after) :
    .opened number ∈ before ∧ .closed number ∉ before ∧ after = [] := by
  have member : .closed number ∈ seen := split ▸ List.mem_append_right _ List.mem_cons_self
  cases shape with
  | unopened shape => exact absurd member shape.closed_notMem
  | opened shape => exact absurd member shape.closed_notMem
  | closed shape =>
    obtain ⟨start, shape, rfl⟩ := shape
    obtain ⟨rfl, -, rfl⟩ := (List.append_cons_inj_of_notMem shape.closed_notMem List.not_mem_nil).mp split
    exact ⟨shape.opened_mem, shape.closed_notMem, rfl⟩

end Session

open Session

-- What the server has seen of a task that has come so far. An end tells nothing by itself.
def Phase.Fits (number : Nat) (seen : List SessionEvent) : Phase → Prop
  | created => seen = []
  | connecting _ => seen = [.connect number]
  | subscribing fresh => seen = opening number fresh
  | recording _ | looking _ | reading _ | forwarding _ _ _ =>
    ∃ fresh, seen = opening number fresh ++ [.subscribed number]
  | abandoning _ | closing => Closed number seen
  | failed _ => Unopened number seen ∨ Closed number seen
  | ended => True

theorem Phase.fits_workOff {known : List Request} (fits : Phase.Fits number seen (.looking known))
    (items : List Change) : Phase.Fits number seen (.workOff known items) := by
  cases items <;> exact fits

theorem Phase.Fits.shape {phase : Phase} (fits : phase.Fits number seen) (unended : phase.isEnded = false) :
    Shape number seen := by
  cases phase with
  | created => exact .unopened (.inl fits)
  | connecting => exact .unopened (.inr fits)
  | subscribing fresh => exact .opened ⟨fresh, .inl fits⟩
  | recording | looking | reading | forwarding =>
    obtain ⟨fresh, seen⟩ := fits
    exact .opened ⟨fresh, .inr seen⟩
  | abandoning | closing => exact .closed fits
  | failed =>
    rcases fits with shape | shape
    · exact .unopened shape
    · exact .closed shape
  | ended => cases unended

structure Task.Fits (number : Nat) (t : Task) (seen : List SessionEvent) : Prop where
  phase : t.phase.Fits number seen
  unanswered : t.phase.isStarting = true → t.answer = none
  ended : t.hasEnded = true →
    Unopened number seen ∨ Closed number seen ∨
      (Open number seen ∧ t.cancelled = true ∧ t.answer = none)

namespace Task.Fits

variable {number : Nat} {t u : Task} {seen : List SessionEvent}

theorem shape (fits : t.Fits number seen) : Shape number seen := by
  cases past : t.hasEnded with
  | false => exact fits.phase.shape past
  | true =>
    rcases fits.ended past with shape | shape | ⟨shape, -⟩
    · exact .unopened shape
    · exact .closed shape
    · exact .opened shape

theorem running (phase : u.phase.Fits number seen) (unanswered : u.phase.isStarting = true → u.answer = none)
    (unended : u.hasEnded = false) : u.Fits number seen := by
  refine ⟨phase, unanswered, fun ended => ?_⟩
  rw [unended] at ended
  cases ended

theorem working (phase : u.phase = .workOff known items) (before : Phase.Fits number seen (.looking known)) :
    u.Fits number seen := by
  have fits := Phase.fits_workOff before items
  rw [← phase] at fits
  refine running fits ?_ ?_
  · rw [phase]
    cases items <;> exact nofun
  · rw [hasEnded, phase]
    cases items <;> rfl

theorem step (fits : t.Fits number seen) (step : Task.Step number t move e) :
    e.task.Fits number (seen ++ e.events) := by
  have before := fits.phase
  have unanswered := fits.unanswered
  cases step with
  | dropped cancelled starting =>
    rw [List.append_nil]
    refine ⟨trivial, fun starting => (nomatch starting), fun _ => ?_⟩
    cases fits.shape with
    | unopened shape => exact .inl shape
    | opened shape => exact .inr (.inr ⟨shape, cancelled, fits.unanswered starting⟩)
    | closed shape => exact .inr (.inl shape)
  | misplanned phase =>
    rw [phase] at before
    exact running (.inl (.inl (by rw [before]; rfl))) nofun rfl
  | began phase =>
    rw [phase] at before unanswered
    exact running (by rw [before]; rfl) (fun _ => unanswered rfl) rfl
  | connected phase =>
    rw [phase] at before unanswered
    exact running (by rw [before]; rfl) (fun _ => unanswered rfl) rfl
  | refused phase =>
    rw [phase] at before
    exact running (.inl (.inr (by rw [before]; rfl))) nofun rfl
  | @subscribed fresh phase =>
    rw [phase] at before unanswered
    exact running ⟨fresh, by rw [before]⟩ (fun _ => unanswered rfl) rfl
  | @unsubscribed fresh fault phase =>
    rw [phase] at before unanswered
    exact running ⟨_, ⟨fresh, .inl before⟩, rfl⟩ (fun _ => unanswered rfl) rfl
  | abandoned phase =>
    rw [phase] at before
    exact running (.inr (by rwa [List.append_nil])) nofun rfl
  | finished phase =>
    rw [phase] at before
    exact ⟨trivial, nofun, fun _ => .inr (.inl (by rwa [List.append_nil]))⟩
  | recorded phase =>
    rw [phase] at before
    exact running (by rwa [List.append_nil]) nofun rfl
  | forgotten phase =>
    rw [phase] at before
    refine ⟨trivial, nofun, fun _ => ?_⟩
    rw [List.append_nil]
    exact before.imp_right .inl
  | withdrawn phase | hungUp phase =>
    rw [phase] at before
    obtain ⟨fresh, seen⟩ := before
    exact running ⟨_, ⟨fresh, .inr seen⟩, rfl⟩ nofun rfl
  | looked phase | rested phase =>
    rw [phase] at before
    exact running (by rwa [List.append_nil]) nofun rfl
  | read phase | forwarded phase =>
    rw [phase] at before
    rw [List.append_nil]
    exact working rfl before

theorem advance (fits : t.Fits number seen) (advance : t.Advance number u events) :
    u.Fits number (seen ++ events) := by
  cases advance with
  | kept => rwa [List.append_nil]
  | cancelled =>
    rw [List.append_nil]
    refine ⟨fits.phase, fits.unanswered, fun ended => ?_⟩
    rcases fits.ended ended with shape | shape | ⟨shape, -, answer⟩
    · exact .inl shape
    · exact .inr (.inl shape)
    · exact .inr (.inr ⟨shape, rfl, answer⟩)
  | stepped step => exact fits.step step
  | notified | severed => rw [List.append_nil]; exact ⟨fits.phase, fits.unanswered, fits.ended⟩

end Task.Fits

namespace Fleet

variable {f g : Fleet}

structure Truthful (f : Fleet) : Prop where
  existing : ∀ event ∈ f.history, event.task < f.tasks.length
  fitting : ∀ (number : Nat) (t : Task), f.tasks[number]? = some t → t.Fits number (f.trace number)

theorem Step.existing (step : Step f move g) (existing : ∀ event ∈ f.history, event.task < f.tasks.length) :
    ∀ event ∈ g.history, event.task < g.tasks.length := by
  have grown := step.length_le
  intro event member
  refine Nat.lt_of_lt_of_le ?_ grown
  cases step with
  | moved there step =>
    rcases List.mem_append.mp member with old | new
    · exact existing event old
    · rw [step.events_own event new]
      exact (List.getElem?_eq_some_iff.mp there).1
  | _ => exact existing event member

theorem trace_eq_nil (existing : ∀ event ∈ f.history, event.task < f.tasks.length)
    (late : f.tasks.length ≤ number) : f.trace number = [] := by
  refine List.filter_eq_nil_iff.mpr fun event member => ?_
  simpa using Nat.ne_of_lt (Nat.lt_of_lt_of_le (existing event member) late)

theorem Truthful.step (truthful : Truthful f) (step : Step f move g) : Truthful g := by
  refine ⟨step.existing truthful.existing, ?_⟩
  intro number u there
  rcases step.task_parts there with ⟨t, events, old, advance, trace⟩ | ⟨device, carried, -, rfl, rfl, silent⟩
  · rw [trace]
    exact (truthful.fitting number t old).advance advance
  · have nothing : g.trace f.tasks.length = [] := by
      rw [trace, silent]
      exact trace_eq_nil truthful.existing (Nat.le_refl _)
    exact ⟨nothing, fun _ => rfl, fun ended => absurd ended Bool.false_ne_true⟩

theorem Reached.truthful (reached : Reached f) : Truthful f := by
  refine reached.keeps ?_ fun _ => Truthful.step
  intro settings buses
  refine ⟨List.forall_mem_nil _, ?_⟩
  intro number t there
  cases there

theorem Truthful.shape (truthful : Truthful f) (number : Nat) : Shape number (f.trace number) := by
  cases there : f.tasks[number]? with
  | some t => exact (truthful.fitting number t there).shape
  | none => exact .unopened (.inl (trace_eq_nil truthful.existing (List.getElem?_eq_none_iff.mp there)))

theorem mem_trace : event ∈ f.trace event.task ↔ event ∈ f.history := by
  simp [trace]

theorem trace_split (split : f.history = before ++ event :: after) :
    f.trace event.task =
      before.filter (·.task = event.task) ++ event :: after.filter (·.task = event.task) := by
  simp [trace, split]

-- Every session is opened once, at the most closed once, and not used after that. A task that
-- has ended has closed the session that it opened, unless it was cancelled before it had
-- answered its call.
theorem sessions_closed (reached : Reached f) :
    (∀ number before after, f.history = before ++ .opened number :: after →
      .opened number ∉ before ∧ .opened number ∉ after) ∧
    (∀ number before after, f.history = before ++ .closed number :: after →
      .opened number ∈ before ∧ .closed number ∉ before ∧ ∀ event ∈ after, event.task ≠ number) ∧
    (∀ number t, f.tasks[number]? = some t → t.hasEnded = true → .opened number ∈ f.history →
      .closed number ∈ f.history ∨ (t.cancelled = true ∧ t.answer = none)) := by
  have truthful := reached.truthful
  refine ⟨?_, ?_, ?_⟩
  · intro number before after split
    obtain ⟨earlier, later⟩ := (truthful.shape number).opened_once (trace_split split)
    exact ⟨fun member => earlier (List.mem_filter.mpr ⟨member, decide_eq_true rfl⟩),
      fun member => later (List.mem_filter.mpr ⟨member, decide_eq_true rfl⟩)⟩
  · intro number before after split
    obtain ⟨opened, unclosed, last⟩ := (truthful.shape number).closed_last (trace_split split)
    refine ⟨(List.mem_filter.mp opened).1, ?_, ?_⟩
    · exact fun member => unclosed (List.mem_filter.mpr ⟨member, decide_eq_true rfl⟩)
    · intro event member own
      exact List.filter_eq_nil_iff.mp last event member (decide_eq_true own)
  · intro number t there ended opened
    rcases (truthful.fitting number t there).ended ended with shape | shape | ⟨-, cancelled, answer⟩
    · exact absurd (mem_trace.mpr opened) shape.opened_notMem
    · exact .inl (mem_trace.mp shape.closed_mem)
    · exact .inr ⟨cancelled, answer⟩

theorem sessions_closed_withdrawn :
    ∃ f, (idle unsecured []).run [.add (boilerAt "a"), .task 0 .begin, .task 0 .connected, .task 0 .subscribed,
        .task 0 .record, .remove "boiler", .cancelled 1 0, .task 0 .look, .task 0 .sessionClosed] = some f ∧
      f.hasEnded 0 = true ∧ .closed 0 ∈ f.history := by
  obtain ⟨f, t, fresh, ran, there, ended, answer, history⟩ : ∃ f t fresh,
      (idle unsecured []).run [.add (boilerAt "a"), .task 0 .begin, .task 0 .connected, .task 0 .subscribed,
        .task 0 .record, .remove "boiler", .cancelled 1 0, .task 0 .look, .task 0 .sessionClosed] = some f ∧
      f.tasks[0]? = some t ∧ t.hasEnded = true ∧ t.answer = some (.ok ()) ∧
      f.history = opening 0 fresh ++ [.subscribed 0, .closed 0] := ⟨_, _, _, rfl, rfl, rfl, rfl, rfl⟩
  refine ⟨f, ran, ?_, ?_⟩
  · simp [hasEnded, there, ended]
  · have opened : .opened 0 ∈ f.history := by simp [history, opening]
    rcases (sessions_closed ⟨_, _, _, ran⟩).2.2 0 t there ended opened with closed | ⟨-, silent⟩
    · exact closed
    · rw [answer] at silent
      cases silent

-- A device is removed while its task waits for the server to accept the subscription. The task
-- has ended, the removal has returned, and nobody will close the session.
theorem session_leaked :
    ∃ f, (idle unsecured []).run [.add (boilerAt "a"), .task 0 .begin, .task 0 .connected,
        .remove "boiler", .cancelled 1 0, .task 0 .drop, .joined 1] = some f ∧
      f.hasEnded 0 = true ∧ f.result? 1 = some (.ok ()) ∧
      .opened 0 ∈ f.history ∧ .closed 0 ∉ f.history := by
  obtain ⟨f, fresh, ran, ended, returned, history⟩ : ∃ f fresh,
      (idle unsecured []).run [.add (boilerAt "a"), .task 0 .begin, .task 0 .connected,
        .remove "boiler", .cancelled 1 0, .task 0 .drop, .joined 1] = some f ∧
      f.hasEnded 0 = true ∧ f.result? 1 = some (.ok ()) ∧ f.history = opening 0 fresh :=
    ⟨_, _, rfl, rfl, rfl, rfl⟩
  have shape : Open 0 f.history := ⟨fresh, .inl history⟩
  exact ⟨f, ran, ended, returned, shape.opened_mem, shape.closed_notMem⟩

end Fleet
end FieldGateway.OpcUa
