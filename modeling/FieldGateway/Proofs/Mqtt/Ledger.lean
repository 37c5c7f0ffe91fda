import FieldGateway.Mqtt.Subscriber
import Mathlib.Data.List.Infix

-- What the history of an owner says about its connections, without the owner. An owner knows one
-- connection at most, and whatever it opens beside it is forgotten.
namespace FieldGateway.Mqtt

def LinkEvent.ofBroker : LinkEvent → Bool
  | .brokerStarted | .brokerClosed => true
  | _ => false

def LinkEvent.opens? : LinkEvent → Option Nat
  | .opened n => some n
  | _ => none

def openings (history : List LinkEvent) : List Nat := history.filterMap LinkEvent.opens?

def Open (history : List LinkEvent) (n : Nat) : Prop := .opened n ∈ history ∧ .closed n ∉ history

instance : Decidable (Open history n) := inferInstanceAs (Decidable (_ ∧ _))

def Overtaken (history : List LinkEvent) (n : Nat) : Prop :=
  ∃ before m, before ++ [.opened m] <+: history ∧ Open before n

-- How an owner comes to its history, with the number of the connection that it knows and the
-- count of those it has opened.
inductive Ledger : Option Nat → Nat → List LinkEvent → Prop where
  | fresh : Ledger none 0 []
  | opened (ledger : Ledger running count history) : Ledger (some count) (count + 1) (history ++ [.opened count])
  | closed (ledger : Ledger (some n) count history) : Ledger none count (history ++ [.closed n])
  | aside (broker : event.ofBroker = true) (ledger : Ledger running count history) :
      Ledger running count (history ++ [event])

variable {history before more : List LinkEvent} {event : LinkEvent} {running : Option Nat} {count m n : Nat}

theorem openings_snoc (history : List LinkEvent) (event : LinkEvent) :
    openings (history ++ [event]) = openings history ++ event.opens?.toList := by
  rw [openings, List.filterMap_append]
  cases event with
  | opened n | closed n | brokerStarted | brokerClosed => rfl

theorem mem_openings : n ∈ openings history ↔ .opened n ∈ history := by
  unfold openings
  rw [List.mem_filterMap]
  constructor
  · rintro ⟨event, member, opens⟩
    cases event with
    | opened m =>
      cases opens
      exact member
    | closed m | brokerStarted | brokerClosed => cases opens
  · intro member
    exact ⟨_, member, rfl⟩

theorem LinkEvent.opens?_broker (broker : event.ofBroker = true) : event.opens? = none := by
  cases event with
  | brokerStarted | brokerClosed => rfl
  | opened m | closed m => cases broker

theorem open_opened (unused : .closed m ∉ history) : Open (history ++ [.opened m]) n ↔ Open history n ∨ n = m := by
  unfold Open
  by_cases same : n = m
  · subst same
    simp [unused]
  · simp [same]

theorem open_closed : Open (history ++ [.closed m]) n ↔ Open history n ∧ n ≠ m := by
  simp [Open, and_assoc]

theorem open_aside (broker : event.ofBroker = true) : Open (history ++ [event]) n ↔ Open history n := by
  cases event with
  | brokerStarted | brokerClosed => simp [Open]
  | opened m | closed m => cases broker

theorem open_asides (brokers : ∀ event ∈ more, event.ofBroker = true) :
    Open (history ++ more) n ↔ Open history n := by
  induction more generalizing history with
  | nil => rw [List.append_nil]
  | cons event rest ih =>
    have first := brokers event List.mem_cons_self
    rw [List.append_cons, ih fun later member => brokers later (List.mem_cons_of_mem _ member), open_aside first]

theorem overtaken_snoc : Overtaken (history ++ [event]) n ↔
    Overtaken history n ∨ (∃ m, event = .opened m) ∧ Open history n := by
  unfold Overtaken
  constructor
  · rintro ⟨before, m, prior, stood⟩
    rcases List.prefix_concat_iff.mp prior with whole | earlier
    · obtain ⟨rfl, last⟩ := List.append_inj' whole rfl
      cases last
      exact .inr ⟨⟨m, rfl⟩, stood⟩
    · exact .inl ⟨before, m, earlier, stood⟩
  · rintro (⟨before, m, prior, stood⟩ | ⟨⟨m, rfl⟩, stood⟩)
    · exact ⟨before, m, prior.trans (List.prefix_append _ _), stood⟩
    · exact ⟨history, m, List.prefix_rfl, stood⟩

theorem overtaken_other (other : event.opens? = none) : Overtaken (history ++ [event]) n ↔ Overtaken history n := by
  rw [overtaken_snoc]
  refine or_iff_left fun opening => ?_
  obtain ⟨⟨m, rfl⟩, -⟩ := opening
  cases other

theorem overtaken_asides (brokers : ∀ event ∈ more, event.ofBroker = true) :
    Overtaken (history ++ more) n ↔ Overtaken history n := by
  induction more generalizing history with
  | nil => rw [List.append_nil]
  | cons event rest ih =>
    have first := LinkEvent.opens?_broker (brokers event List.mem_cons_self)
    rw [List.append_cons, ih fun later member => brokers later (List.mem_cons_of_mem _ member), overtaken_other first]

theorem Overtaken.mono (overtaken : Overtaken before n) (prior : before <+: history) : Overtaken history n := by
  obtain ⟨earlier, m, opening, stood⟩ := overtaken
  exact ⟨earlier, m, opening.trans prior, stood⟩

theorem Overtaken.opened (overtaken : Overtaken history n) : .opened n ∈ history := by
  obtain ⟨before, m, prior, stood⟩ := overtaken
  exact prior.subset (List.mem_append_left _ stood.1)

namespace Ledger

theorem openings_eq (ledger : Ledger running count history) : openings history = List.range count := by
  induction ledger with
  | fresh => rfl
  | opened ledger ih =>
    rw [openings_snoc, ih, List.range_succ]
    rfl
  | closed ledger ih =>
    rw [openings_snoc, ih]
    simp [LinkEvent.opens?]
  | aside broker ledger ih =>
    rw [openings_snoc, ih, LinkEvent.opens?_broker broker]
    simp

theorem opened_iff (ledger : Ledger running count history) : .opened n ∈ history ↔ n < count := by
  rw [← mem_openings, ledger.openings_eq, List.mem_range]

theorem sound (ledger : Ledger running count history) :
    (∀ n, running = some n → Open history n) ∧ ∀ n, .closed n ∈ history → .opened n ∈ history := by
  induction ledger with
  | fresh => simp
  | @opened running count history ledger ih =>
    have unused : .closed count ∉ history := fun closed =>
      Nat.lt_irrefl count (ledger.opened_iff.mp (ih.2 count closed))
    constructor
    · intro n known
      cases known
      exact (open_opened unused).mpr (.inr rfl)
    · intro n closed
      have earlier : .closed n ∈ history := by simpa using closed
      exact List.mem_append_left _ (ih.2 n earlier)
  | @closed n count history ledger ih =>
    refine ⟨nofun, ?_⟩
    intro k closed
    apply List.mem_append_left
    rcases List.mem_append.mp closed with earlier | last
    · exact ih.2 k earlier
    · cases List.mem_singleton.mp last
      exact (ih.1 n rfl).1
  | @aside running count history event broker ledger ih =>
    constructor
    · intro n known
      exact (open_aside broker).mpr (ih.1 n known)
    · intro n closed
      apply List.mem_append_left
      rcases List.mem_append.mp closed with earlier | last
      · exact ih.2 n earlier
      · cases List.mem_singleton.mp last
        cases broker

theorem unused (ledger : Ledger running count history) : .closed count ∉ history := fun closed =>
  Nat.lt_irrefl count (ledger.opened_iff.mp (ledger.sound.2 count closed))

theorem known_not_overtaken (ledger : Ledger (some n) count history) : ¬ Overtaken history n := by
  generalize known : some n = running at ledger
  induction ledger with
  | fresh => cases known
  | closed ledger ih => cases known
  | opened ledger ih =>
    cases known
    rw [overtaken_snoc]
    rintro (earlier | ⟨-, stood⟩)
    · exact Nat.lt_irrefl _ (ledger.opened_iff.mp earlier.opened)
    · exact Nat.lt_irrefl _ (ledger.opened_iff.mp stood.1)
  | aside broker ledger ih =>
    rw [overtaken_other (LinkEvent.opens?_broker broker)]
    exact ih known

-- By induction on the ledger: a connection is open as long as it is known, and for good once
-- another one was opened beside it.
theorem standing (ledger : Ledger running count history) (n : Nat) :
    Open history n ↔ running = some n ∨ Overtaken history n := by
  induction ledger with
  | fresh => simp [Open, Overtaken]
  | @opened running count history ledger ih =>
    rw [open_opened ledger.unused, overtaken_snoc, ih, Option.some_inj]
    constructor
    · rintro (stood | rfl)
      · exact .inr (.inr ⟨⟨count, rfl⟩, stood⟩)
      · exact .inl rfl
    · rintro (rfl | overtaken | ⟨-, stood⟩)
      · exact .inr rfl
      · exact .inl (.inr overtaken)
      · exact .inl stood
  | @closed m count history ledger ih =>
    rw [open_closed, overtaken_other rfl, ih, Option.some_inj]
    constructor
    · rintro ⟨rfl | overtaken, other⟩
      · exact absurd rfl other
      · exact .inr overtaken
    · rintro (known | overtaken)
      · cases known
      · refine ⟨.inr overtaken, ?_⟩
        rintro rfl
        exact ledger.known_not_overtaken overtaken
  | aside broker ledger ih =>
    rw [open_aside broker, overtaken_other (LinkEvent.opens?_broker broker), ih]

theorem of_prefix (ledger : Ledger running count history) (prior : before <+: history) :
    ∃ running count, Ledger running count before := by
  induction ledger with
  | fresh =>
    rw [List.prefix_nil.mp prior]
    exact ⟨_, _, .fresh⟩
  | opened ledger ih =>
    rcases List.prefix_concat_iff.mp prior with rfl | earlier
    · exact ⟨_, _, ledger.opened⟩
    · exact ih earlier
  | closed ledger ih =>
    rcases List.prefix_concat_iff.mp prior with rfl | earlier
    · exact ⟨_, _, ledger.closed⟩
    · exact ih earlier
  | aside broker ledger ih =>
    rcases List.prefix_concat_iff.mp prior with rfl | earlier
    · exact ⟨_, _, ledger.aside broker⟩
    · exact ih earlier

theorem asides (ledger : Ledger running count history) (brokers : ∀ event ∈ more, event.ofBroker = true) :
    Ledger running count (history ++ more) := by
  induction more generalizing history with
  | nil => rwa [List.append_nil]
  | cons event rest ih =>
    have next := ledger.aside (brokers event List.mem_cons_self)
    have whole := ih next fun later member => brokers later (List.mem_cons_of_mem _ member)
    rwa [List.append_assoc] at whole

theorem closed_open (ledger : Ledger running count (history ++ [.closed n])) : Open history n := by
  generalize whole : history ++ [.closed n] = all at ledger
  cases ledger with
  | fresh => simp at whole
  | opened ledger => simp at whole
  | @closed m count earlier ledger =>
    obtain ⟨rfl, last⟩ := List.append_inj' whole rfl
    cases last
    exact ledger.sound.1 n rfl
  | @aside running count earlier event broker ledger =>
    obtain ⟨-, last⟩ := List.append_inj' whole rfl
    cases last
    cases broker

theorem count_closed_le (ledger : Ledger running count history) (n : Nat) : history.count (.closed n) ≤ 1 := by
  induction ledger with
  | fresh => simp
  | opened ledger ih => simpa [List.count_append] using ih
  | @closed m count history ledger ih =>
    by_cases same : n = m
    · subst same
      have none := List.count_eq_zero.mpr (ledger.sound.1 n rfl).2
      simp [List.count_append, none]
    · have other : ¬ m = n := fun equal => same equal.symm
      simpa [List.count_append, List.count_singleton, other] using ih
  | @aside running count history event broker ledger ih =>
    cases event with
    | brokerStarted | brokerClosed => simpa [List.count_append] using ih
    | opened m | closed m => cases broker

end Ledger

structure Books where
  known : Option Nat
  count : Nat
  history : List LinkEvent

namespace Books

variable {b next : Books} {outcome : Attempt Unit} {fault : Fault}

def Kept (b : Books) : Prop := Ledger b.known b.count b.history

structure Accounted (b : Books) : Prop where
  opened : openings b.history = List.range b.count
  closed : ∀ n before, before ++ [.closed n] <+: b.history → Open before n
  closedOnce : ∀ n, b.history.count (.closed n) ≤ 1
  gone : ∀ n < b.count, b.known ≠ some n → ¬ Overtaken b.history n → b.history.count (.closed n) = 1
  standing : ∀ n, Open b.history n ↔ b.known = some n ∨ Overtaken b.history n
  alone : ∀ before, before <+: b.history → ∀ m n, Open before m → Open before n →
    m = n ∨ Overtaken before m ∨ Overtaken before n

theorem Kept.accounted (kept : b.Kept) : b.Accounted := by
  refine ⟨kept.openings_eq, ?_, kept.count_closed_le, ?_, kept.standing, ?_⟩
  · intro n before prior
    obtain ⟨_, _, partly⟩ := kept.of_prefix prior
    exact partly.closed_open
  · intro n opened unknown single
    have closed : .closed n ∈ b.history := by
      by_contra stands
      rcases (kept.standing n).mp ⟨kept.opened_iff.mpr opened, stands⟩ with known | overtaken
      · exact unknown known
      · exact single overtaken
    exact Nat.le_antisymm (kept.count_closed_le n) (List.count_pos_iff.mpr closed)
  · intro before prior m n first second
    obtain ⟨known, _, partly⟩ := kept.of_prefix prior
    rcases (partly.standing m).mp first with here | overtaken
    · rcases (partly.standing n).mp second with there | overtaken
      · exact .inl (Option.some_inj.mp (here.symm.trans there))
      · exact .inr (.inr overtaken)
    · exact .inr (.inl overtaken)

theorem Kept.overtaken_opened (kept : b.Kept) (m n : Nat) :
    Overtaken (b.history ++ [.opened m]) n ↔ b.known = some n ∨ Overtaken b.history n := by
  rw [overtaken_snoc, kept.standing]
  constructor
  · rintro (earlier | ⟨-, stood⟩)
    · exact .inr earlier
    · exact stood
  · intro stood
    exact .inr ⟨⟨m, rfl⟩, stood⟩

inductive Started (b : Books) : Attempt Unit → Books → Prop where
  | failed {more : List LinkEvent} (fault : Fault) (brokers : ∀ event ∈ more, event.ofBroker = true) :
      Started b (.error fault) { b with history := b.history ++ more }
  | connected {more : List LinkEvent} (brokers : ∀ event ∈ more, event.ofBroker = true) :
      Started b (.ok ()) ⟨some b.count, b.count + 1, b.history ++ more ++ [.opened b.count]⟩

inductive Stopped (b : Books) : Books → Prop where
  | idle {more : List LinkEvent} (none : b.known = none) (brokers : ∀ event ∈ more, event.ofBroker = true) :
      Stopped b { b with history := b.history ++ more }
  | closed {more : List LinkEvent} {n : Nat} (known : b.known = some n)
      (brokers : ∀ event ∈ more, event.ofBroker = true) :
      Stopped b ⟨none, b.count, b.history ++ [.closed n] ++ more⟩

theorem Started.failure (b : Books) (fault : Fault) : Started b (.error fault) b := by
  simpa using Started.failed (b := b) fault (List.forall_mem_nil _)

theorem Started.connection (b : Books) :
    Started b (.ok ()) ⟨some b.count, b.count + 1, b.history ++ [.opened b.count]⟩ := by
  simpa using Started.connected (b := b) (List.forall_mem_nil _)

theorem Stopped.nothing (none : b.known = none) : Stopped b b := by
  simpa using Stopped.idle none (List.forall_mem_nil _)

theorem Stopped.closure (known : b.known = some n) : Stopped b ⟨none, b.count, b.history ++ [.closed n]⟩ := by
  simpa using Stopped.closed known (List.forall_mem_nil _)

theorem Started.behind (broker : event.ofBroker = true)
    (started : Started { b with history := b.history ++ [event] } outcome next) : Started b outcome next := by
  cases started with
  | failed fault brokers =>
    rw [← List.append_cons]
    exact .failed fault (List.forall_mem_cons.mpr ⟨broker, brokers⟩)
  | connected brokers =>
    rw [← List.append_cons]
    exact .connected (List.forall_mem_cons.mpr ⟨broker, brokers⟩)

theorem Started.kept (started : Started b outcome next) (kept : b.Kept) : next.Kept := by
  cases started with
  | failed fault brokers => exact Ledger.asides kept brokers
  | connected brokers => exact (Ledger.asides kept brokers).opened

theorem Started.overtaken_iff (started : Started b outcome next) (kept : b.Kept) (n : Nat) :
    Overtaken next.history n ↔ Overtaken b.history n ∨ outcome = .ok () ∧ b.known = some n := by
  cases started with
  | failed fault brokers =>
    rw [overtaken_asides brokers]
    simp
  | @connected more brokers =>
    have moved : Kept { b with history := b.history ++ more } := Ledger.asides kept brokers
    rw [moved.overtaken_opened, overtaken_asides brokers, or_comm]
    simp

theorem Started.of_error (started : Started b (.error fault) next) :
    next.known = b.known ∧ next.count = b.count ∧ ∀ n, Open next.history n ↔ Open b.history n := by
  cases started with
  | failed fault brokers => exact ⟨rfl, rfl, fun n => open_asides brokers⟩

theorem Stopped.kept (stopped : Stopped b next) (kept : b.Kept) : next.Kept := by
  cases stopped with
  | idle none brokers => exact Ledger.asides kept brokers
  | closed known brokers =>
    unfold Kept at kept
    rw [known] at kept
    exact kept.closed.asides brokers

theorem Stopped.overtaken_iff (stopped : Stopped b next) (n : Nat) :
    Overtaken next.history n ↔ Overtaken b.history n := by
  cases stopped with
  | idle none brokers => exact overtaken_asides brokers
  | closed known brokers => exact (overtaken_asides brokers).trans (overtaken_other rfl)

theorem Stopped.open_iff (stopped : Stopped b next) (kept : b.Kept) (n : Nat) :
    Open next.history n ↔ Overtaken b.history n := by
  have idle : next.known = none := by
    cases stopped with
    | idle none brokers => exact none
    | closed known brokers => rfl
  rw [(stopped.kept kept).standing, idle, stopped.overtaken_iff]
  simp

end Books
end FieldGateway.Mqtt
