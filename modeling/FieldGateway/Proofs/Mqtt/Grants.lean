import FieldGateway.Mqtt.Subscriber
import FieldGateway.Proofs.Mqtt.Handshake

-- What a broker has said about the filters of a client that is connected. Every filter has been
-- answered, but the client has not looked at the answers.
namespace FieldGateway.Mqtt

def grants : List Nat → Bool
  | [code] => code ≤ 2
  | _ => false

def Event.verdict? : Event → Option (List Nat)
  | .acknowledged codes => some codes
  | _ => none

def verdicts (events : List Event) : List (List Nat) := events.filterMap Event.verdict?

def granted (filters : List Subscription) (verdicts : List (List Nat)) : List Subscription :=
  ((filters.zip verdicts).filter fun answered => grants answered.2).map Prod.fst

def Event.judged (judge : List Nat → List Nat) : Event → Event
  | .acknowledged codes => .acknowledged (judge codes)
  | e => e

def Network.judged (judge : List Nat → List Nat) (network : Network) : Network :=
  fun n => (network n).map (Event.judged judge)

def Shaken.judged (judge : List Nat → List Nat) (s : Shaken) : Shaken :=
  { s with unread := s.unread.map (Event.judged judge) }

variable {disk : Disk} {s : BrokerSettings} {filters : List Subscription} {network : Network} {shaken : Shaken}
  {events shaking : List Event} {awaited : Event → Bool} {judge : List Nat → List Nat} {count : Nat}

theorem length_verdicts (events : List Event) : (verdicts events).length = events.countP isAcknowledged := by
  induction events with
  | nil => rfl
  | cons e events ih =>
    rw [List.countP_cons, ← ih]
    cases e with
    | acknowledged codes => rfl
    | accepted present | published m | other | lost | silence => rfl

theorem granted_all_iff {answers : List (List Nat)} (answered : answers.length = filters.length) :
    granted filters answers = filters ↔ ∀ codes ∈ answers, grants codes = true := by
  have names : (filters.zip answers).map Prod.fst = filters := List.map_fst_zip (Nat.le_of_eq answered.symm)
  have codes : (filters.zip answers).map Prod.snd = answers := List.map_snd_zip (Nat.le_of_eq answered)
  unfold granted
  constructor
  · intro all verdict member
    rw [← codes] at member
    obtain ⟨pair, paired, rfl⟩ := List.mem_map.mp member
    have lengths := congrArg List.length (all.trans names.symm)
    rw [List.length_map, List.length_map] at lengths
    exact List.length_filter_eq_length_iff.mp lengths pair paired
  · intro all
    have kept : (filters.zip answers).filter (fun answered => grants answered.2) = filters.zip answers := by
      apply List.filter_eq_self.mpr
      intro pair paired
      apply all
      rw [← codes]
      exact List.mem_map_of_mem paired
    rw [kept, names]

-- How a broker has taken in a client. `shaking` is what it sent between its welcome and its last
-- answer.
structure TakenIn (disk : Disk) (s : BrokerSettings) (filters : List Subscription) (events : List Event)
    (shaken : Shaken) (shaking : List Event) : Prop where
  accepted : ∃ greeting present, events = greeting ++ .accepted present :: (shaking ++ shaken.unread) ∧
    ∀ e ∈ greeting, isAccepted e = false ∧ e.interrupts = false
  asked : ∃ introduction, introduce disk s = .ok introduction ∧
    shaken.sent = .connect introduction :: filters.map .subscribe
  answered : (verdicts shaking).length = filters.length
  calm : ∀ e ∈ shaking, e.interrupts = false

theorem TakenIn.heard (taken : TakenIn disk s filters events shaken shaking) (member : codes ∈ verdicts shaking) :
    codes ∈ verdicts events := by
  obtain ⟨greeting, present, split, -⟩ := taken.accepted
  rw [split, verdicts, List.filterMap_append, List.filterMap_cons, List.filterMap_append]
  simp only [Event.verdict?]
  exact List.mem_append_right _ (List.mem_append_left _ member)

theorem handshake_takenIn (made : handshake disk s filters events = .ok shaken) :
    ∃ shaking, TakenIn disk s filters events shaken shaking := by
  obtain ⟨introduction, greeting, present, shaking, introduced, split, calm, acknowledges, sent⟩ := handshake_parts made
  refine ⟨shaking, ⟨greeting, present, split, calm⟩, ⟨introduction, introduced, sent⟩, ?_, acknowledges.calm⟩
  rw [length_verdicts, acknowledges.counted]

theorem connect_takenIn (connected : connect disk s filters network = .ok shaken) :
    ∃ attempt ≤ s.retries, ∃ shaking, TakenIn disk s filters (network attempt) shaken shaking := by
  obtain ⟨attempt, allowed, made⟩ := connect_parts connected
  exact ⟨attempt, allowed, handshake_takenIn made⟩

theorem await_judged (host : Text) (blind : ∀ e, awaited (e.judged judge) = awaited e) (events : List Event) :
    await host awaited (events.map (Event.judged judge)) =
      (await host awaited events).map (List.map (Event.judged judge)) := by
  induction events with
  | nil => rfl
  | cons e events ih =>
    cases plain : e.interrupts with
    | true => cases e with
      | silence | lost => rfl
      | accepted present | acknowledged codes | published m | other => cases plain
    | false =>
      have same : (e.judged judge).interrupts = false := by
        rw [← plain]
        cases e <;> rfl
      rw [List.map_cons, await_cons same, await_cons plain, blind, ih]
      cases awaited e <;> rfl

theorem isAccepted_judged (judge : List Nat → List Nat) (e : Event) : isAccepted (e.judged judge) = isAccepted e := by
  cases e <;> rfl

theorem isAcknowledged_judged (judge : List Nat → List Nat) (e : Event) :
    isAcknowledged (e.judged judge) = isAcknowledged e := by
  cases e <;> rfl

theorem awaitEach_judged (judge : List Nat → List Nat) (host : Text) (filters : List Subscription) (events : List Event) :
    awaitEach host filters (events.map (Event.judged judge)) =
      (awaitEach host filters events).map (List.map (Event.judged judge)) := by
  induction filters generalizing events with
  | nil => rfl
  | cons filter filters ih =>
    simp only [awaitEach]
    split
    · rw [await_judged host (isAcknowledged_judged judge)]
      cases await host isAcknowledged events with
      | error fault => rfl
      | ok rest => exact ih rest
    · rfl

theorem handshake_judged (disk : Disk) (s : BrokerSettings) (filters : List Subscription)
    (judge : List Nat → List Nat) (events : List Event) :
    handshake disk s filters (events.map (Event.judged judge)) =
      (handshake disk s filters events).map (Shaken.judged judge) := by
  simp only [handshake]
  cases introduce disk s with
  | error fault => rfl
  | ok introduction =>
    simp only
    rw [await_judged s.host (isAccepted_judged judge)]
    cases await s.host isAccepted events with
    | error fault => rfl
    | ok welcomed =>
      simp only [Except.map]
      rw [awaitEach_judged]
      cases awaitEach s.host filters welcomed with
      | error fault => rfl
      | ok unread => rfl

theorem connect_judged (disk : Disk) (s : BrokerSettings) (filters : List Subscription) (network : Network)
    (judge : List Nat → List Nat) :
    connect disk s filters (network.judged judge) = (connect disk s filters network).map (Shaken.judged judge) := by
  simp only [connect, Network.judged, handshake_judged]
  rw [RetryPolicy.run_map]
  cases (RetryPolicy.run ⟨s.retries, s.retryInterval⟩ fun n => handshake disk s filters (network n)).result with
  | ok shaken => rfl
  | error fault => rfl

namespace Connection

theorem report_judged (c : Connection) (judge : List Nat → List Nat) (e : Event) :
    c.report (e.judged judge) = c.report e := by
  cases e <;> rfl

theorem ofShaken_judged (filters : List Subscription) (listening : Bool) (judge : List Nat → List Nat) (shaken : Shaken) :
    ofShaken filters listening (shaken.judged judge) = ofShaken filters listening shaken := by
  simp only [ofShaken, Shaken.judged, List.foldl_map, report_judged]

end Connection

theorem Subscriber.start_judged (d : Subscriber) (disk : Disk) (network : Network) (judge : List Nat → List Nat) :
    d.start disk (network.judged judge) = d.start disk network := by
  simp only [start]
  cases d.running with
  | some link => rfl
  | none =>
    simp only
    rw [connect_judged]
    cases connect disk d.settings.broker d.subscriptions network with
    | error fault => rfl
    | ok shaken =>
      simp only [Except.map]
      rw [Connection.ofShaken_judged]

theorem Subscriber.start_takenIn {d : Subscriber} (idle : d.running = none)
    (started : (d.start disk network).2 = .ok ()) :
    ∃ shaken, connect disk d.settings.broker d.subscriptions network = .ok shaken ∧
      ∃ attempt ≤ d.settings.broker.retries, ∃ shaking codes,
        TakenIn disk d.settings.broker d.subscriptions (network attempt) shaken shaking ∧ verdicts shaking = [codes] := by
  simp only [start, idle] at started
  cases connected : connect disk d.settings.broker d.subscriptions network with
  | error fault =>
    rw [connected] at started
    cases started
  | ok shaken =>
    obtain ⟨attempt, allowed, shaking, taken⟩ := connect_takenIn connected
    obtain ⟨codes, single⟩ := List.length_eq_one_iff.mp taken.answered
    exact ⟨shaken, rfl, attempt, allowed, shaking, codes, taken, single⟩

-- A client is connected when the broker has accepted it and has answered once for every filter.
-- All filters are served exactly when none of these answers refuses one. The answers make no
-- difference to the client, nor to a driver that starts with it.
theorem connect_answered (disk : Disk) (s : BrokerSettings) (filters : List Subscription) (network : Network)
    (d : Subscriber) :
    (∀ shaken, connect disk s filters network = .ok shaken →
      ∃ attempt ≤ s.retries, ∃ shaking, TakenIn disk s filters (network attempt) shaken shaking ∧
        (granted filters (verdicts shaking) = filters ↔ ∀ codes ∈ verdicts shaking, grants codes = true)) ∧
    (∀ judge, connect disk s filters (network.judged judge) =
      (connect disk s filters network).map (Shaken.judged judge)) ∧
    (d.running = none → (d.start disk network).2 = .ok () →
      ∃ shaken, connect disk d.settings.broker d.subscriptions network = .ok shaken ∧
        ∃ attempt ≤ d.settings.broker.retries, ∃ shaking codes,
          TakenIn disk d.settings.broker d.subscriptions (network attempt) shaken shaking ∧
          verdicts shaking = [codes] ∧
          (granted d.subscriptions (verdicts shaking) = d.subscriptions ↔ grants codes = true)) ∧
    ∀ judge, d.start disk (network.judged judge) = d.start disk network := by
  refine ⟨?_, connect_judged disk s filters network, ?_, d.start_judged disk network⟩
  · intro shaken connected
    obtain ⟨attempt, allowed, shaking, taken⟩ := connect_takenIn connected
    exact ⟨attempt, allowed, shaking, taken, granted_all_iff taken.answered⟩
  · intro idle started
    obtain ⟨shaken, connected, attempt, allowed, shaking, codes, taken, single⟩ := Subscriber.start_takenIn idle started
    refine ⟨shaken, connected, attempt, allowed, shaking, codes, taken, single, ?_⟩
    rw [granted_all_iff taken.answered, single]
    simp

def plantDriver : Subscriber := ⟨⟨.ofHost "localhost", "plant/#", none⟩, .atMostOnce, [], [], none, 0, []⟩

def answering (codes : List Nat) : Network := fun _ => [.accepted false, .acknowledged codes]

theorem connect_answered_granting :
    ∃ shaken attempt shaking,
      TakenIn ⟨[]⟩ plantDriver.settings.broker plantDriver.subscriptions (answering [0] attempt) shaken shaking ∧
      granted plantDriver.subscriptions (verdicts shaking) = plantDriver.subscriptions := by
  obtain ⟨-, -, started, -⟩ := connect_answered ⟨[]⟩ plantDriver.settings.broker [] (answering [0]) plantDriver
  obtain ⟨shaken, connected, attempt, -, shaking, codes, taken, single, served⟩ := started rfl rfl
  have heard := taken.heard (single ▸ List.mem_singleton_self codes)
  obtain rfl : codes = [0] := List.mem_singleton.mp heard
  exact ⟨shaken, attempt, shaking, taken, served.mpr rfl⟩

-- The only filter is refused, and everything succeeds.
theorem refused_filter_connected :
    (∃ shaken, connect ⟨[]⟩ plantDriver.settings.broker plantDriver.subscriptions (answering [128]) = .ok shaken) ∧
      (plantDriver.start ⟨[]⟩ (answering [128])).2 = .ok () ∧
      (plantDriver.start ⟨[]⟩ (answering [128])).1.running.isSome = true ∧
      granted plantDriver.subscriptions (verdicts (answering [128] 0)) = [] :=
  ⟨⟨_, rfl⟩, rfl, rfl, rfl⟩

end FieldGateway.Mqtt
