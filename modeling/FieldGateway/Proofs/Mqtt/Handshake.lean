import FieldGateway.Mqtt.Handshake
import FieldGateway.Proofs.Waiting

-- What a connection that came about has read on its way: the attempt that succeeded, the broker's
-- welcome, and one acknowledgement for every filter.
namespace FieldGateway.Mqtt

variable {host : Text} {awaited : Event → Bool} {e : Event} {events rest : List Event} {filters : List Subscription}
  {disk : Disk} {s : BrokerSettings} {network : Network} {shaken : Shaken}

def Event.interrupts : Event → Bool
  | .silence | .lost => true
  | _ => false

theorem await_interrupted (stops : e.interrupts = true) : ∃ fault, await host awaited (e :: events) = .error fault := by
  cases e with
  | silence | lost => exact ⟨_, rfl⟩
  | accepted present | acknowledged codes | published m | other => cases stops

theorem await_cons (plain : e.interrupts = false) :
    await host awaited (e :: events) = if awaited e then .ok events else await host awaited events := by
  cases e with
  | silence | lost => cases plain
  | accepted present | acknowledged codes | published m | other => rfl

theorem await_parts (found : await host awaited events = .ok rest) :
    ∃ before e, events = before ++ e :: rest ∧ awaited e = true ∧ e.interrupts = false ∧
      ∀ earlier ∈ before, awaited earlier = false ∧ earlier.interrupts = false := by
  induction events with
  | nil => cases found
  | cons e events ih =>
    cases plain : e.interrupts with
    | true =>
      obtain ⟨fault, failed⟩ := await_interrupted plain
      cases failed.symm.trans found
    | false =>
      rw [await_cons plain] at found
      cases here : awaited e with
      | true =>
        simp only [here, if_true] at found
        cases found
        exact ⟨[], e, rfl, here, plain, fun earlier member => nomatch member⟩
      | false =>
        simp only [here, Bool.false_eq_true, if_false] at found
        obtain ⟨before, last, rfl, hit, calm, others⟩ := ih found
        refine ⟨e :: before, last, rfl, hit, calm, ?_⟩
        intro earlier member
        rcases List.mem_cons.mp member with rfl | later
        · exact ⟨here, plain⟩
        · exact others earlier later

structure Acknowledges (count : Nat) (events : List Event) : Prop where
  counted : events.countP isAcknowledged = count
  last : ∀ e ∈ events.getLast?, isAcknowledged e = true
  calm : ∀ e ∈ events, e.interrupts = false

theorem Acknowledges.none : Acknowledges 0 [] := ⟨rfl, by simp, by simp⟩

theorem Acknowledges.next {before more : List Event} (hit : isAcknowledged e = true)
    (plain : e.interrupts = false)
    (others : ∀ earlier ∈ before, isAcknowledged earlier = false ∧ earlier.interrupts = false)
    (acknowledges : Acknowledges count more) : Acknowledges (count + 1) (before ++ e :: more) := by
  refine ⟨?_, ?_, ?_⟩
  · have none : before.countP isAcknowledged = 0 :=
      List.countP_eq_zero.mpr fun earlier member => by simp [(others earlier member).1]
    rw [List.countP_append, List.countP_cons, none, acknowledges.counted, hit]
    simp
  · intro last there
    rw [List.getLast?_append, List.getLast?_cons] at there
    cases ends : more.getLast? with
    | none =>
      simp only [ends] at there
      cases there
      exact hit
    | some final =>
      simp only [ends] at there
      cases there
      exact acknowledges.last final ends
  · intro one member
    rcases List.mem_append.mp member with earlier | later
    · exact (others one earlier).2
    · rcases List.mem_cons.mp later with rfl | behind
      · exact plain
      · exact acknowledges.calm one behind

theorem awaitEach_parts (found : awaitEach host filters events = .ok rest) :
    ∃ shaking, events = shaking ++ rest ∧ Acknowledges filters.length shaking := by
  induction filters generalizing events with
  | nil =>
    cases found
    exact ⟨[], rfl, .none⟩
  | cons filter filters ih =>
    unfold awaitEach at found
    split at found
    · split at found
      · cases found
      · rename_i first
        obtain ⟨before, e, rfl, hit, plain, others⟩ := await_parts first
        obtain ⟨more, rfl, acknowledges⟩ := ih found
        exact ⟨before ++ e :: more, by simp, acknowledges.next hit plain others⟩
    · cases found

-- The broker has welcomed the client, and what it has sent since is split at the last
-- acknowledgement.
theorem handshake_parts (made : handshake disk s filters events = .ok shaken) :
    ∃ introduction greeting present shaking,
      introduce disk s = .ok introduction ∧
      events = greeting ++ .accepted present :: (shaking ++ shaken.unread) ∧
      (∀ e ∈ greeting, isAccepted e = false ∧ e.interrupts = false) ∧
      Acknowledges filters.length shaking ∧
      shaken.sent = .connect introduction :: filters.map .subscribe := by
  unfold handshake at made
  split at made
  · cases made
  · rename_i introduction introduced
    split at made
    · cases made
    · rename_i welcomed
      split at made
      · cases made
      · rename_i acknowledged
        cases made
        obtain ⟨greeting, e, rfl, hit, -, others⟩ := await_parts welcomed
        obtain ⟨shaking, rfl, acknowledges⟩ := awaitEach_parts acknowledged
        cases e with
        | accepted present => exact ⟨introduction, greeting, present, shaking, introduced, rfl, others, acknowledges, rfl⟩
        | acknowledged codes | published m | other | lost | silence => cases hit

theorem connect_ends (disk : Disk) (s : BrokerSettings) (filters : List Subscription) (network : Network) :
    ∃ last, RetryPolicy.EndsWith ⟨s.retries, s.retryInterval⟩ (fun n => handshake disk s filters (network n)) last ∧
      connect disk s filters network = (handshake disk s filters (network last)).mapError asConnectionFailure := by
  obtain ⟨last, ends, run⟩ := RetryPolicy.run_parts ⟨s.retries, s.retryInterval⟩
    fun n => handshake disk s filters (network n)
  refine ⟨last, ends, ?_⟩
  unfold connect
  simp only [run]
  cases handshake disk s filters (network last) with
  | ok shaken => rfl
  | error fault => rfl

theorem connect_parts (connected : connect disk s filters network = .ok shaken) :
    ∃ attempt ≤ s.retries, handshake disk s filters (network attempt) = .ok shaken := by
  obtain ⟨last, ends, outcome⟩ := connect_ends disk s filters network
  rw [connected] at outcome
  cases made : handshake disk s filters (network last) with
  | ok found =>
    rw [made] at outcome
    cases outcome
    exact ⟨last, ends.allowed, made⟩
  | error fault =>
    rw [made] at outcome
    cases outcome

end FieldGateway.Mqtt
