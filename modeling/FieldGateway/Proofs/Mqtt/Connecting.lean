import FieldGateway.Proofs.Mqtt.Handshake

-- How often a client tries to reach its broker, how long it rests between, and what it reports
-- in the end.
namespace FieldGateway.Mqtt

variable {p : RetryPolicy} {attempt : Nat → Attempt α} {n : Nat} {disk : Disk} {s : BrokerSettings}
  {filters : List Subscription} {network : Network} {fault : Fault}

theorem asConnectionFailure_timeout (late : fault.kind = .timeout) :
    asConnectionFailure fault = .connectionFailure fault.detail := by
  simp [asConnectionFailure, late]

theorem asConnectionFailure_other (other : fault.kind ≠ .timeout) : asConnectionFailure fault = fault := by
  simp [asConnectionFailure, other]

theorem asConnectionFailure_kind (fault : Fault) : (asConnectionFailure fault).kind ≠ .timeout := by
  by_cases late : fault.kind = .timeout
  · simp [asConnectionFailure_timeout late, Fault.connectionFailure]
  · rwa [asConnectionFailure_other late]

theorem connect_fault_kind (failed : connect disk s filters network = .error fault) : fault.kind ≠ .timeout := by
  obtain ⟨last, -, connected⟩ := connect_ends disk s filters network
  rw [connected] at failed
  cases made : handshake disk s filters (network last) with
  | ok shaken =>
    rw [made] at failed
    cases failed
  | error cause =>
    rw [made] at failed
    cases failed
    exact asConnectionFailure_kind cause

-- An attempt is made until one succeeds or none is left, with one pause between any two of them.
-- A client that connects in this way reports the handshake with which it ended, and no timeout.
theorem connect_retried (p : RetryPolicy) (attempt : Nat → Attempt α) (disk : Disk) (s : BrokerSettings)
    (filters : List Subscription) (network : Network) :
    (∃ last, p.EndsWith attempt last ∧
      (p.run attempt).steps = ((List.range (last + 1)).map .attempt).intersperse (.pause p.interval) ∧
      (p.run attempt).attempts = last + 1 ∧ (p.run attempt).paused = last * p.interval ∧
      (p.run attempt).result = attempt last) ∧
    (∀ n, RetryPolicy.FirstSuccess attempt n → (p.run attempt).attempts = min (n + 1) (p.retries + 1)) ∧
    ((∀ n, ∃ fault, attempt n = .error fault) → (p.run attempt).attempts = p.retries + 1) ∧
    (∃ last, RetryPolicy.EndsWith ⟨s.retries, s.retryInterval⟩ (fun n => handshake disk s filters (network n)) last ∧
      (∀ shaken, handshake disk s filters (network last) = .ok shaken →
        connect disk s filters network = .ok shaken) ∧
      (∀ fault, handshake disk s filters (network last) = .error fault → fault.kind ≠ .timeout →
        connect disk s filters network = .error fault) ∧
      (∀ text, handshake disk s filters (network last) = .error (.timeout text) →
        connect disk s filters network = .error (.connectionFailure text))) ∧
    ∀ fault, connect disk s filters network = .error fault → fault.kind ≠ .timeout := by
  obtain ⟨last, ends, run⟩ := p.run_parts attempt
  obtain ⟨final, closing, connected⟩ := connect_ends disk s filters network
  have attempts : (p.run attempt).attempts = last + 1 := by rw [run, p.attempts_schedule]
  refine ⟨⟨last, ends, ?_, attempts, ?_, ?_⟩, ?_, ?_, ⟨final, closing, ?_, ?_, ?_⟩, fun fault => connect_fault_kind⟩
  · rw [run]
    rfl
  · rw [run, p.paused_schedule]
  · rw [run]
  · intro n first
    rw [attempts, ends.count_eq_min first]
  · intro failed
    rw [attempts, ends.exhausted failed]
  · intro shaken made
    rw [connected, made]
    rfl
  · intro fault failed other
    rw [connected, failed, Except.mapError, asConnectionFailure_other other]
  · intro text failed
    rw [connected, failed, Except.mapError, asConnectionFailure_timeout rfl]
    rfl

def drowsy : Network := fun n => if n = 0 then [.silence] else [.accepted false]

theorem connect_retried_drowsy :
    RetryPolicy.FirstSuccess (fun n => handshake ⟨[]⟩ (.ofHost "localhost") [] (drowsy n)) 1 ∧
    (RetryPolicy.run ⟨3, 20⟩ fun n => handshake ⟨[]⟩ (.ofHost "localhost") [] (drowsy n)).attempts = 2 ∧
    connect ⟨[]⟩ (.ofHost "localhost") [] drowsy = .error (.connectionFailure (timedOut handshakeLimit).detail) := by
  have first : RetryPolicy.FirstSuccess (fun n => handshake ⟨[]⟩ (.ofHost "localhost") [] (drowsy n)) 1 := by
    refine ⟨⟨_, rfl⟩, fun earlier before => ?_⟩
    obtain rfl : earlier = 0 := by omega
    exact ⟨_, rfl⟩
  obtain ⟨-, counted, -, ⟨last, ends, -, -, late⟩, -⟩ := connect_retried ⟨3, 20⟩
    (fun n => handshake ⟨[]⟩ (.ofHost "localhost") [] (drowsy n)) ⟨[]⟩ (.ofHost "localhost") [] drowsy
  have single : last = 0 := Nat.le_zero.mp ends.allowed
  subst single
  exact ⟨first, counted 1 first, late _ rfl⟩

end FieldGateway.Mqtt
