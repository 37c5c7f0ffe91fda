import FieldGateway.Waiting
import Mathlib.Tactic.ByContra

-- With which attempt a run of attempts ends, and what is done on the way there.
namespace FieldGateway

theorem intersperse_cons (separator x : α) (xs : List α) :
    (x :: xs).intersperse separator = x :: xs.flatMap fun y => [separator, y] := by
  induction xs generalizing x with
  | nil => rfl
  | cons y xs ih => simp [ih]

namespace RetryPolicy

variable {p : RetryPolicy} {attempt : Nat → Attempt α} {n last : Nat}

structure EndsWith (p : RetryPolicy) (attempt : Nat → Attempt α) (last : Nat) : Prop where
  allowed : last ≤ p.retries
  failed : ∀ earlier < last, ∃ fault, attempt earlier = .error fault
  final : (∃ value, attempt last = .ok value) ∨ last = p.retries

-- By induction on the attempts that are left: one that fails leaves the rest to the next one.
theorem runFrom_parts (p : RetryPolicy) (attempt : Nat → Attempt α) (made : Nat) (latest : Option Fault) (left : Nat) :
    ∃ last, made ≤ last ∧ last ≤ made + left ∧
      (∀ n, made ≤ n → n < last → ∃ fault, attempt n = .error fault) ∧
      ((∃ value, attempt last = .ok value) ∨ last = made + left) ∧
      p.runFrom attempt made latest (left + 1) =
        ⟨(List.range' made (last + 1 - made)).flatMap p.turn, attempt last⟩ := by
  induction left generalizing made latest with
  | zero =>
    refine ⟨made, Nat.le_refl _, Nat.le_refl _, fun n low high => by omega, .inr rfl, ?_⟩
    cases outcome : attempt made with
    | ok value => simp [runFrom, outcome]
    | error fault => simp [runFrom, outcome, Retried.after]
  | succ left ih =>
    cases outcome : attempt made with
    | ok value =>
      refine ⟨made, Nat.le_refl _, Nat.le_add_right _ _, fun n low high => by omega, .inl ⟨value, outcome⟩, ?_⟩
      simp [runFrom, outcome]
    | error fault =>
      obtain ⟨last, low, high, failed, final, run⟩ := ih (made + 1) (some fault)
      refine ⟨last, by omega, by omega, ?_, ?_, ?_⟩
      · intro n from_made before
        rcases Nat.eq_or_lt_of_le from_made with rfl | later
        · exact ⟨fault, outcome⟩
        · exact failed n later before
      · exact final.imp_right fun equal => by omega
      · have count : last + 1 - made = last + 1 - (made + 1) + 1 := by omega
        have turns : List.range' made (last + 1 - made) = made :: List.range' (made + 1) (last + 1 - (made + 1)) := by
          rw [count, List.range'_succ]
        rw [turns, runFrom, outcome]
        simp [run, Retried.after]

def schedule (p : RetryPolicy) (count : Nat) : List RetryStep :=
  ((List.range count).map .attempt).intersperse (.pause p.interval)

theorem turns_eq (p : RetryPolicy) (n : Nat) : (List.range' 0 (n + 1)).flatMap p.turn = p.schedule (n + 1) := by
  have later : ∀ k, p.turn (k + 1) = [.pause p.interval, .attempt (k + 1)] := fun k => by simp [turn]
  have first : p.turn 0 = [.attempt 0] := by simp [turn]
  unfold schedule
  rw [← List.range_eq_range', List.range_succ_eq_map, List.flatMap_cons, List.map_cons, intersperse_cons, first]
  simp [List.flatMap_map, later]

theorem run_parts (p : RetryPolicy) (attempt : Nat → Attempt α) :
    ∃ last, p.EndsWith attempt last ∧ p.run attempt = ⟨p.schedule (last + 1), attempt last⟩ := by
  obtain ⟨last, -, allowed, failed, final, run⟩ := p.runFrom_parts attempt 0 none p.retries
  rw [Nat.zero_add] at allowed final
  refine ⟨last, ⟨allowed, fun n before => failed n (Nat.zero_le _) before, final⟩, ?_⟩
  rw [Nat.sub_zero, turns_eq] at run
  exact run

theorem attempts_schedule (p : RetryPolicy) (result : Attempt α) (n : Nat) :
    (Retried.mk (p.schedule (n + 1)) result).attempts = n + 1 := by
  simp only [Retried.attempts, ← turns_eq]
  induction n with
  | zero => simp [turn, RetryStep.isAttempt]
  | succ n ih =>
    rw [List.range'_concat, List.flatMap_append, List.countP_append, ih]
    simp [turn, RetryStep.isAttempt]

theorem paused_schedule (p : RetryPolicy) (result : Attempt α) (n : Nat) :
    (Retried.mk (p.schedule (n + 1)) result).paused = n * p.interval := by
  simp only [Retried.paused, RetryStep.total, ← turns_eq]
  induction n with
  | zero => simp [turn, RetryStep.milliseconds]
  | succ n ih =>
    rw [List.range'_concat, List.flatMap_append, List.foldl_append, ih]
    simp [turn, RetryStep.milliseconds, Nat.succ_mul]

theorem runFrom_map (p : RetryPolicy) (attempt : Nat → Attempt α) (f : α → β) (made : Nat) (latest : Option Fault)
    (left : Nat) : (p.runFrom (fun n => (attempt n).map f) made latest left).result =
      (p.runFrom attempt made latest left).result.map f := by
  induction left generalizing made latest with
  | zero => rfl
  | succ left ih =>
    cases outcome : attempt made with
    | ok value => simp [runFrom, outcome, Except.map]
    | error fault =>
      have later := ih (made + 1) (some fault)
      simpa [runFrom, outcome, Except.map, Retried.after] using later

theorem run_map (p : RetryPolicy) (attempt : Nat → Attempt α) (f : α → β) :
    (p.run fun n => (attempt n).map f).result = (p.run attempt).result.map f :=
  p.runFrom_map attempt f 0 none (p.retries + 1)

def FirstSuccess (attempt : Nat → Attempt α) (n : Nat) : Prop :=
  (∃ value, attempt n = .ok value) ∧ ∀ earlier < n, ∃ fault, attempt earlier = .error fault

theorem not_succeeds (failed : ∃ fault, attempt n = .error fault) : ¬ ∃ value, attempt n = .ok value := by
  obtain ⟨fault, failed⟩ := failed
  simp [failed]

theorem EndsWith.count_eq_min (ends : p.EndsWith attempt last) (first : FirstSuccess attempt n) :
    last + 1 = min (n + 1) (p.retries + 1) := by
  have allowed := ends.allowed
  have notBehind : last ≤ n := by
    by_contra behind
    exact not_succeeds (ends.failed n (by omega)) first.1
  rcases ends.final with succeeded | exhausted
  · have notBefore : n ≤ last := by
      by_contra before
      exact not_succeeds (first.2 last (by omega)) succeeded
    omega
  · omega

theorem EndsWith.exhausted (ends : p.EndsWith attempt last) (failed : ∀ n, ∃ fault, attempt n = .error fault) :
    last = p.retries :=
  ends.final.resolve_left (not_succeeds (failed last))

end RetryPolicy
end FieldGateway
