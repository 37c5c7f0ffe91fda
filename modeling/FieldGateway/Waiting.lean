import FieldGateway.Fault
import FieldGateway.Text.Duration

-- Trying again after failures, and giving up after a while. Time does not pass here: what an
-- attempt yields is given, and the pauses are written down.
namespace FieldGateway

structure RetryPolicy where
  retries : Nat
  interval : Nat
deriving DecidableEq

inductive RetryStep where
  | attempt (number : Nat)
  | pause (milliseconds : Nat)
deriving DecidableEq

namespace RetryStep

def isAttempt : RetryStep → Bool
  | attempt _ => true
  | pause _ => false

def milliseconds : RetryStep → Nat
  | attempt _ => 0
  | pause t => t

def total (steps : List RetryStep) : Nat := steps.foldl (fun t step => t + step.milliseconds) 0

end RetryStep

structure Retried (α : Type) where
  steps : List RetryStep
  result : Attempt α

namespace Retried

def attempts (r : Retried α) : Nat := r.steps.countP RetryStep.isAttempt

def paused (r : Retried α) : Nat := RetryStep.total r.steps

def after (steps : List RetryStep) (r : Retried α) : Retried α := { r with steps := steps ++ r.steps }

end Retried

namespace RetryPolicy

-- The attempts are numbered from zero, and every one but the first comes after a pause.
def turn (p : RetryPolicy) (n : Nat) : List RetryStep :=
  if n = 0 then [.attempt n] else [.pause p.interval, .attempt n]

def noAttempt : Fault := .other "Unknown error in retry loop"

def runFrom (p : RetryPolicy) (attempt : Nat → Attempt α) (made : Nat) (latest : Option Fault) :
    (left : Nat) → Retried α
  | 0 => ⟨[], .error (latest.getD noAttempt)⟩
  | left + 1 =>
    match attempt made with
    | .ok value => ⟨p.turn made, .ok value⟩
    | .error fault => (runFrom p attempt (made + 1) (some fault) left).after (p.turn made)

def run (p : RetryPolicy) (attempt : Nat → Attempt α) : Retried α :=
  p.runFrom attempt 0 none (p.retries + 1)

end RetryPolicy

def timedOut (limit : Duration) : Fault := .timeout ("Operation timed out after " ++ limit.text)

def withinLimit (limit : Duration) (takes : Option Nat) (outcome : Attempt α) : Attempt α :=
  match takes with
  | some t => if t ≤ limit.milliseconds then outcome else .error (timedOut limit)
  | none => .error (timedOut limit)

end FieldGateway
