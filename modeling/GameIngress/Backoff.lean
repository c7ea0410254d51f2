import GameIngress.Duration.Basic

/-!
# Exponential backoff

The wait before a repeated attempt doubles with every failure, up to a cap. Doubling stops after
sixteen failures.
-/
namespace GameIngress

/-- The wait after `attempt` earlier waits. -/
def backoffDelay (attempt : Nat) (base cap : Duration) : Duration :=
  (base.scale (Nat.pow 2 (min attempt 16))).least cap

/-- A bounded series of attempts: how many in total, and the first and the longest wait. -/
structure Backoff where
  steps : Nat := 5
  initial : Duration := .ofMillis 10
  cap : Duration := .ofSecs 1
  deriving DecidableEq

namespace Backoff

def ofSteps (steps : Nat) : Backoff := { steps }

/-- Attempts in total; there is always one. -/
def budget (b : Backoff) : Nat := max b.steps 1

def delay (b : Backoff) (attempt : Nat) : Duration := backoffDelay attempt b.initial b.cap

end Backoff
end GameIngress
