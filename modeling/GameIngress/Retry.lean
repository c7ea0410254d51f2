import GameIngress.Backoff
import GameIngress.Failure

/-!
# Retries

Two ways to repeat a call that may fail: after conflicts, with growing pauses, and after any
failure, with equal pauses. Both give up after a bounded number of calls. They work in any monad
that can pause.
-/
namespace GameIngress

variable {m : Type → Type u} [Monad m] {α : Type}

/-- `waits` is how many pauses may still be made, and `attempt` how many were made. -/
def conflictLoop (pause : Duration → m Unit) (delay : Nat → Duration)
    (call : m (Except Failure α)) : (waits attempt : Nat) → m (Except Failure α)
  | waits, attempt => do
    match ← call with
    | .ok a => return .ok a
    | .error e =>
      if e.isConflict then
        match waits with
        | 0 => return .error (.exhausted (attempt + 1) e)
        | waits + 1 => do
          pause (delay attempt)
          conflictLoop pause delay call waits (attempt + 1)
      else return .error e

/-- Call until the result is no conflict. -/
def retryOnConflict (pause : Duration → m Unit) (b : Backoff) (call : m (Except Failure α)) :
    m (Except Failure α) :=
  conflictLoop pause b.delay call (b.budget - 1) 0

def pollLoop (pause : Duration → m Unit) (interval : Duration) (call : m (Except Failure α)) :
    (waits attempt : Nat) → m (Except Failure α)
  | waits, attempt => do
    match ← call with
    | .ok a => return .ok a
    | .error e =>
      match waits with
      | 0 => return .error (.exhausted (attempt + 1) e)
      | waits + 1 => do
        pause interval
        pollLoop pause interval call waits (attempt + 1)

/-- Call until it succeeds, at most `attempts` times and at least once. -/
def retryEvery (pause : Duration → m Unit) (interval : Duration) (attempts : Nat)
    (call : m (Except Failure α)) : m (Except Failure α) :=
  pollLoop pause interval call (max attempts 1 - 1) 0

/-- A call with given outcomes, on a clock that only pauses move. -/
structure Rehearsal where
  /-- Outcomes to come; the last one is repeated. -/
  outcomes : List (Option Failure)
  now : Nat := 0
  /-- The times of the calls, latest first. -/
  calls : List Nat := []

namespace Rehearsal

/-- The next outcome; a success carries the number of the call. -/
def call : StateM Rehearsal (Except Failure Nat) := fun r =>
  let rest := match r.outcomes with
    | [] => []
    | [last] => [last]
    | _ :: rest => rest
  let r' := { r with outcomes := rest, calls := r.now :: r.calls }
  match r.outcomes.head? with
  | some (some e) => (.error e, r')
  | _ => (.ok r'.calls.length, r')

def pause (d : Duration) : StateM Rehearsal Unit := fun r =>
  ((), { r with now := r.now + d.timerMillis })

end Rehearsal
end GameIngress
