import GameIngress.Dispatch.Delivery
import GameIngress.Failure

/-!
# Handler calls and their slots

Every delivery becomes a handler call. A call waits until one of a fixed number of slots is free;
slots are given in the order in which the calls were queued. Whenever a call waits, all slots are
taken.
-/
namespace GameIngress.Dispatch

/-- What queued a call. -/
inductive Origin where
  | watch
  | requeue
  | resync
  deriving DecidableEq, Repr

structure Call where
  /-- How many calls were queued before. -/
  id : Nat
  origin : Origin
  delivery : Delivery

inductive CallResult where
  | ok
  | failed (e : Failure)
  | panicked

/-- What is left to do about a call. -/
inductive Outcome where
  | done
  | retry (e : Failure)

/-- Failures of deletes, and those that another attempt cannot mend, are not retried. -/
def Outcome.of (d : Delivery) : CallResult → Outcome
  | .ok | .panicked => .done
  | .failed e => if d.isDelete || !e.isRetriable then .done else .retry e

structure Slots where
  size : Nat
  running : List Call := []
  /-- First come, first served. -/
  waiting : List Call := []
  /-- Calls that ended and were not looked at since, oldest first. -/
  ended : List (Call × Outcome) := []
  /-- How many calls were ever queued. -/
  queued : Nat := 0

namespace Slots

/-- Give the free slots away. -/
def fill (s : Slots) : Slots :=
  let free := s.size - s.running.length
  { s with running := s.running ++ s.waiting.take free, waiting := s.waiting.drop free }

def enqueue (o : Origin) (d : Delivery) (s : Slots) : Slots :=
  fill { s with waiting := s.waiting ++ [⟨s.queued, o, d⟩], queued := s.queued + 1 }

/-- The call `id` ends; its slot goes to the next one. -/
def settle (id : Nat) (r : CallResult) (s : Slots) : Slots :=
  fill { s with
    running := s.running.filter (·.id ≠ id)
    ended := s.ended ++
      (s.running.filter (·.id = id)).map fun c => (c, Outcome.of c.delivery r) }

/-- Look at the call that ended first. -/
def join (s : Slots) : Option ((Call × Outcome) × Slots) :=
  match s.ended with
  | [] => none
  | e :: rest => some (e, { s with ended := rest })

/-- Whether every call ended and was looked at. -/
def isIdle (s : Slots) : Bool := s.running.isEmpty && s.waiting.isEmpty && s.ended.isEmpty

theorem length_running_fill (s : Slots) (h : s.running.length ≤ s.size) :
    s.fill.running.length ≤ s.fill.size := by
  simp only [fill, List.length_append, List.length_take]
  omega

theorem waiting_fill (s : Slots) (h : s.running.length ≤ s.size) :
    s.fill.waiting = [] ∨ s.fill.running.length = s.fill.size := by
  simp only [fill, List.length_append, List.length_take, List.drop_eq_nil_iff]
  omega

end Slots
end GameIngress.Dispatch
