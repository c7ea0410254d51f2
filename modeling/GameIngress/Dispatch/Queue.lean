import GameIngress.Backoff
import GameIngress.Dispatch.Slots

/-!
# The work queue

For every game server the queue knows whether it is idle, has a call queued or running, or waits
out a delay after a failure. While a call runs, deliveries collapse into the latest one. Deletes are
delivered at once and are not kept track of.
-/
namespace GameIngress.Dispatch

open Watch (Key)

/-- Where a game server stands; one without a standing is idle. -/
inductive Standing where
  /-- A call is queued or running; the delivery, if any, is the latest that came since. -/
  | running (pending : Option Delivery)
  /-- Its timer runs. -/
  | waiting (timer : Nat)

structure Timer where
  id : Nat
  key : Key
  delay : Duration
  /-- The millisecond at which it expires. -/
  due : Nat

/-- The first wait after a failure and the longest. -/
structure RetryDelays where
  base : Duration
  cap : Duration

structure Queue where
  slots : Slots
  delays : RetryDelays
  standings : Assoc Key Standing := []
  timers : List Timer := []
  /-- How many timers were ever set. -/
  armed : Nat := 0
  /-- Timers set since the game server was last in order. -/
  failures : Assoc Key Nat := []

namespace Queue

def standing? (k : Key) (q : Queue) : Option Standing := q.standings.get? k

/-- Failures beyond this number are not counted. -/
def maxFailures : Nat := Nat.pow 2 32 - 1

def failureCount (k : Key) (q : Queue) : Nat := (q.failures.get? k).getD 0

def spawn (o : Origin) (d : Delivery) (q : Queue) : Queue :=
  { q with slots := q.slots.enqueue o d }

def start (o : Origin) (d : Delivery) (q : Queue) : Queue :=
  spawn o d { q with standings := q.standings.set d.key (.running none) }

def cancelTimer (id : Nat) (q : Queue) : Queue :=
  { q with timers := q.timers.filter (·.id ≠ id) }

def forget (k : Key) (q : Queue) : Queue := { q with failures := q.failures.erase k }

/-- Deliver what the watch has shown. -/
def enqueue (d : Delivery) (q : Queue) : Queue :=
  let k := d.key
  if d.isDelete then
    let q := q.forget k
    let q := match q.standing? k with
      | some (.waiting timer) => { q with standings := q.standings.erase k }.cancelTimer timer
      | some (.running _) => { q with standings := q.standings.set k (.running none) }
      | none => q
    q.spawn .watch d
  else
    match q.standing? k with
    | some (.running _) => { q with standings := q.standings.set k (.running (some d)) }
    | some (.waiting timer) => (q.cancelTimer timer).start .watch d
    | none => q.start .watch d

/-- Deliver again what is idle. -/
def resync (cached : List Sighting) (q : Queue) : Queue :=
  cached.foldl (fun q s =>
    if (q.standing? s.key).isSome then q else q.start .resync (.again s)) q

/-- Wait before the next attempt, which the `now` is the millisecond of. -/
def arm (now : Nat) (k : Key) (q : Queue) : Queue :=
  let n := q.failureCount k
  let delay := backoffDelay n q.delays.base q.delays.cap
  { q with
    standings := q.standings.set k (.waiting q.armed)
    timers := q.timers ++ [⟨q.armed, k, delay, now + delay.timerMillis⟩]
    armed := q.armed + 1
    failures := q.failures.set k (min (n + 1) maxFailures) }

/-- A call has ended. What came in the meantime is delivered; a failure is waited out, if the game
server is still cached. -/
def finish (now : Nat) (cache : Cache) (c : Call) (o : Outcome) (q : Queue) : Queue :=
  let k := c.delivery.key
  if c.delivery.isDelete then q
  else
    match q.standing? k with
    | some (.waiting _) => q
    | some (.running (some d)) =>
      { q with standings := q.standings.erase k }.start .watch d
    | some (.running none) | none =>
      let q := { q with standings := q.standings.erase k }
      match o with
      | .done => q.forget k
      | .retry _ =>
        match cache.get? k with
        | none => q.forget k
        | some _ => q.arm now k

/-- A timer has expired. -/
def expire (cache : Cache) (t : Timer) (q : Queue) : Queue :=
  let q := { q.cancelTimer t.id with standings := q.standings.erase t.key }
  match cache.get? t.key with
  | some s => q.start .requeue (.again s)
  | none => q.forget t.key

end Queue
end GameIngress.Dispatch
