import GameIngress.Dispatch.Queue
import GameIngress.Metrics.Exposition

/-!
# The dispatcher

The dispatcher turns a watch into handler calls. It is a machine that takes one input after the
other; the clock comes in with the inputs. Once stopped it takes no more events, timers and ticks,
and only waits for its calls, which includes starting the deliveries that were put off.
-/
namespace GameIngress.Dispatch

structure Settings where
  /-- The number of handler calls at a time; zero counts as one. -/
  concurrency : Nat
  /-- The time between two resyncs. -/
  period : Duration
  delays : RetryDelays

/-- Reasons for which the dispatcher itself breaks down. -/
inductive Crash where
  | tooManySlots
  | noPeriod
  | clockOverflow
  | timerTooFar
  | unnamed
  deriving DecidableEq, Repr

inductive Input where
  | watch (e : Watch.Event GameServer)
  /-- A handler call ended after so many milliseconds. -/
  | settled (id : Nat) (r : CallResult) (elapsed : Nat)
  /-- Time to look at the call that ended first. -/
  | join (now : Nat)
  /-- Time to look at an expired timer. -/
  | expire (timer : Nat)
  | tick
  | stop

structure Dispatcher where
  queue : Queue
  cache : Cache := {}
  /-- How many events were taken. -/
  consumed : Nat := 0
  stopped : Bool := false
  tally : Tally := []
  /-- How long the calls took that returned, in milliseconds, latest first. -/
  elapsed : List Nat := []

namespace Dispatcher

/-- As many slots as a fair queue of slots can have. -/
def maxSlots : Nat := (Nat.pow 2 64 - 1) / 8

/-- A timer can be set at most so many milliseconds ahead. -/
def timerLimit : Nat := Nat.pow 2 36 - 1

def new (c : Settings) : Except Crash Dispatcher :=
  let size := max c.concurrency 1
  if maxSlots < size then .error .tooManySlots
  else if c.period.nanos = 0 then .error .noPeriod
  else .ok { queue := { slots := { size }, delays := c.delays } }

/-- Whether all timers are within the limit. -/
def checked (d : Dispatcher) : Except Crash Dispatcher :=
  if d.queue.timers.any fun t => timerLimit < t.delay.timerMillis then .error .timerTooFar
  else .ok d

def observe (e : Watch.Event Sighting) (d : Dispatcher) : Dispatcher :=
  { d with
    queue := match Delivery.ofEvent? d.cache e with
      | some delivery => d.queue.enqueue delivery
      | none => d.queue
    cache := d.cache.observe Sighting.key e
    consumed := d.consumed + 1 }

/-- Count a call that ended; one that panicked is not counted. -/
def record (r : CallResult) (millis : Nat) (d : Dispatcher) : Dispatcher :=
  match r with
  | .panicked => d
  | .ok => { d with elapsed := millis :: d.elapsed }
  | .failed e =>
    { d with elapsed := millis :: d.elapsed, tally := d.tally.bump (.errors "gameserver" e.kind) }

def step (d : Dispatcher) : Input → Except Crash Dispatcher
  | .watch e =>
    if d.stopped then .ok d
    else
      let sight (gs : GameServer) : Option Sighting :=
        (keyOf? gs).map fun key => { key, gs, serial := d.consumed }
      match e.mapM? sight with
      | none => .error .unnamed
      | some e => .ok (d.observe e)
  | .settled id r millis =>
    .ok (record r millis { d with queue := { d.queue with slots := d.queue.slots.settle id r } })
  | .join now =>
    match d.queue.slots.join with
    | none => .ok d
    | some ((c, o), slots) =>
      checked { d with queue := { d.queue with slots }.finish now d.cache c o }
  | .expire timer =>
    if d.stopped then .ok d
    else
      match d.queue.timers.find? (·.id = timer) with
      | none => .ok d
      | some t => .ok { d with queue := d.queue.expire d.cache t }
  | .tick =>
    if d.stopped then .ok d
    else .ok { d with queue := d.queue.resync d.cache.values }
  | .stop => .ok { d with stopped := true }

/-- What the dispatcher has counted. -/
def metrics (d : Dispatcher) : Metrics where
  tally := d.tally
  durations := d.elapsed.map fun (millis : Nat) =>
    ("gameserver",
      Number.ofInt (millis / 1000) + Number.ofInt (millis % 1000 * 1000000) / 1000000000.0)

/-- Whether there is nothing left to wait for. -/
def isDone (d : Dispatcher) : Bool := d.stopped && d.queue.slots.isIdle

end Dispatcher
end GameIngress.Dispatch
