import GameIngress.Dispatch.Dispatcher

/-!
# A dispatcher on a clock

Time moves only when nothing is left to do, straight to the next instant at which something
happens. At an instant the dispatcher takes what is at hand, in the order: cancellation, calls that
ended, events, expired timers, the tick. Then calls that have a slot begin, and calls in progress
go on, until all of them wait. Only at instant 0 is a cancellation looked at last: whoever cancels
then begins together with the dispatcher, which goes first.

Timers sit in a wheel of levels with 64 slots each, every slot a stack. The wheel turns when a slot
is due; the timers of a slot then move to the level below. So of two timers for one instant the one
set later goes first, unless it was set on a level of odd depth.
-/
namespace GameIngress.Dispatch

universe u

/-- What the stream of events has at hand. -/
inductive StreamItem where
  | nothing
  | event (e : Watch.Event GameServer)
  | failed
  | ended

/-- How far a call has come: to its end, or to a point at which it waits for some milliseconds. -/
inductive Progress (π : Type u) where
  | ended (r : CallResult)
  | blocked (millis : Nat) (p : π)

/-- The world around a dispatcher, with a state in `σ`; calls in progress have a state in `π`. The
first argument is the time. -/
structure Surroundings (σ : Type) (π : Type u) where
  poll : Nat → σ → StreamItem × σ
  /-- When the world next does something by itself. -/
  due? : σ → Option Nat
  advance : Nat → σ → σ
  begin : Nat → Call → σ → Progress π × σ
  resume : Nat → π → σ → Progress π × σ
  /-- What cancellation makes of a call in progress, if it does not let it go on. -/
  interrupt? : π → Option CallResult

structure InProgress (π : Type u) where
  call : Call
  began : Nat
  /-- When it goes on. -/
  wake : Nat
  state : π

structure CallRecord where
  call : Call
  began : Nat
  ended : Nat
  result : CallResult

structure Simulation (σ : Type) (π : Type u) where
  world : σ
  dispatcher : Dispatcher
  now : Nat := 0
  cancelAt : Option Nat := none
  /-- The time between two ticks, and the next tick, in nanoseconds. -/
  period : Nat
  tickAt : Nat
  /-- How far the wheel of timers has turned. -/
  turned : Nat := 0
  /-- Timers that go ahead of those set before them. -/
  ahead : List Nat := []
  /-- Whether it is the turn of the calls. -/
  calling : Bool := false
  inProgress : List (InProgress π) := []
  /-- The greatest number of calls that were in progress at a time. -/
  busiest : Nat := 0
  /-- Calls that ended, latest first. -/
  records : List CallRecord := []

namespace Simulation

variable {σ : Type} {π : Type u}

/-- The latest instant up to `now` at which a timer due at `due` makes the wheel turn. -/
def turnOf (now due : Nat) : Nat :=
  let turns := (List.range 7).map fun level => due / Nat.pow 64 level * Nat.pow 64 level
  (turns.find? (· ≤ now)).getD 0

/-- The level of a timer due at `due` in a wheel that has turned to `turned`. -/
def levelOf (turned due : Nat) : Nat :=
  let width (level : Nat) : Nat := Nat.pow 64 (level + 1)
  ((List.range 7).find? fun level => turned / width level = due / width level).getD 7

def millisOf (nanos : Nat) : Nat := (nanos + 999999) / 1000000

/-- Instants, in nanoseconds, have less than `2 ^ 63` seconds. -/
def clockLimit : Nat := Nat.pow 2 63 * 1000000000

/-- Start when the clock shows `now`. The first tick has to be an instant of the clock. Later ones
need not be: no clock runs for so long. -/
def start (world : σ) (c : Settings) (now : Nat) (cancelAt : Option Nat) :
    Except Crash (Simulation σ π) :=
  match Dispatcher.new c with
  | .error e => .error e
  | .ok dispatcher =>
    let tickAt := now * 1000000 + c.period.nanos
    if clockLimit ≤ tickAt then .error .clockOverflow
    else .ok { world, dispatcher, now, cancelAt, period := c.period.nanos, tickAt }

def input (i : Input) (s : Simulation σ π) : Except Crash (Simulation σ π) :=
  match s.dispatcher.step i with
  | .error e => .error e
  | .ok dispatcher =>
    let turned := s.dispatcher.queue.timers.foldl (fun w t => max w (turnOf s.now t.due)) s.turned
    let fresh := dispatcher.queue.timers.filter fun t =>
      s.dispatcher.queue.armed ≤ t.id && levelOf turned t.due % 2 = 0
    .ok { s with dispatcher, turned, ahead := s.ahead ++ fresh.map (·.id) }

/-- Take the progress of a call into account. -/
def progress (call : Call) (began : Nat) (p : Progress π) (s : Simulation σ π) :
    Except Crash (Simulation σ π) :=
  let s := { s with busiest := max s.busiest (s.inProgress.length + 1) }
  match p with
  | .blocked millis state =>
    .ok { s with
      inProgress := s.inProgress ++ [{ call, began, wake := s.now + millis, state }] }
  | .ended result =>
    input (.settled call.id result (s.now - began))
      { s with records := { call, began, ended := s.now, result } :: s.records }

/-- End the calls that do not survive cancellation. -/
def interrupt (env : Surroundings σ π) :
    List (InProgress π) → Simulation σ π → Except Crash (Simulation σ π)
  | [], s => .ok s
  | c :: rest, s => do
    let s ← match env.interrupt? c.state with
      | some result =>
        input (.settled c.call.id result (s.now - c.began))
          { s with
            inProgress := s.inProgress.filter (·.call.id ≠ c.call.id)
            records := { call := c.call, began := c.began, ended := s.now, result } :: s.records }
      | none => .ok s
    interrupt env rest s

def cancel (env : Surroundings σ π) (s : Simulation σ π) : Except Crash (Simulation σ π) := do
  interrupt env s.inProgress (← input .stop s)

def isCancelDue (s : Simulation σ π) : Bool :=
  !s.dispatcher.stopped && s.cancelAt.any (· ≤ s.now)

def expired? (s : Simulation σ π) : Option Timer :=
  if s.dispatcher.stopped then none
  else
    (s.dispatcher.queue.timers.filter (·.due ≤ s.now)).foldl (fun best t =>
      match best with
      | none => some t
      | some b =>
        if t.due < b.due ∨ (t.due = b.due ∧ t.id ∈ s.ahead) then some t else best) none

/-- The first call that has a slot and has not begun. -/
def ready? (s : Simulation σ π) : Option Call :=
  s.dispatcher.queue.slots.running.find? fun c => s.inProgress.all (·.call.id ≠ c.id)

def wakeable? (s : Simulation σ π) : Option (InProgress π) :=
  (s.inProgress.filter (·.wake ≤ s.now)).foldl (fun best c =>
    match best with
    | none => some c
    | some b => if c.wake < b.wake then some c else best) none

/-- The next instant at which something happens. -/
def next? (env : Surroundings σ π) (s : Simulation σ π) : Option Nat :=
  let calls := s.inProgress.map (·.wake)
  let rest :=
    if s.dispatcher.stopped then []
    else
      s.dispatcher.queue.timers.map (·.due) ++ [millisOf s.tickAt] ++ s.cancelAt.toList
        ++ (env.due? s.world).toList
  (calls ++ rest).min?

/-- Let one call begin or go on, if any can. -/
def call (env : Surroundings σ π) (s : Simulation σ π) :
    Except Crash (Option (Simulation σ π)) := do
  match s.ready? with
  | some c =>
    let (p, world) := env.begin s.now c s.world
    return some (← progress c s.now p { s with world })
  | none =>
    match s.wakeable? with
    | some c =>
      let inProgress := s.inProgress.filter (·.call.id ≠ c.call.id)
      let (p, world) := env.resume s.now c.state s.world
      return some (← progress c.call c.began p { s with world, inProgress })
    | none => return none

/-- Let the dispatcher take what is at hand, if anything is. -/
def take (env : Surroundings σ π) (s : Simulation σ π) :
    Except Crash (Option (Simulation σ π)) := do
  if s.isCancelDue && 0 < s.now then return some (← cancel env s)
  else if !s.dispatcher.queue.slots.ended.isEmpty then return some (← input (.join s.now) s)
  else
    let (item, world) :=
      if s.dispatcher.stopped then (.nothing, s.world) else env.poll s.now s.world
    let s := { s with world }
    match item with
    | .event e => return some (← input (.watch e) s)
    | .failed => return some s
    | .ended => return some (← input .stop s)
    | .nothing =>
      match s.expired? with
      | some t => return some (← input (.expire t.id) s)
      | none =>
        if !s.dispatcher.stopped && s.tickAt ≤ s.now * 1000000 then
          return some (← input .tick { s with tickAt := s.tickAt + s.period })
        else if s.isCancelDue then return some (← cancel env s)
        else return none

/-- Let time pass, if there is anything to wait for. -/
def wait (env : Surroundings σ π) (s : Simulation σ π) : Option (Simulation σ π) :=
  if s.dispatcher.isDone then none
  else
    (s.next? env).map fun t =>
      let now := max t s.now
      { s with now, world := env.advance now s.world }

def step (env : Surroundings σ π) (s : Simulation σ π) :
    Except Crash (Option (Simulation σ π)) := do
  if s.calling then
    match ← call env s with
    | some s => return some s
    | none => return some { s with calling := false }
  else
    match ← take env s with
    | some s => return some s
    | none =>
      if s.ready?.isSome || s.wakeable?.isSome then return some { s with calling := true }
      else return wait env s

/-- Run to the end, or for so many steps. -/
def run (env : Surroundings σ π) : Nat → Simulation σ π → Except Crash (Simulation σ π)
  | 0, s => .ok s
  | steps + 1, s => do
    match ← step env s with
    | some s => run env steps s
    | none => return s

end Simulation
end GameIngress.Dispatch
