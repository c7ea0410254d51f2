import GameIngress.Dispatch.Simulation

/-!
# A scripted watch and a scripted handler

The stream shows given events at given times, and the calls for a game server take given times and
have given results, one after the other.
-/
namespace GameIngress.Dispatch

open Watch (Key)

structure ScriptedEvent where
  time : Nat
  /-- None stands for a failure of the watch. -/
  event : Option (Watch.Event GameServer)

structure ScriptedCall where
  delay : Nat := 0
  result : CallResult := .ok

structure Script where
  /-- Events to come, in order. -/
  events : List ScriptedEvent
  /-- Whether the stream ends after the last event. -/
  ends : Bool := false
  calls : Assoc Key (List ScriptedCall) := []
  /-- For a game server that has no script, or whose script is over. -/
  otherwise : ScriptedCall := {}

namespace Script

def poll (now : Nat) (s : Script) : StreamItem × Script :=
  match s.events with
  | [] => (if s.ends then .ended else .nothing, s)
  | e :: rest =>
    if e.time ≤ now then
      (match e.event with
        | some e => .event e
        | none => .failed, { s with events := rest })
    else (.nothing, s)

def due? (s : Script) : Option Nat := s.events.head?.map (·.time)

def begin (call : Call) (s : Script) : Progress CallResult × Script :=
  let (c, s) := match s.calls.get? call.delivery.key with
    | some (c :: rest) => (c, { s with calls := s.calls.set call.delivery.key rest })
    | _ => (s.otherwise, s)
  (if c.delay = 0 then .ended c.result else .blocked c.delay c.result, s)

/-- The surroundings that a script makes up. -/
def surroundings : Surroundings Script CallResult where
  poll := poll
  due? := due?
  advance _ s := s
  begin _ := begin
  resume _ r s := (.ended r, s)
  interrupt? _ := none

end Script
end GameIngress.Dispatch
