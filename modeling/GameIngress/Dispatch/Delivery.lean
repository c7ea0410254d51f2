import GameIngress.GameServer.Basic
import GameIngress.Watch.Cache

/-!
# Deliveries

A watch event becomes a notification for the handler. Game servers carry the number of the event
that showed them, so that it can be said which of two is the older one.
-/
namespace GameIngress.Dispatch

open Watch (Key)

/-- The key of a game server; one without a name has none. A cluster shows every game server with a
namespace, as the kind is namespaced. -/
def keyOf? (gs : GameServer) : Option Key :=
  gs.metadata.name.map fun name => { ns := gs.metadata.ns, name }

/-- A game server as an event showed it. -/
structure Sighting where
  key : Key
  gs : GameServer
  /-- The number of the event. -/
  serial : Nat

abbrev Cache := Watch.Cache Sighting

/-- A notification for the handler. -/
inductive Delivery where
  | add (s : Sighting)
  | update (old new : Sighting)
  | delete (s : Sighting)

namespace Delivery

/-- The game server that the notification is about. -/
def subject : Delivery → Sighting
  | add s | update _ s | delete s => s

def key (d : Delivery) : Key := d.subject.key

def isDelete : Delivery → Bool
  | delete _ => true
  | add _ | update .. => false

/-- A cached game server, delivered again. -/
def again (s : Sighting) : Delivery := update s s

/-- The notification for an event that the cache has not seen yet: a change of a cached game server
is an update, any other change and every part of a list an addition. -/
def ofEvent? (c : Cache) : Watch.Event Sighting → Option Delivery
  | .init | .initDone => none
  | .initApply s => some (add s)
  | .apply s =>
    match c.get? s.key with
    | some old => some (update old s)
    | none => some (add s)
  | .delete s => some (delete s)

end Delivery
end GameIngress.Dispatch
