import GameIngress.Assoc

/-!
# Watches and their caches

A watch shows lists of all objects of a kind, and between them single changes. A cache holds what a
watch has shown: a new list replaces the old one only when it is complete, a single change takes
effect at once.
-/
namespace GameIngress.Watch

structure Key where
  ns : Option String
  name : String
  deriving DecidableEq, Repr

inductive Event (α : Type) where
  /-- A new list begins. -/
  | init
  | initApply (a : α)
  /-- The list is complete. -/
  | initDone
  | apply (a : α)
  | delete (a : α)

namespace Event

variable {α β : Type}

def object? : Event α → Option α
  | initApply a | apply a | delete a => some a
  | init | initDone => none

/-- Decode the object of an event, if it has one. -/
def mapM? (f : α → Option β) : Event α → Option (Event β)
  | init => some init
  | initApply a => (f a).map initApply
  | initDone => some initDone
  | apply a => (f a).map apply
  | delete a => (f a).map delete

end Event

structure Cache (α : Type) where
  store : Assoc Key α := []
  /-- The part of the new list that has been shown. -/
  buffer : Assoc Key α := []

namespace Cache

variable {α : Type}

/-- What is cached under the key. Objects of a namespaced kind all have a namespace, so that nothing
would be found under the name alone. -/
def get? (k : Key) (c : Cache α) : Option α := c.store.get? k

/-- Everything cached. -/
def values (c : Cache α) : List α := c.store.map (·.2)

def observe (key : α → Key) : Event α → Cache α → Cache α
  | .init, c => { c with buffer := [] }
  | .initApply a, c => { c with buffer := c.buffer.set (key a) a }
  | .initDone, c => { store := c.buffer, buffer := [] }
  | .apply a, c => { c with store := c.store.set (key a) a }
  | .delete a, c => { c with store := c.store.erase (key a) }

end Cache
end GameIngress.Watch
