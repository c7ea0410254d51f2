import GameIngress.Cluster.Server
import GameIngress.Watch.Cache

/-!
# Following a collection

A follower lists a collection and then watches it. A watch that ends is opened again where it
stopped; a list or a watch that fails is tried again after a wait that grows.
-/
namespace GameIngress.Cluster

inductive Phase where
  /-- The answer to a list, or to the opening of a watch, comes at an instant. -/
  | listing (due : Nat)
  | opening (due : Nat)
  | watching
  /-- After a failure, until an instant. -/
  | resting (due : Nat) (listed : Bool)
  | stopped
  deriving DecidableEq

/-- What a follower learns; none stands for a failure. -/
abbrev Lesson := Option (Watch.Event Json)

structure Follower where
  scope : Server.Scope
  phase : Phase
  /-- The version up to which changes were shown. -/
  seen : Nat := 0
  /-- Failures in a row. -/
  failures : Nat := 0

namespace Follower

/-- The number of objects on a page of a list. -/
def pageLimit : Nat := 500

def start (scope : Server.Scope) (now latency : Nat) : Follower :=
  { scope, phase := .listing (now + latency) }

def due? (f : Follower) : Option Nat :=
  match f.phase with
  | .listing t | .opening t | .resting t _ => some t
  | .watching | .stopped => none

def stop (f : Follower) : Follower := { f with phase := .stopped }

/-- The wait after failures in a row, in milliseconds. -/
def restMillis (failures : Nat) : Nat := min (800 * Nat.pow 2 (min failures 6)) 30000

def rest (now : Nat) (listed : Bool) (f : Follower) : Follower :=
  { f with phase := .resting (now + restMillis f.failures) listed, failures := f.failures + 1 }

def eventOf (c : Change) : Watch.Event Json :=
  if c.deleted then .delete c.object else .apply c.object

/-- One step at an instant: what is learnt, and whether a list was answered. `decodes` tells which
objects can be read. -/
def step (decodes : Json → Bool) (now latency : Nat) (f : Follower) (s : Server) :
    List Lesson × Bool × Follower × Server :=
  match f.phase with
  | .listing due =>
    if now < due then ([], false, f, s)
    else
      match s.list f.scope pageLimit with
      | (.ok (objects, version), s) =>
        if objects.all decodes then
          (some .init :: objects.map (some ∘ .initApply) ++ [some .initDone], true,
            { f with phase := .opening (now + latency), seen := version, failures := 0 }, s)
        else ([none], true, f.rest now false, s)
      | (.error _, s) => ([none], true, f.rest now false, s)
  | .opening due =>
    if now < due then ([], false, f, s)
    else
      match s.watch f.scope with
      | (.ok (), s) => ([], false, { f with phase := .watching }, s)
      | (.error _, s) => ([none], false, f.rest now true, s)
  | .watching =>
    ((s.changesSince f.scope f.seen).map fun c =>
        if decodes c.object then some (eventOf c) else none,
      false, { f with seen := s.version }, s)
  | .resting due listed =>
    if now < due then ([], false, f, s)
    else
      ([], false, { f with
        phase := if listed then .opening (now + latency) else .listing (now + latency) }, s)
  | .stopped => ([], false, f, s)

/-- The steps of an instant: at most a rest ends, a list is answered, a watch opens, and changes
are shown. -/
def advance (decodes : Json → Bool) (now latency : Nat) (f : Follower) (s : Server) :
    List Lesson × Bool × Follower × Server :=
  (List.range 4).foldl (fun (lessons, listed, f, s) _ =>
    let (more, listedNow, f, s) := f.step decodes now latency s
    (lessons ++ more, listed || listedNow, f, s)) ([], false, f, s)

/-- An open watch ends. -/
def close (now latency : Nat) (f : Follower) : Follower :=
  if f.phase = .watching then { f with phase := .opening (now + latency) } else f

end Follower

/-- A follower with a cache of what it has learnt. -/
structure Replica where
  follower : Follower
  cache : Watch.Cache Json := {}
  /-- Whether a whole list was seen. -/
  synced : Bool := false

namespace Replica

def keyOf (j : Json) : Watch.Key := { ns := Server.nsOf j, name := (Server.nameOf j).getD "" }

def learn (m : Replica) : Lesson → Replica
  | none => m
  | some e => { m with
      cache := m.cache.observe keyOf e
      synced := m.synced || match e with
        | .initDone => true
        | _ => false }

def find? (name ns : String) (m : Replica) : Option Json := m.cache.get? { ns := some ns, name }

end Replica
end GameIngress.Cluster
