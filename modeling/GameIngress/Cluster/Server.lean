import GameIngress.Assoc
import GameIngress.Failure
import GameIngress.Json.MergePatch

/-!
# The API server

The server keeps objects as JSON, so that it also keeps fields that nobody here knows. Every write
gets a new version. Watches are served from the list of changes. Requests can be made to fail.
-/
namespace GameIngress.Cluster

inductive Collection where
  | gameServers
  | services
  | ingresses
  | events
  deriving DecidableEq, Repr

namespace Collection

def plural : Collection → String
  | gameServers => "gameservers"
  | services => "services"
  | ingresses => "ingresses"
  | events => "events"

def root : Collection → String
  | gameServers => "/apis/agones.dev/v1"
  | ingresses => "/apis/networking.k8s.io/v1"
  | services | events => "/api/v1"

/-- The path of the collection in a namespace or in all of them. -/
def path (c : Collection) : Option String → String
  | some ns => c.root ++ "/namespaces/" ++ ns ++ "/" ++ c.plural
  | none => c.root ++ "/" ++ c.plural

end Collection

inductive Verb where
  | get
  | create
  | patch
  | list
  | watch
  deriving DecidableEq, Repr

/-- What the server answers. -/
inductive Reply where
  | object (j : Json)
  | status (s : ApiStatus)
  /-- A body that is given as it is. -/
  | body (code : Nat) (text : String)

structure Fault where
  verb : Verb
  collection : Collection
  /-- Requests that still pass before the first failure. -/
  skip : Nat := 0
  /-- Failures still to come. -/
  times : Nat
  reply : Reply
  /-- Whether the object is written by someone else first. -/
  touch : Bool := false

structure Change where
  version : Nat
  collection : Collection
  deleted : Bool
  object : Json

structure Server where
  /-- The version of the latest write. -/
  version : Nat := 100
  /-- Objects under their namespace and name. -/
  objects : Assoc (Collection × String) Json := []
  /-- Latest first. -/
  changes : List Change := []
  faults : List Fault := []

namespace Server

def textAt (j : Json) (path : List String) : Option String :=
  match j.at? path with
  | some (.text s) => some s
  | _ => none

def nameOf (j : Json) : Option String := textAt j ["metadata", "name"]
def nsOf (j : Json) : Option String := textAt j ["metadata", "namespace"]
def versionOf (j : Json) : Option String := textAt j ["metadata", "resourceVersion"]

/-- The key under which an object is stored. -/
def keyOf (j : Json) : String := (nsOf j).getD "" ++ "/" ++ (nameOf j).getD ""

/-- Write an object under a key; its version is the one of the write. -/
def store (c : Collection) (key : String) (j : Json) (s : Server) : Json × Server :=
  let version := s.version + 1
  let j := j.setAt ["metadata", "resourceVersion"] (.text (toString version))
  (j, { s with
    version
    objects := s.objects.set (c, key) j
    changes := ⟨version, c, false, j⟩ :: s.changes })

def put (c : Collection) (j : Json) (s : Server) : Server := (s.store c (keyOf j) j).2

/-- Remove an object, if it is there. -/
def drop (c : Collection) (key : String) (s : Server) : Bool × Server :=
  let version := s.version + 1
  match s.objects.get? (c, key) with
  | none => (false, { s with version })
  | some j => (true, { s with
      version
      objects := s.objects.erase (c, key)
      changes := ⟨version, c, true, j⟩ :: s.changes })

def touchAt (c : Collection) (key : String) (s : Server) : Server :=
  match s.objects.get? (c, key) with
  | some j => (s.store c key j).2
  | none => s

/-- Find the fault that a request meets, and count it. -/
def meet (verb : Verb) (c : Collection) : List Fault → Option Fault × List Fault
  | [] => (none, [])
  | f :: rest =>
    if f.verb = verb ∧ f.collection = c ∧ (0 < f.skip ∨ 0 < f.times) then
      if 0 < f.skip then
        let (found, rest) := meet verb c rest
        (found, { f with skip := f.skip - 1 } :: rest)
      else (some f, { f with times := f.times - 1 } :: rest)
    else
      let (found, rest) := meet verb c rest
      (found, f :: rest)

/-- The reply of a fault, or else what `serve` makes of the request. -/
def guarded {α : Type} (verb : Verb) (c : Collection) (key : String) (fail : Reply → α)
    (serve : Server → α × Server) (s : Server) : α × Server :=
  let (fault, faults) := meet verb c s.faults
  let s := { s with faults }
  match fault with
  | some f => (fail f.reply, if f.touch then s.touchAt c key else s)
  | none => serve s

def refusal (reason : String) (code : Nat) : ApiStatus :=
  { message := reason ++ " by server", reason, code }

def get (c : Collection) (ns name : String) (s : Server) : Reply × Server :=
  let key := ns ++ "/" ++ name
  guarded .get c key id (fun s =>
    match s.objects.get? (c, key) with
    | some j => (.object j, s)
    | none => (.status (refusal "NotFound" 404), s)) s

/-- Events are answered, but not kept. -/
def create (c : Collection) (ns : String) (j : Json) (s : Server) : Reply × Server :=
  let j := j.setAt ["metadata", "namespace"] (.text ns)
  let key := keyOf j
  guarded .create c key id (fun s =>
    if c = .events then (.object j, s)
    else if s.objects.contains (c, key) then (.status (refusal "AlreadyExists" 409), s)
    else
      let (j, s) := s.store c key j
      (.object j, s)) s

/-- Merge a patch into an object. A version in the patch has to be that of the object. -/
def patch (c : Collection) (ns name : String) (p : Json) (s : Server) : Reply × Server :=
  let key := ns ++ "/" ++ name
  guarded .patch c key id (fun s =>
    match s.objects.get? (c, key) with
    | none => (.status (refusal "NotFound" 404), s)
    | some j =>
      let stale : Bool := match versionOf p with
        | some v => versionOf j ≠ some v
        | none => false
      if stale then (.status (refusal "Conflict" 409), s)
      else
        let (j, s) := s.store c key (p.mergePatch j)
        (.object j, s)) s

/-- What a list or a watch covers. -/
structure Scope where
  collection : Collection
  ns : Option String := none
  /-- A label that the objects have. -/
  label : Option String := none

namespace Scope

def covers (c : Scope) (j : Json) : Bool :=
  c.ns.all (fun ns => nsOf j = some ns)
    && c.label.all fun l => (j.at? ["metadata", "labels", l]).isSome

end Scope

/-- The objects of a scope in the order of their keys, and the version at which they stand so. -/
def list (c : Scope) (limit : Nat) (s : Server) : Except Reply (List Json × Nat) × Server :=
  guarded .list c.collection "" .error (fun s =>
    let found := s.objects.filter fun e => e.1.1 = c.collection && c.covers e.2
    let sorted := found.mergeSort fun a b => a.1.2 ≤ b.1.2
    (.ok ((sorted.map (·.2)).take limit, s.version), s)) s

/-- Open a watch. -/
def watch (c : Scope) (s : Server) : Except Reply Unit × Server :=
  guarded .watch c.collection "" .error (fun s => (.ok (), s)) s

/-- What happened in a scope after a version, oldest first. -/
def changesSince (c : Scope) (version : Nat) (s : Server) : List Change :=
  ((s.changes.takeWhile (version < ·.version)).filter fun e =>
    e.collection = c.collection && c.covers e.object).reverse

end Server
end GameIngress.Cluster
