import GameIngress.Cluster.Follower
import GameIngress.Cluster.Reply
import GameIngress.GameServer.Codec
import GameIngress.Retry
import GameIngress.Routing
import GameIngress.Store.Program

/-!
# A controller's view of a cluster

Services and Ingresses are looked up in caches that follow the server; everything else goes to the
server itself, where every request takes some time. The caches stop when the controller is
cancelled, but can still be read.
-/
namespace GameIngress.Cluster

/-- What someone else does to the cluster. -/
inductive Deed where
  | put (c : Collection) (j : Json)
  | drop (c : Collection) (key : String)
  /-- Open watches of a collection end. -/
  | close (c : Collection)

structure LoggedRequest where
  time : Nat
  method : String
  path : String
  body : Option Json := none
  /-- Namespace and name of the object that the request is about. -/
  about : String

/-- Who reports events. -/
structure Reporter where
  component : String
  host : Option String := none

structure World where
  server : Server
  services : Replica
  ingresses : Replica
  /-- The watch of the game servers, once it was begun, and what it showed. -/
  watch : Option Follower := none
  shown : List Lesson := []
  ns : Option String := none
  latency : Nat := 0
  now : Nat := 0
  cancelAt : Option Nat := none
  plan : List (Nat × Deed) := []
  reporter : Reporter := { component := "" }
  tally : Tally := []
  /-- Latest first. -/
  log : List LoggedRequest := []
  lists : List String := []

namespace World

def labelled (c : Collection) (ns : Option String) : Server.Scope :=
  { collection := c, ns, label := some Label.gameServer }

/-- Begin to follow Services and Ingresses. -/
def follow (now : Nat) (w : World) : World :=
  let replica (c : Collection) : Replica :=
    { follower := .start (labelled c w.ns) now w.latency }
  { w with services := replica .services, ingresses := replica .ingresses }

/-- Before anything is followed. -/
def idle (c : Collection) : Replica :=
  { follower := { scope := { collection := c }, phase := .stopped } }

def watchGameServers (w : World) : World :=
  { w with watch := some (.start { collection := .gameServers, ns := w.ns } w.now w.latency) }

def listLine (c : Server.Scope) (limit : Nat) : String :=
  c.collection.path c.ns ++ " label=" ++ c.label.getD "-" ++ " limit=" ++ toString limit

def noteList (c : Server.Scope) (limit : Nat) (w : World) : World :=
  let line := listLine c limit
  if line ∈ w.lists then w else { w with lists := line :: w.lists }

def isCancelled (w : World) : Bool := w.cancelAt.any (· ≤ w.now)

def closeWatches (c : Collection) (w : World) : World :=
  let close (f : Follower) : Follower :=
    if f.scope.collection = c then f.close w.now w.latency else f
  { w with
    services := { w.services with follower := close w.services.follower }
    ingresses := { w.ingresses with follower := close w.ingresses.follower }
    watch := w.watch.map close }

def act (w : World) : Deed → World
  | .put c j => { w with server := w.server.put c j }
  | .drop c key => { w with server := (w.server.drop c key).2 }
  | .close c => w.closeWatches c

def stopReplicas (w : World) : World :=
  { w with
    services := { w.services with follower := w.services.follower.stop }
    ingresses := { w.ingresses with follower := w.ingresses.follower.stop } }

def advanceReplica (decodes : Json → Bool) (m : Replica) (w : World) : Replica × World :=
  let (lessons, listed, follower, server) :=
    m.follower.advance decodes w.now w.latency w.server
  let w := { w with server }
  (lessons.foldl Replica.learn { m with follower },
    if listed then w.noteList follower.scope Follower.pageLimit else w)

/-- Bring caches and watches up to date. -/
def refresh (w : World) : World :=
  let w := if w.isCancelled then w.stopReplicas else w
  let (services, w) := w.advanceReplica (fun j => (Service.ofJson? j).isSome) w.services
  let w := { w with services }
  let (ingresses, w) := w.advanceReplica (fun j => (Ingress.ofJson? j).isSome) w.ingresses
  let w := { w with ingresses }
  match w.watch with
  | none => w
  | some f =>
    let (lessons, listed, f, server) :=
      f.advance (fun j => (GameServer.ofJson? j).isSome) w.now w.latency w.server
    let w := { w with server, watch := some f, shown := w.shown ++ lessons }
    if listed then w.noteList f.scope Follower.pageLimit else w

/-- Everything that happens by itself up to an instant at which something happens. -/
def advance (now : Nat) (w : World) : World :=
  let (due, plan) := w.plan.span (·.1 ≤ now)
  let w := due.foldl (fun w d => act w d.2) { w with now, plan }
  w.refresh

/-- When something next happens by itself. -/
def due? (w : World) : Option Nat :=
  let cancel := if w.isCancelled then [] else w.cancelAt.toList
  let followers := [w.services.follower, w.ingresses.follower] ++ w.watch.toList
  (cancel ++ (w.plan.head?.map (·.1)).toList ++ followers.filterMap (·.due?)).min?

/-- Let time pass up to an instant; at most so many things happen on the way. -/
def runTo : Nat → Nat → World → World
  | 0, now, w => { w with now }
  | fuel + 1, now, w =>
    match w.due? with
    | some t => if t ≤ now then runTo fuel now (w.advance (max t w.now)) else { w with now }
    | none => { w with now }

/-- A bound on what happens while the controller waits. -/
def patience : Nat := 100000

/-- Wait for some milliseconds. -/
def pass (millis : Nat) (w : World) : World := w.refresh.runTo patience (w.now + millis)

/-! Caches -/

def isSynced (w : World) : Bool := w.services.synced && w.ingresses.synced

/-- Whether a cache that is waited for will never be complete. -/
def isHopeless (w : World) : Bool :=
  let stopped (m : Replica) : Bool := m.follower.phase = .stopped
  if w.services.synced then stopped w.ingresses else stopped w.services

/-- Wait until the caches are complete, before a deadline; at most so many things happen till then.
-/
def awaitSync (timeout : Duration) (deadline : Nat) : Nat → World → Except Failure Unit × World
  | 0, w => (.error (.cacheSync "no end"), w)
  | fuel + 1, w =>
    if w.isSynced then (.ok (), w)
    else if w.isHopeless then
      (.error (.cacheSync "writer was dropped before store became ready"), w)
    else
      match w.due? with
      | some t =>
        if max t w.now < deadline then awaitSync timeout deadline fuel (w.advance (max t w.now))
        else late w
      | none => late w
where
  late (w : World) : Except Failure Unit × World :=
    (.error (.cacheSync ("caches not synced within " ++ timeout.text)), { w with now := deadline })

/-- Wait until the caches are complete, for so long. What is due at the start happens at once, and
after that only one thing in a millisecond. -/
def attemptSync (timeout : Duration) (w : World) : Except Failure Unit × World :=
  awaitSync timeout (w.now + timeout.timerMillis) (timeout.timerMillis + 1) w

/-- Wait until the caches are complete, several times if need be. -/
def sync (interval timeout : Duration) (attempts : Nat) : StateM World (Except Failure Unit) :=
  retryEvery (fun d => modify (pass d.timerMillis)) interval attempts (attemptSync timeout)

/-! Requests -/

def note (method path about : String) (body : Option Json) (w : World) : World :=
  { w with log := { time := w.now, method, path, body, about } :: w.log }

def create {α : Type} (c : Collection) (ns about : String) (body : Json) (decode : Json → Option α)
    (w : World) : Except Failure α × World :=
  let w := w.note "POST" (c.path (some ns)) about (some body)
  let (reply, server) := w.server.create c ns body
  (reply.read decode, refresh { w with server })

/-- A game server has to be asked for by a name. -/
def readGameServer (ns name : String) (w : World) : Except Failure GameServer × World :=
  if name.isEmpty then (.error .undecodable, w) else
  let c := Collection.gameServers
  let w := w.note "GET" (c.path (some ns) ++ "/" ++ name) (ns ++ "/" ++ name) none
  let (reply, server) := w.server.get c ns name
  (reply.read GameServer.ofJson?, refresh { w with server })

/-- The patch that writes the annotations of a game server, if its version is still the same. -/
def annotationsPatch (gs : GameServer) : Json :=
  .object [("metadata", .object [
    ("resourceVersion", (gs.metadata.resourceVersion.map Json.text).getD .null),
    ("annotations", Json.ofTextMap gs.metadata.annotationMap)])]

def writeGameServer (gs : GameServer) (w : World) : Except Failure GameServer × World :=
  if gs.name.isEmpty then (.error .undecodable, w) else
  let c := Collection.gameServers
  let ns := gs.metadata.nsOrDefault
  let patch := annotationsPatch gs
  let w := w.note "PATCH" (c.path (some ns) ++ "/" ++ gs.name) (ns ++ "/" ++ gs.name) (some patch)
  let (reply, server) := w.server.patch c ns gs.name patch
  (reply.read GameServer.ofJson?, refresh { w with server })

/-- The event that reports something about a game server. Its two times are equal, which is all
that is kept of them. -/
def eventBody (r : Reporter) (gs : GameServer) (type reason message : String) : Json :=
  let text (s : String) : Option Json := some (.text s)
  .ofOptions [
    ("apiVersion", text "v1"),
    ("kind", text "Event"),
    ("count", some (.int 1)),
    ("firstTimestamp", some (.bool true)),
    ("involvedObject", some (.ofOptions [
      ("apiVersion", text GameServer.apiVersion),
      ("kind", text GameServer.kind),
      ("name", gs.metadata.name.map .text),
      ("namespace", gs.metadata.ns.map .text),
      ("uid", gs.metadata.uid.map .text)])),
    ("message", text message),
    ("metadata", some (.ofOptions [
      ("generateName", text (gs.name ++ "-")),
      ("namespace", text gs.metadata.nsOrDefault)])),
    ("reason", text reason),
    ("reportingComponent", text r.component),
    ("reportingInstance", r.host.map .text),
    ("source", some (.ofOptions [("component", text r.component), ("host", r.host.map .text)])),
    ("type", text type)]

/-- Report an event; a failure to do so has no consequences. -/
def publish (gs : GameServer) (type reason message : String) (w : World) : World :=
  let body := eventBody w.reporter gs type reason message
  (w.create .events gs.metadata.nsOrDefault gs.key body some).2

/-- How long a request takes, in milliseconds. -/
def cost {β : Type} (w : World) : Request β → Nat
  | .findService .. | .findIngress .. | .count _ => 0
  | .pause d => d.timerMillis
  | .createService _ | .createIngress _ | .readGameServer .. | .writeGameServer _
  | .publish .. => w.latency

/-- The answer to a request, once its time has passed. -/
def answer {β : Type} : Request β → World → β × World
  | .findService name ns, w => ((w.services.find? name ns).bind Service.ofJson?, w)
  | .findIngress name ns, w => ((w.ingresses.find? name ns).bind Ingress.ofJson?, w)
  | .createService s, w =>
    w.create .services s.metadata.nsOrDefault (s.metadata.nsOrDefault ++ "/" ++ s.metadata.anyName)
      s.toJson Service.ofJson?
  | .createIngress i, w =>
    w.create .ingresses i.metadata.nsOrDefault (i.metadata.nsOrDefault ++ "/" ++ i.metadata.anyName)
      i.toJson Ingress.ofJson?
  | .readGameServer name ns, w => w.readGameServer ns name
  | .writeGameServer gs, w => w.writeGameServer gs
  | .publish gs n, w => ((), w.publish gs n.type.name n.reason n.message)
  | .count c, w => ((), { w with tally := w.tally.bump c })
  | .pause _, w => ((), w)

/-- Whether a request is answered without leaving the controller. -/
def isLocal {β : Type} : Request β → Bool
  | .findService .. | .findIngress .. | .count _ => true
  | _ => false

/-- Make a request and wait for its answer. -/
def perform {β : Type} (r : Request β) (w : World) : β × World :=
  answer r (if isLocal r then w else w.pass (w.cost r))

end World
end GameIngress.Cluster
