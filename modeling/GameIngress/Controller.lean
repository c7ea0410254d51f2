import GameIngress.Cluster.World
import GameIngress.Config.Basic
import GameIngress.Dispatch.Simulation
import GameIngress.Reconcile.Basic

/-!
# The controller in a cluster

The controller makes sure that game servers are a kind the cluster knows, fills its caches, and
hands the game servers it watches to the handler until it is cancelled.
-/
namespace GameIngress.Controller

open Cluster Dispatch

/-- A handler call, up to a request that takes time. -/
def advanceCall (p : Program CallResult) (w : World) : Progress (Program CallResult) × World :=
  match p with
  | .done r => (.ended r, w)
  | .ask r next =>
    let cost := w.cost r
    if 0 < cost then (.blocked cost (.ask r next), w)
    else
      let (b, w) := World.answer r w
      advanceCall (next b) w

/-- A handler call whose request has been waited for. -/
def resumeCall (p : Program CallResult) (w : World) : Progress (Program CallResult) × World :=
  match p with
  | .done r => (.ended r, w)
  | .ask r next =>
    let (b, w) := World.answer r w
    advanceCall (next b) w

def callResult : Except Failure Unit → CallResult
  | .ok () => .ok
  | .error e => .failed e

/-- Deletes need no work: what belongs to a game server is deleted with it. -/
def beginCall (c : Reconcile.Settings) (call : Call) (w : World) :
    Progress (Program CallResult) × World :=
  match call.delivery with
  | .delete _ => (.ended .ok, w)
  | .add s | .update _ s =>
    match Reconcile.plan c s.gs with
    | .skip reason => (.ended .ok, { w with tally := w.tally.bump (.skipped reason.label) })
    | .run p =>
      if w.isCancelled then (.ended (.failed .cancelled), w)
      else advanceCall (p >>= fun r => .done (callResult r)) w

/-- Take what the watch of the game servers has shown. -/
def pollWatch (w : World) : StreamItem × World :=
  match w.shown with
  | [] => (.nothing, w)
  | lesson :: rest =>
    let w := { w with shown := rest }
    match lesson with
    | none => (.failed, w)
    | some e =>
      match e.mapM? GameServer.ofJson? with
      | some e => (.event e, w)
      | none => (.failed, w)

def surroundings (c : Reconcile.Settings) : Surroundings World (Program CallResult) where
  poll _ w := pollWatch w
  due? w := w.due?
  advance now w := w.advance now
  begin now call w := beginCall c call { w with now }
  resume now p w := resumeCall p { w with now }
  interrupt? _ := some (.failed .cancelled)

def dispatchSettings (c : Config) : Dispatch.Settings where
  concurrency := c.maxConcurrentReconciles
  period := c.syncPeriod
  delays := { base := c.requeueBaseDelay, cap := c.requeueMaxDelay }

def reconcileSettings (c : Config) : Reconcile.Settings where
  rewrite := c.ingressPathRewrite
  backoff := .ofSteps c.statusRetrySteps

/-- How a run ended. -/
structure Report where
  result : Except Failure Unit
  world : World
  tally : Tally
  endedAt : Nat
  /-- Since when game servers were handled. -/
  readySince : Option Nat := none

def failed (e : Failure) (w : World) : Report :=
  { result := .error e, world := w, tally := w.tally, endedAt := w.now }

/-- Make sure that the cluster knows game servers. -/
def checkKind (w : World) : Except Failure Unit × World :=
  let scope : Server.Scope := { collection := .gameServers, ns := w.ns }
  let w := (w.pass w.latency).noteList scope 1
  let (reply, server) := w.server.list scope 1
  let w := { w with server }
  let known : Bool := match reply with
    | .ok (objects, _) => objects.all fun j => (GameServer.ofJson? j).isSome
    | .error _ => false
  (if known then .ok () else .error (.config "GameServer CRD not installed"), w)

/-- Run a controller until it is cancelled, for at most so many steps. -/
def run (c : Config) (steps : Nat) (w : World) : Except Crash Report :=
  match checkKind { w with ns := c.ns } with
  | (.error e, w) => .ok (failed e w)
  | (.ok (), w) =>
    match World.sync c.cacheSyncInterval c.cacheSyncTimeout c.cacheSyncAttempts
        (w.follow w.now) with
    | (.error e, w) => .ok (failed e w)
    | (.ok (), w) =>
      let start := Simulation.start w.watchGameServers (dispatchSettings c) w.now w.cancelAt
      match start with
      | .error e => .error e
      | .ok s =>
        match s.run (surroundings (reconcileSettings c)) steps with
        | .error e => .error e
        | .ok s => .ok {
            result := .ok ()
            world := s.world
            tally := s.dispatcher.tally.foldl (fun t (counter, n) => t ++ [(counter, n)])
              s.world.tally
            endedAt := s.now
            readySince := some w.now }

end GameIngress.Controller
