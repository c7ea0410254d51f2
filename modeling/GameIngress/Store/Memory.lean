import GameIngress.Store.Program

/-!
# A store in memory

Objects under their keys, on a clock that only latency and pauses move. A key is a namespace and a
name joined by a slash; in a cluster neither of them has one, so that a key stands for one pair.
Single calls can be made to fail. A run may be cut off at an instant: a call whose latency ends at
that instant or later does not take place.
-/
namespace GameIngress

/-- The calls that take time and may be made to fail. -/
inductive StoreCall where
  | createService
  | createIngress
  | readGameServer
  | writeGameServer
  deriving DecidableEq, Repr

inductive LogEntry where
  | findService (key : String)
  | findIngress (key : String)
  | createService (s : Service)
  | createIngress (i : Ingress)
  | readGameServer (key : String)
  | writeGameServer (gs : GameServer)

structure Memory where
  gameServers : List (String × GameServer) := []
  services : List (String × Service) := []
  ingresses : List (String × Ingress) := []
  /-- Failures to come for each call, in order; none stands for no failure. -/
  faults : List (StoreCall × List (Option Failure)) := []
  latency : Nat := 0
  now : Nat := 0
  /-- When the run is cut off. -/
  cutAt : Option Nat := none
  tally : Tally := []
  /-- Calls since the log was last emptied, latest first. -/
  log : List LogEntry := []
  /-- Events since then, latest first. -/
  events : List (GameServer × Notice) := []
  deriving Inhabited

namespace Memory

variable {α β : Type}

/-- Store under a key, over what is there; tables are kept in the order of their keys. -/
def put (key : String) (v : α) : List (String × α) → List (String × α)
  | [] => [(key, v)]
  | (k, w) :: rest =>
    if key < k then (key, v) :: (k, w) :: rest
    else if k = key then (k, v) :: rest
    else (k, w) :: put key v rest

def remove (key : String) (es : List (String × α)) : List (String × α) :=
  es.filter (·.1 ≠ key)

def refuse (reason : String) (code : Nat) : Failure :=
  .api { message := reason ++ " by store", reason, code }

/-- The version after the given one; what is no number counts as zero. -/
def nextVersion (v : Option String) : String := toString ((v.bind String.toNat?).getD 0 + 1)

def raiseVersion (gs : GameServer) : GameServer :=
  { gs with
    metadata := { gs.metadata with
      resourceVersion := some (nextVersion gs.metadata.resourceVersion) } }

/-- Take the next failure that is planned for a call. -/
def takeFault (call : StoreCall) (m : Memory) : Option Failure × Memory :=
  match m.faults.lookup call with
  | some (f :: rest) =>
    (f, { m with faults := m.faults.map fun e => if e.1 = call then (call, rest) else e })
  | _ => (none, m)

/-- The store after a wait, or the instant at which the run is cut off before its end. -/
def wait (millis : Nat) (m : Memory) : Except Nat Memory :=
  if millis = 0 then .ok m
  else
    match m.cutAt with
    | some t =>
      if t ≤ m.now + millis then .error (max t m.now) else .ok { m with now := m.now + millis }
    | none => .ok { m with now := m.now + millis }

def createIn (call : StoreCall) (entry : LogEntry) (key : String) (v : α)
    (table : Memory → List (String × α)) (store : List (String × α) → Memory → Memory)
    (m : Memory) : Except Failure α × Memory :=
  let (fault, m) := takeFault call { m with log := entry :: m.log }
  match fault with
  | some e => (.error e, m)
  | none =>
    if ((table m).lookup key).isSome then (.error (refuse "AlreadyExists" 409), m)
    else (.ok v, store (put key v (table m)) m)

def read (key : String) (m : Memory) : Except Failure GameServer × Memory :=
  let (fault, m) := takeFault .readGameServer { m with log := .readGameServer key :: m.log }
  match fault with
  | some e => (.error e, m)
  | none =>
    match m.gameServers.lookup key with
    | some gs => (.ok gs, m)
    | none => (.error (refuse "NotFound" 404), m)

/-- Replace the annotations of a game server if its version is still that of `gs`. A conflict that
was planned comes with a write of someone else. -/
def write (gs : GameServer) (m : Memory) : Except Failure GameServer × Memory :=
  let (fault, m) := takeFault .writeGameServer { m with log := .writeGameServer gs :: m.log }
  match fault, m.gameServers.lookup gs.key with
  | some e, some stored =>
    (.error e,
      if e.isConflict then
        { m with gameServers := put gs.key (raiseVersion stored) m.gameServers }
      else m)
  | some e, none => (.error e, m)
  | none, none => (.error (refuse "NotFound" 404), m)
  | none, some stored =>
    if stored.metadata.resourceVersion ≠ gs.metadata.resourceVersion then
      (.error (refuse "Conflict" 409), m)
    else
      let written := raiseVersion
        { stored with metadata := { stored.metadata with annotations := gs.metadata.annotations } }
      (.ok written, { m with gameServers := put gs.key written m.gameServers })

/-- How long a request takes. -/
def cost (m : Memory) : Request β → Nat
  | .createService _ | .createIngress _ | .readGameServer _ _ | .writeGameServer _ => m.latency
  | .pause d => d.timerMillis
  | _ => 0

/-- The answer to a request, once its time has passed. -/
def answer : Request β → Memory → β × Memory
  | .findService name ns, m =>
    let key := ns ++ "/" ++ name
    (m.services.lookup key, { m with log := .findService key :: m.log })
  | .findIngress name ns, m =>
    let key := ns ++ "/" ++ name
    (m.ingresses.lookup key, { m with log := .findIngress key :: m.log })
  | .createService s, m =>
    createIn .createService (.createService s) s.metadata.key s (·.services)
      (fun t m => { m with services := t }) m
  | .createIngress i, m =>
    createIn .createIngress (.createIngress i) i.metadata.key i (·.ingresses)
      (fun t m => { m with ingresses := t }) m
  | .readGameServer name ns, m => read (ns ++ "/" ++ name) m
  | .writeGameServer gs, m => write gs m
  | .publish gs n, m => ((), { m with events := (gs, n) :: m.events })
  | .count c, m => ((), { m with tally := m.tally.bump c })
  | .pause _, m => ((), m)

/-- Run a program; it has no result if it was cut off. -/
def run : Program α → Memory → Option α × Memory
  | .done a, m => (some a, m)
  | .ask r next, m =>
    match wait (m.cost r) m with
    | .error t => (none, { m with now := t })
    | .ok m =>
      let (b, m) := answer r m
      run (next b) m

/-- Run a program that nothing cuts off. -/
def runWhole (p : Program α) (m : Memory) : Option α × Memory :=
  let (a, m') := run p { m with cutAt := none }
  (a, { m' with cutAt := m.cutAt })

end Memory
end GameIngress
