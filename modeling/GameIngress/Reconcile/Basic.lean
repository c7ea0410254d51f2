import GameIngress.Reconcile.Ensure
import GameIngress.Reconcile.Readiness

/-!
# Reconciling a game server

A game server that passes the gate gets its Service, then its Ingress, then its marker. The first
step that fails ends the sequence, and the failure names the step.
-/
namespace GameIngress.Reconcile

structure Settings where
  rewrite : Bool := false
  backoff : Backoff := {}

/-- Name the step and the game server in a failure. -/
def labelled {α : Type} (kind : ResourceKind) (gs : GameServer) :
    Except Failure α → Except Failure α
  | .ok a => .ok a
  | .error e => .error (.step kind gs.ns gs.name e)

def converge (c : Settings) (gs : GameServer) : Program (Except Failure Unit) := do
  match labelled .service gs (← service gs) with
  | .error e => return .error e
  | .ok _ =>
    match labelled .ingress gs (← ingress c.rewrite gs) with
    | .error e => return .error e
    | .ok _ =>
      match labelled .gameServer gs (← readiness c.backoff gs) with
      | .error e => return .error e
      | .ok _ => return .ok ()

/-- What a notification about a game server asks for. -/
inductive Plan where
  | skip (reason : SkipReason)
  /-- To be cut off when the controller is cancelled. -/
  | run (p : Program (Except Failure Unit))

def plan (c : Settings) (gs : GameServer) : Plan :=
  match gs.skipReason? with
  | some reason => .skip reason
  | none => .run (converge c gs)

end GameIngress.Reconcile
