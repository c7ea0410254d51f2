import GameIngress.Gate
import GameIngress.Store.Program

/-!
# The readiness marker

The marker is set by reading the game server and writing it back on the condition that nobody else
wrote in between; a conflict starts over. A marker that is no truth value is overwritten, and then
reported as a fault of the manifest.
-/
namespace GameIngress.Reconcile

/-- One attempt: whether the marker was written, and the game server that carries it. -/
def markOnce (name ns : String) : Program (Except Failure (GameServer × Bool)) := do
  match ← Program.request (.readGameServer name ns) with
  | .error e => return .error e
  | .ok current =>
    if current.isMarkedReady then return .ok (current, false)
    else
      match ← Program.request (.writeGameServer current.markReady) with
      | .ok written => return .ok (written, true)
      | .error e => return .error e

def markedMessage (gs : GameServer) : String :=
  "GameServer annotated with " ++ Annotations.ingressReady ++ " for " ++ gs.key

def deprecatedMessage (gs : GameServer) : String :=
  "Annotation " ++ Annotations.classNameLegacy ++ " deprecated in favor of "
    ++ Annotations.className
    ++ ", future versions won't support this annotation for " ++ gs.key

/-- Tell that the marker was written, and warn of an outdated annotation. -/
def announce (gs : GameServer) : Program Unit := do
  Program.count .ready
  Program.publish gs .normal "Updated" (markedMessage gs)
  if (gs.annotationValue? Annotations.classNameLegacy).isSome then
    Program.publish gs .normal "Updated" (deprecatedMessage gs)

def mark (b : Backoff) (gs : GameServer) : Program (Except Failure GameServer) := do
  match ← retryOnConflict Program.pause b (markOnce gs.name gs.ns) with
  | .error e => return .error e
  | .ok (found, false) => return .ok found
  | .ok (written, true) =>
    announce written
    return .ok written

def readiness (b : Backoff) (gs : GameServer) : Program (Except Failure GameServer) :=
  match gs.readiness with
  | .ready => return .ok gs
  | .pending => mark b gs
  | .malformed e => do
    Program.publish gs .warning "Failed" e.message
    match ← mark b gs with
    | .error f => return .error f
    | .ok _ => return .error (.validation e)

end GameIngress.Reconcile
