import GameIngress.Manifest.Ingress
import GameIngress.Manifest.Service
import GameIngress.Store.Program

/-!
# Services and Ingresses, created where missing

An object that the cache knows is left as it is. Otherwise it is built and created; one that
someone else created in the meantime counts as created. Events tell what happened.
-/
namespace GameIngress.Reconcile

def creatingMessage (gs : GameServer) (kind : ResourceKind) : String :=
  "Creating " ++ kind.name ++ " for gameserver " ++ gs.key

def createdMessage (gs : GameServer) (kind : ResourceKind) : String :=
  kind.name ++ " created for gameserver " ++ gs.key

def failedMessage (gs : GameServer) (kind : ResourceKind) (e : Failure) : String :=
  "Failed to create " ++ kind.name ++ " for gameserver " ++ gs.key ++ ": " ++ e.message

/-- Report a failed creation. -/
def fail {α : Type} (gs : GameServer) (kind : ResourceKind) (e : Failure) :
    Program (Except Failure α) := do
  Program.publish gs .warning "Failed" (failedMessage gs kind e)
  return .error e

/-- Create an object that the cache does not know. -/
def create {α : Type} (gs : GameServer) (kind : ResourceKind)
    (built : Except ValidationError α) (creation : α → Request (Except Failure α)) :
    Program (Except Failure α) := do
  Program.publish gs .normal "Creating" (creatingMessage gs kind)
  match built with
  | .error e => fail gs kind (.validation e)
  | .ok object =>
    match ← Program.request (creation object) with
    | .ok created =>
      Program.count (.created kind.name)
      Program.publish gs .normal "Created" (createdMessage gs kind)
      return .ok created
    | .error e =>
      if e.isAlreadyExists then
        Program.publish gs .normal "Created" (createdMessage gs kind)
        return .ok object
      else fail gs kind e

def service (gs : GameServer) : Program (Except Failure Service) := do
  match ← Program.request (.findService gs.name gs.ns) with
  | some found => return .ok found
  | none => create gs .service (Manifest.buildService gs) .createService

def ingress (rewrite : Bool) (gs : GameServer) : Program (Except Failure Ingress) := do
  match ← Program.request (.findIngress gs.name gs.ns) with
  | some found => return .ok found
  | none => create gs .ingress (Manifest.buildIngress gs rewrite) .createIngress

end GameIngress.Reconcile
