import GameIngress.Routing
import GameIngress.Text.Quoted

/-!
# Failures

What can go wrong, by cause. A failure may be wrapped in the step that it stopped or in the number
of attempts that were made; classification looks at the innermost cause.
-/
namespace GameIngress

inductive ResourceKind where
  | service
  | ingress
  | gameServer
  deriving DecidableEq, Inhabited, Repr

def ResourceKind.name : ResourceKind → String
  | service => "Service"
  | ingress => "Ingress"
  | gameServer => "GameServer"

/-- A status that the API server answers in place of an object. -/
structure ApiStatus where
  status : String := "Failure"
  message : String
  reason : String
  code : Nat
  deriving DecidableEq, Inhabited, Repr

/-- A fault of the manifest, which waiting does not mend. -/
inductive ValidationError where
  | routingAnnotationMissing (mode : RoutingMode) (key ns name : String)
  | annotationEmpty (ns name key : String)
  | invalidBool (key name : String)
  | issuerMissing (key name : String)
  | customAnnotationSuffix (key : String)
  | invalidTemplate (key value : String)
  deriving DecidableEq, Repr

inductive Failure where
  | api (status : ApiStatus)
  /-- The API server answered with something that does not decode. This stands for every failure of
  the client that comes without a status, which are all classified alike and differ in their text
  alone. -/
  | undecodable
  | validation (error : ValidationError)
  | step (kind : ResourceKind) (ns name : String) (source : Failure)
  | exhausted (attempts : Nat) (source : Failure)
  | cacheSync (reason : String)
  | config (reason : String)
  | cancelled
  deriving DecidableEq, Inhabited, Repr

namespace ApiStatus

/-- The status with all its parts in quotes. -/
def listing (s : ApiStatus) : String :=
  "ErrorResponse " ++ Text.braced
    (" status: " ++ Text.quoted s.status ++ ", message: " ++ Text.quoted s.message
      ++ ", reason: " ++ Text.quoted s.reason ++ ", code: " ++ toString s.code ++ " ")

def text (s : ApiStatus) : String :=
  "ApiError: " ++ s.message ++ ": " ++ s.reason ++ " (" ++ s.listing ++ ")"

def notFound : ApiStatus → Bool
  | s => s.code = 404

def alreadyExists (s : ApiStatus) : Bool := s.code = 409 && s.reason = "AlreadyExists"

/-- A write met a version other than the one it was based on. -/
def conflict (s : ApiStatus) : Bool := s.code = 409 && s.reason ≠ "AlreadyExists"

end ApiStatus

def ValidationError.message : ValidationError → String
  | routingAnnotationMissing mode key ns name =>
    "ingress routing mode " ++ mode.name ++ " requires the annotation " ++ key
      ++ " to be set on gameserver " ++ ns ++ "/" ++ name
  | annotationEmpty ns name key =>
    "gameserver " ++ ns ++ "/" ++ name ++ " has annotation " ++ key ++ " but it is empty"
  | invalidBool key name =>
    "annotation " ++ key ++ " for " ++ name ++ " must be \"true\" or \"false\""
  | issuerMissing key name =>
    "annotation " ++ key ++ " for " ++ name
      ++ " must be present, check your Fleet or GameServer manifest."
  | customAnnotationSuffix key =>
    "custom annotation " ++ key ++ " does not contain a suffix"
  | invalidTemplate key value =>
    key ++ ":" ++ value ++ " does not contain a valid template"

namespace Failure

def message : Failure → String
  | api s => "Kubernetes error: " ++ s.text
  | undecodable => "Kubernetes error: Error deserializing response"
  | validation e => e.message
  | step kind ns name source =>
    "failed to reconcile " ++ kind.name ++ " " ++ ns ++ "/" ++ name ++ ": " ++ source.message
  | exhausted attempts source =>
    "retry failed after " ++ toString attempts ++ " attempts: " ++ source.message
  | cacheSync reason => "Cache sync error: " ++ reason
  | config reason => "Configuration error: " ++ reason
  | cancelled => "reconcile cancelled"

/-- The innermost failure. -/
def root : Failure → Failure
  | step _ _ _ source => source.root
  | exhausted _ source => source.root
  | f => f

/-- The answer of the API server that caused the failure, if one did. -/
def status? (f : Failure) : Option ApiStatus :=
  match f.root with
  | api s => some s
  | _ => none

def isNotFound (f : Failure) : Bool := f.status?.any (·.notFound)
def isAlreadyExists (f : Failure) : Bool := f.status?.any (·.alreadyExists)
def isConflict (f : Failure) : Bool := f.status?.any (·.conflict)

def isValidation (f : Failure) : Bool :=
  match f.root with
  | validation _ => true
  | _ => false

/-- Waiting may help. -/
def isRetriable (f : Failure) : Bool :=
  match f.root with
  | validation _ | config _ | cancelled => false
  | _ => true

/-- A short label of the innermost failure. -/
def kind (f : Failure) : String :=
  match f.root with
  | api _ | undecodable => "kube"
  | validation _ => "validation"
  | cacheSync _ => "cache"
  | config _ => "config"
  | cancelled => "cancelled"
  | step .. | exhausted .. => "unknown"

end Failure
end GameIngress
