import GameIngress.Config.Basic
import GameIngress.Json.Basic
import GameIngress.Metrics.Exposition

/-!
# The health server

Whether the process lives, whether it is ready, and its metrics. Only the exact paths are known, and
only GET and HEAD are allowed on them; HEAD leaves the body out.
-/
namespace GameIngress.Health

def version : String := "0.1.0"

inductive Route where
  | liveness
  | readiness
  | metrics
  deriving DecidableEq, Repr

namespace Route

def path : Route → String
  | liveness => "/healthz"
  | readiness => "/readyz"
  | metrics => "/metrics"

def ofPath? (s : String) : Option Route :=
  [liveness, readiness, metrics].find? (·.path = s)

end Route

structure State where
  ready : Bool := false
  metrics : Metrics := {}

inductive Body where
  | none
  | status (word : String)
  | lines (ls : List String)

structure Response where
  code : Nat
  contentType : Option String := .none
  /-- The methods that are allowed, if the one used is not. -/
  allow : Option String := .none
  body : Body := .none

def get (s : State) : Route → Response
  | .liveness =>
    { code := 200, contentType := some "application/json", body := .status "healthy" }
  | .readiness =>
    { code := if s.ready then 200 else 503
      contentType := some "application/json"
      body := .status (if s.ready then "ready" else "not ready") }
  | .metrics =>
    { code := 200
      contentType := some "text/plain; charset=utf-8"
      body := .lines s.metrics.exposition }

/-- The path of a request target, without query and fragment. -/
def targetPath (target : String) : String :=
  String.ofList (target.toList.takeWhile fun c => c ≠ '?' && c ≠ '#')

def respond (method target : String) (s : State) : Response :=
  match Route.ofPath? (targetPath target) with
  | none => { code := 404 }
  | some route =>
    if method = "GET" then get s route
    else if method = "HEAD" then { get s route with body := .none }
    else { code := 405, allow := some "GET,HEAD" }

/-- The document that a status word is sent in. -/
def document (word : String) : Json :=
  .object [("status", .text word), ("version", .text version)]

/-- The failure to listen on an address that is taken. -/
def addressInUse (address : String) : Failure :=
  .config ("Failed to bind to " ++ address ++ ": Address already in use (os error 98)")

end GameIngress.Health
