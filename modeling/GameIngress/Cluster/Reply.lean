import GameIngress.Cluster.Server
import GameIngress.Http.Status
import GameIngress.Json.Decode
import GameIngress.Json.Reader
import GameIngress.Text.Quoted

/-!
# Replies of the API server

A reply is an object or a failure. The body of a failure should be a status; where it is not, the
status is made up from the code and the text of the body.
-/
namespace GameIngress.Cluster.Reply

open Json

def codeOf? (j : Json) : Option Nat :=
  match j with
  | .int i => if 0 ≤ i ∧ i < 65536 then some i.toNat else none
  | _ => none

/-- A status as an object, whose message and reason may be missing, or as an array. -/
def statusOf? : Json → Option ApiStatus
  | .object ms => do
    return {
      status := ← asText (← Members.get? ms "status")
      message := ← Members.orDefault ms "message" "" asText
      reason := ← Members.orDefault ms "reason" "" asText
      code := ← codeOf? (← Members.get? ms "code") }
  | .array [s, m, r, c] => do
    return {
      status := ← asText s, message := ← asText m, reason := ← asText r, code := ← codeOf? c }
  | _ => none

def decodeAs {α : Type} (decode : Json → Option α) (j : Json) : Except Failure α :=
  match decode j with
  | some a => .ok a
  | none => .error .undecodable

/-- The object of a reply. -/
def read {α : Type} (decode : Json → Option α) : Reply → Except Failure α
  | .object j => decodeAs decode j
  | .status s => if Http.isFailure s.code then .error (.api s) else .error .undecodable
  | .body code content =>
    let parsed := Json.parse? content
    if Http.isFailure code then
      .error (.api ((parsed.bind statusOf?).getD {
        status := Http.statusLine code
        message := Text.quoted content
        reason := "Failed to parse error data"
        code }))
    else
      match parsed with
      | some j => decodeAs decode j
      | none => .error .undecodable

end GameIngress.Cluster.Reply
