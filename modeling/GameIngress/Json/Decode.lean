import GameIngress.Json.Basic
import GameIngress.TextMap

/-!
# Decoding JSON values

A decoder answers `none` for a value of the wrong form. An optional member that is null counts as
absent; so does a member whose type has a zero value and that need not be written.
-/
namespace GameIngress.Json

abbrev Decoder (α : Type) := Json → Option α

def asText : Decoder String
  | .text s => some s
  | _ => none

def asBool : Decoder Bool
  | .bool b => some b
  | _ => none

/-- A whole number within `bits` bits, sign included. -/
def asInt (bits : Nat) : Decoder Int
  | .int i => if -(Nat.pow 2 (bits - 1)) ≤ i ∧ i < Nat.pow 2 (bits - 1) then some i else none
  | _ => none

def asInt32 (j : Json) : Option Int32 := (asInt 32 j).map Int32.ofInt

def asMembers : Decoder Members
  | .object ms => some ms
  | _ => none

def listOf {α : Type} (item : Decoder α) : Decoder (List α)
  | .array xs => xs.mapM item
  | _ => none

def asTextMap : Decoder TextMap
  | .object ms => (ms.mapM fun (m : String × Json) => (asText m.2).map (m.1, ·)).map TextMap.ofList
  | _ => none

/-- An item of a positional or named record that may be null. -/
def nullable {α : Type} (item : Decoder α) : Decoder (Option α)
  | .null => some none
  | v => (item v).map some

/-- A member that may be missing or null. -/
def Members.optional {α : Type} (ms : Members) (key : String) (item : Decoder α) :
    Option (Option α) :=
  match ms.get? key with
  | none => some none
  | some v => nullable item v

/-- A member that is `zero` when missing or null. -/
def Members.orZero {α : Type} (ms : Members) (key : String) (zero : α) (item : Decoder α) :
    Option α :=
  (ms.optional key item).map (·.getD zero)

/-- A member that is `zero` when missing, but may not be null. -/
def Members.orDefault {α : Type} (ms : Members) (key : String) (zero : α) (item : Decoder α) :
    Option α :=
  match ms.get? key with
  | none => some zero
  | some v => item v

def ofInt32 (i : Int32) : Json := .int i.toInt

def ofTextMap (m : TextMap) : Json := .object (m.entries.map fun (k, v) => (k, .text v))

end GameIngress.Json
