import GameIngress.Json.Decode
import GameIngress.Timestamp

/-!
# Shapes of cluster objects

The parts of cluster objects that the controller only carries along are described by their shape:
the members that a record may have and the values they take. Reading by a shape gives a normal
form. Unknown members are dropped, an optional null is dropped, a required member that is missing
or null gets the zero of its shape, and timestamps are put in their standard form.
-/
namespace GameIngress.Object
open Json

mutual
inductive Shape where
  | text
  | boolean
  | int (bits : Nat)
  | timestamp
  /-- A port given by its number or by its name. -/
  | intOrText
  | anything
  | list (item : Shape)
  | textMap
  | record (fields : Fields)
/-- Members of a record, each required or optional. -/
inductive Fields where
  | nil
  | cons (name : String) (required : Bool) (shape : Shape) (rest : Fields)
end

mutual
/-- What stands for a required value that is not given. -/
def Shape.zero : Shape → Json
  | .text => .text ""
  | .boolean => .bool false
  | .int _ => .int 0
  | .timestamp => .text "1970-01-01T00:00:00Z"
  | .intOrText => .int 0
  | .anything => .null
  | .list _ => .array []
  | .textMap => .object []
  | .record fs => .object fs.zero
def Fields.zero : Fields → Members
  | .nil => []
  | .cons name required shape rest =>
    if required then (name, shape.zero) :: rest.zero else rest.zero
end

mutual
/-- The normal form of a value, if it has the shape. -/
def Shape.read : Shape → Json → Option Json
  | .text, v => (asText v).map .text
  | .boolean, v => (asBool v).map .bool
  | .int bits, v => (asInt bits v).map .int
  | .timestamp, v => do
    let s ← asText v
    let t ← Timestamp.read? s
    some (.text t.render)
  | .intOrText, .text s => some (.text s)
  | .intOrText, v => (asInt 32 v).map .int
  | .anything, v => some v
  | .list item, v => do
    let xs ← listOf some v
    let ys ← xs.mapM item.read
    some (.array ys)
  | .textMap, v => (asTextMap v).map ofTextMap
  | .record fs, v => do
    let ms ← asMembers v
    let ns ← fs.read ms
    some (.object ns)
def Fields.read : Fields → Members → Option Members
  | .nil, _ => some []
  | .cons name required shape rest, ms => do
    let v ← match ms.get? name with
      | none | some .null => some none
      | some v => (shape.read v).map some
    let others ← rest.read ms
    match v with
    | some v => some ((name, v) :: others)
    | none => some (if required then (name, shape.zero) :: others else others)
end

/-- Fields in order; those in `required` must be written. -/
def Fields.ofList (required : List String) : List (String × Shape) → Fields
  | [] => .nil
  | (name, shape) :: rest => .cons name (required.contains name) shape (Fields.ofList required rest)

end GameIngress.Object
