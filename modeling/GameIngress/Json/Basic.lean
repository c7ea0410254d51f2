/-!
# JSON values

Integers and other numbers are kept apart, since a field of whole numbers takes only the former.
An object keeps its members in the order in which they were written, one for each key.
-/
namespace GameIngress

inductive Json where
  | null
  | bool (b : Bool)
  | int (i : Int)
  /-- The number `mantissa * 10 ^ exponent`, written with a point or an exponent. -/
  | decimal (mantissa : Int) (exponent : Int)
  | text (s : String)
  | array (items : List Json)
  | object (members : List (String × Json))
  deriving Inhabited

namespace Json

abbrev Members := List (String × Json)

/-- Value of a key among members. -/
def Members.get? (ms : Members) (key : String) : Option Json := ms.lookup key

/-- Replace the value of a key in place, or add it at the end. -/
def Members.set : Members → String → Json → Members
  | [], key, v => [(key, v)]
  | (k, w) :: rest, key, v => if k = key then (k, v) :: rest else (k, w) :: Members.set rest key v

def Members.erase (ms : Members) (key : String) : Members := ms.filter (·.1 != key)

/-- Member of an object; no other value has members. -/
def get? : Json → String → Option Json
  | .object ms, key => ms.lookup key
  | _, _ => none

/-- Walk down a path of keys. -/
def at? (j : Json) (path : List String) : Option Json :=
  path.foldl (fun v key => v.bind (·.get? key)) (some j)

def isNull : Json → Bool
  | .null => true
  | _ => false

mutual
def same : Json → Json → Bool
  | .null, .null => true
  | .bool a, .bool b => a == b
  | .int a, .int b => a == b
  | .decimal a b, .decimal c d => a == c && b == d
  | .text a, .text b => a == b
  | .array xs, .array ys => sameItems xs ys
  | .object xs, .object ys => sameMembers xs ys
  | _, _ => false
def sameItems : List Json → List Json → Bool
  | [], [] => true
  | x :: xs, y :: ys => same x y && sameItems xs ys
  | _, _ => false
def sameMembers : List (String × Json) → List (String × Json) → Bool
  | [], [] => true
  | (k, x) :: xs, (l, y) :: ys => k == l && same x y && sameMembers xs ys
  | _, _ => false
end

instance : BEq Json := ⟨same⟩

/-- An object of the members that have a value. -/
def ofOptions (ms : List (String × Option Json)) : Json :=
  .object (ms.filterMap fun (k, v) => v.map (k, ·))

end Json
end GameIngress
