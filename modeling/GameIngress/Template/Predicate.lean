import GameIngress.Template.Operator
import GameIngress.Text.Case

/-!
# Tests on template values

The predicates that may follow `is`.
-/
namespace GameIngress.Template.Value

def isNumber : Value → Bool
  | int _ | float _ => true
  | _ => false

private def parity (v : Value) (r : Int) : Bool := v.whole?.any (· % 2 = r)

def isDivisible (v by_ : Value) : Bool :=
  match pair? false v by_ with
  | some (.ints i j) => j ≠ 0 && i % j = 0
  | some (.floats x y) => floatRem x y == 0.0
  | _ => false

def predicateNames : List String :=
  ["undefined", "defined", "none", "safe", "escaped", "boolean", "odd", "even", "number",
    "integer", "int", "float", "string", "sequence", "iterable", "mapping", "startingwith",
    "endingwith", "lower", "upper", "sameas", "divisibleby", "eq", "equalto", "ne", "lt",
    "lessthan", "le", "gt", "greaterthan", "ge", "in", "true", "false", "filter", "test",
    "==", "!=", "<", "<=", ">", ">="]

/-- The answer of a test that takes nothing but the value. -/
def simpleTest? (name : String) (v : Value) : Option Bool :=
  match name with
  | "undefined" => some (match v with | undefined => true | _ => false)
  | "defined" => some (match v with | undefined => false | _ => true)
  | "none" => some (match v with | none => true | _ => false)
  | "safe" | "escaped" => some (match v with | text _ safe => safe | _ => false)
  | "boolean" => some (match v with | bool _ => true | _ => false)
  | "odd" => some (parity v 1)
  | "even" => some (parity v 0)
  | "number" => some v.isNumber
  | "integer" | "int" => some (match v with | int _ => true | _ => false)
  | "float" => some (match v with | float _ => true | _ => false)
  | "string" => some (match v with | text .. => true | _ => false)
  | "sequence" => some (match v with | list _ => true | _ => false)
  | "iterable" => some v.items?.isSome
  | "mapping" => some (match v with | dict _ | space _ => true | _ => false)
  | "lower" => some (v.written.toList.all fun c => Text.lowerChar c == [c])
  | "upper" => some (v.written.toList.all fun c => Text.upperChar c == [c])
  | "true" => some (match v with | bool b => b | _ => false)
  | "false" => some (match v with | bool b => !b | _ => false)
  | _ => .none

/-- The answer of a test that compares the value with another; `filters` are the known filters. -/
def binaryTest? (filters : List String) (name : String) (v w : Value) : Option (Outcome Bool) :=
  match name with
  | "startingwith" => some (.ok (w.written.toList.isPrefixOf v.written.toList))
  | "endingwith" => some (.ok (w.written.toList.isSuffixOf v.written.toList))
  | "sameas" => some (.ok (v.rank = w.rank && same v w))
  | "divisibleby" => some (.ok (isDivisible v w))
  | "eq" | "equalto" | "==" => some (.ok (same v w))
  | "ne" | "!=" => some (.ok !(same v w))
  | "lt" | "lessthan" | "<" => some (.ok (compare v w = .lt))
  | "le" | "<=" => some (.ok (compare v w ≠ .gt))
  | "gt" | "greaterthan" | ">" => some (.ok (compare v w = .gt))
  | "ge" | ">=" => some (.ok (compare v w ≠ .lt))
  | "in" => some (isIn v w)
  | "filter" => some (.ok (filters.contains v.written))
  | "test" => some (.ok (predicateNames.contains v.written))
  | _ => .none

/-- Apply a test by its name. -/
def test (filters : List String) (name : String) (v : Value) (args : List Value) : Outcome Bool :=
  match simpleTest? name v with
  | some b => if args.isEmpty then .ok b else .error .tooManyArguments
  | .none =>
    if !predicateNames.contains name then .error (.unknownTest name)
    else match name, args with
      | "filter", [] => .ok (filters.contains v.written)
      | "test", [] => .ok (predicateNames.contains v.written)
      | _, [] => .error .missingArgument
      | name, [w] => (binaryTest? filters name v w).getD (.error (.unknownTest name))
      | _, _ => .error .tooManyArguments

end GameIngress.Template.Value
