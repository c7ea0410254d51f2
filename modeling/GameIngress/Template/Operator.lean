import GameIngress.Template.Value

/-!
# Operators on template values

Integer arithmetic is exact within 128 bits and fails beyond. Division of integers rounds so that
the remainder is never negative; `/` always divides as floats.
-/
namespace GameIngress.Template

/-- Why a template that is well formed cannot be rendered. -/
inductive RenderError where
  | unknownFilter (name : String)
  | unknownTest (name : String)
  | unknownFunction (name : String)
  | unknownMethod (name : String)
  | memberOfUndefined
  | missingTemplate
  | missingArgument
  | tooManyArguments
  | invalidOperation
  | unpackMismatch
  | tooDeep
  deriving DecidableEq, Repr

abbrev Outcome (α : Type) := Except RenderError α

namespace Value

private def wide (i : Int) : Outcome Value :=
  if fitsWide i then .ok (.int i) else .error .invalidOperation

def ofCheck {α : Type} : Option α → Outcome α
  | some a => .ok a
  | .none => .error .invalidOperation

def repeatText (s : String) (n : Nat) : String := String.join (List.replicate n s)

def add (a b : Value) : Outcome Value :=
  match a, b with
  | list xs, list ys => .ok (.list (xs ++ ys))
  | a, b =>
    match pair? false a b with
    | some (.ints i j) => wide (i + j)
    | some (.floats x y) => .ok (.float (x + y))
    | some (.texts s t) => .ok (str (s ++ t))
    | .none => .error .invalidOperation

def sub (a b : Value) : Outcome Value :=
  match pair? false a b with
  | some (.ints i j) => wide (i - j)
  | some (.floats x y) => .ok (.float (x - y))
  | _ => .error .invalidOperation

/-- How often a text or a list is repeated at most. -/
def repeatLimit : Int := 100000

def mul (a b : Value) : Outcome Value :=
  match a, b with
  | text s _, n | n, text s _ =>
    (ofCheck (n.wholeIn? 0 repeatLimit)).map fun i => str (repeatText s i.toNat)
  | list xs, n | n, list xs =>
    (ofCheck (n.wholeIn? 0 repeatLimit)).map fun i => .list (List.replicate i.toNat xs).flatten
  | a, b =>
    match pair? false a b with
    | some (.ints i j) => wide (i * j)
    | some (.floats x y) => .ok (.float (x * y))
    | _ => .error .invalidOperation

def div (a b : Value) : Outcome Value :=
  match a.float? false, b.float? false with
  | some x, some y => .ok (.float (x / y))
  | _, _ => .error .invalidOperation

/-- The finite float `significand * 2 ^ exponent`. -/
def binaryFloat (negative : Bool) (significand : Nat) (exponent : Int) : Float :=
  let x := Float.scaleB (Float.ofNat significand) exponent
  if negative then -x else x

/-- The remainder of a division whose quotient is rounded toward zero; it has the sign of the
dividend. -/
def floatRem (x y : Float) : Float :=
  match Number.classify x, Number.classify y with
  | .finite a, .finite b =>
    if b.significand = 0 then 0.0 / 0.0
    else
      let e := min a.exponent b.exponent
      let m := a.significand * Nat.pow 2 (a.exponent - e).toNat
      let n := b.significand * Nat.pow 2 (b.exponent - e).toNat
      binaryFloat a.negative (m % n) e
  | .finite _, .infinite _ => x
  | _, _ => 0.0 / 0.0

/-- The quotient whose remainder is not negative. -/
def floatFloorDiv (x y : Float) : Float :=
  let q := x / y
  let t := if q < 0.0 then q.ceil else q.floor
  if floatRem x y < 0.0 then (if 0.0 < y then t - 1.0 else t + 1.0) else t

def floorDiv (a b : Value) : Outcome Value :=
  match pair? false a b with
  | some (.ints i j) => if j = 0 then .error .invalidOperation else wide (i / j)
  | some (.floats x y) => .ok (.float (floatFloorDiv x y))
  | _ => .error .invalidOperation

def rem (a b : Value) : Outcome Value :=
  match pair? false a b with
  | some (.ints i j) => if j = 0 then .error .invalidOperation else wide (i % j)
  | some (.floats x y) => .ok (.float (floatRem x y))
  | _ => .error .invalidOperation

/-- A power of 128-bit integers; only bases of size at most one have large exponents. -/
def intPow (i j : Int) : Outcome Value :=
  if j < 0 ∨ Nat.pow 2 32 ≤ j then .error .invalidOperation
  else if i = 0 ∨ i = 1 ∨ i = -1 then
    wide (if j = 0 then 1 else if i = -1 ∧ j % 2 = 0 then 1 else i)
  else if 128 < j then .error .invalidOperation
  else wide (Int.pow i j.toNat)

def pow (a b : Value) : Outcome Value :=
  match pair? false a b with
  | some (.ints i j) => intPow i j
  | some (.floats x y) => .ok (.float (Float.pow x y))
  | _ => .error .invalidOperation

def neg : Value → Outcome Value
  | float x => .ok (.float (-x))
  | int i =>
    if i = Nat.pow 2 127 then .ok (.int i)
    else if fitsWide i then wide (-i)
    else .error .invalidOperation
  | _ => .error .invalidOperation

def containsText (needle s : String) : Bool := Text.contains needle.toList s.toList

/-- Whether a value occurs in a text, a list or among the keys of a dictionary. -/
def isIn (v container : Value) : Outcome Bool :=
  match container with
  | undefined => .ok false
  | text s _ => .ok (containsText v.written s)
  | list xs => .ok (xs.any (same · v))
  | dict es => .ok (es.any fun e => same e.1 v)
  | space es => .ok (es.any fun e => same (str e.1) v)
  | loop .. | macroDef .. | caller .. | function _ => .ok false
  | _ => .error .invalidOperation

def binary (op : BinaryOp) (a b : Value) : Outcome Value :=
  match op with
  | .add => add a b
  | .sub => sub a b
  | .mul => mul a b
  | .div => div a b
  | .floorDiv => floorDiv a b
  | .rem => rem a b
  | .pow => pow a b
  | .concat => .ok (str (a.written ++ b.written))
  | .eq => .ok (.bool (same a b))
  | .ne => .ok (.bool !(same a b))
  | .lt => .ok (.bool (compare a b = .lt))
  | .le => .ok (.bool (compare a b ≠ .gt))
  | .gt => .ok (.bool (compare a b = .gt))
  | .ge => .ok (.bool (compare a b ≠ .lt))
  | .isIn => (isIn a b).map .bool

/-- A bound of a slice; the absent value stands for none. -/
def bound (v : Value) : Outcome (Option Int) :=
  match v with
  | none => .ok .none
  | v => (ofCheck (v.wholeIn? (-(Nat.pow 2 63)) (Nat.pow 2 63 - 1))).map some

private def clampTo (low high i : Int) : Int := max low (min high i)

/-- Positions that a slice of something of the given length visits, in order. Negative bounds count
from the end. -/
def slicePositions (length : Nat) (start stop : Option Int) (step : Int) : List Nat :=
  let n : Int := length
  let norm (i : Int) : Int := if i < 0 then n + i else i
  if 0 < step then
    let lo := clampTo 0 n (norm (start.getD 0))
    let hi := clampTo 0 n (match stop with
      | some i => norm i
      | .none => n)
    (List.range ((hi - lo + step - 1) / step).toNat).map fun (k : Nat) => (lo + k * step).toNat
  else
    let hi := clampTo (-1) (n - 1) (match start with
      | some i => norm i
      | .none => n - 1)
    let lo := clampTo (-1) (n - 1) (match stop with
      | some i => norm i
      | .none => -1)
    (List.range ((hi - lo - step - 1) / -step).toNat).map fun (k : Nat) => (hi + k * step).toNat

def slice (v start stop step : Value) : Outcome Value := do
  let start ← bound start
  let stop ← bound stop
  let step := (← bound step).getD 1
  if step = 0 then .error .invalidOperation
  else match v with
    | text s _ =>
      let cs := s.toList.toArray
      .ok (str (String.ofList
        ((slicePositions cs.size start stop step).filterMap (cs[·]?))))
    | undefined | none => .ok (.list [])
    | list xs =>
      let xs := xs.toArray
      .ok (.list ((slicePositions xs.size start stop step).filterMap (xs[·]?)))
    | _ => .error .invalidOperation

/-- The form in which markup shows a character as itself. -/
def escapeMarkup (s : String) : String :=
  String.join (s.toList.map fun c =>
    match c with
    | '<' => "&lt;"
    | '>' => "&gt;"
    | '&' => "&amp;"
    | '"' => "&quot;"
    | '\'' => "&#x27;"
    | '/' => "&#x2f;"
    | c => String.singleton c)

/-- The written form with everything but numbers, truth values and safe texts escaped. -/
def markup : Value → String
  | text s safe => if safe then s else escapeMarkup s
  | v => if v.rank ≤ 3 then v.written else escapeMarkup v.written

end Value
end GameIngress.Template
