import GameIngress.Number.Shortest
import GameIngress.Template.Expr
import GameIngress.Text.Quoted

/-!
# Template values

Values, their written forms, and their order. A value written on its own shows texts bare; inside a
list or a dictionary texts are quoted. Truth values and the absent value are capitalised, and a
number with a fraction always shows its point.
-/
namespace GameIngress.Template

/-- The code of a loop that may be entered again from inside its body. -/
structure LoopCode where
  target : Target
  filter : Option Expr
  body : List Stmt
  orElse : List Stmt
  deriving Inhabited

inductive Value where
  | undefined
  | none
  | bool (b : Bool)
  | int (i : Int)
  | float (x : Float)
  /-- A text; a safe one is not escaped again. -/
  | text (s : String) (safe : Bool)
  | list (items : List Value)
  /-- Entries in increasing order of their keys. -/
  | dict (entries : List (Value × Value))
  /-- A record whose members may be assigned. -/
  | space (entries : List (String × Value))
  | loop (index length depth : Nat) (previous following : Value) (again : Option LoopCode)
  /-- A macro sees the frames up to the one that it was defined in, counted from the outermost. -/
  | macroDef (name : String) (params : List (String × Option Expr)) (body : List Stmt) (depth : Nat)
  /-- The body of a call block sees the frames around the block. -/
  | caller (params : List (String × Option Expr)) (body : List Stmt)
      (frames : List (List (String × Value)))
  | function (name : String)

instance : Inhabited Value := ⟨.undefined⟩

namespace Value

def str (s : String) : Value := .text s false

/-- Order of the kinds of values. -/
def rank : Value → Nat
  | undefined => 0
  | none => 1
  | bool _ => 2
  | int _ | float _ => 3
  | text .. => 4
  | list _ => 5
  | dict _ | space _ => 6
  | _ => 7

def floatText (x : Float) (scientific : Bool) : String :=
  match Number.classify x with
  | .notANumber => "NaN"
  | .infinite negative => if negative then "-inf" else "inf"
  | .finite b =>
    let d := Number.shortest b.significand b.exponent
    let sign := if b.negative then "-" else ""
    let small := x.abs < 1e-4 && b.significand ≠ 0
    if scientific && (1e16 ≤ x.abs || small) then sign ++ d.scientific
    else if 0 ≤ d.exponent then sign ++ d.positional ++ ".0"
    else sign ++ d.positional

def boolText (b : Bool) : String := if b then "True" else "False"

mutual
/-- The written form inside a list or a dictionary. -/
def listing : Value → String
  | undefined => "undefined"
  | none => "None"
  | bool b => boolText b
  | int i => toString i
  | float x => floatText x true
  | text s _ => Text.quoted s
  | list xs => "[" ++ listingItems xs ++ "]"
  | dict es => Text.braced (listingEntries es)
  | space es => Text.braced (listingMembers es)
  | loop index length _ _ _ _ => "<loop " ++ toString index ++ "/" ++ toString length ++ ">"
  | macroDef name _ _ _ => "<macro " ++ name ++ ">"
  | caller _ _ _ => "<macro caller>"
  | function name => name
def listingItems : List Value → String
  | [] => ""
  | [x] => x.listing
  | x :: xs => x.listing ++ ", " ++ listingItems xs
def listingEntries : List (Value × Value) → String
  | [] => ""
  | [(k, v)] => k.listing ++ ": " ++ v.listing
  | (k, v) :: es => k.listing ++ ": " ++ v.listing ++ ", " ++ listingEntries es
def listingMembers : List (String × Value) → String
  | [] => ""
  | [(k, v)] => Text.quoted k ++ ": " ++ v.listing
  | (k, v) :: es => Text.quoted k ++ ": " ++ v.listing ++ ", " ++ listingMembers es
end

/-- The written form of a value on its own. -/
def written : Value → String
  | undefined => ""
  | float x => floatText x false
  | text s _ => s
  | v => v.listing

def isTrue : Value → Bool
  | undefined | none => false
  | bool b => b
  | int i => i ≠ 0
  | float x => x != 0.0
  | text s _ => s ≠ ""
  | list xs => !xs.isEmpty
  | dict es => !es.isEmpty
  | space es => !es.isEmpty
  | _ => true

/-- Integers take part in arithmetic within 128 bits, sign included. -/
def fitsWide (i : Int) : Bool := -(Nat.pow 2 127) ≤ i && i < Nat.pow 2 127

/-- The whole number that a value stands for. -/
def whole? : Value → Option Int
  | bool b => some (if b then 1 else 0)
  | int i => if fitsWide i then some i else .none
  | float x =>
    match Number.classify x with
    | .finite b => if b.isWhole then some b.truncate else .none
    | _ => .none
  | _ => .none

def wholeIn? (low high : Int) (v : Value) : Option Int :=
  v.whole?.bind fun i => if low ≤ i ∧ i ≤ high then some i else .none

/-- The number as a float; an exact one must not lose digits. -/
def float? (exact : Bool) : Value → Option Float
  | bool b => some (if b then 1.0 else 0.0)
  | float x => some x
  | int i =>
    let x := Number.ofInt i
    if exact then
      match Number.classify x with
      | .finite b => if b.truncate = i then some x else .none
      | _ => .none
    else some x
  | _ => .none

/-- Two values brought to one type. -/
inductive Pair where
  | ints (a b : Int)
  | floats (a b : Float)
  | texts (a b : String)

def pair? (exact : Bool) (a b : Value) : Option Pair :=
  match a, b with
  | text s _, text t _ => some (.texts s t)
  | float x, b => (b.float? exact).map (.floats x)
  | a, float y => (a.float? exact).map (.floats · y)
  | int i, int j =>
    if Nat.pow 2 127 ≤ i ∧ Nat.pow 2 127 ≤ j then
      some (.ints (i - Nat.pow 2 128) (j - Nat.pow 2 128))
    else if fitsWide i ∧ fitsWide j then some (.ints i j)
    else .none
  | a, b => do return .ints (← a.whole?) (← b.whole?)

def compareFloats (x y : Float) : Ordering :=
  if x < y then .lt else if y < x then .gt else .eq

def compareTexts (s t : String) : Ordering :=
  if s < t then .lt else if s = t then .eq else .gt

mutual
/-- Values of different kinds are ordered by kind. -/
def compare (a b : Value) : Ordering :=
  match a, b with
  | list xs, list ys => compareItems xs ys
  | dict es, dict fs => compareEntries es fs
  | a, b =>
    match Ord.compare a.rank b.rank with
    | .eq =>
      match pair? true a b with
      | some (.ints i j) => Ord.compare i j
      | some (.floats x y) => compareFloats x y
      | some (.texts s t) => compareTexts s t
      | .none => compareTexts a.written b.written
    | o => o
def compareItems : List Value → List Value → Ordering
  | [], [] => .eq
  | [], _ :: _ => .lt
  | _ :: _, [] => .gt
  | x :: xs, y :: ys =>
    match compare x y with
    | .eq => compareItems xs ys
    | o => o
def compareEntries : List (Value × Value) → List (Value × Value) → Ordering
  | [], [] => .eq
  | [], _ :: _ => .lt
  | _ :: _, [] => .gt
  | (k, v) :: es, (l, w) :: fs =>
    match compare k l with
    | .eq =>
      match compare v w with
      | .eq => compareEntries es fs
      | o => o
    | o => o
end

mutual
/-- Equality crosses the number types and takes truth values for numbers. -/
def same (a b : Value) : Bool :=
  match a, b with
  | undefined, undefined | none, none => true
  | list xs, list ys => sameItems xs ys
  | dict es, dict fs => sameEntries es fs
  | a, b =>
    match pair? true a b with
    | some (.ints i j) => i == j
    | some (.floats x y) => x == y
    | some (.texts s t) => s == t
    | .none => false
def sameItems : List Value → List Value → Bool
  | [], [] => true
  | x :: xs, y :: ys => same x y && sameItems xs ys
  | _, _ => false
def sameEntries : List (Value × Value) → List (Value × Value) → Bool
  | [], [] => true
  | (k, v) :: es, (l, w) :: fs => same k l && same v w && sameEntries es fs
  | _, _ => false
end

/-- Put an entry in its place, over one of the same key. -/
def insertEntry (key value : Value) : List (Value × Value) → List (Value × Value)
  | [] => [(key, value)]
  | (k, v) :: rest =>
    match compare key k with
    | .lt => (key, value) :: (k, v) :: rest
    | .eq => (key, value) :: rest
    | .gt => (k, v) :: insertEntry key value rest

def dictOf (entries : List (Value × Value)) : Value :=
  .dict (entries.foldl (fun d e => insertEntry e.1 e.2 d) [])

/-- The values that a loop over the value visits. -/
def items? : Value → Option (List Value)
  | undefined | none => some []
  | text s _ => some (s.toList.map fun c => str (String.singleton c))
  | list xs => some xs
  | dict es => some (es.map (·.1))
  | space es => some (es.map fun e => str e.1)
  | _ => .none

def length? : Value → Option Nat
  | text s _ => some s.length
  | list xs => some xs.length
  | dict es => some es.length
  | space es => some es.length
  | _ => .none

private def position? (key : Value) (length : Nat) : Option Nat :=
  (key.wholeIn? (-(Nat.pow 2 63)) (Nat.pow 2 63 - 1)).bind fun i =>
    if 0 ≤ i then some i.toNat
    else if (length : Int) + i < 0 then .none
    else some ((length : Int) + i).toNat

def loopAttr (index length depth : Nat) (previous following : Value) (name : String) :
    Option Value :=
  match name with
  | "index" => some (.int index)
  | "index0" => some (.int ((index : Int) - 1))
  | "length" => some (.int length)
  | "revindex" => some (.int ((length : Int) - index + 1))
  | "revindex0" => some (.int ((length : Int) - index))
  | "first" => some (.bool (index = 1))
  | "last" => some (.bool (index = length))
  | "depth" => some (.int (depth + 1))
  | "depth0" => some (.int depth)
  | "previtem" => some previous
  | "nextitem" => some following
  | _ => .none

/-- The item under a key or at a position, counted from the end when negative. -/
def item? (v key : Value) : Option Value :=
  match v with
  | text s _ => do
    let i ← position? key s.length
    let c ← s.toList[i]?
    return str (String.singleton c)
  | list xs => (position? key xs.length).bind (xs[·]?)
  | dict es => (es.find? fun e => same e.1 key).map (·.2)
  | space es =>
    match key with
    | text s _ => es.lookup s
    | _ => .none
  | loop index length depth previous following _ =>
    match key with
    | text s _ => loopAttr index length depth previous following s
    | _ => .none
  | _ => .none

def attr? (v : Value) (name : String) : Option Value :=
  match v with
  | dict _ | space _ | loop .. => v.item? (str name)
  | _ => .none

end Value
end GameIngress.Template
