/-!
# Socket addresses

An IPv4 address has four decimal octets without leading zeros. An IPv6 address has eight hexadecimal
groups; a run of zero groups may be left out once, the last two groups may be written as an IPv4
address, and brackets set it apart from the port. The longest run of zero groups, of at least two,
is left out in print.
-/
namespace GameIngress.Net

inductive Address where
  | v4 (octets : List Nat) (port : Nat)
  | v6 (groups : List Nat) (scope port : Nat)
  deriving DecidableEq, Repr, Inhabited

namespace Address

/-- A reader takes characters from the front. -/
abbrev Reader (α : Type) := List Char → Option (α × List Char)

def digit? (radix : Nat) (c : Char) : Option Nat :=
  let n := c.toNat
  let value : Option Nat :=
    if 48 ≤ n ∧ n ≤ 57 then some (n - 48)
    else if 97 ≤ n ∧ n ≤ 102 then some (n - 87)
    else if 65 ≤ n ∧ n ≤ 70 then some (n - 55)
    else none
  value.filter (· < radix)

def digitsOf (radix : Nat) : List Char → List Nat × List Char
  | [] => ([], [])
  | c :: cs =>
    match digit? radix c with
    | some d => let (ds, rest) := digitsOf radix cs; (d :: ds, rest)
    | none => ([], c :: cs)

/-- A number below a bound, of at most so many digits. -/
def number (radix bound : Nat) (maxDigits : Option Nat) (leadingZero : Bool) : Reader Nat :=
  fun cs =>
    let (ds, rest) := digitsOf radix cs
    let value := ds.foldl (fun n d => n * radix + d) 0
    if ds.isEmpty || maxDigits.any (· < ds.length)
        || (!leadingZero && 1 < ds.length && ds.head? = some 0) || bound ≤ value then none
    else some (value, rest)

def char (c : Char) : Reader Unit
  | d :: rest => if c = d then some ((), rest) else none
  | [] => none

/-- An item that follows a separator, unless it is the first one. -/
def separated {α : Type} (c : Char) (index : Nat) (item : Reader α) : Reader α := fun cs =>
  if index = 0 then item cs
  else do
    let (_, cs) ← char c cs
    item cs

def octets : Reader (List Nat) := fun cs => do
  let octet := number 10 256 (some 3) false
  let (a, cs) ← octet cs
  let (b, cs) ← separated '.' 1 octet cs
  let (c, cs) ← separated '.' 2 octet cs
  let (d, cs) ← separated '.' 3 octet cs
  return ([a, b, c, d], cs)

/-- Groups from `index` on while there are any, at most `left` of them, and whether they end with an
IPv4 address. -/
def groupsFrom (index : Nat) : Nat → List Char → (List Nat × Bool) × List Char
  | 0, cs => (([], false), cs)
  | left + 1, cs =>
    let embedded := if 0 < left then separated ':' index octets cs else none
    match embedded with
    | some ([a, b, c, d], rest) => (([a * 256 + b, c * 256 + d], true), rest)
    | _ =>
      match separated ':' index (number 16 65536 (some 4) true) cs with
      | some (g, rest) =>
        let ((gs, dottedEnd), rest) := groupsFrom (index + 1) left rest
        ((g :: gs, dottedEnd), rest)
      | none => (([], false), cs)

def groups : Reader (List Nat) := fun cs =>
  let ((head, dottedEnd), cs) := groupsFrom 0 8 cs
  if head.length = 8 then some (head, cs)
  else if dottedEnd then none
  else do
    let (_, cs) ← char ':' cs
    let (_, cs) ← char ':' cs
    let ((tail, _), cs) := groupsFrom 0 (7 - head.length) cs
    return (head ++ List.replicate (8 - head.length - tail.length) 0 ++ tail, cs)

def portAfterColon : Reader Nat := fun cs => do
  let (_, cs) ← char ':' cs
  number 10 65536 none true cs

def readV4 : Reader Address := fun cs => do
  let (os, cs) ← octets cs
  let (port, cs) ← portAfterColon cs
  return (.v4 os port, cs)

def readV6 : Reader Address := fun cs => do
  let (_, cs) ← char '[' cs
  let (gs, cs) ← groups cs
  let zone : Option (Nat × List Char) := do
    let (_, cs) ← char '%' cs
    number 10 (Nat.pow 2 32) none true cs
  let (scope, cs) := zone.getD (0, cs)
  let (_, cs) ← char ']' cs
  let (port, cs) ← portAfterColon cs
  return (.v6 gs scope port, cs)

def read? (s : String) : Option Address :=
  let whole (r : Option (Address × List Char)) : Option Address :=
    match r with
    | some (a, []) => some a
    | _ => none
  match readV4 s.toList with
  | some r => whole (some r)
  | none => whole (readV6 s.toList)

def dotted (os : List Nat) : String := String.intercalate "." (os.map toString)

def colons (gs : List Nat) : String :=
  String.intercalate ":" (gs.map fun g => String.ofList (Nat.toDigits 16 g))

/-- The start and the length of the first of the longest runs of zeros. -/
def longestRun (gs : List Nat) : Nat × Nat :=
  (List.range gs.length).foldl (fun best i =>
    let run := ((gs.drop i).takeWhile (· = 0)).length
    if best.2 < run then (i, run) else best) (0, 0)

def groupsText (gs : List Nat) : String :=
  match gs with
  | [0, 0, 0, 0, 0, 65535, a, b] => "::ffff:" ++ dotted [a / 256, a % 256, b / 256, b % 256]
  | gs =>
    let (start, length) := longestRun gs
    if 1 < length then colons (gs.take start) ++ "::" ++ colons (gs.drop (start + length))
    else colons gs

def text : Address → String
  | v4 os port => dotted os ++ ":" ++ toString port
  | v6 gs scope port =>
    "[" ++ groupsText gs ++ (if scope = 0 then "" else "%" ++ toString scope) ++ "]:"
      ++ toString port

end Address
end GameIngress.Net
