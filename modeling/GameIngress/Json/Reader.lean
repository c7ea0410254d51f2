import GameIngress.Json.Basic

/-!
# Reading JSON

A reader takes the characters still to be read and returns a value with the rest. Nesting and
lengths are bounded by the number of characters, which serves as fuel.
-/
namespace GameIngress.Json

abbrev Read (α : Type) := List Char → Option (α × List Char)

def isSpace (c : Char) : Bool := c = ' ' || c = '\t' || c = '\n' || c = '\r'

def skipSpace (cs : List Char) : List Char := cs.dropWhile isSpace

def digitsValue (ds : List Char) : Nat := ds.foldl (fun n d => 10 * n + (d.toNat - 48)) 0

private def hexValue (c : Char) : Option Nat :=
  if c.isDigit then some (c.toNat - 48)
  else if 'a' ≤ c ∧ c ≤ 'f' then some (c.toNat - 87)
  else if 'A' ≤ c ∧ c ≤ 'F' then some (c.toNat - 55)
  else none

private def fourHex : Read Nat
  | a :: b :: c :: d :: rest => do
    let a ← hexValue a
    let b ← hexValue b
    let c ← hexValue c
    let d ← hexValue d
    some (((a * 16 + b) * 16 + c) * 16 + d, rest)
  | _ => none

/-- The character after a backslash; code points above the basic plane come as two units. -/
private def escape : Read Char
  | '"' :: r => some ('"', r)
  | '\\' :: r => some ('\\', r)
  | '/' :: r => some ('/', r)
  | 'b' :: r => some ('\x08', r)
  | 'f' :: r => some ('\x0c', r)
  | 'n' :: r => some ('\n', r)
  | 'r' :: r => some ('\r', r)
  | 't' :: r => some ('\t', r)
  | 'u' :: r => do
    let (hi, r) ← fourHex r
    if 0xD800 ≤ hi ∧ hi < 0xDC00 then
      match r with
      | '\\' :: 'u' :: r =>
        let (lo, r) ← fourHex r
        if 0xDC00 ≤ lo ∧ lo < 0xE000 then
          some (Char.ofNat (0x10000 + (hi - 0xD800) * 0x400 + (lo - 0xDC00)), r)
        else none
      | _ => none
    else if 0xDC00 ≤ hi ∧ hi < 0xE000 then none
    else some (Char.ofNat hi, r)
  | _ => none

/-- The characters up to the closing quote. -/
private def textBody : Nat → List Char → Read (List Char)
  | 0, _, _ => none
  | _ + 1, acc, '"' :: r => some (acc.reverse, r)
  | fuel + 1, acc, '\\' :: r => do
    let (c, r) ← escape r
    textBody fuel (c :: acc) r
  | fuel + 1, acc, c :: r => if c.toNat < 32 then none else textBody fuel (c :: acc) r
  | _ + 1, _, [] => none

private def number (cs : List Char) : Option (Json × List Char) := do
  let (negative, cs) := match cs with
    | '-' :: r => (true, r)
    | r => (false, r)
  let whole := cs.takeWhile Char.isDigit
  let cs := cs.dropWhile Char.isDigit
  if whole.isEmpty ∨ (whole.length > 1 ∧ whole.head? = some '0') then none
  let (fraction, cs) ← match cs with
    | '.' :: r =>
      let ds := r.takeWhile Char.isDigit
      if ds.isEmpty then none else some (some ds, r.dropWhile Char.isDigit)
    | r => some (none, r)
  let (exponent, cs) ← match cs with
    | 'e' :: r | 'E' :: r =>
      let (down, r) := match r with
        | '-' :: r => (true, r)
        | '+' :: r => (false, r)
        | r => (false, r)
      let ds := r.takeWhile Char.isDigit
      if ds.isEmpty then none
      else
        let e : Int := digitsValue ds
        some (some (if down then -e else e), r.dropWhile Char.isDigit)
    | r => some (none, r)
  let mantissa : Int := digitsValue (whole ++ fraction.getD [])
  let mantissa := if negative then -mantissa else mantissa
  match fraction, exponent with
  | none, none =>
    if (negative ∧ mantissa = 0) ∨ mantissa < -(Nat.pow 2 63) ∨ Nat.pow 2 64 ≤ mantissa then
      some (.decimal mantissa 0, cs)
    else some (.int mantissa, cs)
  | _, _ => some (.decimal mantissa (exponent.getD 0 - ((fraction.getD []).length : Nat)), cs)

private def word (w : String) (v : Json) (cs : List Char) : Option (Json × List Char) :=
  if w.toList.isPrefixOf cs then some (v, cs.drop w.length) else none

mutual
private def value : Nat → Read Json
  | 0, _ => none
  | fuel + 1, cs =>
    match skipSpace cs with
    | '"' :: r => (textBody (r.length + 1) [] r).map fun (s, r) => (.text (String.ofList s), r)
    | '[' :: r =>
      match skipSpace r with
      | ']' :: r => some (.array [], r)
      | r => (items fuel [] r).map fun (xs, r) => (.array xs, r)
    | '{' :: r =>
      match skipSpace r with
      | '}' :: r => some (.object [], r)
      | r => (members fuel [] r).map fun (ms, r) => (.object ms, r)
    | 't' :: r => word "true" (.bool true) ('t' :: r)
    | 'f' :: r => word "false" (.bool false) ('f' :: r)
    | 'n' :: r => word "null" .null ('n' :: r)
    | r => number r
private def items : Nat → List Json → Read (List Json)
  | 0, _, _ => none
  | fuel + 1, acc, cs => do
    let (v, r) ← value fuel cs
    match skipSpace r with
    | ',' :: r => items fuel (v :: acc) r
    | ']' :: r => some ((v :: acc).reverse, r)
    | _ => none
private def members : Nat → Members → Read Members
  | 0, _, _ => none
  | fuel + 1, acc, cs =>
    match skipSpace cs with
    | '"' :: r => do
      let (k, r) ← textBody (r.length + 1) [] r
      match skipSpace r with
      | ':' :: r =>
        let (v, r) ← value fuel r
        let acc := acc.set (String.ofList k) v
        match skipSpace r with
        | ',' :: r => members fuel acc r
        | '}' :: r => some (acc, r)
        | _ => none
      | _ => none
    | _ => none
end

/-- The value that the whole text stands for. -/
def parse? (s : String) : Option Json :=
  match value (2 * s.length + 2) s.toList with
  | some (v, r) => if (skipSpace r).isEmpty then some v else none
  | none => none

end GameIngress.Json
