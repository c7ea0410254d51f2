import GameIngress.Text.PrintableTable

/-!
# Text in quotes or braces

A text in double quotes, in which quotes, backslashes and the usual controls carry a backslash, and
every other character without a visible form of its own is written by its code point in braces.
-/
namespace GameIngress.Text

/-- Membership in a table of inclusive ranges in increasing order, by bisection. -/
def inRanges (table : Array (Nat × Nat)) (n : Nat) : Bool :=
  go table.size 0 table.size
where
  go : Nat → Nat → Nat → Bool
  | 0, _, _ => false
  | fuel + 1, lo, hi =>
    if lo < hi then
      let mid := (lo + hi) / 2
      match table[mid]? with
      | none => false
      | some (first, last) =>
        if n < first then go fuel lo mid
        else if last < n then go fuel (mid + 1) hi
        else true
    else false

/-- The character can stand for itself in quoted text. -/
def isVisible (c : Char) : Bool :=
  !inRanges unprintableRanges c.toNat && !inRanges extendingRanges c.toNat

/-- Lower-case hexadecimal digits, without leading zeros. -/
def hexDigits (n : Nat) : List Char := Nat.toDigits 16 n

/-- The form of one character inside the quotes. -/
def escaped (c : Char) : List Char :=
  match c with
  | '"' => ['\\', '"']
  | '\\' => ['\\', '\\']
  | '\n' => ['\\', 'n']
  | '\r' => ['\\', 'r']
  | '\t' => ['\\', 't']
  | '\x00' => ['\\', '0']
  | c =>
    if isVisible c then [c] else '\\' :: 'u' :: '{' :: (hexDigits c.toNat ++ ['}'])

/-- The text in quotes. -/
def quoted (s : String) : String :=
  String.ofList ('"' :: s.toList.flatMap escaped ++ ['"'])

/-- The text in braces, as it is. -/
def braced (s : String) : String :=
  String.ofList ('{' :: s.toList ++ ['}'])

end GameIngress.Text
