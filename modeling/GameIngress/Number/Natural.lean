/-!
# Written natural numbers

Decimal digits, after at most one plus sign, that stand for a number below a bound. Of several
faults the leftmost one is reported.
-/
namespace GameIngress.Number

inductive NaturalError where
  | empty
  | notDigit
  | tooLarge
  deriving DecidableEq, Repr

namespace NaturalError

def message : NaturalError → String
  | empty => "cannot parse integer from empty string"
  | notDigit => "invalid digit found in string"
  | tooLarge => "number too large to fit in target type"

end NaturalError

/-- The number of `value` followed by digits, which has to stay below the bound all along. -/
def readDigits (bound value : Nat) : List Char → Except NaturalError Nat
  | [] => .ok value
  | c :: cs =>
    if c.isDigit then
      let value := 10 * value + (c.toNat - 48)
      if value < bound then readDigits bound value cs else .error .tooLarge
    else .error .notDigit

def readNatural (bound : Nat) (s : String) : Except NaturalError Nat :=
  match s.toList with
  | [] => .error .empty
  | ['+'] => .error .notDigit
  | '+' :: cs => readDigits bound 0 cs
  | cs => readDigits bound 0 cs

end GameIngress.Number
