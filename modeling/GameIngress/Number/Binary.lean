/-!
# Binary floating point

A finite double is a sign, a significand below `2 ^ 53` and a power of two.
-/
namespace GameIngress.Number

/-- The value `(-1) ^ negative * significand * 2 ^ exponent`. -/
structure Binary where
  negative : Bool
  significand : Nat
  exponent : Int
  deriving DecidableEq, Inhabited

inductive FloatClass where
  | notANumber
  | infinite (negative : Bool)
  | finite (b : Binary)

def classify (x : Float) : FloatClass :=
  let bits := x.toBits.toNat
  let negative := Nat.pow 2 63 ≤ bits
  let biased : Nat := bits / Nat.pow 2 52 % 2048
  let fraction := bits % Nat.pow 2 52
  if biased = 2047 then
    if fraction = 0 then .infinite negative else .notANumber
  else if biased = 0 then .finite ⟨negative, fraction, -1074⟩
  else .finite ⟨negative, fraction + Nat.pow 2 52, (biased : Int) - 1075⟩

/-- The double nearest to `(-1) ^ negative * significand * 10 ^ exponent`. -/
def ofDecimal (negative : Bool) (significand : Nat) (exponent : Int) : Float :=
  let digits := (toString significand).length
  let x :=
    if significand = 0 ∨ exponent + digits < -400 then (0.0 : Float)
    else if 400 < exponent + digits then (1.0 : Float) / 0.0
    else if exponent < 0 then Float.ofScientific significand true exponent.natAbs
    else Float.ofScientific (significand * Nat.pow 10 exponent.natAbs) false 0
  if negative then -x else x

/-- The double nearest to an integer. -/
def ofInt (i : Int) : Float := ofDecimal (i < 0) i.natAbs 0

/-- The integer part of a finite value, toward zero. -/
def Binary.truncate (b : Binary) : Int :=
  let n := if 0 ≤ b.exponent then b.significand * Nat.pow 2 b.exponent.natAbs
    else b.significand / Nat.pow 2 b.exponent.natAbs
  if b.negative then -n else n

/-- Whether a finite value is a whole number. -/
def Binary.isWhole (b : Binary) : Bool :=
  0 ≤ b.exponent || b.significand % Nat.pow 2 b.exponent.natAbs = 0

end GameIngress.Number
