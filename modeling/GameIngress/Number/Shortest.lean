import GameIngress.Number.Binary

/-!
# Shortest decimals

Of the decimals that are nearest to a given double and to no other, those with the fewest digits,
and of these the one nearest to the double.
-/
namespace GameIngress.Number

/-- The value `digits * 10 ^ exponent`. -/
structure Decimal where
  digits : Nat
  exponent : Int
  deriving DecidableEq, Inhabited

/-- A positive rational with the ends of the interval that rounds to it, over one denominator. -/
structure Interval where
  low : Nat
  value : Nat
  high : Nat
  denominator : Nat
  closed : Bool

namespace Interval

/-- The reals that round to `m * 2 ^ e`. The gap below a power of two is half as wide. -/
def ofBinary (m : Nat) (e : Int) : Interval :=
  let below := if m = Nat.pow 2 52 ∧ e > -1074 then 1 else 2
  let shift := e - 2
  let factor := if 0 ≤ shift then Nat.pow 2 shift.natAbs else 1
  { low := (4 * m - below) * factor
    value := 4 * m * factor
    high := (4 * m + 2) * factor
    denominator := if 0 ≤ shift then 1 else Nat.pow 2 shift.natAbs
    closed := m % 2 = 0 }

/-- Whether `n / d` lies in the interval. -/
def holds (i : Interval) (n d : Nat) : Bool :=
  let x := n * i.denominator
  if i.closed then i.low * d ≤ x && x ≤ i.high * d else i.low * d < x && x < i.high * d

/-- The multiple of `10 ^ scale` in the interval that is nearest to the value. -/
def onGrid (i : Interval) (scale : Int) : Option Nat :=
  let up := if 0 ≤ scale then Nat.pow 10 scale.natAbs else 1
  let down := if 0 ≤ scale then 1 else Nat.pow 10 scale.natAbs
  let q := i.value * down / (i.denominator * up)
  let lower := 0 < q && i.holds (q * up) down
  let upper := i.holds ((q + 1) * up) down
  let nearLower := 2 * (i.value * down - q * (i.denominator * up)) ≤ i.denominator * up
  if lower && (nearLower || !upper) then some q
  else if upper then some (q + 1)
  else none

end Interval

/-- The exponent of the leading decimal digit of `n / d`. -/
def leadingExponent (n d : Nat) : Int :=
  if d ≤ n then ((toString (n / d)).length : Int) - 1
  else -((go 400 1 (n * 10) : Nat) : Int)
where
  go : Nat → Nat → Nat → Nat
  | 0, k, _ => k
  | fuel + 1, k, m => if d ≤ m then k else go fuel (k + 1) (m * 10)

private def trimZeros : Nat → Decimal → Decimal
  | 0, d => d
  | fuel + 1, d =>
    if d.digits ≠ 0 ∧ d.digits % 10 = 0 then trimZeros fuel ⟨d.digits / 10, d.exponent + 1⟩ else d

/-- The shortest decimal of the positive double `m * 2 ^ e`. -/
def shortest (m : Nat) (e : Int) : Decimal :=
  if m = 0 then ⟨0, 0⟩
  else
    let i := Interval.ofBinary m e
    let top := leadingExponent i.value i.denominator
    trimZeros 20 (search i top 17 1)
where
  search (i : Interval) (top : Int) : Nat → Nat → Decimal
    | 0, n => ⟨0, n⟩
    | fuel + 1, n =>
      let scale := top - n + 1
      match i.onGrid scale with
      | some q => ⟨q, scale⟩
      | none => search i top fuel (n + 1)

/-- All the digits, without an exponent. -/
def Decimal.positional (d : Decimal) : String :=
  let ds := (toString d.digits).toList
  if 0 ≤ d.exponent then String.ofList (ds ++ List.replicate d.exponent.natAbs '0')
  else
    let places := d.exponent.natAbs
    let ds := List.replicate (places + 1 - ds.length) '0' ++ ds
    String.ofList (ds.take (ds.length - places) ++ '.' :: ds.drop (ds.length - places))

/-- One digit before the point and an exponent after the letter `e`. -/
def Decimal.scientific (d : Decimal) : String :=
  let ds := (toString d.digits).toList
  let exponent := d.exponent + (ds.length : Int) - 1
  String.ofList (ds.take 1) ++ (if ds.length > 1 then String.ofList ('.' :: ds.drop 1) else "")
    ++ "e" ++ toString exponent

end GameIngress.Number
