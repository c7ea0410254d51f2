import GameIngress.Number.Shortest

/-!
# Digits from scaled words

A quick way to decimal digits that read back: the double and the ends of the interval that rounds to
it are multiplied by a power of ten, all of them to 64 bits, and digits are taken until what is left
is within the interval. The digits are not always the fewest, nor the nearest.
-/
namespace GameIngress.Number

/-- The value `f * 2 ^ e` with a 64-bit `f`. -/
structure Word where
  f : Nat
  e : Int
  deriving DecidableEq, Inhabited

namespace Word

/-- Shift the significand up until it has 64 bits. -/
def normalize (w : Word) : Word :=
  let shift := 63 - w.f.log2
  ⟨w.f * Nat.pow 2 shift, w.e - shift⟩

/-- The product, rounded to 64 bits. -/
def mul (a b : Word) : Word := ⟨(a.f * b.f + Nat.pow 2 63) / Nat.pow 2 64, a.e + b.e + 64⟩

/-- The nearest word to `n / d`. -/
def ofRatio (n d : Nat) : Word :=
  let guess : Int := (n.log2 : Int) - d.log2 - 63
  let scaled (e : Int) : Nat × Nat :=
    if 0 ≤ e then (n, d * Nat.pow 2 e.natAbs) else (n * Nat.pow 2 e.natAbs, d)
  let fits (e : Int) : Bool := let (n, d) := scaled e; Nat.pow 2 63 * d ≤ n
  let e := if fits guess then guess else guess - 1
  let (n, d) := scaled e
  let f := (2 * n + d) / (2 * d)
  if f = Nat.pow 2 64 then ⟨Nat.pow 2 63, e + 1⟩ else ⟨f, e⟩

/-- The power of ten with exponent `k`. -/
def powerOfTen (k : Int) : Word :=
  if 0 ≤ k then ofRatio (Nat.pow 10 k.natAbs) 1 else ofRatio 1 (Nat.pow 10 k.natAbs)

end Word

/-- The exponent of the power of ten, a multiple of eight beyond -348, that brings a word with
exponent `e` into the range of the digit loop. -/
def scaleFor (e : Int) : Int :=
  let unit := Nat.pow 10 17
  let index := ((-61 - e) * 30102999566398114 + 347 * unit + (unit - 1)) / unit
  (index / 8 + 1) * 8 - 348

namespace ScaledDigits

/-- What the digit loop works on: a fraction of `shift` bits, and the distance from the upper end to
the value. -/
structure Range where
  shift : Nat
  distance : Nat

/-- Lower the last digit while that brings the digits nearer to the value. -/
def approach (digits delta rest unit distance : Nat) : Nat → Nat
  | 0 => digits
  | fuel + 1 =>
    if rest < distance ∧ unit ≤ delta - rest ∧
        (rest + unit < distance ∨ rest + unit - distance < distance - rest) then
      approach (digits - 1) delta (rest + unit) unit distance fuel
    else digits

/-- Take digits of the fraction. -/
def fraction (r : Range) (digits rest delta : Nat) (taken : Nat) : Nat → Decimal
  | 0 => ⟨digits, -(taken : Int)⟩
  | fuel + 1 =>
    let rest := rest * 10
    let delta := delta * 10
    let taken := taken + 1
    let digits := digits * 10 + rest / Nat.pow 2 r.shift
    let rest := rest % Nat.pow 2 r.shift
    if rest < delta then
      let distance := if taken < 9 then r.distance * Nat.pow 10 taken else 0
      ⟨approach digits delta rest (Nat.pow 2 r.shift) distance 10, -(taken : Int)⟩
    else fraction r digits rest delta taken fuel

/-- Take digits of the integer part, of which `left` are left in `whole`, then of the fraction. -/
def whole (r : Range) (digits integer rest delta : Nat) : Nat → Decimal
  | 0 => fraction r digits rest delta 0 25
  | left + 1 =>
    let digits := digits * 10 + integer / Nat.pow 10 left
    let integer := integer % Nat.pow 10 left
    let remaining := integer * Nat.pow 2 r.shift + rest
    if remaining ≤ delta then
      let unit := Nat.pow 10 left * Nat.pow 2 r.shift
      ⟨approach digits delta remaining unit r.distance 10, left⟩
    else whole r digits integer rest delta left

end ScaledDigits

/-- Digits of the positive double `m * 2 ^ e`. -/
def scaledDigits (m : Nat) (e : Int) : Decimal :=
  let upper := Word.normalize ⟨2 * m + 1, e - 1⟩
  let lower : Word := if m = Nat.pow 2 52 then ⟨4 * m - 1, e - 2⟩ else ⟨2 * m - 1, e - 1⟩
  let lower : Word := ⟨lower.f * Nat.pow 2 (lower.e - upper.e).natAbs, upper.e⟩
  let k := scaleFor upper.e
  let power := Word.powerOfTen k
  let value := (Word.normalize ⟨m, e⟩).mul power
  let high := (upper.mul power).f - 1
  let low := (lower.mul power).f + 1
  let shift := (upper.mul power).e.natAbs
  let first := high / Nat.pow 2 shift
  let rest := high % Nat.pow 2 shift
  let d := ScaledDigits.whole ⟨shift, high - value.f⟩ 0 first rest (high - low)
    (toString first).length
  ⟨d.digits, d.exponent - k⟩

end GameIngress.Number
