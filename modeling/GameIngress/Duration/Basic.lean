/-!
# Durations

Spans of time in whole nanoseconds, at most `2 ^ 64` seconds short of a nanosecond. Sums and
products that would exceed the greatest duration stop there.
-/
namespace GameIngress

structure Duration where
  nanos : Nat
  bounded : nanos < 0x10000000000000000 * 1000000000
  deriving DecidableEq

namespace Duration

def limit : Nat := 0x10000000000000000 * 1000000000

/-- The given count of nanoseconds, or the greatest duration if there is none so long. -/
def ofNanos (n : Nat) : Duration :=
  ⟨min n (limit - 1), by simp only [limit]; omega⟩

theorem nanos_ofNanos (n : Nat) : (ofNanos n).nanos = min n (limit - 1) := rfl

theorem ofNanos_nanos (d : Duration) : ofNanos d.nanos = d := by
  obtain ⟨n, h⟩ := d
  simp only [ofNanos, limit, mk.injEq]
  omega

def greatest : Duration := ofNanos (limit - 1)
def zero : Duration := ofNanos 0
def ofSecs (n : Nat) : Duration := ofNanos (n * 1000000000)
def ofMillis (n : Nat) : Duration := ofNanos (n * 1000000)

instance : Inhabited Duration := ⟨zero⟩
instance : LE Duration := ⟨fun a b => a.nanos ≤ b.nanos⟩
instance : LT Duration := ⟨fun a b => a.nanos < b.nanos⟩
instance (a b : Duration) : Decidable (a ≤ b) := inferInstanceAs (Decidable (a.nanos ≤ b.nanos))
instance (a b : Duration) : Decidable (a < b) := inferInstanceAs (Decidable (a.nanos < b.nanos))

theorem le_def {a b : Duration} : a ≤ b ↔ a.nanos ≤ b.nanos := Iff.rfl

def add (a b : Duration) : Duration := ofNanos (a.nanos + b.nanos)
def scale (a : Duration) (k : Nat) : Duration := ofNanos (a.nanos * k)
def least (a b : Duration) : Duration := if a ≤ b then a else b

instance : Add Duration := ⟨add⟩

/-- Whole seconds. -/
def secs (d : Duration) : Nat := d.nanos / 1000000000

/-- Nanoseconds beyond the whole seconds. -/
def subsecNanos (d : Duration) : Nat := d.nanos % 1000000000

/-- The number of milliseconds after which a timer of this span has fired. -/
def timerMillis (d : Duration) : Nat := (d.nanos + 999999) / 1000000

private def padLeft (width : Nat) (ds : List Char) : List Char :=
  List.replicate (width - ds.length) '0' ++ ds

/-- A count in a unit with `places` decimals, without zeros at the end. -/
private def inUnit (n places : Nat) : String :=
  let scale := Nat.pow 10 places
  let fraction := padLeft places (toString (n % scale)).toList
  let fraction := (fraction.reverse.dropWhile (· = '0')).reverse
  toString (n / scale)
    ++ (if fraction.isEmpty then "" else String.ofList ('.' :: fraction))

/-- The span in the largest of the units s, ms, µs and ns in which it is at least one. -/
def text (d : Duration) : String :=
  if 1000000000 ≤ d.nanos then inUnit d.nanos 9 ++ "s"
  else if 1000000 ≤ d.nanos then inUnit d.nanos 6 ++ "ms"
  else if 1000 ≤ d.nanos then inUnit d.nanos 3 ++ "µs"
  else inUnit d.nanos 0 ++ "ns"

end Duration
end GameIngress
