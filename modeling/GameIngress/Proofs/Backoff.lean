import GameIngress.Backoff
import Mathlib.Algebra.Group.Nat.Defs

/-!
# Waits that double

A product of durations is exact below the greatest duration, though seconds and nanoseconds are
multiplied apart and what the nanoseconds come to in seconds is carried. As no cap is greater than
the greatest duration, a wait is what it would be if durations had no bound.
-/
namespace GameIngress

namespace Duration

variable {a b : Duration}

theorem eq_of_nanos (h : a.nanos = b.nanos) : a = b := by
  cases a
  cases b
  cases h
  rfl

/-- The product of seconds and nanoseconds in 64 bits each, unless its seconds are too many. -/
def carriedProduct? (d : Duration) (k : Nat) : Option Duration :=
  let nanos := d.subsecNanos * k
  let secs := d.secs * k + nanos / 1000000000
  if h : secs < 0x10000000000000000 then
    some ⟨secs * 1000000000 + nanos % 1000000000, by omega⟩
  else none

theorem scale_eq_carriedProduct (d : Duration) (k : Nat) :
    d.scale k = (d.carriedProduct? k).getD greatest := by
  have hparts : d.nanos = d.secs * 1000000000 + d.subsecNanos := by
    rw [secs, subsecNanos, Nat.mul_comm, Nat.div_add_mod]
  have hproduct : d.nanos * k = (d.secs * k + d.subsecNanos * k / 1000000000) * 1000000000 +
      d.subsecNanos * k % 1000000000 := by
    have hcarry := Nat.div_add_mod (d.subsecNanos * k) 1000000000
    rw [hparts, Nat.add_mul, Nat.add_mul, Nat.add_assoc, Nat.mul_right_comm]
    omega
  apply eq_of_nanos
  rw [scale, nanos_ofNanos, hproduct]
  unfold carriedProduct?
  dsimp only
  split
  · next hfits =>
    simp only [Option.getD_some, limit]
    omega
  · next hlarge =>
    simp only [Option.getD_none, greatest, nanos_ofNanos, limit]
    omega

theorem nanos_least (a b : Duration) : (a.least b).nanos = min a.nanos b.nanos := by
  rw [least]
  split
  · next h => rw [Nat.min_eq_left h]
  · next h => rw [Nat.min_eq_right (Nat.le_of_not_le h)]

theorem nanos_le (d : Duration) : d.nanos ≤ limit - 1 := by
  have hbounded := d.bounded
  rw [limit]
  omega

end Duration

variable {attempt attempt' : Nat} {base cap : Duration}

/-- The wait as it is reckoned in machine words: the power of two has 32 bits, the seconds have 64.
-/
def heldDelay (attempt : Nat) (base cap : Duration) : Duration :=
  let factor := min (2 ^ min attempt 16) (2 ^ 32 - 1)
  ((base.carriedProduct? factor).getD .greatest).least cap

theorem doublings_lt (attempt : Nat) : 2 ^ min attempt 16 < 2 ^ 32 :=
  Nat.pow_lt_pow_right (by decide) (by omega)

theorem backoffDelay_eq_heldDelay (attempt : Nat) (base cap : Duration) :
    backoffDelay attempt base cap = heldDelay attempt base cap := by
  have hfactor : min (2 ^ min attempt 16) (2 ^ 32 - 1) = 2 ^ min attempt 16 := by
    have hlt := doublings_lt attempt
    omega
  rw [backoffDelay, Nat.pow_eq, Duration.scale_eq_carriedProduct, heldDelay, hfactor]

theorem nanos_backoffDelay (attempt : Nat) (base cap : Duration) :
    (backoffDelay attempt base cap).nanos = min cap.nanos (base.nanos * 2 ^ min attempt 16) := by
  have hcap := cap.nanos_le
  rw [backoffDelay, Nat.pow_eq, Duration.nanos_least, Duration.scale, Duration.nanos_ofNanos]
  omega

theorem backoffDelay_le_of_min_le (h : min attempt 16 ≤ attempt') (base cap : Duration) :
    backoffDelay attempt base cap ≤ backoffDelay attempt' base cap := by
  have hpow : 2 ^ min attempt 16 ≤ 2 ^ min attempt' 16 :=
    Nat.pow_le_pow_right (by decide) (by omega)
  have hproduct := Nat.mul_le_mul_left base.nanos hpow
  rw [Duration.le_def, nanos_backoffDelay, nanos_backoffDelay]
  omega

theorem backoffDelay_bounds (h : base ≤ cap) (attempt : Nat) :
    base ≤ backoffDelay attempt base cap ∧ backoffDelay attempt base cap ≤ cap := by
  have hproduct := Nat.le_mul_of_pos_right base.nanos (Nat.two_pow_pos (min attempt 16))
  rw [Duration.le_def] at h
  rw [Duration.le_def, Duration.le_def, nanos_backoffDelay]
  omega

end GameIngress
