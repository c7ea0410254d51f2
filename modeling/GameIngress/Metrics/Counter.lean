import GameIngress.Failure

/-!
# Counters

What the controller counts, and how often it happened.
-/
namespace GameIngress

inductive Counter where
  | skipped (reason : String)
  | created (kind : String)
  | errors (controller kind : String)
  | ready
  deriving DecidableEq, Repr

/-- Counters that are not zero, in the order of their first increment. -/
abbrev Tally := List (Counter × Nat)

namespace Tally

def bump (c : Counter) : Tally → Tally
  | [] => [(c, 1)]
  | (d, n) :: rest => if d = c then (d, n + 1) :: rest else (d, n) :: bump c rest

def count (t : Tally) (c : Counter) : Nat := (t.lookup c).getD 0

@[simp] theorem count_nil (c : Counter) : count [] c = 0 := rfl

theorem count_bump (c d : Counter) (t : Tally) :
    (t.bump c).count d = t.count d + if d = c then 1 else 0 := by
  induction t with
  | nil =>
    by_cases h : d = c
    · subst h; simp [bump, count]
    · have hb : (d == c) = false := by simpa using h
      simp [bump, count, List.lookup_cons, hb, h]
  | cons e rest ih =>
    obtain ⟨a, n⟩ := e
    simp only [count] at ih
    by_cases ha : a = c
    · subst ha
      by_cases hd : d = a
      · subst hd; simp [bump, count]
      · have : (d == a) = false := by simpa using hd
        simp [bump, count, List.lookup_cons, this, hd]
    · by_cases hd : d = a
      · subst hd; simp [bump, count, ha]
      · have hda : (d == a) = false := by simpa using hd
        simp only [bump, ha, if_false, count, List.lookup_cons, hda]
        exact ih

end Tally
end GameIngress
