import GameIngress.Text.Blank
import Mathlib.Data.List.DropRight

/-!
# Where a text is cut

A text is cut where the characters of one kind end. To trim it is to cut blanks off at both ends
until none is left there.
-/
namespace GameIngress.Text

section Run
variable {p : Char → Bool} {run rest : List Char}

theorem takeWhile_append_of_stop (hrun : ∀ c ∈ run, p c = true)
    (hstop : ∀ c ∈ rest.head?, p c = false) : (run ++ rest).takeWhile p = run := by
  rw [List.takeWhile_append_of_pos hrun]
  cases rest with
  | nil => exact List.append_nil run
  | cons c rest => rw [List.takeWhile_cons_of_neg (by simp [hstop c rfl]), List.append_nil]

theorem dropWhile_append_of_stop (hrun : ∀ c ∈ run, p c = true)
    (hstop : ∀ c ∈ rest.head?, p c = false) : (run ++ rest).dropWhile p = rest := by
  rw [List.dropWhile_append_of_pos hrun]
  cases rest with
  | nil => rfl
  | cons c rest => rw [List.dropWhile_cons_of_neg (by simp [hstop c rfl])]

end Run

variable {cs t : List Char}

/-- No blank stands at either end. -/
structure Bare (t : List Char) : Prop where
  head : ∀ c ∈ t.head?, isBlank c = false
  last : ∀ c ∈ t.getLast?, isBlank c = false

theorem Bare.append {a b : List Char} (ha : Bare a) (hb : Bare b) (hane : a ≠ []) (hbne : b ≠ []) :
    Bare (a ++ b) := by
  constructor
  · rw [List.head?_append_of_ne_nil a hane]
    exact ha.head
  · rw [List.getLast?_append_of_ne_nil a hbne]
    exact hb.last

/-- What is left without the blanks at both ends. -/
def Trims (cs t : List Char) : Prop :=
  ∃ l r, cs = l ++ t ++ r ∧ (∀ c ∈ l, isBlank c = true) ∧ (∀ c ∈ r, isBlank c = true) ∧ Bare t

theorem Trims.of_bare (h : Bare t) : Trims t t :=
  ⟨[], [], (List.append_nil t).symm, by simp, by simp, h⟩

theorem Trims.trim_eq (h : Trims cs t) : trim cs = t := by
  obtain ⟨l, r, rfl, hl, hr, hbare⟩ := h
  rw [trim, trimStart, List.append_assoc, List.dropWhile_append_of_pos hl]
  cases t with
  | nil => rw [List.nil_append, List.dropWhile_eq_nil_iff.mpr hr]; rfl
  | cons c t =>
    have hhead : ¬ isBlank c = true := by simpa using hbare.head c rfl
    rw [List.cons_append, List.dropWhile_cons_of_neg hhead, ← List.cons_append, trimEnd,
      List.reverse_append, List.dropWhile_append_of_pos (by simpa using hr)]
    refine List.rdropWhile_eq_self_iff.mpr fun hne => ?_
    simpa using hbare.last _ (List.getLast_mem_getLast? hne)

theorem trims_trim (cs : List Char) : Trims cs (trim cs) := by
  have hend : trim cs = (cs.dropWhile isBlank).rdropWhile isBlank := rfl
  refine ⟨cs.takeWhile isBlank, (cs.dropWhile isBlank).rtakeWhile isBlank, ?_,
    fun c => List.mem_takeWhile_imp, fun c => List.mem_rtakeWhile_imp, fun c hc => ?_,
    fun c hc => ?_⟩
  · rw [hend, List.append_assoc, List.rdropWhile_append_rtakeWhile,
      List.takeWhile_append_dropWhile]
  · obtain ⟨rest, hrest⟩ := List.rdropWhile_prefix isBlank (cs.dropWhile isBlank)
    have hhead := List.head?_dropWhile_not isBlank cs
    rw [← hrest, List.head?_append, ← hend, Option.mem_def.mp hc] at hhead
    simpa using hhead
  · have hne : trim cs ≠ [] := by
      rintro h
      rw [h] at hc
      cases hc
    have hlast := List.rdropWhile_last_not isBlank (cs.dropWhile isBlank) hne
    rw [Option.mem_def, List.getLast?_eq_some_getLast hne] at hc
    rw [← Option.some.inj hc]
    exact Bool.eq_false_iff.mpr hlast

end GameIngress.Text
