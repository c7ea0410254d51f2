import GameIngress.Template.FieldDot
import Mathlib.Logic.IsEmpty.Basic

/-!
# Where field dots are dropped

Text without an opening brace passes as it is outside of braces, and inside of them everything does
that is neither a dot nor a closing brace.
-/
namespace GameIngress.Template

variable {before : Option Char} {c d : Char} {text rest : List Char}

theorem dropFieldDotsFrom_outside (h : c ≠ '{') :
    dropFieldDotsFrom false before (c :: rest) = c :: dropFieldDotsFrom false (some c) rest := by
  cases rest with
  | nil => rfl
  | cons d rest => simp [dropFieldDotsFrom, h]

theorem dropFieldDotsFrom_inside (hclose : c ≠ '}') (hdot : c ≠ '.') :
    dropFieldDotsFrom true before (c :: rest) = c :: dropFieldDotsFrom true (some c) rest := by
  cases rest with
  | nil => rfl
  | cons d rest => simp [dropFieldDotsFrom, hclose, hdot]

theorem dropFieldDotsFrom_open :
    dropFieldDotsFrom false before ('{' :: '{' :: rest) =
      '{' :: '{' :: dropFieldDotsFrom true (some '{') rest := by
  simp [dropFieldDotsFrom]

theorem dropFieldDotsFrom_close :
    dropFieldDotsFrom true before ('}' :: '}' :: rest) =
      '}' :: '}' :: dropFieldDotsFrom false (some '}') rest := by
  simp [dropFieldDotsFrom]

theorem dropFieldDotsFrom_dot (hbefore : before.any isFieldBoundary = true)
    (hfield : startsField d = true) :
    dropFieldDotsFrom true before ('.' :: d :: rest) =
      dropFieldDotsFrom true (some '.') (d :: rest) := by
  simp [dropFieldDotsFrom, hbefore, hfield]

theorem dropFieldDotsFrom_false_congr (before' : Option Char) :
    dropFieldDotsFrom false before rest = dropFieldDotsFrom false before' rest := by
  fun_cases dropFieldDotsFrom false before rest <;> simp_all [dropFieldDotsFrom]

theorem dropFieldDotsFrom_outside_append (h : '{' ∉ text) :
    dropFieldDotsFrom false before (text ++ rest) = text ++ dropFieldDotsFrom false none rest := by
  induction text generalizing before with
  | nil => exact dropFieldDotsFrom_false_congr none
  | cons c text ih =>
    rw [List.mem_cons, not_or] at h
    rw [List.cons_append, dropFieldDotsFrom_outside (Ne.symm h.1), ih h.2, List.cons_append]

/-- The character in front of what follows is the last one of the text, if it has any. -/
theorem dropFieldDotsFrom_inside_append (h : ∀ c ∈ text, c ≠ '}' ∧ c ≠ '.') :
    dropFieldDotsFrom true before (text ++ rest) =
      text ++ dropFieldDotsFrom true (text.getLast?.or before) rest := by
  induction text generalizing before with
  | nil => rfl
  | cons c text ih =>
    obtain ⟨hclose, hdot⟩ := h c List.mem_cons_self
    rw [List.cons_append, dropFieldDotsFrom_inside hclose hdot,
      ih fun d hd => h d (List.mem_cons_of_mem c hd), List.getLast?_cons, List.cons_append]
    cases text.getLast? <;> rfl

end GameIngress.Template
