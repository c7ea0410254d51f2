/-!
# Association lists

A finite map as a list of pairs with at most one entry for a key. New keys go to the end.
-/
namespace GameIngress

abbrev Assoc (κ α : Type) := List (κ × α)

namespace Assoc

variable {κ α : Type} [DecidableEq κ]

def get? (k : κ) : Assoc κ α → Option α
  | [] => none
  | (a, v) :: rest => if a = k then some v else get? k rest

def set (k : κ) (v : α) : Assoc κ α → Assoc κ α
  | [] => [(k, v)]
  | (a, w) :: rest => if a = k then (k, v) :: rest else (a, w) :: set k v rest

def erase (k : κ) : Assoc κ α → Assoc κ α
  | [] => []
  | (a, w) :: rest => if a = k then erase k rest else (a, w) :: erase k rest

def contains (k : κ) (m : Assoc κ α) : Bool := (get? k m).isSome

@[simp] theorem get?_nil (k : κ) : get? k ([] : Assoc κ α) = none := rfl

theorem get?_set (k l : κ) (v : α) (m : Assoc κ α) :
    get? l (set k v m) = if k = l then some v else get? l m := by
  induction m with
  | nil => simp [set, get?]
  | cons e rest ih =>
    obtain ⟨a, w⟩ := e
    by_cases ha : a = k
    · subst ha; by_cases hl : a = l <;> simp [set, get?, hl]
    · by_cases hl : a = l
      · subst hl
        have : ¬ k = a := fun h => ha h.symm
        simp [set, get?, ha, this]
      · simp [set, get?, ha, hl, ih]

theorem get?_erase (k l : κ) (m : Assoc κ α) :
    get? l (erase k m) = if k = l then none else get? l m := by
  induction m with
  | nil => simp [erase, get?]
  | cons e rest ih =>
    obtain ⟨a, w⟩ := e
    by_cases ha : a = k
    · subst ha
      by_cases hl : a = l
      · subst hl; simp [erase, ih]
      · simp [erase, get?, hl, ih]
    · by_cases hl : a = l
      · subst hl
        have : ¬ k = a := fun h => ha h.symm
        simp [erase, get?, ha, this]
      · simp [erase, get?, ha, hl, ih]

end Assoc
end GameIngress
