/-!
# Maps from texts to texts

Labels and annotations. The entries are kept in increasing order of their keys, so equal maps have
equal entries.
-/
namespace GameIngress

abbrev TextMap.Sorted (entries : List (String × String)) : Prop :=
  entries.Pairwise fun a b => a.1 < b.1

structure TextMap where
  entries : List (String × String)
  sorted : TextMap.Sorted entries
  deriving DecidableEq

namespace TextMap

def empty : TextMap := ⟨[], .nil⟩

instance : Inhabited TextMap := ⟨empty⟩

def insertEntry (key value : String) : List (String × String) → List (String × String)
  | [] => [(key, value)]
  | e :: rest =>
    if key < e.1 then (key, value) :: e :: rest
    else if key = e.1 then (key, value) :: rest
    else e :: insertEntry key value rest

theorem mem_insertEntry {key value : String} {es : List (String × String)} {e : String × String}
    (h : e ∈ insertEntry key value es) : e.1 = key ∨ e ∈ es := by
  induction es with
  | nil => simp only [insertEntry, List.mem_singleton] at h; exact .inl (by rw [h])
  | cons d ds ih =>
    simp only [insertEntry] at h
    split at h
    · rcases List.mem_cons.1 h with h | h
      · exact .inl (by rw [h])
      · exact .inr h
    · split at h
      · rcases List.mem_cons.1 h with h | h
        · exact .inl (by rw [h])
        · exact .inr (List.mem_cons_of_mem _ h)
      · rcases List.mem_cons.1 h with h | h
        · exact .inr (by rw [h]; exact List.mem_cons_self)
        · exact (ih h).imp_right (List.mem_cons_of_mem _)

theorem lt_of_not_lt_of_ne {a b : String} (h : ¬ a < b) (hne : a ≠ b) : b < a :=
  Decidable.byContradiction fun hba =>
    hne (String.le_antisymm (String.not_lt.1 hba) (String.not_lt.1 h))

theorem sorted_insertEntry {es : List (String × String)} (key value : String) (h : Sorted es) :
    Sorted (insertEntry key value es) := by
  induction es with
  | nil => simp [insertEntry, Sorted]
  | cons d ds ih =>
    have ⟨hd, hds⟩ := List.pairwise_cons.1 h
    simp only [insertEntry]
    split
    · next hlt =>
      refine List.pairwise_cons.2 ⟨fun e he => ?_, h⟩
      rcases List.mem_cons.1 he with he | he
      · rw [he]; exact hlt
      · exact String.lt_trans hlt (hd e he)
    · next hnlt =>
      split
      · next heq => exact List.pairwise_cons.2 ⟨fun e he => heq ▸ hd e he, hds⟩
      · next hne =>
        refine List.pairwise_cons.2 ⟨fun e he => ?_, ih hds⟩
        rcases mem_insertEntry he with he | he
        · rw [he]; exact lt_of_not_lt_of_ne hnlt hne
        · exact hd e he

def insert (m : TextMap) (key value : String) : TextMap :=
  ⟨insertEntry key value m.entries, sorted_insertEntry key value m.sorted⟩

def erase (m : TextMap) (key : String) : TextMap :=
  ⟨m.entries.filter (·.1 != key), m.sorted.sublist List.filter_sublist⟩

def get? (m : TextMap) (key : String) : Option String := m.entries.lookup key

def contains (m : TextMap) (key : String) : Bool := (m.get? key).isSome

/-- Later entries win over earlier ones of the same key. -/
def ofList (es : List (String × String)) : TextMap :=
  es.foldl (fun m e => m.insert e.1 e.2) empty

end TextMap
end GameIngress
