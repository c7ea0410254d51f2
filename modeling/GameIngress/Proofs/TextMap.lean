import GameIngress.Object.Meta

/-!
# Lookups in maps of texts, and in the annotations of objects
-/
namespace GameIngress

theorem lookup_cons_ite {α : Type} (k : String) (e : String × α) (es : List (String × α)) :
    (e :: es).lookup k = if k = e.1 then some e.2 else es.lookup k := by
  rw [List.lookup_cons]
  by_cases hk : k = e.1
  · rw [if_pos hk, hk, beq_self_eq_true]
  · rw [if_neg hk, beq_false_of_ne hk]

theorem lookup_of_notMem {α : Type} {es : List (String × α)} {k : String}
    (h : k ∉ es.map (·.1)) : es.lookup k = none := by
  rw [List.lookup_eq_none_iff]
  intro e he
  have hne : k ≠ e.1 := by
    rintro rfl
    exact h (List.mem_map_of_mem he)
  simpa using hne

theorem lookup_of_mem {α : Type} {es : List (String × α)} {e : String × α}
    (hd : (es.map (·.1)).Nodup) (h : e ∈ es) : es.lookup e.1 = some e.2 := by
  induction es with
  | nil => cases h
  | cons d rest ih =>
    obtain ⟨hnot, hrest⟩ := List.nodup_cons.mp hd
    rw [lookup_cons_ite]
    rcases List.mem_cons.mp h with rfl | h
    · rw [if_pos rfl]
    · have hne : e.1 ≠ d.1 := fun heq => hnot (List.mem_map.mpr ⟨e, h, heq⟩)
      rw [if_neg hne]
      exact ih hrest h

namespace TextMap

variable {m : TextMap} {k k' v : String} {es : List (String × String)}

theorem nodup_keys (m : TextMap) : (m.entries.map (·.1)).Nodup := by
  refine List.pairwise_map.mpr (m.sorted.imp ?_)
  intro a b hlt heq
  exact String.lt_irrefl _ (heq ▸ hlt)

theorem get?_insert (m : TextMap) (k v k' : String) :
    (m.insert k v).get? k' = if k' = k then some v else m.get? k' := by
  obtain ⟨es, hsorted⟩ := m
  change (insertEntry k v es).lookup k' = if k' = k then some v else es.lookup k'
  clear hsorted
  induction es with
  | nil => rw [insertEntry, lookup_cons_ite]
  | cons d ds ih =>
    simp only [insertEntry]
    split
    · rw [lookup_cons_ite]
    · split
      · next heq =>
        subst heq
        rw [lookup_cons_ite, lookup_cons_ite]
        split <;> rfl
      · next hne =>
        rw [lookup_cons_ite, lookup_cons_ite, ih]
        by_cases hd : k' = d.1
        · have hk : k' ≠ k := fun h => hne (h.symm.trans hd)
          rw [if_pos hd, if_neg hk, if_pos hd]
        · rw [if_neg hd, if_neg hd]

theorem get?_of_mem {e : String × String} (h : e ∈ m.entries) : m.get? e.1 = some e.2 :=
  lookup_of_mem m.nodup_keys h

theorem mem_of_get? (h : m.get? k = some v) : (k, v) ∈ m.entries := by
  obtain ⟨l₁, l₂, hsplit, -⟩ := List.lookup_eq_some_iff.mp h
  rw [hsplit]
  exact List.mem_append_right _ List.mem_cons_self

theorem get?_ofList (hd : (es.map (·.1)).Nodup) : (ofList es).get? k = es.lookup k := by
  have hfold : ∀ m : TextMap, (es.foldl (fun m e => m.insert e.1 e.2) m).get? k =
      (es.lookup k).or (m.get? k) := by
    induction es with
    | nil => intro m; rfl
    | cons e rest ih =>
      intro m
      obtain ⟨hnot, hrest⟩ := List.nodup_cons.mp hd
      rw [List.foldl_cons, ih hrest, get?_insert, lookup_cons_ite]
      by_cases hk : k = e.1
      · rw [if_pos hk, if_pos hk, lookup_of_notMem (hk ▸ hnot)]
        rfl
      · rw [if_neg hk, if_neg hk]
  rw [ofList, hfold]
  exact Option.or_none

theorem get?_erase (m : TextMap) (k k' : String) :
    (m.erase k).get? k' = if k' = k then none else m.get? k' := by
  obtain ⟨es, hsorted⟩ := m
  change (es.filter (·.1 != k)).lookup k' = if k' = k then none else es.lookup k'
  clear hsorted
  induction es with
  | nil => simp
  | cons d ds ih =>
    by_cases hd : d.1 = k
    · have hdrop : (d.1 != k) = false := by simp [hd]
      rw [List.filter_cons, hdrop, if_neg Bool.false_ne_true, ih, lookup_cons_ite]
      by_cases hk : k' = k
      · rw [if_pos hk, if_pos hk]
      · rw [if_neg hk, if_neg hk, if_neg (hd ▸ hk)]
    · have hkeep : (d.1 != k) = true := by simp [hd]
      rw [List.filter_cons, if_pos hkeep, lookup_cons_ite, lookup_cons_ite, ih]
      by_cases hk : k' = d.1
      · have hne : k' ≠ k := fun h => hd (hk.symm.trans h)
        rw [if_pos hk, if_neg hne, if_pos hk]
      · rw [if_neg hk, if_neg hk]

theorem mem_entries_iff {e : String × String} : e ∈ m.entries ↔ m.get? e.1 = some e.2 :=
  ⟨get?_of_mem, mem_of_get?⟩

/-- Maps with the same lookups are equal, because both keep their entries in order. -/
theorem ext_get? {n : TextMap} (h : ∀ k, m.get? k = n.get? k) : m = n := by
  have hmem : ∀ e, e ∈ m.entries ↔ e ∈ n.entries := by
    intro e
    rw [mem_entries_iff, mem_entries_iff, h e.1]
  have hnodup : ∀ m : TextMap, m.entries.Nodup := by
    intro m
    refine m.sorted.imp ?_
    rintro a b hlt rfl
    exact String.lt_irrefl _ hlt
  have hperm : m.entries.Perm n.entries :=
    (List.perm_ext_iff_of_nodup (hnodup m) (hnodup n)).mpr hmem
  have hentries : m.entries = n.entries := by
    refine hperm.eq_of_pairwise ?_ m.sorted n.sorted
    intro a b _ _ hab hba
    exact absurd (String.lt_trans hab hba) (String.lt_irrefl _)
  cases m
  cases n
  cases hentries
  rfl

end TextMap

theorem ObjectMeta.annotationValue?_congr {m m' : ObjectMeta} {k : String}
    (h : m.annotations = m'.annotations) : m.annotationValue? k = m'.annotationValue? k := by
  rw [annotationValue?, annotationValue?, h]

theorem ObjectMeta.annotationValue?_annotate (m : ObjectMeta) (key value k : String) :
    (m.annotate key value).annotationValue? k =
      if k = key then some value else m.annotationValue? k := by
  rw [annotationValue?_eq, annotationValue?_eq]
  exact TextMap.get?_insert _ _ _ _

end GameIngress
