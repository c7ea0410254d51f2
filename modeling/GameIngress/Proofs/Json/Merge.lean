import GameIngress.Json.Decode
import GameIngress.Json.MergePatch
import GameIngress.Proofs.TextMap

/-!
# What a merge patch changes

Setting a value at the end of a path changes nothing away from the path. A patch that repeats what
is there, but for one member, sets this member.
-/
namespace GameIngress.Json

namespace Members

variable {ms : Members} {k k' : String} {v : Json}

theorem lookup_set (ms : Members) (k k' : String) (v : Json) :
    (ms.set k v).lookup k' = if k' = k then some v else ms.lookup k' := by
  induction ms with
  | nil => rw [set, lookup_cons_ite]
  | cons e rest ih =>
    obtain ⟨l, w⟩ := e
    simp only [set]
    split
    · next heq =>
      subst heq
      rw [lookup_cons_ite, lookup_cons_ite]
      split <;> rfl
    · next hne =>
      rw [lookup_cons_ite, lookup_cons_ite, ih]
      by_cases hl : k' = l
      · have hk : k' ≠ k := fun h => hne (hl.symm.trans h)
        rw [if_pos hl, if_neg hk, if_pos hl]
      · rw [if_neg hl, if_neg hl]

theorem set_of_lookup (h : ms.lookup k = some v) : ms.set k v = ms := by
  induction ms with
  | nil => cases h
  | cons e rest ih =>
    obtain ⟨l, w⟩ := e
    rw [lookup_cons_ite] at h
    simp only [set]
    split
    · next heq =>
      rw [if_pos heq.symm] at h
      cases h
      rfl
    · next hne =>
      rw [if_neg fun heq => hne heq.symm] at h
      rw [ih h]

theorem map_fst_set_of_mem (h : k ∈ ms.map (·.1)) : (ms.set k v).map (·.1) = ms.map (·.1) := by
  induction ms with
  | nil => cases h
  | cons e rest ih =>
    obtain ⟨l, w⟩ := e
    simp only [set]
    split
    · rfl
    · next hne =>
      rw [List.map_cons, List.mem_cons] at h
      rw [List.map_cons, List.map_cons, ih (h.resolve_left fun heq => hne heq.symm)]

theorem map_fst_set_of_notMem (h : k ∉ ms.map (·.1)) :
    (ms.set k v).map (·.1) = ms.map (·.1) ++ [k] := by
  induction ms with
  | nil => rfl
  | cons e rest ih =>
    obtain ⟨l, w⟩ := e
    rw [List.map_cons, List.mem_cons, not_or] at h
    rw [set, if_neg fun heq => h.1 heq.symm, List.map_cons, ih h.2]
    rfl

theorem nodup_set (h : (ms.map (·.1)).Nodup) : ((ms.set k v).map (·.1)).Nodup := by
  by_cases hk : k ∈ ms.map (·.1)
  · rwa [map_fst_set_of_mem hk]
  · rw [map_fst_set_of_notMem hk, List.nodup_append]
    refine ⟨h, List.nodup_cons.mpr ⟨List.not_mem_nil, List.nodup_nil⟩, ?_⟩
    intro a ha b hb heq
    rw [List.mem_singleton] at hb
    exact hk (hb ▸ heq ▸ ha)

end Members

section Paths
variable {j v : Json} {k : String} {path target : List String}

theorem at?_cons (j : Json) (k : String) (path : List String) :
    j.at? (k :: path) = (j.get? k).bind (·.at? path) := by
  have hnone : ∀ path : List String,
      path.foldl (fun (w : Option Json) key => w.bind (·.get? key)) none = none := by
    intro path
    induction path with
    | nil => rfl
    | cons l rest ih => exact ih
  change path.foldl (fun w key => w.bind (·.get? key)) (j.get? k) = _
  cases j.get? k with
  | none => exact hnone path
  | some w => rfl

theorem membersOrNone_object (ms : Members) : (object ms).membersOrNone = ms := rfl

theorem lookup_membersOrNone (j : Json) (k : String) : j.membersOrNone.lookup k = j.get? k := by
  cases j <;> rfl

theorem get?_setAt_cons (j : Json) (k k' : String) (path : List String) (v : Json) :
    (j.setAt (k :: path) v).get? k' =
      if k' = k then some (setAt ((j.get? k).getD .null) path v) else j.get? k' := by
  rw [setAt]
  simp only [get?, Members.lookup_set, Members.get?, lookup_membersOrNone]

theorem at?_setAt_append (j : Json) (path rest : List String) (v : Json) :
    (j.setAt (path ++ rest) v).at? path = some (((j.at? path).getD .null).setAt rest v) := by
  induction path generalizing j with
  | nil => rfl
  | cons k path ih =>
    rw [List.cons_append, at?_cons, get?_setAt_cons, if_pos rfl, Option.bind_some, ih, at?_cons]
    cases j.get? k with
    | some w => rfl
    | none =>
      cases path with
      | nil => rfl
      | cons l path =>
        rw [Option.getD_none, at?_cons]
        rfl

theorem at?_setAt_self (j : Json) (path : List String) (v : Json) :
    (j.setAt path v).at? path = some v := by
  have hset := at?_setAt_append j path [] v
  rwa [List.append_nil] at hset

/-- Neither path leads to the other's end. -/
def Diverge (path target : List String) : Prop := ¬ path <+: target ∧ ¬ target <+: path

theorem at?_setAt_of_diverge (hd : Diverge path target) :
    (j.setAt target v).at? path = j.at? path := by
  induction target generalizing j path with
  | nil => exact absurd (List.nil_prefix) hd.2
  | cons k rest ih =>
    cases path with
    | nil => exact absurd (List.nil_prefix) hd.1
    | cons l path =>
      rw [at?_cons, at?_cons, get?_setAt_cons]
      by_cases hl : l = k
      · subst hl
        have hrest : Diverge path rest := by
          refine ⟨fun h => hd.1 ?_, fun h => hd.2 ?_⟩
          · exact List.cons_prefix_cons.mpr ⟨rfl, h⟩
          · exact List.cons_prefix_cons.mpr ⟨rfl, h⟩
        rw [if_pos rfl, Option.bind_some, ih hrest]
        cases hj : j.get? l with
        | some w => rfl
        | none =>
          cases path with
          | nil => exact absurd (List.nil_prefix) hrest.1
          | cons l' path =>
            rw [Option.getD_none, at?_cons]
            rfl
      · rw [if_neg hl]

end Paths

section Merging
variable {ms : Members} {patch : List (String × String)} {k v : String}

def ofTexts (es : List (String × String)) : Members := es.map fun (k, v) => (k, .text v)

theorem lookup_ofTexts (es : List (String × String)) (k : String) :
    (ofTexts es).lookup k = (es.lookup k).map .text := by
  induction es with
  | nil => rfl
  | cons e rest ih =>
    have hcons : ofTexts (e :: rest) = (e.1, .text e.2) :: ofTexts rest := rfl
    rw [hcons, lookup_cons_ite, lookup_cons_ite, ih]
    split <;> rfl

theorem map_fst_ofTexts (es : List (String × String)) :
    (ofTexts es).map (·.1) = es.map (·.1) := by
  rw [ofTexts, List.map_map]
  rfl

theorem mergeMembers_text (k v : String) (rest ms : Members) :
    mergeMembers ((k, .text v) :: rest) ms = mergeMembers rest (ms.set k (.text v)) := by
  rw [mergeMembers, mergePatch]
  all_goals simp

theorem mergeMembers_object (k : String) (patch rest ms : Members) :
    mergeMembers ((k, .object patch) :: rest) ms =
      mergeMembers rest (ms.set k (mergePatch (.object patch) ((ms.lookup k).getD .null))) := by
  rw [mergeMembers]
  · rfl
  · simp

theorem mergeMembers_of_lookup (h : ∀ e ∈ patch, ms.lookup e.1 = some (.text e.2)) :
    mergeMembers (ofTexts patch) ms = ms := by
  induction patch with
  | nil => rw [ofTexts, List.map_nil, mergeMembers]
  | cons e rest ih =>
    have hcons : ofTexts (e :: rest) = (e.1, .text e.2) :: ofTexts rest := rfl
    rw [hcons, mergeMembers_text, Members.set_of_lookup (h e List.mem_cons_self)]
    exact ih fun d hd => h d (List.mem_cons_of_mem _ hd)

theorem mergeMembers_of_one (hd : (patch.map (·.1)).Nodup) (hk : (k, v) ∈ patch)
    (h : ∀ e ∈ patch, e.1 ≠ k → ms.lookup e.1 = some (.text e.2)) :
    mergeMembers (ofTexts patch) ms = ms.set k (.text v) := by
  induction patch with
  | nil => cases hk
  | cons e rest ih =>
    obtain ⟨hnot, hrest⟩ := List.nodup_cons.mp hd
    have hcons : ofTexts (e :: rest) = (e.1, .text e.2) :: ofTexts rest := rfl
    rw [hcons, mergeMembers_text]
    rcases List.mem_cons.mp hk with rfl | hk
    · refine mergeMembers_of_lookup fun d hd => ?_
      have hne : d.1 ≠ k := fun heq => hnot (List.mem_map.mpr ⟨d, hd, heq⟩)
      rw [Members.lookup_set, if_neg hne]
      exact h d (List.mem_cons_of_mem _ hd) hne
    · have hne : e.1 ≠ k := fun heq => hnot (List.mem_map.mpr ⟨_, hk, heq.symm⟩)
      rw [Members.set_of_lookup (h e List.mem_cons_self hne)]
      exact ih hrest hk fun d hd => h d (List.mem_cons_of_mem _ hd)

end Merging
end GameIngress.Json
