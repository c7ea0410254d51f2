import GameIngress.Watch.Cache
import Mathlib.Data.List.Induction

/-!
# What a cache holds

A cache is keyed when every object stands under its own key; watching keeps it keyed. What a cache
holds follows from the events alone: an object stays cached until it is deleted or a list without it
is completed.
-/
namespace GameIngress

namespace Assoc

variable {κ α : Type} [DecidableEq κ] {k : κ} {v : α} {e : κ × α} {m : Assoc κ α}

theorem mem_of_get? (h : m.get? k = some v) : (k, v) ∈ m := by
  induction m with
  | nil => cases h
  | cons a rest ih =>
    simp only [get?] at h
    split at h
    · next hk =>
      cases h
      exact hk ▸ List.mem_cons_self
    · exact List.mem_cons_of_mem _ (ih h)

theorem get?_of_mem (hd : (m.map (·.1)).Nodup) (h : e ∈ m) : m.get? e.1 = some e.2 := by
  induction m with
  | nil => cases h
  | cons a rest ih =>
    obtain ⟨hnot, hrest⟩ := List.nodup_cons.mp hd
    simp only [get?]
    rcases List.mem_cons.mp h with rfl | h
    · rw [if_pos rfl]
    · have hne : a.1 ≠ e.1 := fun heq => hnot (List.mem_map.mpr ⟨e, h, heq.symm⟩)
      rw [if_neg hne]
      exact ih hrest h

theorem mem_set (h : e ∈ m.set k v) : e = (k, v) ∨ e ∈ m := by
  induction m with
  | nil => exact .inl (List.mem_singleton.mp h)
  | cons a rest ih =>
    simp only [set] at h
    split at h
    · exact (List.mem_cons.mp h).imp_right (List.mem_cons_of_mem _)
    · rcases List.mem_cons.mp h with rfl | h
      · exact .inr List.mem_cons_self
      · exact (ih h).imp_right (List.mem_cons_of_mem _)

theorem mem_of_mem_erase (h : e ∈ m.erase k) : e ∈ m := by
  induction m with
  | nil => cases h
  | cons a rest ih =>
    simp only [erase] at h
    split at h
    · exact List.mem_cons_of_mem _ (ih h)
    · rcases List.mem_cons.mp h with rfl | h
      · exact List.mem_cons_self
      · exact List.mem_cons_of_mem _ (ih h)

theorem nodup_keys_set (h : (m.map (·.1)).Nodup) : ((m.set k v).map (·.1)).Nodup := by
  induction m with
  | nil => exact List.nodup_cons.mpr ⟨List.not_mem_nil, List.nodup_nil⟩
  | cons a rest ih =>
    obtain ⟨hnot, hrest⟩ := List.nodup_cons.mp h
    simp only [set]
    split
    · next hk => exact List.nodup_cons.mpr ⟨hk ▸ hnot, hrest⟩
    · next hk =>
      refine List.nodup_cons.mpr ⟨fun hmem => ?_, ih hrest⟩
      obtain ⟨e, he, hkey⟩ := List.mem_map.mp hmem
      rcases mem_set he with rfl | he
      · exact hk hkey.symm
      · exact hnot (hkey ▸ List.mem_map_of_mem he)

theorem nodup_keys_erase (h : (m.map (·.1)).Nodup) : ((m.erase k).map (·.1)).Nodup := by
  induction m with
  | nil => exact h
  | cons a rest ih =>
    obtain ⟨hnot, hrest⟩ := List.nodup_cons.mp h
    simp only [erase]
    split
    · exact ih hrest
    · refine List.nodup_cons.mpr ⟨fun hmem => ?_, ih hrest⟩
      obtain ⟨e, he, hkey⟩ := List.mem_map.mp hmem
      exact hnot (hkey ▸ List.mem_map_of_mem (mem_of_mem_erase he))

end Assoc

namespace Watch.Cache

variable {α : Type} {key : α → Key} {c : Cache α}

/-- Every object that is cached or listed stands under its own key. -/
structure Keyed (key : α → Key) (c : Cache α) : Prop where
  store : ∀ e ∈ c.store, key e.2 = e.1
  buffer : ∀ e ∈ c.buffer, key e.2 = e.1

theorem keyed_empty : Keyed key ({} : Cache α) := by
  constructor <;> · intro e he; cases he

namespace Keyed

theorem key_eq (h : c.Keyed key) {k : Key} {a : α} (ha : c.get? k = some a) : key a = k :=
  h.store _ (Assoc.mem_of_get? ha)

theorem observe (h : c.Keyed key) (e : Event α) : (c.observe key e).Keyed key := by
  cases e with
  | init => exact ⟨h.store, fun e he => absurd he List.not_mem_nil⟩
  | initDone => exact ⟨h.buffer, fun e he => absurd he List.not_mem_nil⟩
  | initApply b =>
    refine ⟨h.store, fun e he => ?_⟩
    rcases Assoc.mem_set he with rfl | he
    · rfl
    · exact h.buffer e he
  | apply b =>
    refine ⟨fun e he => ?_, h.buffer⟩
    rcases Assoc.mem_set he with rfl | he
    · rfl
    · exact h.store e he
  | delete b => exact ⟨fun e he => h.store e (Assoc.mem_of_mem_erase he), h.buffer⟩

end Keyed

/-- No key stands twice in the cache or in the list. -/
structure Single (c : Cache α) : Prop where
  store : (c.store.map (·.1)).Nodup
  buffer : (c.buffer.map (·.1)).Nodup

theorem single_empty : Single ({} : Cache α) := ⟨List.nodup_nil, List.nodup_nil⟩

theorem Single.observe (h : c.Single) (e : Event α) : (c.observe key e).Single := by
  cases e with
  | init => exact ⟨h.store, List.nodup_nil⟩
  | initApply b => exact ⟨h.store, Assoc.nodup_keys_set h.buffer⟩
  | initDone => exact ⟨h.buffer, List.nodup_nil⟩
  | apply b => exact ⟨Assoc.nodup_keys_set h.store, h.buffer⟩
  | delete b => exact ⟨Assoc.nodup_keys_erase h.store, h.buffer⟩

theorem Single.get?_of_mem_values (hs : c.Single) (hk : c.Keyed key) {a : α}
    (ha : a ∈ c.values) : c.get? (key a) = some a := by
  obtain ⟨e, he, rfl⟩ := List.mem_map.mp ha
  rw [hk.store e he]
  exact Assoc.get?_of_mem hs.store he

/-- The event shows the object `k` or deletes it. -/
def Concerns (key : α → Key) (k : Key) (e : Event α) : Prop := ∃ a, e.object? = some a ∧ key a = k

/-- The event deletes the object `k`, or completes a list that lacks it. -/
def Drops (key : α → Key) (k : Key) (c : Cache α) : Event α → Prop
  | .delete a => key a = k
  | .initDone => c.buffer.get? k = none
  | .init | .initApply _ | .apply _ => False

def replay (key : α → Key) (es : List (Event α)) : Cache α :=
  es.foldl (fun c e => c.observe key e) {}

/-- One of the events from the `n`th on drops the object `k`. -/
def DropsSince (key : α → Key) (k : Key) (n : Nat) (es : List (Event α)) : Prop :=
  ∃ m e, n ≤ m ∧ es[m]? = some e ∧ (replay key (es.take m)).Drops key k e

section Replay
variable {es : List (Event α)} {e : Event α} {k : Key} {n : Nat}

theorem replay_concat : replay key (es ++ [e]) = (replay key es).observe key e := by
  rw [replay, List.foldl_append]
  rfl

theorem keyed_replay (key : α → Key) (es : List (Event α)) : (replay key es).Keyed key := by
  induction es using List.reverseRecOn with
  | nil => exact keyed_empty
  | append_singleton es e ih => exact replay_concat ▸ ih.observe e

theorem single_replay (key : α → Key) (es : List (Event α)) : (replay key es).Single := by
  induction es using List.reverseRecOn with
  | nil => exact single_empty
  | append_singleton es e ih => exact replay_concat ▸ ih.observe e

/-- What is cached or listed was shown, so it has every property of all that was shown. -/
theorem forall_replay {P : α → Prop} (h : ∀ a, .initApply a ∈ es ∨ .apply a ∈ es → P a) :
    (∀ x ∈ (replay key es).store, P x.2) ∧ ∀ x ∈ (replay key es).buffer, P x.2 := by
  induction es using List.reverseRecOn with
  | nil => exact ⟨fun x hx => absurd hx List.not_mem_nil, fun x hx => absurd hx List.not_mem_nil⟩
  | append_singleton es e ih =>
    obtain ⟨hstore, hbuffer⟩ := ih fun a ha =>
      h a (ha.imp (List.mem_append_left _) (List.mem_append_left _))
    have hlast : e ∈ es ++ [e] := List.mem_append_right _ (List.mem_singleton_self e)
    rw [replay_concat]
    cases e with
    | init => exact ⟨hstore, fun x hx => absurd hx List.not_mem_nil⟩
    | initDone => exact ⟨hbuffer, fun x hx => absurd hx List.not_mem_nil⟩
    | initApply b =>
      refine ⟨hstore, fun x hx => ?_⟩
      rcases Assoc.mem_set hx with rfl | hx
      · exact h b (.inl hlast)
      · exact hbuffer x hx
    | apply b =>
      refine ⟨fun x hx => ?_, hbuffer⟩
      rcases Assoc.mem_set hx with rfl | hx
      · exact h b (.inr hlast)
      · exact hstore x hx
    | delete b => exact ⟨fun x hx => hstore x (Assoc.mem_of_mem_erase hx), hbuffer⟩

/-- A lookup that does not know the kind to be namespaced: what is not cached under the key is
looked for under the name alone. -/
def find? (k : Key) (c : Cache α) : Option α := (c.get? k).or (c.get? { k with ns := none })

/-- Where all that was shown has a namespace, nothing is ever found under the name alone. -/
theorem find?_replay (h : ∀ a, .initApply a ∈ es ∨ .apply a ∈ es → (key a).ns.isSome) (k : Key) :
    (replay key es).find? k = (replay key es).get? k := by
  have hnone : (replay key es).get? { k with ns := none } = none := by
    cases hget : (replay key es).get? { k with ns := none } with
    | none => rfl
    | some a =>
      have hns := (forall_replay h).1 _ (Assoc.mem_of_get? hget)
      rw [(keyed_replay key es).key_eq hget] at hns
      cases hns
  rw [find?, hnone, Option.or_none]

theorem isSome_get?_observe (h : (c.get? k).isSome) (hd : ¬ c.Drops key k e) :
    ((c.observe key e).get? k).isSome := by
  cases e with
  | init => exact h
  | initApply a => exact h
  | initDone => exact Option.isSome_iff_ne_none.mpr hd
  | apply a =>
    simp only [get?, observe, Assoc.get?_set]
    split
    · rfl
    · exact h
  | delete a =>
    have hne : key a ≠ k := hd
    simp only [get?, observe, Assoc.get?_erase, if_neg hne]
    exact h

/-- An event about another object, if it completes no list, leaves the cached object alone. -/
theorem get?_observe (hk : ¬ Concerns key k e) (hd : e ≠ .initDone) :
    (c.observe key e).get? k = c.get? k := by
  cases e with
  | init => rfl
  | initApply a => rfl
  | initDone => exact absurd rfl hd
  | apply a =>
    have hne : key a ≠ k := fun h => hk ⟨a, rfl, h⟩
    simp only [get?, observe, Assoc.get?_set, if_neg hne]
  | delete a =>
    have hne : key a ≠ k := fun h => hk ⟨a, rfl, h⟩
    simp only [get?, observe, Assoc.get?_erase, if_neg hne]

theorem DropsSince.concat (h : DropsSince key k n es) : DropsSince key k n (es ++ [e]) := by
  obtain ⟨m, e', hn, he, hd⟩ := h
  have hm : m < es.length := (List.getElem?_eq_some_iff.mp he).1
  refine ⟨m, e', hn, ?_, ?_⟩
  · rw [List.getElem?_append_left hm, he]
  · rw [List.take_append_of_le_length (Nat.le_of_lt hm)]
    exact hd

theorem dropsSince_concat_self (hn : n ≤ es.length) (hd : (replay key es).Drops key k e) :
    DropsSince key k n (es ++ [e]) :=
  ⟨es.length, e, hn, List.getElem?_concat_length, by rwa [List.take_left]⟩

theorem cached_of_not_dropsSince (hc : ((replay key (es.take n)).get? k).isSome)
    (hd : ¬ DropsSince key k n es) : ((replay key es).get? k).isSome := by
  induction es using List.reverseRecOn with
  | nil => simpa using hc
  | append_singleton es e ih =>
    rcases Nat.lt_or_ge es.length n with hlt | hge
    · rwa [List.take_of_length_le (by rw [List.length_append]; exact hlt)] at hc
    · rw [List.take_append_of_le_length hge] at hc
      rw [replay_concat]
      refine isSome_get?_observe (ih hc fun h => hd h.concat) fun h => hd ?_
      exact dropsSince_concat_self hge h

/-- As long as nothing is said about it and no list is completed, what is cached stays the same. -/
theorem get?_replay_of_quiet (h : ∀ e ∈ es.drop n, ¬ Concerns key k e ∧ e ≠ .initDone) :
    (replay key es).get? k = (replay key (es.take n)).get? k := by
  induction es using List.reverseRecOn with
  | nil => simp
  | append_singleton es e ih =>
    rcases Nat.lt_or_ge es.length n with hlt | hge
    · rw [List.take_of_length_le (by rw [List.length_append]; exact hlt)]
    · rw [List.drop_append_of_le_length hge] at h
      obtain ⟨hk, hd⟩ := h e (List.mem_append_right _ (List.mem_singleton_self e))
      rw [replay_concat, get?_observe hk hd, List.take_append_of_le_length hge]
      exact ih fun e' he' => h e' (List.mem_append_left _ he')

end Replay
end Watch.Cache
end GameIngress
