import GameIngress.Proofs.Dispatch.Chronicle

/-!
# What holds of every chronicle

A chronicle is faithful: its lists account for all that the dispatcher has done, and all that the
dispatcher has put off comes from events in them. The events taken so far only ever grow, so what is
said of one of them stays true.
-/
namespace GameIngress.Dispatch.Chronicle

open Watch (Key Cache)

variable {c : Settings} {h h' : Chronicle} {taken : List (Watch.Event Sighting)} {new : List Call}
  {d : Delivery} {n : Nat}

def cacheAt (n : Nat) (h : Chronicle) : Dispatch.Cache :=
  Cache.replay Sighting.key (h.shown.take n)

/-- The delivery that the event `n` asks for. -/
def delivery? (n : Nat) (h : Chronicle) : Option Delivery :=
  h.shown[n]?.bind (Delivery.ofEvent? (h.cacheAt n))

theorem lt_of_delivery? (hd : h.delivery? n = some d) : n < h.shown.length := by
  obtain ⟨e, he, -⟩ := Option.bind_eq_some_iff.mp hd
  exact (List.getElem?_eq_some_iff.mp he).1

/-- What a chronicle tells is true of its dispatcher, and what the dispatcher has put off or queued
comes from what the chronicle tells. -/
structure Faithful (h : Chronicle) : Prop where
  coherent : h.dispatcher.queue.Coherent
  cache : h.dispatcher.cache = Cache.replay Sighting.key h.shown
  consumed : h.dispatcher.consumed = h.shown.length
  serials : ∀ (n : Nat) (e : Watch.Event Sighting) (s : Sighting),
    h.shown[n]? = some e → e.object? = some s → s.serial = n
  ids : h.spawned.map (·.call.id) = List.range h.slots.queued
  account : (↑(h.spawned.map (·.call)) : Multiset Call) =
    ↑(h.joined.map (·.1)) + h.slots.outstanding
  pending : ∀ k d, h.pending? k = some d → h.delivery? d.subject.serial = some d
  watched : ∀ x ∈ h.spawned, x.call.origin = .watch →
    h.delivery? x.call.delivery.subject.serial = some x.call.delivery
  unwatched : ∀ x ∈ h.spawned, x.call.origin ≠ .watch → x.call.delivery.isDelete = false ∧
    x.after ≤ h.shown.length ∧
      (h.cacheAt x.after).get? x.call.delivery.key = some x.call.delivery.subject

section Growth

theorem cacheAt_of_adds (ha : Adds taken new h h') (hn : n ≤ h.shown.length) :
    h'.cacheAt n = h.cacheAt n := by
  rw [cacheAt, ha.shown, List.take_append_of_le_length hn, cacheAt]

theorem delivery?_of_adds (ha : Adds taken new h h') (hn : n < h.shown.length) :
    h'.delivery? n = h.delivery? n := by
  rw [delivery?, cacheAt_of_adds ha (Nat.le_of_lt hn), ha.shown, List.getElem?_append_left hn,
    delivery?]

theorem delivery?_mono (ha : Adds taken new h h') (hd : h.delivery? n = some d) :
    h'.delivery? n = some d := by
  rw [delivery?_of_adds ha (lt_of_delivery? hd), hd]

theorem delivery?_length {e : Watch.Event Sighting} (hf : h.Faithful) (ha : Adds [e] new h h') :
    h'.delivery? h.shown.length = Delivery.ofEvent? h.dispatcher.cache e := by
  rw [delivery?, cacheAt_of_adds ha (Nat.le_refl _), ha.shown, List.getElem?_concat_length,
    cacheAt, List.take_length, hf.cache]
  rfl

theorem delivery?_of_length_le (hn : h.shown.length ≤ n) : h.delivery? n = none := by
  rw [delivery?, List.getElem?_eq_none hn]
  rfl

end Growth

namespace Faithful

theorem serial_eq (hf : h.Faithful) (hd : h.delivery? n = some d) : d.subject.serial = n := by
  obtain ⟨e, he, hd⟩ := Option.bind_eq_some_iff.mp hd
  exact hf.serials n e _ he (Delivery.object?_of_ofEvent? hd)

theorem of_pending (hf : h.Faithful) {k : Key} (hp : h.pending? k = some d) :
    d.key = k ∧ d.isDelete = false :=
  (hf.coherent.running (Queue.standing?_of_pending? hp)).2.2 d rfl

theorem start {d : Dispatcher} (hnew : Dispatcher.new c = .ok d) :
    Faithful { dispatcher := d } := by
  rw [Dispatcher.eq_of_new hnew]
  exact {
    coherent := Queue.coherent_empty _ _
    cache := rfl
    consumed := rfl
    serials := fun n e s he => by simp at he
    ids := rfl
    account := rfl
    pending := fun k d hp => by cases hp
    watched := fun x hx => absurd hx List.not_mem_nil
    unwatched := fun x hx => absurd hx List.not_mem_nil }

theorem delivery?_taken (hf : h.Faithful) {e : Watch.Event Sighting} (ha : Adds [e] new h h')
    (hserials : ∀ (n : Nat) (e : Watch.Event Sighting) (s : Sighting),
      h'.shown[n]? = some e → e.object? = some s → s.serial = n)
    (hd : Delivery.ofEvent? h.dispatcher.cache e = some d) :
    h'.delivery? d.subject.serial = some d := by
  have hlast : h'.shown[h.shown.length]? = some e := by
    rw [ha.shown, List.getElem?_concat_length]
  rw [hserials _ e _ hlast (Delivery.object?_of_ofEvent? hd), delivery?_length hf ha, hd]

theorem spawned_cases (ha : Adds taken new h h') {x : Spawning} (hx : x ∈ h'.spawned) :
    x ∈ h.spawned ∨ ∃ y ∈ new, x = ⟨y, h'.shown.length⟩ := by
  rw [ha.spawned] at hx
  rcases List.mem_append.mp hx with hx | hx
  · exact .inl hx
  · obtain ⟨y, hy, rfl⟩ := List.mem_map.mp hx
    exact .inr ⟨y, hy, rfl⟩

theorem spawned_mono (hf : h.Faithful) (ha : Adds taken new h h')
    (hwatched : ∀ y ∈ new, y.origin = .watch →
      h'.delivery? y.delivery.subject.serial = some y.delivery)
    (hunwatched : ∀ y ∈ new, y.origin ≠ .watch → y.delivery.isDelete = false ∧
      (h'.cacheAt h'.shown.length).get? y.delivery.key = some y.delivery.subject) :
    (∀ x ∈ h'.spawned, x.call.origin = .watch →
      h'.delivery? x.call.delivery.subject.serial = some x.call.delivery) ∧
    (∀ x ∈ h'.spawned, x.call.origin ≠ .watch → x.call.delivery.isDelete = false ∧
      x.after ≤ h'.shown.length ∧
        (h'.cacheAt x.after).get? x.call.delivery.key = some x.call.delivery.subject) := by
  constructor
  · intro x hx ho
    rcases spawned_cases ha hx with hx | ⟨y, hy, rfl⟩
    · exact delivery?_mono ha (hf.watched x hx ho)
    · exact hwatched y hy ho
  · intro x hx ho
    rcases spawned_cases ha hx with hx | ⟨y, hy, rfl⟩
    · obtain ⟨hdelete, hafter, hcached⟩ := hf.unwatched x hx ho
      refine ⟨hdelete, ?_, ?_⟩
      · rw [ha.shown, List.length_append]
        exact Nat.le_add_right_of_le hafter
      · rwa [cacheAt_of_adds ha hafter]
    · exact ⟨(hunwatched y hy ho).1, Nat.le_refl _, (hunwatched y hy ho).2⟩

theorem sources (hf : h.Faithful) (he : Effect h h')
    (hserials : ∀ (n : Nat) (e : Watch.Event Sighting) (s : Sighting),
      h'.shown[n]? = some e → e.object? = some s → s.serial = n) :
    (∀ k d, h'.pending? k = some d → h'.delivery? d.subject.serial = some d) ∧
    (∀ x ∈ h'.spawned, x.call.origin = .watch →
      h'.delivery? x.call.delivery.subject.serial = some x.call.delivery) ∧
    (∀ x ∈ h'.spawned, x.call.origin ≠ .watch → x.call.delivery.isDelete = false ∧
      x.after ≤ h'.shown.length ∧
        (h'.cacheAt x.after).get? x.call.delivery.key = some x.call.delivery.subject) := by
  cases he with
  | @quiet new ha hnew _ hp =>
    have hshown : h'.shown = h.shown := ha.shown.trans (List.append_nil _)
    refine ⟨fun k d hd => delivery?_mono ha (hf.pending k d (hp k ▸ hd)), hf.spawned_mono ha ?_ ?_⟩
    · intro y hy ho
      exact absurd ho (hnew y hy).1
    · intro y hy _
      obtain ⟨-, hdelete, hcached, -⟩ := hnew y hy
      rw [hf.cache, ← hshown, ← List.take_length (l := h'.shown)] at hcached
      exact ⟨hdelete, hcached⟩
  | noted ha _ hp =>
    refine ⟨fun k d hd => delivery?_mono ha (hf.pending k d (hp k ▸ hd)), hf.spawned_mono ha ?_ ?_⟩
    · intro y hy; cases hy
    · intro y hy; cases hy
  | handed ha hx hd hp =>
    refine ⟨fun k d hk => ?_, hf.spawned_mono ha ?_ ?_⟩
    · rw [hp] at hk
      split at hk
      · cases hk
      · exact delivery?_mono ha (hf.pending k d hk)
    · intro y hy _
      rw [List.mem_singleton.mp hy]
      exact hf.delivery?_taken ha hserials hd
    · intro y hy ho
      rw [List.mem_singleton.mp hy] at ho
      exact absurd hx ho
  | held ha hd _ hp =>
    refine ⟨fun k d hk => ?_, hf.spawned_mono ha ?_ ?_⟩
    · rw [hp] at hk
      split at hk
      · cases hk
        exact hf.delivery?_taken ha hserials hd
      · exact delivery?_mono ha (hf.pending k d hk)
    · intro y hy; cases hy
    · intro y hy; cases hy
  | resumed ha hx hd hp =>
    refine ⟨fun k d hk => ?_, hf.spawned_mono ha ?_ ?_⟩
    · rw [hp] at hk
      split at hk
      · cases hk
      · exact delivery?_mono ha (hf.pending k d hk)
    · intro y hy _
      rw [List.mem_singleton.mp hy]
      exact delivery?_mono ha (hf.pending _ _ hd)
    · intro y hy ho
      rw [List.mem_singleton.mp hy] at ho
      exact absurd hx ho

theorem keyed (hf : h.Faithful) : h.dispatcher.cache.Keyed Sighting.key := by
  rw [hf.cache]
  exact Cache.keyed_replay _ _

theorem single (hf : h.Faithful) : h.dispatcher.cache.Single := by
  rw [hf.cache]
  exact Cache.single_replay _ _

theorem effect (hf : h.Faithful) (hn : h.Next h') : Effect h h' := by
  obtain ⟨i, d, hs, rfl⟩ := hn
  exact effect_step hf.coherent hf.keyed hf.single hs

theorem step (hf : h.Faithful) (hn : h.Next h') : h'.Faithful := by
  have he := hf.effect hn
  obtain ⟨taken, new, ha⟩ := he.adds
  obtain ⟨i, d, hs, rfl⟩ := hn
  obtain ⟨hcache, hconsumed, -⟩ := Dispatcher.step_taken hs
  have hserials : ∀ (n : Nat) (e : Watch.Event Sighting) (s : Sighting),
      (h.extend i d).shown[n]? = some e → e.object? = some s → s.serial = n := by
    intro n e s hget hobject
    rcases Nat.lt_or_ge n h.shown.length with hlt | hge
    · rw [extend, List.getElem?_append_left hlt] at hget
      exact hf.serials n e s hget hobject
    · rw [extend, List.getElem?_append_right hge] at hget
      cases ht : h.dispatcher.taken? i with
      | none => simp [ht] at hget
      | some e' =>
        simp only [ht, Option.toList_some, List.getElem?_singleton, Option.ite_none_right_eq_some,
          Option.some.injEq] at hget
        obtain ⟨hzero, rfl⟩ := hget
        rw [Dispatcher.serial_of_taken ht hobject, hf.consumed]
        omega
  obtain ⟨hpending, hwatched, hunwatched⟩ := hf.sources he hserials
  exact {
    coherent := by
      rcases Dispatcher.step_queue hf.keyed hs with hq | hq
      · exact hq ▸ hf.coherent
      · exact hf.coherent.step hq
    cache := by
      rw [extend, hcache, hf.cache]
      exact List.foldl_append.symm
    consumed := by
      rw [extend, hconsumed, hf.consumed]
      exact List.length_append.symm
    serials := hserials
    ids := by
      rw [ha.spawned, ha.queued, List.map_append, hf.ids, List.map_map]
      change _ ++ new.map (·.id) = _
      have happend := List.range'_append_1 (s := 0) (m := h.slots.queued) (n := new.length)
      rw [Nat.zero_add] at happend
      rw [ha.ids, List.range_eq_range', List.range_eq_range', happend]
    account := by
      rw [← ha.account, ha.spawned, List.map_append, ← Multiset.coe_add, hf.account, List.map_map]
      simp only [Function.comp_def, List.map_id']
    pending := hpending
    watched := hwatched
    unwatched := hunwatched }

end Faithful

theorem Reached.faithful (hr : Reached c h) : h.Faithful := by
  obtain ⟨d, hnew, hl⟩ := hr
  induction hl with
  | refl => exact .start hnew
  | step _ hn ih => exact ih.step hn

/-- As long as game servers are shown with their namespaces, it does not matter that a cache might
be searched for a name alone. -/
theorem Reached.find?_cache (hr : Reached c h)
    (hns : ∀ s, .initApply s ∈ h.shown ∨ .apply s ∈ h.shown → s.key.ns.isSome) (k : Key) :
    h.dispatcher.cache.find? k = h.dispatcher.cache.get? k := by
  rw [hr.faithful.cache]
  exact Cache.find?_replay hns k

end GameIngress.Dispatch.Chronicle
