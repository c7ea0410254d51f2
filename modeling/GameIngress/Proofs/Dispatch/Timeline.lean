import GameIngress.Proofs.Dispatch.Retries
import GameIngress.Proofs.Watch.Order

/-!
# Deliveries in time

A delivery that comes straight from the watch is the last word about its game server. One that comes
from the cache, after a failure or at a resync, may fall behind what was delivered before: the parts
of a list are delivered before they are cached.
-/
namespace GameIngress.Dispatch.Chronicle

open Watch (Key Cache Orderly)

variable {c : Settings} {h h' : Chronicle} {x y : Spawning} {n : Nat}

/-- The calls are in the order in which they were queued, and a delivery from the watch was the last
word about its game server when its call was queued. -/
structure Timely (h : Chronicle) : Prop where
  ordered : h.spawned.Pairwise fun x y => x.after ≤ y.after
  within : ∀ x ∈ h.spawned, x.after ≤ h.shown.length
  recent : ∀ x ∈ h.spawned, x.call.origin = .watch → x.call.delivery.subject.serial < x.after ∧
    ∀ e ∈ (h.shown.take x.after).drop (x.call.delivery.subject.serial + 1),
      ¬ Cache.Concerns Sighting.key x.call.delivery.key e

theorem Timely.le_serial (ht : h.Timely) (hx : x ∈ h.spawned) (ho : x.call.origin = .watch)
    {e : Watch.Event Sighting} (hn : h.shown[n]? = some e) (hlt : n < x.after)
    (hk : Cache.Concerns Sighting.key x.call.delivery.key e) :
    n ≤ x.call.delivery.subject.serial := by
  by_contra hgt
  refine (ht.recent x hx ho).2 e ?_ hk
  refine List.mem_iff_getElem?.mpr ⟨n - (x.call.delivery.subject.serial + 1), ?_⟩
  rw [List.getElem?_drop, List.getElem?_take_of_lt (by omega), ← hn]
  congr 1
  omega

theorem Timely.adds {taken : List (Watch.Event Sighting)} {new : List Call} (ht : h.Timely)
    (ha : Adds taken new h h')
    (hnew : ∀ y ∈ new, y.origin = .watch → y.delivery.subject.serial < h'.shown.length ∧
      Silent y.delivery.key (y.delivery.subject.serial + 1) h') : h'.Timely := by
  have hlength : h.shown.length ≤ h'.shown.length := by
    rw [ha.shown, List.length_append]
    exact Nat.le_add_right _ _
  refine ⟨?_, fun x hx => ?_, fun x hx ho => ?_⟩
  · rw [ha.spawned]
    refine List.pairwise_append.mpr ⟨ht.ordered, ?_, fun x hx y hy => ?_⟩
    · exact List.pairwise_map.mpr (List.pairwise_of_forall fun _ _ => Nat.le_refl _)
    · obtain ⟨z, -, rfl⟩ := List.mem_map.mp hy
      exact (ht.within x hx).trans hlength
  · rcases Faithful.spawned_cases ha hx with hx | ⟨y, -, rfl⟩
    · exact (ht.within x hx).trans hlength
    · exact Nat.le_refl _
  · rcases Faithful.spawned_cases ha hx with hx | ⟨y, hy, rfl⟩
    · rw [ha.shown, List.take_append_of_le_length (ht.within x hx)]
      exact ht.recent x hx ho
    · rw [List.take_length]
      exact hnew y hy ho

theorem Faithful.timely_step (hf : h.Faithful) (hl : h.Latest) (hn : h.Next h') (ht : h.Timely) :
    h'.Timely := by
  have hf' := hf.step hn
  cases hf.effect hn with
  | quiet ha hnew => exact ht.adds ha fun y hy ho => absurd ho (hnew y hy).1
  | noted ha => exact ht.adds ha fun y hy => absurd hy List.not_mem_nil
  | held ha => exact ht.adds ha fun y hy => absurd hy List.not_mem_nil
  | handed ha _ hd =>
    refine ht.adds ha fun y hy _ => ?_
    cases List.mem_singleton.mp hy
    have hserial := hf'.serial_eq ((delivery?_length hf ha).trans hd)
    have hlength : h'.shown.length = h.shown.length + 1 := by
      rw [ha.shown, List.length_append, List.length_singleton]
    refine ⟨by omega, silent_of_length_le (by omega)⟩
  | resumed ha _ hput =>
    refine ht.adds ha fun y hy _ => ?_
    cases List.mem_singleton.mp hy
    have hlt := lt_of_delivery? (hf.pending _ _ hput)
    have hshown : h'.shown = h.shown := ha.shown.trans (List.append_nil _)
    exact ⟨hshown ▸ hlt, (silent_same ha).mpr (hl _ _ hput)⟩

theorem Reached.timely (hr : Reached c h) : h.Timely := by
  obtain ⟨d₀, hnew, hl⟩ := hr
  induction hl with
  | refl =>
    exact ⟨.nil, fun x hx => absurd hx List.not_mem_nil, fun x hx => absurd hx List.not_mem_nil⟩
  | step hl hn ih =>
    have hr : Reached c _ := ⟨d₀, hnew, hl⟩
    exact hr.faithful.timely_step hr.attended.1 hn ih

namespace Faithful

theorem serials_take (hf : h.Faithful) (m : Nat) (n : Nat) (e : Watch.Event Sighting)
    (s : Sighting) (hn : (h.shown.take m)[n]? = some e) (hs : e.object? = some s) :
    s.serial = n := by
  rw [List.getElem?_take] at hn
  split at hn
  · exact hf.serials n e s hn hs
  · cases hn

/-- The game server of an addition or update is as an event showed it that was taken by then. -/
theorem shown (hf : h.Faithful) (ht : h.Timely) (hx : x ∈ h.spawned)
    (hd : x.call.delivery.isDelete = false) :
    Cache.Shown Sighting.serial h.shown x.call.delivery.subject ∧
      x.call.delivery.subject.serial < x.after := by
  by_cases ho : x.call.origin = .watch
  · refine ⟨?_, (ht.recent x hx ho).1⟩
    obtain ⟨e, he, hdelivery⟩ := Option.bind_eq_some_iff.mp (hf.watched x hx ho)
    have hobject := Delivery.object?_of_ofEvent? hdelivery
    cases e with
    | init | initDone => cases hobject
    | initApply s =>
      cases hobject
      exact .inl he
    | apply s =>
      cases hobject
      exact .inr he
    | delete s =>
      rw [← Option.some.inj hdelivery] at hd
      cases hd
  · obtain ⟨-, -, hcached⟩ := hf.unwatched x hx ho
    have hshown := Cache.shown_of_get? (hf.serials_take x.after) hcached
    have hlt := hshown.lt
    rw [List.length_take] at hlt
    refine ⟨hshown.imp ?_ ?_, by omega⟩ <;>
    · intro he
      rwa [List.getElem?_take_of_lt (by omega)] at he

end Faithful

/-- In a run that was survived so far: of two additions or updates of a game server, the later one
is about an older state of it just if it comes from the cache, and the earlier one from a list that
is not complete when the later one is queued. -/
theorem Reached.older_iff (hr : Reached c h) (hg : Orderly h.shown) {i j : Nat} (hij : i < j)
    (hx : h.spawned[i]? = some x) (hy : h.spawned[j]? = some y)
    (hk : x.call.delivery.key = y.call.delivery.key) (hdx : x.call.delivery.isDelete = false)
    (hdy : y.call.delivery.isDelete = false) :
    y.call.delivery.subject.serial < x.call.delivery.subject.serial ↔
      y.call.origin ≠ .watch ∧
        Cache.Listed x.call.delivery.subject.serial (h.shown.take y.after) := by
  have hf := hr.faithful
  have ht := hr.timely
  have hmx := List.mem_of_getElem? hx
  have hmy := List.mem_of_getElem? hy
  obtain ⟨hshown, hlt⟩ := hf.shown ht hmx hdx
  have hafter : x.after ≤ y.after := by
    obtain ⟨hi, rfl⟩ := List.getElem?_eq_some_iff.mp hx
    obtain ⟨hj, rfl⟩ := List.getElem?_eq_some_iff.mp hy
    exact List.pairwise_iff_getElem.mp ht.ordered i j hi hj hij
  constructor
  · intro holder
    obtain ⟨e, he, hconcerns⟩ : ∃ e, h.shown[x.call.delivery.subject.serial]? = some e ∧
        Cache.Concerns Sighting.key y.call.delivery.key e := by
      rcases hshown with he | he <;> exact ⟨_, he, x.call.delivery.subject, rfl, hk⟩
    have hbefore : x.call.delivery.subject.serial < y.after := by omega
    have ho : y.call.origin ≠ .watch := fun ho =>
      Nat.not_le_of_lt holder (ht.le_serial hmy ho he hbefore hconcerns)
    obtain ⟨-, -, hcached⟩ := hf.unwatched y hmy ho
    have hnewest := (Cache.newest_replay (hf.serials_take y.after) (hg.take y.after)).1 _ hcached
    rw [← List.getElem?_take_of_lt hbefore] at he
    exact ⟨ho, (hnewest _ e he hconcerns).resolve_left (Nat.not_le_of_lt holder)⟩
  · rintro ⟨ho, hlisted⟩
    obtain ⟨-, -, hcached⟩ := hf.unwatched y hmy ho
    have hbefore : (Cache.replay Sighting.key
        ((h.shown.take y.after).take x.call.delivery.subject.serial)).get?
          y.call.delivery.key = some y.call.delivery.subject := by
      rw [Cache.get?, ← (hlisted.store (hg.take y.after)).2]
      exact hcached
    rw [List.take_take] at hbefore
    have hlt := (Cache.shown_of_get? (hf.serials_take _) hbefore).lt
    rw [List.length_take] at hlt
    omega

/-- A game server is listed, and listed again with a failure; its timer expires before the second
list is complete. -/
def relisted : List Input :=
  [.watch .init, .watch (.initApply Queue.lone.gs), .watch .initDone, .settled 0 .ok 0, .join 0,
    .watch .init, .watch (.initApply Queue.lone.gs), .settled 1 (.failed internalError) 0, .join 0,
    .expire 0, .watch .initDone]

theorem orderly_relisted (s t : Sighting) :
    Orderly [.init, .initApply s, .initDone, .init, .initApply t, .initDone] :=
  Orderly.nil.concat (e := .init) trivial |>.concat (e := .initApply s) rfl
    |>.concat (e := .initDone) rfl |>.concat (e := .init) trivial
    |>.concat (e := .initApply t) rfl |>.concat (e := .initDone) rfl

/-- What failed is not delivered again, but what was cached before. -/
theorem older_after_failure_in_list : ∃ h x y,
    ofInputs oneSlot relisted = .ok h ∧ Orderly h.shown ∧
      h.spawned[1]? = some x ∧ h.spawned[2]? = some y ∧
      x.call.delivery.key = y.call.delivery.key ∧ x.call.delivery.isDelete = false ∧
      y.call.delivery.isDelete = false ∧
      y.call.delivery.subject.serial < x.call.delivery.subject.serial :=
  ⟨_, _, _, rfl, orderly_relisted _ _, rfl, rfl, rfl, rfl, rfl, by decide⟩

/-- A game server is listed again, and its call fails after the second list is complete. -/
def relistedFirst : List Input :=
  [.watch .init, .watch (.initApply Queue.lone.gs), .watch .initDone, .settled 0 .ok 0, .join 0,
    .watch .init, .watch (.initApply Queue.lone.gs), .watch .initDone,
    .settled 1 (.failed internalError) 0, .join 0, .expire 0]

theorem same_after_failure_behind_list : ∃ h x y,
    ofInputs oneSlot relistedFirst = .ok h ∧ h.spawned[1]? = some x ∧ h.spawned[2]? = some y ∧
      y.call.origin = .requeue ∧
      ¬ y.call.delivery.subject.serial < x.call.delivery.subject.serial := by
  obtain ⟨h, x, y, hrun, hshown, hx, hy, hlast, hk, hdx, hdy, ho⟩ : ∃ h x y,
      ofInputs oneSlot relistedFirst = .ok h ∧
      h.shown = [.init, .initApply { Queue.lone with serial := 1 }, .initDone, .init,
        .initApply { Queue.lone with serial := 4 }, .initDone] ∧
      h.spawned[1]? = some x ∧ h.spawned[2]? = some y ∧
      (x.call.delivery.subject.serial = 4 ∧ y.after = 6) ∧
      x.call.delivery.key = y.call.delivery.key ∧ x.call.delivery.isDelete = false ∧
      y.call.delivery.isDelete = false ∧ y.call.origin = .requeue :=
    ⟨_, _, _, rfl, rfl, rfl, rfl, ⟨rfl, rfl⟩, rfl, rfl, rfl, rfl⟩
  refine ⟨h, x, y, hrun, hx, hy, ho, fun holder => ?_⟩
  obtain ⟨-, -, hdone⟩ := ((reached_of_ofInputs hrun).older_iff (hshown ▸ orderly_relisted _ _)
    (by decide : 1 < 2) hx hy hk hdx hdy).mp holder
  refine hdone .initDone ?_ rfl
  rw [hshown, hlast.1, hlast.2]
  exact List.mem_singleton_self _

end GameIngress.Dispatch.Chronicle
