import GameIngress.Proofs.Dispatch.Renumbering

/-!
# The part of a queue that belongs to one game server

A queue mirrors another one for a game server if it holds what that one holds for the game server,
and nothing else. In the mirror, calls, timers and events have numbers of their own. What happens to
the game server happens to both queues alike.
-/
namespace GameIngress

/-- The map `m'` has what `m` has under `k`, changed by `f`, and nothing else. -/
def Assoc.Restricts {κ α : Type} [DecidableEq κ] (f : α → α) (k : κ) (m m' : Assoc κ α) : Prop :=
  ∀ k', m'.get? k' = if k' = k then (m.get? k).map f else none

namespace Assoc.Restricts

variable {κ α : Type} [DecidableEq κ] {f : α → α} {k : κ} {m m₂ m' : Assoc κ α}

theorem get?_self (h : Restricts f k m m') : m'.get? k = (m.get? k).map f := by
  rw [h k, if_pos rfl]

theorem set (h : Restricts f k m m') (v : α) : Restricts f k (m.set k v) (m'.set k (f v)) := by
  intro k'
  by_cases hk : k = k'
  · simp [get?_set, hk]
  · simp [get?_set, hk, h k', Ne.symm hk]

theorem erase (h : Restricts f k m m') : Restricts f k (m.erase k) (m'.erase k) := by
  intro k'
  by_cases hk : k = k'
  · simp [get?_erase, hk]
  · simp [get?_erase, hk, h k', Ne.symm hk]

theorem of_get?_eq (h : Restricts f k m m') (hm : m₂.get? k = m.get? k) : Restricts f k m₂ m' :=
  fun k' => hm ▸ h k'

theorem nil : Restricts f k ([] : Assoc κ α) [] := fun k' => by simp

end Assoc.Restricts

namespace Dispatch

open Watch (Key Cache)

namespace Queue

open Renumbering (Fits Counts)

variable {ν : Renumbering} {k : Key} {q q' g : Queue} {d : Delivery} {o : Origin}

/-- The queue `g` is the part of the queue `q` that belongs to `k`. -/
structure Mirrors (ν : Renumbering) (k : Key) (q g : Queue) : Prop where
  size : g.slots.size = q.slots.size
  delays : g.delays = q.delays
  standings : Assoc.Restricts ν.standing k q.standings g.standings
  timers : g.timers = (q.timers.filter (·.key = k)).map ν.timer
  armed : g.armed = ν.timers q.armed
  failures : Assoc.Restricts id k q.failures g.failures
  unfinished : g.slots.unfinished = (q.slots.unfinishedOf k).map ν.call
  ended : g.slots.ended = (q.slots.endedOf k).map fun e => (ν.call e.1, e.2)
  queued : g.slots.queued = ν.calls q.slots.queued

namespace Mirrors

theorem standing? (h : Mirrors ν k q g) : g.standing? k = (q.standing? k).map ν.standing :=
  h.standings.get?_self

theorem failureCount (h : Mirrors ν k q g) : g.failureCount k = q.failureCount k := by
  rw [Queue.failureCount, h.failures.get?_self, Option.map_id_fun, id, Queue.failureCount]

theorem of_spares (h : Mirrors ν k q g) (hs : q.Spares k q') (hsize : q'.slots.size = q.slots.size)
    (hdelays : q'.delays = q.delays) (hqueued : ν.calls q'.slots.queued = ν.calls q.slots.queued)
    (harmed : ν.timers q'.armed = ν.timers q.armed) : Mirrors ν k q' g where
  size := h.size.trans hsize.symm
  delays := h.delays.trans hdelays.symm
  standings := h.standings.of_get?_eq hs.standing?
  timers := by rw [h.timers, hs.timers]
  armed := h.armed.trans harmed.symm
  failures := h.failures.of_get?_eq hs.failures
  unfinished := by rw [h.unfinished, hs.unfinished]
  ended := by rw [h.ended, hs.ended]
  queued := h.queued.trans hqueued.symm

theorem set (h : Mirrors ν k q g) (v : Standing) :
    Mirrors ν k { q with standings := q.standings.set k v }
      { g with standings := g.standings.set k (ν.standing v) } :=
  { h with standings := h.standings.set v }

theorem erase (h : Mirrors ν k q g) :
    Mirrors ν k { q with standings := q.standings.erase k }
      { g with standings := g.standings.erase k } :=
  { h with standings := h.standings.erase }

theorem forget (h : Mirrors ν k q g) : Mirrors ν k (q.forget k) (g.forget k) :=
  { h with failures := h.failures.erase }

theorem spawn (h : Mirrors ν k q g) (hk : d.key = k)
    (hc : ν.calls (q.slots.queued + 1) = ν.calls q.slots.queued + 1) :
    Mirrors ν k (q.spawn o d) (g.spawn o (ν.delivery d)) := by
  refine { h with size := h.size, unfinished := ?_, ended := h.ended, queued := ?_ }
  · have hcall : ν.call ⟨q.slots.queued, o, d⟩ = ⟨g.slots.queued, o, ν.delivery d⟩ := by
      rw [Renumbering.call, h.queued]
    change (g.slots.enqueue o (ν.delivery d)).unfinished =
      ((q.slots.enqueue o d).unfinishedOf k).map ν.call
    rw [← hk, Slots.unfinishedOf_enqueue, Slots.unfinished_enqueue, List.map_append, hk,
      ← h.unfinished, List.map_singleton, hcall]
  · change g.slots.queued + 1 = ν.calls (q.slots.queued + 1)
    rw [hc, h.queued]

theorem start (h : Mirrors ν k q g) (hk : d.key = k)
    (hc : ν.calls (q.slots.queued + 1) = ν.calls q.slots.queued + 1) :
    Mirrors ν k (q.start o d) (g.start o (ν.delivery d)) := by
  have hset := h.set (.running none)
  have hspawn := hset.spawn (o := o) hk hc
  rw [Queue.start, Queue.start, Renumbering.key_delivery, hk]
  exact hspawn

theorem timers_of_waiting (h : Mirrors ν k q g) (hq : q.Coherent) {t : Timer} (ht : t ∈ q.timers)
    (hk : t.key = k) : g.timers = [ν.timer t] := by
  have hone : q.timers.filter (·.key = k) = [t] :=
    hq.eq_of_waiting (hk ▸ hq.waiting_of_mem ht) ht rfl
  rw [h.timers, hone, List.map_singleton]

theorem cancelTimer (h : Mirrors ν k q g) (hq : q.Coherent) {id : Nat}
    (hs : q.standing? k = some (.waiting id)) :
    Mirrors ν k (q.cancelTimer id) (g.cancelTimer (ν.timers id)) := by
  have hnone : (q.cancelTimer id).timers.filter (·.key = k) = [] :=
    (hq.vacant_cancelTimer hs).timers
  obtain ⟨-, ⟨t, hone, rfl⟩, -⟩ := hq.waiting hs
  have hmem : t ∈ (q.profile k).timers := hone ▸ List.mem_singleton_self t
  have htimers := h.timers_of_waiting hq (List.mem_of_mem_filter hmem)
    (by simpa using List.of_mem_filter hmem)
  refine { h with timers := ?_ }
  rw [hnone, Queue.cancelTimer, htimers]
  simp [Renumbering.timer]

theorem arm (h : Mirrors ν k q g) (now : Nat)
    (hc : ν.timers (q.armed + 1) = ν.timers q.armed + 1) :
    Mirrors ν k (q.arm now k) (g.arm now k) := by
  have hnext : ν.timer (q.nextTimer now k) = g.nextTimer now k := by
    simp [Renumbering.timer, nextTimer, h.failureCount, h.delays, h.armed]
  have hown : [q.nextTimer now k].filter (·.key = k) = [q.nextTimer now k] := by simp [nextTimer]
  refine { h with delays := h.delays, standings := ?_, timers := ?_, armed := ?_, failures := ?_ }
  · have hset := h.standings.set (.waiting q.armed)
    rwa [Renumbering.standing, ← h.armed] at hset
  · change g.timers ++ [g.nextTimer now k] = ((q.timers ++ [q.nextTimer now k]).filter _).map _
    rw [List.filter_append, List.map_append, ← h.timers, hown, List.map_singleton, hnext]
  · change g.armed + 1 = ν.timers (q.armed + 1)
    rw [hc, h.armed]
  · change Assoc.Restricts id k _ (g.failures.set k (min (g.failureCount k + 1) maxFailures))
    rw [h.failureCount]
    exact h.failures.set _

theorem enqueue (h : Mirrors ν k q g) (hq : q.Coherent) (hk : d.key = k)
    (hf : Fits ν k q (q.enqueue d)) : Mirrors ν k (q.enqueue d) (g.enqueue (ν.delivery d)) := by
  have hcount : (q.enqueue d).slots = q.slots.enqueue .watch d →
      ν.calls (q.slots.queued + 1) = ν.calls q.slots.queued + 1 :=
    fun hs => (hf.enqueued hs).own hk
  clear hf
  unfold Queue.enqueue at hcount ⊢
  simp only [Renumbering.isDelete_delivery, Renumbering.key_delivery, hk] at hcount ⊢
  cases hd : d.isDelete with
  | true =>
    have hforget : ∀ p : Queue, (p.forget k).standing? k = p.standing? k := fun _ => rfl
    simp only [hd, ↓reduceIte, hforget, h.standing?] at hcount ⊢
    cases hs : q.standing? k with
    | none =>
      simp only [hs, Option.map_none] at hcount ⊢
      exact h.forget.spawn hk (hcount rfl)
    | some s =>
      cases s with
      | running pending =>
        simp only [hs, Option.map_some, Renumbering.standing] at hcount ⊢
        exact (h.forget.set (.running none)).spawn hk (hcount rfl)
      | waiting id =>
        simp only [hs, Option.map_some, Renumbering.standing] at hcount ⊢
        exact ((h.cancelTimer hq hs).forget.erase).spawn hk (hcount rfl)
  | false =>
    simp only [hd, Bool.false_eq_true, ↓reduceIte, h.standing?] at hcount ⊢
    cases hs : q.standing? k with
    | none =>
      simp only [hs, Option.map_none] at hcount ⊢
      exact h.start hk (hcount rfl)
    | some s =>
      cases s with
      | running pending =>
        simp only [Option.map_some, Renumbering.standing]
        exact h.set (.running (some d))
      | waiting id =>
        simp only [hs, Option.map_some, Renumbering.standing] at hcount ⊢
        exact (h.cancelTimer hq hs).start hk (hcount rfl)

section Join
variable {c : Call} {r : Outcome} {slots : Slots}

/-- The call that ended first in the queue did so in the mirror, if it is one of `k`. -/
theorem join (h : Mirrors ν k q g) (hj : q.slots.join = some ((c, r), slots))
    (hk : c.delivery.key = k) : ∃ slots', g.slots.join = some ((ν.call c, r), slots') ∧
      Mirrors ν k { q with slots } { g with slots := slots' } := by
  have hended : g.slots.ended =
      (ν.call c, r) :: (slots.endedOf k).map fun e => (ν.call e.1, e.2) := by
    rw [h.ended, Slots.endedOf, Slots.ended_of_join hj, List.filter_cons_of_pos (by simpa using hk)]
    rfl
  have hunfinished := Slots.unfinished_of_join hj
  refine ⟨{ g.slots with ended := (slots.endedOf k).map fun e => (ν.call e.1, e.2) },
    by rw [Slots.join, hended], { h with
      size := h.size.trans (Slots.seats_of_join hj).2.2.symm
      unfinished := ?_
      ended := rfl
      queued := h.queued.trans (congrArg ν.calls (Slots.queued_of_join hj).symm) }⟩
  change g.slots.unfinished = (slots.unfinishedOf k).map ν.call
  rw [Slots.unfinishedOf, hunfinished]
  exact h.unfinished

theorem finish (h : Mirrors ν k { q with slots } g) (hq : q.Coherent)
    (hj : q.slots.join = some ((c, r), slots)) (hk : c.delivery.key = k) (now : Nat)
    {cache cache' : Dispatch.Cache}
    (hcache : cache'.get? k = (cache.get? k).map ν.sighting)
    (hf : Fits ν k { q with slots } ({ q with slots }.finish now cache c r)) :
    Mirrors ν k ({ q with slots }.finish now cache c r) (g.finish now cache' (ν.call c) r) := by
  have hstanding := h.standing?
  unfold Queue.finish at hf ⊢
  simp only [Renumbering.call, Renumbering.isDelete_delivery, Renumbering.key_delivery, hk] at hf ⊢
  cases hd : c.delivery.isDelete with
  | true => simpa only [↓reduceIte] using h
  | false =>
    have hc : c ∈ q.slots.outstanding := Slots.mem_outstanding_of_join hj
    obtain ⟨-, pending, hs⟩ := hq.running_of_outstanding hc hd
    rw [hk] at hs
    have hjoin : { q with slots }.standing? k = some (.running pending) := hs
    rw [hjoin, Option.map_some, Renumbering.standing] at hstanding
    simp only [hd, Bool.false_eq_true, ↓reduceIte, hjoin, hstanding] at hf ⊢
    cases pending with
    | some d =>
      have hkey : d.key = k := ((hq.running hs).2.2 d rfl).1
      exact h.erase.start hkey ((hf.enqueued rfl).own hkey)
    | none =>
      cases r with
      | done => exact h.erase.forget
      | retry e =>
        simp only [Option.map_none, hcache] at hf ⊢
        cases hs : cache.get? k with
        | none => exact h.erase.forget
        | some s =>
          simp only [hs] at hf
          have hcount := hf.timers ({ q with slots }.nextTimer now k)
            (List.mem_append_right _ (List.mem_singleton_self _)) (Nat.le_refl _)
          exact h.erase.arm now (hcount.own rfl)

end Join

theorem expire (h : Mirrors ν k q g) (hq : q.Coherent) {t : Timer} (ht : t ∈ q.timers)
    (hk : t.key = k) {cache cache' : Dispatch.Cache} (hkeyed : cache.Keyed Sighting.key)
    (hcache : cache'.get? k = (cache.get? k).map ν.sighting)
    (hf : Fits ν k q (q.expire cache t)) :
    Mirrors ν k (q.expire cache t) (g.expire cache' (ν.timer t)) := by
  have hcancel := (h.cancelTimer hq (hk ▸ hq.waiting_of_mem ht)).erase
  have hkey : (ν.timer t).key = k := hk
  unfold Queue.expire at hf ⊢
  simp only [hkey, hk, hcache] at hf ⊢
  cases hs : cache.get? k with
  | none => exact hcancel.forget
  | some s =>
    simp only [hs] at hf
    have hkey : (Delivery.again s).key = k := hkeyed.key_eq hs
    exact hcancel.start hkey ((hf.enqueued rfl).own hkey)

theorem resync (h : Mirrors ν k q g) {cached : List Sighting} (hf : Fits ν k q (q.resync cached)) :
    Mirrors ν k (q.resync cached)
      (g.resync ((cached.filter (·.key = k)).map ν.sighting)) := by
  unfold Queue.resync at hf ⊢
  induction cached generalizing q g with
  | nil => exact h
  | cons s rest ih =>
    have hstart : q.standing? s.key = none →
        Counts ν.calls q.slots.queued (s.key = k) ∧
          Fits ν k (q.start .resync (.again s)) ((q.start .resync (.again s)).resync rest) := by
      intro hs
      rw [List.foldl_cons, hs] at hf
      obtain ⟨new, happ, -⟩ := resync_appends rest (q.start .resync (.again s))
      refine ⟨hf.first (o := .resync) (d := .again s) ?_, hf.later (Nat.le_succ _) (Nat.le_refl _)⟩
      change _ ∈ ((q.start .resync (.again s)).resync rest).slots.unfinished
      rw [happ.unfinished]
      refine List.mem_append_left _ ?_
      change _ ∈ (q.slots.enqueue .resync (.again s)).unfinished
      rw [Slots.unfinished_enqueue]
      exact List.mem_append_right _ (List.mem_singleton_self _)
    rw [List.foldl_cons] at hf ⊢
    by_cases hk : s.key = k
    · rw [List.filter_cons_of_pos (by simpa using hk), List.map_cons, List.foldl_cons]
      have hkey : (ν.sighting s).key = k := hk
      rw [hkey, h.standing?, Option.isSome_map, ← hk]
      rw [← hk] at h
      cases hs : q.standing? s.key with
      | none =>
        obtain ⟨hcount, hrest⟩ := hstart hs
        subst hk
        exact ih (h.start (o := .resync) (d := .again s) rfl (hcount.own rfl)) hrest
      | some v =>
        rw [hs] at hf
        subst hk
        exact ih h hf
    · rw [List.filter_cons_of_neg (by simpa using hk)]
      cases hs : q.standing? s.key with
      | none =>
        obtain ⟨hcount, hrest⟩ := hstart hs
        exact ih (h.of_spares (.start .resync hk) rfl rfl (hcount.other hk) rfl) hrest
      | some v =>
        rw [hs] at hf
        exact ih h hf

theorem running (h : Mirrors ν k q g) (hq : q.slots.Packed) (hg : g.slots.Packed) {x : Call}
    (hx : x ∈ q.slots.running) (hk : x.delivery.key = k) : ν.call x ∈ g.slots.running := by
  have hfirst : (q.slots.unfinished.take q.slots.size).filter (·.delivery.key = k) <+:
      (q.slots.unfinishedOf k).take q.slots.size := by
    refine List.prefix_take_iff.mpr ⟨(List.take_prefix _ _).filter _, ?_⟩
    exact (List.length_filter_le _ _).trans (List.length_take_le _ _)
  rw [hq.running_eq] at hx
  rw [hg.running_eq, h.unfinished, h.size, ← List.map_take]
  exact List.mem_map_of_mem (hfirst.subset (List.mem_filter.mpr ⟨hx, by simpa using hk⟩))

theorem settle (h : Mirrors ν k q g) (hq : q.slots.Packed) (hg : g.slots.Packed)
    (hd : (q.slots.unfinished.map (·.id)).Nodup) (hd' : (g.slots.unfinished.map (·.id)).Nodup)
    {x : Call} (hx : x ∈ q.slots.running) (hk : x.delivery.key = k) (r : CallResult) :
    Mirrors ν k { q with slots := q.slots.settle x.id r }
      { g with slots := g.slots.settle (ν.calls x.id) r } := by
  obtain ⟨hunfinished, hended⟩ := Slots.settle_of_running hd hx r
  obtain ⟨hunfinished', hended'⟩ := Slots.settle_of_running hd' (h.running hq hg hx hk) r
  have hmem : x ∈ q.slots.unfinishedOf k :=
    List.mem_filter.mpr ⟨List.mem_append_left _ hx, by simpa using hk⟩
  refine { h with size := h.size, unfinished := ?_, ended := ?_, queued := h.queued }
  · change (g.slots.settle (ν.call x).id r).unfinished =
      ((q.slots.settle x.id r).unfinishedOf k).map ν.call
    have hrest : (q.slots.settle x.id r).unfinishedOf k =
        (q.slots.unfinishedOf k).filter (·.id ≠ x.id) := by
      rw [Slots.unfinishedOf, hunfinished, List.filter_comm]
      rfl
    rw [hunfinished', h.unfinished, List.filter_map, hrest]
    congr 1
    refine List.filter_congr fun y hy => ?_
    have hsame : ν.calls y.id = ν.calls x.id ↔ y.id = x.id := by
      refine ⟨fun hid => ?_, congrArg ν.calls⟩
      rw [h.unfinished, List.map_map] at hd'
      exact congrArg Call.id (List.inj_on_of_nodup_map hd' hy hmem hid)
    simp [Renumbering.call, hsame]
  · change (g.slots.settle (ν.call x).id r).ended = ((q.slots.settle x.id r).endedOf k).map _
    rw [hended', h.ended, Slots.endedOf, Slots.endedOf, hended, List.filter_append,
      List.filter_cons_of_pos (by simpa using hk), List.filter_nil, List.map_append,
      List.map_singleton, Renumbering.call, Renumbering.outcome_delivery]

end Mirrors
end Queue
end Dispatch
end GameIngress
