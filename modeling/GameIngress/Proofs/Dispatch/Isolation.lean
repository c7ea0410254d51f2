import GameIngress.Proofs.Dispatch.Concurrency
import GameIngress.Proofs.Dispatch.Delay
import GameIngress.Proofs.Dispatch.Mirror
import GameIngress.Proofs.Dispatch.Resync

/-!
# Game servers are isolated from each other

From every run, all that is not about one game server can be erased, and what is left is a run
again. Its calls, timers and events are those of the game server, numbered anew. Each turn of it
mirrors a turn of the whole run, and the turns that are erased leave the game server alone.
-/
namespace GameIngress.Dispatch

open Watch (Key Cache)
open Renumbering (Counts Fits)

namespace Dispatcher

variable {ν : Renumbering} {k : Key} {d d' g : Dispatcher} {i : Input}

/-- The dispatcher `g` is the part of the dispatcher `d` that belongs to `k`. -/
structure Mirrors (ν : Renumbering) (k : Key) (d g : Dispatcher) : Prop where
  queue : d.queue.Mirrors ν k g.queue
  cached : Assoc.Restricts ν.sighting k d.cache.store g.cache.store
  listed : Assoc.Restricts ν.sighting k d.cache.buffer g.cache.buffer
  consumed : g.consumed = ν.events d.consumed
  stopped : g.stopped = d.stopped

theorem concerns_of_taken {e : Watch.Event Sighting} (he : d.taken? i = some e) :
    concerns k e = d.regards k i := by
  cases i with
  | watch e₀ =>
    simp only [taken?] at he
    split at he
    · cases he
    · have hsight : ∀ {gs s}, d.sight gs = some s →
          decide (s.key = k) = decide (keyOf? gs = some k) := by
        intro gs s hs
        obtain ⟨key, hkey, rfl⟩ := Option.map_eq_some_iff.mp hs
        simp [hkey]
      rw [concerns, object?_of_sight he, regards]
      cases hobject : e₀.object? with
      | none => rfl
      | some gs =>
        have hsome : (e₀.mapM? d.sight).isSome := by rw [he]; rfl
        cases hs : d.sight gs with
        | none => cases e₀ <;> cases hobject <;> simp [Watch.Event.mapM?, hs] at hsome
        | some s => simpa [hs] using hsight hs
  | settled _ _ _ | join _ | expire _ | tick | stop => cases he

namespace Mirrors

theorem get?_cache (h : Mirrors ν k d g) : g.cache.get? k = (d.cache.get? k).map ν.sighting :=
  h.cached.get?_self

theorem ofEvent? (h : Mirrors ν k d g) {e : Watch.Event Sighting} (he : concerns k e = true) :
    Delivery.ofEvent? g.cache (ν.event e) = (Delivery.ofEvent? d.cache e).map ν.delivery := by
  cases e with
  | init | initDone | initApply _ | delete _ => rfl
  | apply s =>
    have hk : s.key = k := of_decide_eq_true he
    have hkey : (ν.sighting s).key = k := hk
    simp only [Renumbering.event, Delivery.ofEvent?, hkey, h.get?_cache, hk]
    cases d.cache.get? k <;> rfl

theorem observe (h : Mirrors ν k d g) (hq : d.queue.Coherent) {e : Watch.Event Sighting}
    (he : concerns k e = true) (hf : Fits ν k d.queue (d.observe e).queue)
    (hc : Counts ν.events d.consumed (concerns k e = true)) :
    Mirrors ν k (d.observe e) (g.observe (ν.event e)) where
  queue := by
    simp only [Dispatcher.observe, h.ofEvent? he] at hf ⊢
    cases hd : Delivery.ofEvent? d.cache e with
    | none => exact h.queue
    | some delivery =>
      simp only [hd] at hf
      have hk : delivery.key = k := by
        rw [concerns, Delivery.object?_of_ofEvent? hd] at he
        exact of_decide_eq_true he
      exact h.queue.enqueue hq hk hf
  cached := by
    cases e with
    | init | initApply _ => exact h.cached
    | initDone => exact h.listed
    | apply s =>
      obtain rfl : s.key = k := of_decide_eq_true he
      exact h.cached.set s
    | delete s =>
      obtain rfl : s.key = k := of_decide_eq_true he
      exact h.cached.erase
  listed := by
    cases e with
    | init | initDone => exact .nil
    | initApply s =>
      obtain rfl : s.key = k := of_decide_eq_true he
      exact h.listed.set s
    | apply _ | delete _ => exact h.listed
  consumed := by
    change g.consumed + 1 = ν.events (d.consumed + 1)
    rw [hc.own he, h.consumed]
  stopped := h.stopped

theorem sight (h : Mirrors ν k d g) (gs : GameServer) :
    g.sight gs = (d.sight gs).map ν.sighting := by
  rw [Dispatcher.sight, Dispatcher.sight, Option.map_map, h.consumed]
  rfl

theorem mapM?_sight (h : Mirrors ν k d g) (e : Watch.Event GameServer) :
    e.mapM? g.sight = (e.mapM? d.sight).map ν.event := by
  cases e with
  | init | initDone => rfl
  | initApply gs | apply gs | delete gs =>
    simp only [Watch.Event.mapM?, h.sight, Option.map_map]
    rfl

theorem values (h : Mirrors ν k d g) (hd : d.cache.Keyed Sighting.key) (hd' : d.cache.Single)
    (hg : g.cache.Keyed Sighting.key) (hg' : g.cache.Single) :
    g.cache.values = (d.cache.values.filter (·.key = k)).map ν.sighting := by
  have hown : g.cache.values.filter (·.key = k) = g.cache.values := by
    rw [List.filter_eq_self]
    intro s hs
    have hget := hg'.get?_of_mem_values hg hs
    rw [Cache.get?, h.cached] at hget
    split at hget
    · next hk => exact decide_eq_true hk
    · cases hget
  rw [← hown, filter_values hg hg', filter_values hd hd', h.get?_cache]
  cases d.cache.get? k <;> rfl

theorem of_spares (h : Mirrors ν k d g) (hs : d.Spares k d')
    (hsize : d'.queue.slots.size = d.queue.slots.size) (hdelays : d'.queue.delays = d.queue.delays)
    (hqueued : ν.calls d'.queue.slots.queued = ν.calls d.queue.slots.queued)
    (harmed : ν.timers d'.queue.armed = ν.timers d.queue.armed)
    (hconsumed : ν.events d'.consumed = ν.events d.consumed) : Mirrors ν k d' g where
  queue := h.queue.of_spares hs.queue hsize hdelays hqueued harmed
  cached := h.cached.of_get?_eq hs.cached
  listed := h.listed.of_get?_eq hs.listed
  consumed := h.consumed.trans hconsumed.symm
  stopped := h.stopped.trans hs.stopped.symm

end Mirrors

theorem step_watch_of_mapM? {e : Watch.Event GameServer} {e' : Watch.Event Sighting}
    (hstop : d.stopped = false) (he : e.mapM? d.sight = some e') :
    d.step (.watch e) = .ok (d.observe e') := by
  have hsight : (e.mapM? fun gs => (keyOf? gs).map fun key => { key, gs, serial := d.consumed }) =
      some e' := he
  simp only [step, hstop, Bool.false_eq_true, ↓reduceIte, hsight]

theorem eq_of_checked (hd : d.checked = .ok d') : d' = d := by
  unfold checked at hd
  split at hd
  · cases hd
  · cases hd
    rfl

/-- The mirror has no timer that goes too far ahead, if there is none in the whole. -/
theorem Mirrors.checked (hm : d'.Mirrors ν k g) (hd : d.checked = .ok d') : g.checked = .ok g := by
  obtain rfl := eq_of_checked hd
  unfold Dispatcher.checked at hd ⊢
  split at hd
  · cases hd
  · next hnone =>
    rw [if_neg]
    intro hany
    obtain ⟨t, ht, hfar⟩ := List.any_eq_true.mp hany
    rw [hm.queue.timers] at ht
    obtain ⟨y, hy, rfl⟩ := List.mem_map.mp ht
    exact hnone (List.any_eq_true.mpr ⟨y, List.mem_of_mem_filter hy, hfar⟩)

section Step
variable {h h' : Chronicle}

theorem mirrors_watch (hm : h.dispatcher.Mirrors ν k h'.dispatcher) (hf : h.Faithful)
    {e : Watch.Event GameServer} (hs : h.dispatcher.step (.watch e) = .ok d')
    (hr : h.dispatcher.regards k (.watch e) = true)
    (hfits : Fits ν k h.dispatcher.queue d'.queue)
    (hevents : ∀ e' ∈ h.dispatcher.taken? (.watch e),
      Counts ν.events h.dispatcher.consumed (concerns k e' = true)) :
    ∃ g', h'.dispatcher.step (.watch e) = .ok g' ∧ d'.Mirrors ν k g' := by
  rcases step_watch hs with ⟨hstop, rfl⟩ | ⟨hstop, e', he, rfl⟩
  · refine ⟨h'.dispatcher, ?_, hm⟩
    simp only [step, hm.stopped, hstop, ↓reduceIte]
  · have htaken : h.dispatcher.taken? (.watch e) = some e' := by simp [taken?, hstop, he]
    have he' : e.mapM? h'.dispatcher.sight = some (ν.event e') := by
      rw [hm.mapM?_sight, he, Option.map_some]
    exact ⟨_, step_watch_of_mapM? (hm.stopped.trans hstop) he',
      hm.observe hf.coherent ((concerns_of_taken htaken).trans hr) hfits (hevents e' htaken)⟩

theorem mirrors_settled (hm : h.dispatcher.Mirrors ν k h'.dispatcher) (hf : h.Faithful)
    (hf' : h'.Faithful) (hp : h.slots.Packed) (hp' : h'.slots.Packed) {id millis : Nat}
    {r : CallResult} (hs : h.dispatcher.step (.settled id r millis) = .ok d')
    (hr : h.dispatcher.regards k (.settled id r millis) = true) :
    ∃ g', h'.dispatcher.step (.settled (ν.calls id) r millis) = .ok g' ∧ d'.Mirrors ν k g' := by
  obtain ⟨x, hx, hown⟩ := List.any_eq_true.mp hr
  obtain ⟨rfl, hk⟩ : x.id = id ∧ x.delivery.key = k := by simpa using hown
  obtain ⟨hqueue, hcache, hconsumed, hstopped⟩ := step_settled hs
  obtain ⟨hqueue', hcache', hconsumed', hstopped'⟩ := step_settled
    (show h'.dispatcher.step (.settled (ν.calls x.id) r millis) = .ok _ from rfl)
  refine ⟨_, rfl, ?_, ?_, ?_, ?_, ?_⟩
  · rw [hqueue, hqueue']
    exact hm.queue.settle hp hp' hf.nodup_unfinished hf'.nodup_unfinished hx hk r
  · rw [hcache, hcache']
    exact hm.cached
  · rw [hcache, hcache']
    exact hm.listed
  · rw [hconsumed, hconsumed', hm.consumed]
  · rw [hstopped, hstopped', hm.stopped]

theorem mirrors_join (hm : h.dispatcher.Mirrors ν k h'.dispatcher) (hf : h.Faithful) {now : Nat}
    (hs : h.dispatcher.step (.join now) = .ok d')
    (hr : h.dispatcher.regards k (.join now) = true)
    (hfits : Fits ν k h.dispatcher.queue d'.queue) :
    ∃ g', h'.dispatcher.step (.join now) = .ok g' ∧ d'.Mirrors ν k g' := by
  obtain ⟨e, slots, hj, hk⟩ : ∃ e slots, h.dispatcher.queue.slots.join = some (e, slots) ∧
      e.1.delivery.key = k := by
    unfold regards at hr
    unfold Slots.join
    cases hended : h.dispatcher.queue.slots.ended with
    | nil => simp [hended] at hr
    | cons e rest => exact ⟨e, _, rfl, by simpa [hended] using hr⟩
  obtain ⟨slots', hj', hjoin⟩ := hm.queue.join hj hk
  simp only [step, hj, hj'] at hs ⊢
  have hd' := eq_of_checked hs
  rw [hd'] at hfits
  have hfinish := hjoin.finish hf.coherent hj hk now hm.get?_cache
    (hfits.later (Nat.le_of_eq (Slots.queued_of_join hj).symm) (Nat.le_refl _))
  have hmirror : Mirrors ν k d' { h'.dispatcher with
      queue := Queue.finish now h'.dispatcher.cache (ν.call e.1) e.2
        { h'.dispatcher.queue with slots := slots' } } := by
    rw [hd']
    exact ⟨hfinish, hm.cached, hm.listed, hm.consumed, hm.stopped⟩
  exact ⟨_, hmirror.checked hs, hmirror⟩

theorem mirrors_expire (hm : h.dispatcher.Mirrors ν k h'.dispatcher) (hf : h.Faithful)
    {timer : Nat} (hs : h.dispatcher.step (.expire timer) = .ok d')
    (hr : h.dispatcher.regards k (.expire timer) = true)
    (hfits : Fits ν k h.dispatcher.queue d'.queue) :
    ∃ g', h'.dispatcher.step (.expire (ν.timers timer)) = .ok g' ∧ d'.Mirrors ν k g' := by
  obtain ⟨y, hy, hown⟩ := List.any_eq_true.mp hr
  obtain ⟨rfl, hk⟩ : y.id = timer ∧ y.key = k := by simpa using hown
  rcases step_expired hs with ⟨hnone, rfl⟩ | ⟨t, ht, hid, hstop, -, rfl⟩
  · have hstop : h.dispatcher.stopped = true := by
      by_contra hstop
      rw [expired?, if_neg hstop, List.find?_eq_none] at hnone
      exact hnone y hy (decide_eq_true rfl)
    refine ⟨h'.dispatcher, ?_, hm⟩
    simp only [step, hm.stopped, hstop, ↓reduceIte]
  · obtain rfl : t = y := List.inj_on_of_nodup_map hf.coherent.distinct ht hy hid
    have htimers := hm.queue.timers_of_waiting hf.coherent ht hk
    refine ⟨{ h'.dispatcher with
      queue := h'.dispatcher.queue.expire h'.dispatcher.cache (ν.timer t) }, ?_,
      hm.queue.expire hf.coherent ht hk hf.keyed hm.get?_cache hfits,
      hm.cached, hm.listed, hm.consumed, hm.stopped⟩
    simp [step, hm.stopped, hstop, htimers, Renumbering.timer]

theorem mirrors_tick (hm : h.dispatcher.Mirrors ν k h'.dispatcher) (hf : h.Faithful)
    (hf' : h'.Faithful) (hs : h.dispatcher.step .tick = .ok d')
    (hfits : Fits ν k h.dispatcher.queue d'.queue) :
    ∃ g', h'.dispatcher.step .tick = .ok g' ∧ d'.Mirrors ν k g' := by
  have hvalues := hm.values hf.keyed hf.single hf'.keyed hf'.single
  cases hstop : h.dispatcher.stopped with
  | true =>
    simp only [step, hstop, hm.stopped, ↓reduceIte, Except.ok.injEq] at hs ⊢
    exact ⟨_, rfl, hs ▸ hm⟩
  | false =>
    simp only [step, hstop, hm.stopped, Bool.false_eq_true, ↓reduceIte, Except.ok.injEq] at hs ⊢
    subst hs
    refine ⟨_, rfl, ?_, hm.cached, hm.listed, hm.consumed, rfl⟩
    rw [hvalues]
    exact hm.queue.resync hfits

/-- An input that regards the game server is survived by the mirror too, which then mirrors what it
leads to. -/
theorem step_mirrors (hm : h.dispatcher.Mirrors ν k h'.dispatcher) (hf : h.Faithful)
    (hf' : h'.Faithful) (hp : h.slots.Packed) (hp' : h'.slots.Packed)
    (hs : h.dispatcher.step i = .ok d') (hr : h.dispatcher.regards k i = true)
    (hfits : Fits ν k h.dispatcher.queue d'.queue)
    (hevents : ∀ e ∈ h.dispatcher.taken? i,
      Counts ν.events h.dispatcher.consumed (concerns k e = true)) :
    ∃ g', h'.dispatcher.step (ν.input i) = .ok g' ∧ d'.Mirrors ν k g' := by
  cases i with
  | watch e => exact mirrors_watch hm hf hs hr hfits hevents
  | settled id r millis => exact mirrors_settled hm hf hf' hp hp' hs hr
  | join now => exact mirrors_join hm hf hs hr hfits
  | expire timer => exact mirrors_expire hm hf hs hr hfits
  | tick => exact mirrors_tick hm hf hf' hs hfits
  | stop =>
    rw [step_stop hs]
    exact ⟨_, rfl, hm.queue, hm.cached, hm.listed, hm.consumed, rfl⟩

end Step
end Dispatcher

namespace Turn

variable {ν : Renumbering} {k : Key} {t t' : Turn}

theorem mem_unfinished (hf : t.before.Faithful)
    (hs : t.before.dispatcher.step t.input = .ok t.after) {x : Call}
    (hx : x ∈ t.after.queue.slots.unfinished) :
    x ∈ t.before.slots.unfinished ∨ t.before.slots.queued ≤ x.id := by
  have hchange := Dispatcher.step_slots hf.coherent hf.keyed hs
  generalize t.after.queue.slots = slots at hchange hx
  generalize t.input = i at hchange
  cases hchange with
  | queued ha =>
    rw [ha.unfinished] at hx
    exact (List.mem_append.mp hx).imp_right ha.le_id
  | ended id r millis =>
    rw [Slots.settle, Slots.unfinished_fill] at hx
    exact .inl ((List.mem_append.mp hx).elim
      (fun hx => List.mem_append_left _ (List.mem_of_mem_filter hx)) (List.mem_append_right _))
  | joined hj ha =>
    rw [ha.unfinished, Slots.unfinished_of_join hj] at hx
    exact (List.mem_append.mp hx).imp_right fun hx => Slots.queued_of_join hj ▸ ha.le_id hx

/-- The turn `t'` does in a mirror what the turn `t` does in the whole. -/
structure Mirrors (ν : Renumbering) (k : Key) (t t' : Turn) : Prop where
  time : t'.time = t.time
  input : t'.input = ν.input t.input
  before : t.before.dispatcher.Mirrors ν k t'.before.dispatcher
  after : t.after.Mirrors ν k t'.after
  queued : t'.queued = (t.queued.filter (·.delivery.key = k)).map ν.call
  armed : t'.armed = (t.armed.filter (·.key = k)).map ν.timer

theorem Mirrors.of_step (hf : t.before.Faithful)
    (hs : t.before.dispatcher.step t.input = .ok t.after) {h' : Chronicle} (hf' : h'.Faithful)
    {g' : Dispatcher} (hν : Monotone ν.calls ∧ Monotone ν.timers)
    (before : t.before.dispatcher.Mirrors ν k h'.dispatcher) (after : t.after.Mirrors ν k g') :
    Mirrors ν k t ⟨t.time, h', ν.input t.input, g'⟩ where
  time := rfl
  input := rfl
  before := before
  after := after
  queued := by
    have hown : t.queued.filter (·.delivery.key = k) =
        (t.after.queue.slots.unfinishedOf k).filter (t.before.slots.queued ≤ ·.id) :=
      List.filter_comm _ _ _
    have hnumber : h'.slots.queued = ν.calls t.before.slots.queued := before.queue.queued
    change g'.queue.slots.unfinished.filter (h'.slots.queued ≤ ·.id) = _
    rw [after.queue.unfinished, hown, hnumber]
    refine Renumbering.filter_map_new (fun _ => rfl) hν.1 fun x hx => ?_
    rcases mem_unfinished hf hs (List.mem_of_mem_filter hx) with hold | hnew
    · have hmem : ν.call x ∈ h'.slots.unfinished := by
        rw [Chronicle.slots, before.queue.unfinished]
        exact List.mem_map_of_mem (List.mem_filter.mpr ⟨hold, (List.mem_filter.mp hx).2⟩)
      exact .inr (hnumber ▸ hf'.coherent.numbered _ (Multiset.mem_add.mpr (.inr hmem)))
    · exact .inl hnew
  armed := by
    have hown : t.armed.filter (·.key = k) = (t.after.queue.timers.filter (·.key = k)).filter
        (t.before.dispatcher.queue.armed ≤ ·.id) := List.filter_comm _ _ _
    change g'.queue.timers.filter (h'.dispatcher.queue.armed ≤ ·.id) = _
    rw [after.queue.timers, hown, before.queue.armed]
    refine Renumbering.filter_map_new (fun _ => rfl) hν.2 fun x hx => ?_
    rcases mem_timers hf hs (List.mem_of_mem_filter hx) with hold | hnew
    · have hmem : ν.timer x ∈ h'.dispatcher.queue.timers := by
        rw [before.queue.timers]
        exact List.mem_map_of_mem (List.mem_filter.mpr ⟨hold, (List.mem_filter.mp hx).2⟩)
      exact .inr (before.queue.armed ▸ hf'.coherent.armed _ hmem)
    · exact .inl (of_decide_eq_true (List.mem_filter.mp hnew).2)

theorem Mirrors.timely (hm : Mirrors ν k t t') (hf : t.before.Faithful)
    (hr : t.regards k = true) (ht : t.Timely) : t'.Timely := by
  unfold Timely at ht ⊢
  rw [hm.input, hm.time]
  unfold regards at hr
  generalize t.input = i at ht hr
  cases i with
  | watch _ | settled _ _ _ | tick | stop => trivial
  | join now => exact ht
  | expire timer =>
    obtain ⟨y, hy, hown⟩ := List.any_eq_true.mp hr
    obtain ⟨hid, hk⟩ : y.id = timer ∧ y.key = k := by simpa using hown
    intro x hx _
    rw [hm.before.queue.timers_of_waiting hf.coherent hy hk] at hx
    rw [List.mem_singleton.mp hx]
    exact ht y hy hid

theorem mirrors_after {h' : Chronicle} (he : Chronicle.Effect t.before t.reached)
    (hf : t.before.Faithful) (hs : t.before.dispatcher.step t.input = .ok t.after)
    (hsize : t.after.queue.slots.size = t.before.slots.size)
    (hdelays : t.after.queue.delays = t.before.dispatcher.queue.delays)
    (hfits : Fits ν k t.before.dispatcher.queue t.after.queue)
    (hevents : ∀ e ∈ t.taken?, Counts ν.events t.before.dispatcher.consumed (concerns k e = true))
    (hr : t.regards k = false) (hm : t.before.dispatcher.Mirrors ν k h'.dispatcher) :
    t.after.Mirrors ν k h'.dispatcher := by
  have hspares : t.Spares k := Dispatcher.step_spares hf hs hr
  obtain ⟨hqueued, harmed⟩ := new_of_spares hf.coherent.toSound hspares.queue
  obtain ⟨taken, new, ha⟩ := he.adds
  obtain rfl := queued_of_adds ha
  obtain ⟨hids, hnext⟩ := armed_ids hf hs
  refine hm.of_spares hspares hsize hdelays ?_ ?_ ?_
  · change ν.calls t.reached.slots.queued = _
    rw [ha.queued]
    exact Renumbering.count_stays ha.ids hfits.calls hqueued
  · rw [hnext]
    refine Renumbering.count_stays hids (fun x hx => ?_) harmed
    obtain ⟨hmem, hid⟩ := List.mem_filter.mp hx
    exact hfits.timers x hmem (of_decide_eq_true hid)
  · rw [(Dispatcher.step_taken hs).2.1]
    change ν.events (_ + t.taken?.toList.length) = _
    cases htaken : t.taken? with
    | none => rfl
    | some e =>
      have hother : ¬ concerns k e = true := by
        rw [Dispatcher.concerns_of_taken htaken]
        exact Bool.not_eq_true _ ▸ hr
      exact (hevents e htaken).other hother

end Turn

/-- What is left of a run when all that is not about `k` is erased: the run `ts'`, each turn of
which mirrors a turn of `ts`. It has the calls and the timers of `k`, and a call of `k` has its slot
there as soon as in the whole run, where it waits only as long as all slots are taken. -/
structure Restriction (c : Settings) (ν : Renumbering) (k : Key) (ts : List Turn) (h : Chronicle)
    (ts' : List Turn) (h' : Chronicle) : Prop where
  run : Run c ts' h'
  turns : List.Forall₂ (Turn.Mirrors ν k) (ts.filter (·.regards k)) ts'
  dispatcher : h.dispatcher.Mirrors ν k h'.dispatcher
  queued : ts'.flatMap Turn.queued =
    ((ts.flatMap Turn.queued).filter (·.delivery.key = k)).map ν.call
  armed : ts'.flatMap Turn.armed = ((ts.flatMap Turn.armed).filter (·.key = k)).map ν.timer
  onTime : OnTime ts → OnTime ts'
  started : ∀ x ∈ h.slots.running, x.delivery.key = k → ν.call x ∈ h'.slots.running
  delayed : ∀ x ∈ h.slots.waiting, x.delivery.key = k →
    h.slots.running.length = max c.concurrency 1

/-- At every moment of the run `ts`, what is left of it then is a moment of the run `ts'`. -/
def RestrictedThroughout (c : Settings) (ν : Renumbering) (k : Key) (ts ts' : List Turn) : Prop :=
  ∀ us, us <+: ts →
    ∃ h us' h', Run c us h ∧ us' <+: ts' ∧ Restriction c ν k us h us' h'

section Collect
variable {α β : Type} {k : Key} {ts ts' : List Turn}

theorem filter_flatMap_regards {f : Turn → List α} {p : α → Bool}
    (h : ∀ t ∈ ts, t.regards k = false → (f t).filter p = []) :
    (ts.flatMap f).filter p = (ts.filter (·.regards k)).flatMap fun t => (f t).filter p := by
  induction ts with
  | nil => rfl
  | cons t ts ih =>
    have hrest := ih fun u hu => h u (List.mem_cons_of_mem _ hu)
    rw [List.flatMap_cons, List.filter_append, hrest]
    cases hr : t.regards k with
    | true => rw [List.filter_cons_of_pos hr, List.flatMap_cons]
    | false =>
      rw [List.filter_cons_of_neg (Bool.eq_false_iff.mp hr), h t List.mem_cons_self hr,
        List.nil_append]

theorem flatMap_of_forall₂ {R : Turn → Turn → Prop} {f : Turn → List α} {f' : Turn → List β}
    {m : α → β} (h : List.Forall₂ R ts ts') (hf : ∀ t t', R t t' → f' t' = (f t).map m) :
    ts'.flatMap f' = (ts.flatMap f).map m := by
  induction h with
  | nil => rfl
  | cons hr _ ih =>
    rw [List.flatMap_cons, List.flatMap_cons, List.map_append, ih, hf _ _ hr]

theorem exists_of_forall₂ {R : Turn → Turn → Prop} (h : List.Forall₂ R ts ts') {t' : Turn}
    (ht : t' ∈ ts') : ∃ t ∈ ts, R t t' := by
  induction h with
  | nil => cases ht
  | cons hr _ ih =>
    rcases List.mem_cons.mp ht with rfl | ht
    · exact ⟨_, List.mem_cons_self, hr⟩
    · obtain ⟨t, hmem, hr⟩ := ih ht
      exact ⟨t, List.mem_cons_of_mem _ hmem, hr⟩

end Collect

namespace Run

variable {c : Settings} {ν : Renumbering} {k : Key} {ts us : List Turn} {t : Turn}
  {h h' : Chronicle} {ts' : List Turn}

theorem onTime_of_mirrors (hr : Run c ts h)
    (ht : List.Forall₂ (Turn.Mirrors ν k) (ts.filter (·.regards k)) ts') (ho : OnTime ts) :
    OnTime ts' where
  ordered := by
    have htimes : List.Forall₂ (·.time = ·.time) (ts.filter (·.regards k)) ts' :=
      ht.imp fun _ _ hm => hm.time.symm
    have hpairwise := ho.ordered.filter (·.regards k)
    generalize ts.filter (·.regards k) = us at htimes hpairwise
    clear ht ho hr
    induction htimes with
    | nil => exact .nil
    | @cons t t' us us' htime hrest ih =>
      obtain ⟨hfirst, hpairwise⟩ := List.pairwise_cons.mp hpairwise
      refine List.pairwise_cons.mpr ⟨fun u' hu' => ?_, ih hpairwise⟩
      obtain ⟨u, hu, heq⟩ := exists_of_forall₂ hrest hu'
      exact heq ▸ htime ▸ hfirst u hu
  timely := by
    intro t' ht'
    obtain ⟨t, hmem, hm⟩ := exists_of_forall₂ ht ht'
    obtain ⟨hmem, hregards⟩ := List.mem_filter.mp hmem
    exact hm.timely (hr.of_mem hmem).1 hregards (ho.timely t hmem)

theorem restriction_of_turns (hr : Run c ts h) (hr' : Run c ts' h')
    (ht : List.Forall₂ (Turn.Mirrors ν k) (ts.filter (·.regards k)) ts')
    (hm : h.dispatcher.Mirrors ν k h'.dispatcher) : Restriction c ν k ts h ts' h' where
  run := hr'
  turns := ht
  dispatcher := hm
  queued := by
    rw [filter_flatMap_regards fun t hmem hregards => (Turn.new_of_spares
      (hr.of_mem hmem).1.coherent.toSound (hr.spares hmem hregards).queue).1]
    exact flatMap_of_forall₂ ht fun _ _ hm => hm.queued
  armed := by
    rw [filter_flatMap_regards fun t hmem hregards => (Turn.new_of_spares
      (hr.of_mem hmem).1.coherent.toSound (hr.spares hmem hregards).queue).2]
    exact flatMap_of_forall₂ ht fun _ _ hm => hm.armed
  onTime := hr.onTime_of_mirrors ht
  started := fun x hx hk => hm.queue.running hr.reached.packed hr'.reached.packed hx hk
  delayed := by
    intro x hx _
    rw [← hr.reached.size]
    exact hr.reached.packed.full.resolve_left (List.ne_nil_of_mem hx)

theorem throughout_concat (hr : Run c (ts ++ [t]) h) {us' : List Turn}
    (hnew : Restriction c ν k (ts ++ [t]) h us' h') (hold : RestrictedThroughout c ν k ts ts')
    (hle : ts' <+: us') : RestrictedThroughout c ν k (ts ++ [t]) us' := by
  intro us hus
  rcases List.prefix_concat_iff.mp hus with rfl | hus
  · exact ⟨h, us', h', hr, List.prefix_rfl, hnew⟩
  · obtain ⟨hu, us'', hu', hrun, hle', hmoment⟩ := hold us hus
    exact ⟨hu, us'', hu', hrun, hle'.trans hle, hmoment⟩

theorem restriction (hr : Run c ts h) (hν : ν.Suits k ts) :
    ∃ ts' h', Restriction c ν k ts h ts' h' ∧ RestrictedThroughout c ν k ts ts' := by
  induction ts using List.reverseRecOn generalizing h with
  | nil =>
    have hm : h.dispatcher.Mirrors ν k h.dispatcher := by
      rw [hr.nil_inv]
      obtain ⟨hcalls, htimers, hevents⟩ := hν.zero
      exact ⟨⟨rfl, rfl, .nil, rfl, htimers.symm, .nil, rfl, rfl, hcalls.symm⟩, .nil, .nil,
        hevents.symm, rfl⟩
    have hrestriction := hr.restriction_of_turns hr .nil hm
    refine ⟨[], h, hrestriction, fun us hus => ?_⟩
    obtain rfl := List.prefix_nil.mp hus
    exact ⟨h, [], h, hr, List.prefix_rfl, hrestriction⟩
  | append_singleton ts t ih =>
    have hmem : t ∈ ts ++ [t] := List.mem_append_right _ (List.mem_singleton_self t)
    have hfits := hν.fits hmem
    have hevents := hν.events t hmem
    have he := hr.effect hmem
    have hreached := hr.reached
    obtain ⟨hbefore, hs, rfl⟩ := hr.concat_inv
    obtain ⟨ts', h', hrestriction, hold⟩ := ih hbefore hν.left
    have hf := hbefore.faithful
    cases hregards : t.regards k with
    | true =>
      obtain ⟨g', hs', hm⟩ := Dispatcher.step_mirrors hrestriction.dispatcher hf
        hrestriction.run.faithful hbefore.reached.packed hrestriction.run.reached.packed hs
        hregards hfits hevents
      have hturn := Turn.Mirrors.of_step hf hs hrestriction.run.faithful hν.monotone
        hrestriction.dispatcher hm
      have hturns : List.Forall₂ (Turn.Mirrors ν k) ((ts ++ [t]).filter (·.regards k))
          (ts' ++ [⟨t.time, h', ν.input t.input, g'⟩]) := by
        rw [List.filter_append, List.filter_cons_of_pos hregards, List.filter_nil]
        exact List.rel_append hrestriction.turns (.cons hturn .nil)
      have hnew := hr.restriction_of_turns (hrestriction.run.turn t.time hs') hturns hm
      exact ⟨_, _, hnew, hr.throughout_concat hnew hold (List.prefix_append _ _)⟩
    | false =>
      have hm := Turn.mirrors_after he hf hs (hreached.size.trans hbefore.reached.size.symm)
        (hreached.delays.trans hbefore.reached.delays.symm) hfits hevents hregards
        hrestriction.dispatcher
      have hturns : List.Forall₂ (Turn.Mirrors ν k) ((ts ++ [t]).filter (·.regards k)) ts' := by
        rw [List.filter_append, List.filter_cons_of_neg (Bool.eq_false_iff.mp hregards),
          List.filter_nil, List.append_nil]
        exact hrestriction.turns
      have hnew := hr.restriction_of_turns hrestriction.run hturns hm
      exact ⟨_, _, hnew, hr.throughout_concat hnew hold List.prefix_rfl⟩

/-- Another game server with nothing but a name. -/
def neighbour : Sighting where
  key := { ns := some "d", name := "b" }
  gs := { metadata := { ns := some "d", name := some "b" } }
  serial := 0

/-- Game servers are isolated from each other. In every run that was survived so far, all that is
not about one of them can be erased, at every moment of the run alike, and what is left is a run;
and what is erased leaves the game server alone. -/
theorem isolated (hr : Run c ts h) (k : Key) :
    (∃ ts' h', Restriction c (.ofTurns k ts) k ts h ts' h' ∧
      RestrictedThroughout c (.ofTurns k ts) k ts ts') ∧
    ∀ t ∈ ts, t.regards k = false → t.Spares k ∧
      t.after.queue.pending? k = t.before.pending? k :=
  ⟨hr.restriction (hr.suits k), fun _ ht hk =>
    ⟨hr.spares ht hk, (hr.spares ht hk).queue.pending?⟩⟩

/-- Two game servers are added, the second of which waits for the slot of the first. Both fail. What
is left for the second one is its call and its timer, and the failure of the first does not touch
it. -/
theorem isolated_behind_another : ∃ ts h ts' h',
    Run Chronicle.oneSlot ts h ∧ (ts.flatMap Turn.queued).map (·.delivery.key) =
        [Queue.lone.key, neighbour.key] ∧
      Run Chronicle.oneSlot ts' h' ∧
      ts'.flatMap Turn.queued = [⟨0, .watch, .add neighbour⟩] ∧
      ts'.flatMap Turn.armed = [⟨0, neighbour.key, .ofMillis 100, 112⟩] ∧
      ∃ t ∈ ts, (∃ x, t.joined? = some (x, .retry Chronicle.internalError)) ∧
        t.Spares neighbour.key := by
  obtain ⟨ts, h, hp, hkeys, hqueued, harmed, t, ht, hjoined, hother⟩ : ∃ ts h,
      play Chronicle.oneSlot [(0, .watch (.apply Queue.lone.gs)),
        (3, .watch (.apply neighbour.gs)), (7, .settled 0 (.failed Chronicle.internalError) 7),
        (7, .join 7), (12, .settled 1 (.failed Chronicle.internalError) 5), (12, .join 12)] =
          .ok (ts, h) ∧
      (ts.flatMap Turn.queued).map (·.delivery.key) = [Queue.lone.key, neighbour.key] ∧
      ((ts.flatMap Turn.queued).filter (·.delivery.key = neighbour.key)).map
        (Renumbering.ofTurns neighbour.key ts).call = [⟨0, .watch, .add neighbour⟩] ∧
      ((ts.flatMap Turn.armed).filter (·.key = neighbour.key)).map
        (Renumbering.ofTurns neighbour.key ts).timer =
          [⟨0, neighbour.key, .ofMillis 100, 112⟩] ∧
      ∃ t ∈ ts, (∃ x, t.joined? = some (x, .retry Chronicle.internalError)) ∧
        t.regards neighbour.key = false :=
    ⟨_, _, rfl, rfl, rfl, rfl, _, .tail _ (.tail _ (.tail _ (.head _))), ⟨_, rfl⟩, rfl⟩
  have hr := of_play hp
  obtain ⟨⟨ts', h', hrest, -⟩, hspares⟩ := isolated hr neighbour.key
  exact ⟨ts, h, ts', h', hr, hkeys, hrest.run, hrest.queued.trans hqueued,
    hrest.armed.trans harmed, t, ht, hjoined, (hspares t ht hother).1⟩

end Run
end GameIngress.Dispatch
