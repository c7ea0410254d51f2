import GameIngress.Proofs.Dispatch.Turn

/-!
# Game servers that an input leaves alone

An input regards one game server, or all of them. Whatever it does, the game servers that it does
not regard keep their standings, calls, timers and failure counts.
-/
namespace GameIngress.Dispatch

open Watch (Key Cache)

namespace Slots

variable {s : Slots} {x : Call}

/-- Calls for the game server that have not ended, in the order of their queueing. -/
def unfinishedOf (k : Key) (s : Slots) : List Call := s.unfinished.filter (·.delivery.key = k)

/-- Calls for the game server that ended and were not looked at since. -/
def endedOf (k : Key) (s : Slots) : List (Call × Outcome) := s.ended.filter (·.1.delivery.key = k)

theorem unfinishedOf_enqueue {o : Origin} {d : Delivery} :
    (s.enqueue o d).unfinishedOf d.key = s.unfinishedOf d.key ++ [⟨s.queued, o, d⟩] := by
  simp [unfinishedOf]

theorem unfinishedOf_enqueue_of_ne {o : Origin} {d : Delivery} {k : Key} (hk : d.key ≠ k) :
    (s.enqueue o d).unfinishedOf k = s.unfinishedOf k := by
  simp [unfinishedOf, hk]

theorem filter_eq_singleton {α β : Type} [DecidableEq β] {f : α → β} {l : List α} {a : α}
    (hd : (l.map f).Nodup) (ha : a ∈ l) : l.filter (f · = f a) = [a] := by
  obtain ⟨l₁, l₂, rfl⟩ := List.append_of_mem ha
  rw [List.map_append, List.map_cons] at hd
  have hnodup := List.nodup_middle.mp hd
  have hnot := (List.nodup_cons.mp hnodup).1
  have hnone : ∀ b ∈ l₁ ++ l₂, f b ≠ f a := by
    intro b hb heq
    rw [← List.map_append] at hnot
    exact hnot (heq ▸ List.mem_map_of_mem hb)
  have hleft : l₁.filter (f · = f a) = [] := by
    rw [List.filter_eq_nil_iff]
    intro b hb
    simpa using hnone b (List.mem_append_left _ hb)
  have hright : l₂.filter (f · = f a) = [] := by
    rw [List.filter_eq_nil_iff]
    intro b hb
    simpa using hnone b (List.mem_append_right _ hb)
  rw [List.filter_append, List.filter_cons_of_pos (by simp), hleft, hright, List.nil_append]

/-- The call that ends is no longer unfinished, and is the last of those to look at. -/
theorem settle_of_running (hd : (s.unfinished.map (·.id)).Nodup) (hx : x ∈ s.running)
    (r : CallResult) : (s.settle x.id r).unfinished = s.unfinished.filter (·.id ≠ x.id) ∧
    (s.settle x.id r).ended = s.ended ++ [(x, Outcome.of x.delivery r)] := by
  rw [unfinished, List.map_append, List.nodup_append'] at hd
  obtain ⟨hrunning, -, hdisjoint⟩ := hd
  have hwaiting : s.waiting.filter (·.id ≠ x.id) = s.waiting := by
    rw [List.filter_eq_self]
    intro y hy
    have hne : y.id ≠ x.id := fun hid =>
      hdisjoint (List.mem_map_of_mem hx) (hid ▸ List.mem_map_of_mem hy)
    simpa using hne
  constructor
  · rw [settle, unfinished_fill, unfinished, unfinished, List.filter_append, hwaiting]
  · have hone : s.running.filter (·.id = x.id) = [x] := filter_eq_singleton hrunning hx
    change s.ended ++ (s.running.filter (·.id = x.id)).map _ = _
    rw [hone]
    rfl

theorem settle_of_not_running {id : Nat} (h : ∀ y ∈ s.running, y.id ≠ id) (r : CallResult) :
    (s.settle id r).unfinished = s.unfinished ∧ (s.settle id r).ended = s.ended := by
  have hrest : s.running.filter (·.id ≠ id) = s.running := by
    rw [List.filter_eq_self]
    intro y hy
    simpa using h y hy
  have hnone : s.running.filter (·.id = id) = [] := by
    rw [List.filter_eq_nil_iff]
    intro y hy
    simpa using h y hy
  constructor
  · rw [settle, unfinished_fill, unfinished, hrest, unfinished]
  · change s.ended ++ (s.running.filter (·.id = id)).map _ = _
    rw [hnone, List.map_nil, List.append_nil]

end Slots

namespace Queue

variable {q q' q'' : Queue} {k k' : Key} {d : Delivery} {o : Origin}

/-- The game server has the same in both queues. -/
structure Spares (k : Key) (q q' : Queue) : Prop where
  profile : q'.profile k = q.profile k
  unfinished : q'.slots.unfinishedOf k = q.slots.unfinishedOf k
  ended : q'.slots.endedOf k = q.slots.endedOf k

namespace Spares

theorem refl (k : Key) (q : Queue) : q.Spares k q := ⟨rfl, rfl, rfl⟩

theorem trans (h : q.Spares k q') (h' : q'.Spares k q'') : q.Spares k q'' :=
  ⟨h'.profile.trans h.profile, h'.unfinished.trans h.unfinished, h'.ended.trans h.ended⟩

theorem of_profile (hp : q'.profile k = q.profile k) (hs : q'.slots = q.slots) : q.Spares k q' :=
  ⟨hp, by rw [hs], by rw [hs]⟩

theorem standing? (h : q.Spares k q') : q'.standing? k = q.standing? k :=
  congrArg Profile.standing h.profile

theorem timers (h : q.Spares k q') :
    q'.timers.filter (·.key = k) = q.timers.filter (·.key = k) := congrArg Profile.timers h.profile

theorem failures (h : q.Spares k q') : q'.failures.get? k = q.failures.get? k :=
  congrArg Profile.failures h.profile

theorem pending? (h : q.Spares k q') : q'.pending? k = q.pending? k := by
  rw [Queue.pending?, h.standing?, Queue.pending?]

theorem enqueue_slots (hk : d.key ≠ k) (hp : q'.profile k = q.profile k)
    (hs : q'.slots = q.slots.enqueue o d) : q.Spares k q' where
  profile := hp
  unfinished := by rw [hs, Slots.unfinishedOf_enqueue_of_ne hk]
  ended := by rw [hs]; rfl

theorem start (o : Origin) (hk : d.key ≠ k) : q.Spares k (q.start o d) :=
  .enqueue_slots hk (profile_start_of_ne hk) rfl

theorem spawn (o : Origin) (hd : d.isDelete = true) (hk : d.key ≠ k) : q.Spares k (q.spawn o d) :=
  .enqueue_slots hk (profile_spawn hd) rfl

theorem forget (hk : k' ≠ k) : q.Spares k (q.forget k') := .of_profile (profile_forget_of_ne hk) rfl

theorem erase (hk : k' ≠ k) : q.Spares k { q with standings := q.standings.erase k' } :=
  .of_profile (profile_erase_of_ne hk) rfl

theorem set (v : Standing) (hk : k' ≠ k) :
    q.Spares k { q with standings := q.standings.set k' v } :=
  .of_profile (profile_set_of_ne v hk) rfl

theorem arm (now : Nat) (hk : k' ≠ k) : q.Spares k (q.arm now k') :=
  .of_profile (profile_arm_of_ne now hk) rfl

end Spares

namespace Coherent

theorem spares_cancelTimer (h : q.Coherent) {id : Nat}
    (hs : q.standing? k' = some (.waiting id)) (hk : k' ≠ k) : q.Spares k (q.cancelTimer id) := by
  have hkeep : (q.profile k).timers.filter (·.id ≠ id) = (q.profile k).timers := by
    rw [List.filter_eq_self]
    intro t ht
    have hkey : t.key = k := by simpa using List.of_mem_filter ht
    have hne : t.id ≠ id := fun hid =>
      hk ((h.key_of_waiting hs (List.mem_of_mem_filter ht) hid).symm.trans hkey)
    simpa using hne
  refine .of_profile ?_ rfl
  rw [profile_cancelTimer, hkeep]

theorem spares_enqueue (h : q.Coherent) (hk : d.key ≠ k) : q.Spares k (q.enqueue d) := by
  unfold Queue.enqueue
  cases hd : d.isDelete with
  | true =>
    simp only [↓reduceIte]
    rw [show (q.forget d.key).standing? d.key = q.standing? d.key from rfl]
    have hforget : q.Spares k (q.forget d.key) := .forget hk
    cases hs : q.standing? d.key with
    | none => exact hforget.trans (.spawn .watch hd hk)
    | some s =>
      cases s with
      | running pending => exact (hforget.trans (.set _ hk)).trans (.spawn .watch hd hk)
      | waiting id =>
        have hcancel := h.spares_cancelTimer hs hk
        have hrest : q.Spares k (({ q.forget d.key with
            standings := q.standings.erase d.key }).cancelTimer id) :=
          (hcancel.trans (.erase hk)).trans (.forget hk)
        exact hrest.trans (.spawn .watch hd hk)
  | false =>
    simp only [Bool.false_eq_true, ↓reduceIte]
    cases hs : q.standing? d.key with
    | none => exact .start .watch hk
    | some s =>
      cases s with
      | running pending => exact .set _ hk
      | waiting id => exact (h.spares_cancelTimer hs hk).trans (.start .watch hk)

theorem spares_expire (h : q.Coherent) {t : Timer} (ht : t ∈ q.timers) {cache : Dispatch.Cache}
    (hcache : cache.Keyed Sighting.key) (hk : t.key ≠ k) : q.Spares k (q.expire cache t) := by
  have hcancel := (h.spares_cancelTimer (h.waiting_of_mem ht) hk).trans (.erase hk)
  unfold Queue.expire
  cases hs : cache.get? t.key with
  | none => exact hcancel.trans (.forget hk)
  | some s =>
    have hkey : (Delivery.again s).key ≠ k := by
      rw [show (Delivery.again s).key = s.key from rfl, hcache.key_eq hs]
      exact hk
    exact hcancel.trans (.start .requeue hkey)

section Join
variable {c : Call} {r : Outcome} {slots : Slots}

theorem spares_join (hj : q.slots.join = some ((c, r), slots)) (hk : c.delivery.key ≠ k) :
    q.Spares k { q with slots } where
  profile := profile_join_of_ne hj fun ht => hk ht.2
  unfinished := by
    simp only [Slots.unfinishedOf, Slots.unfinished_of_join hj]
  ended := by
    simp only [Slots.endedOf, Slots.ended_of_join hj]
    rw [List.filter_cons_of_neg (by simpa using hk)]

theorem spares_finish (h : q.Coherent) (hj : q.slots.join = some ((c, r), slots))
    (hk : c.delivery.key ≠ k) (now : Nat) (cache : Dispatch.Cache) :
    q.Spares k ({ q with slots }.finish now cache c r) := by
  have hfinish := h.finish_of_join hj now cache
  have hjoin := spares_join hj hk
  generalize { q with slots }.finish now cache c r = q' at hfinish
  cases hfinish with
  | delete hd => exact hjoin
  | @next _ d hd hp =>
    have hkey : d.key = c.delivery.key := by
      have hs : q.standing? c.delivery.key = some (.running (some d)) := standing?_of_pending? hp
      exact ((h.running hs).2.2 d rfl).1
    exact (hjoin.trans (.erase hk)).trans (.start .watch (hkey ▸ hk))
  | well hd hp => exact (hjoin.trans (.erase hk)).trans (.forget hk)
  | dropped hd hp hc => exact (hjoin.trans (.erase hk)).trans (.forget hk)
  | again hd hp hc => exact (hjoin.trans (.erase hk)).trans (.arm now hk)

end Join

end Coherent

theorem spares_resync {cached : List Sighting}
    (h : ∀ s ∈ cached, s.key = k → (q.standing? k).isSome) : q.Spares k (q.resync cached) := by
  unfold Queue.resync
  induction cached generalizing q with
  | nil => exact .refl k q
  | cons s rest ih =>
    rw [List.foldl_cons]
    have hrest : ∀ s ∈ rest, s.key = k → (q.standing? k).isSome :=
      fun s hs => h s (List.mem_cons_of_mem _ hs)
    cases hs : q.standing? s.key with
    | some _ => exact ih hrest
    | none =>
      have hk : s.key ≠ k := by
        rintro rfl
        have hsome := h s List.mem_cons_self rfl
        rw [hs] at hsome
        cases hsome
      have hstart : q.Spares k (q.start .resync (.again s)) := .start .resync hk
      exact hstart.trans (ih fun s' hs' hk' => hstart.standing? ▸ hrest s' hs' hk')

theorem spares_settle (hd : (q.slots.unfinished.map (·.id)).Nodup) {id : Nat}
    (h : ∀ x ∈ q.slots.running, x.id = id → x.delivery.key ≠ k) (r : CallResult) :
    q.Spares k { q with slots := q.slots.settle id r } := by
  by_cases hid : ∃ x ∈ q.slots.running, x.id = id
  · obtain ⟨x, hx, rfl⟩ := hid
    have hk := h x hx rfl
    obtain ⟨hunfinished, hended⟩ := Slots.settle_of_running hd hx r
    refine ⟨profile_settle x.id r, ?_, ?_⟩
    · change (q.slots.settle x.id r).unfinishedOf k = _
      rw [Slots.unfinishedOf, hunfinished, List.filter_filter, Slots.unfinishedOf]
      refine List.filter_congr fun y hy => ?_
      have hne : y.delivery.key = k → y.id ≠ x.id := by
        rintro rfl heq
        have hxy : y = x := List.inj_on_of_nodup_map hd hy (List.mem_append_left _ hx) heq
        exact hk (hxy ▸ rfl)
      by_cases hy : y.delivery.key = k
      · simp [hy, hne hy]
      · simp [hy]
    · change (q.slots.settle x.id r).endedOf k = _
      rw [Slots.endedOf, hended, List.filter_append, List.filter_cons_of_neg (by simpa using hk),
        List.filter_nil, List.append_nil, Slots.endedOf]
  · have hnone : ∀ y ∈ q.slots.running, y.id ≠ id := fun y hy heq => hid ⟨y, hy, heq⟩
    obtain ⟨hunfinished, hended⟩ := Slots.settle_of_not_running hnone r
    refine ⟨profile_settle id r, ?_, ?_⟩
    · change (q.slots.settle id r).unfinishedOf k = _
      rw [Slots.unfinishedOf, hunfinished, Slots.unfinishedOf]
    · change (q.slots.settle id r).endedOf k = _
      rw [Slots.endedOf, hended, Slots.endedOf]

end Queue

theorem Chronicle.Faithful.nodup_unfinished {h : Chronicle} (hf : h.Faithful) :
    (h.slots.unfinished.map (·.id)).Nodup := by
  have haccount := congrArg (Multiset.map Call.id) hf.account
  rw [Multiset.map_coe, List.map_map, Function.comp_def, hf.ids, Multiset.map_add,
    Slots.outstanding, Multiset.map_add, Multiset.map_coe] at haccount
  have hnodup : (↑(List.range h.slots.queued) : Multiset Nat).Nodup := List.nodup_range
  have hle : (↑(h.slots.unfinished.map (·.id)) : Multiset Nat) ≤ ↑(List.range h.slots.queued) := by
    rw [haccount]
    exact (Multiset.le_add_left _ _).trans (Multiset.le_add_left _ _)
  exact Multiset.nodup_of_le hle hnodup

namespace Dispatcher

variable {d d' : Dispatcher} {i : Input} {k : Key}

/-- The input is about the game server, or about none in particular. -/
def regards (k : Key) (d : Dispatcher) : Input → Bool
  | .watch e => e.object?.all fun gs => keyOf? gs = some k
  | .settled id _ _ => d.queue.slots.running.any fun x => x.id = id ∧ x.delivery.key = k
  | .join _ => d.queue.slots.ended.head?.any fun e => e.1.delivery.key = k
  | .expire timer => d.queue.timers.any fun t => t.id = timer ∧ t.key = k
  | .tick | .stop => true

/-- The game server has the same in both dispatchers. -/
structure Spares (k : Key) (d d' : Dispatcher) : Prop where
  queue : d.queue.Spares k d'.queue
  cached : d'.cache.get? k = d.cache.get? k
  listed : d'.cache.buffer.get? k = d.cache.buffer.get? k
  stopped : d'.stopped = d.stopped

theorem Spares.refl (k : Key) (d : Dispatcher) : d.Spares k d := ⟨.refl k _, rfl, rfl, rfl⟩

theorem object?_of_sight {e : Watch.Event GameServer} {e' : Watch.Event Sighting}
    (h : e.mapM? d.sight = some e') : e'.object? = e.object?.bind d.sight := by
  cases e with
  | init | initDone =>
    cases h
    rfl
  | initApply gs | apply gs | delete gs =>
    obtain ⟨s, hs, rfl⟩ := Option.map_eq_some_iff.mp h
    exact hs.symm

theorem spares_observe (hc : d.queue.Coherent) {e : Watch.Event Sighting} {s : Sighting}
    (he : e.object? = some s) (hk : s.key ≠ k) : d.Spares k (d.observe e) where
  queue := by
    simp only [observe]
    cases hd : Delivery.ofEvent? d.cache e with
    | none => exact .refl k _
    | some delivery =>
      have hsubject : delivery.subject = s :=
        Option.some.inj ((Delivery.object?_of_ofEvent? hd).symm.trans he)
      exact hc.spares_enqueue (by rwa [Delivery.key, hsubject])
  cached := by
    refine Cache.get?_observe ?_ ?_
    · rintro ⟨s', hs', hk'⟩
      rw [he] at hs'
      cases hs'
      exact hk hk'
    · rintro rfl
      cases he
  listed := by
    cases e with
    | init | initDone => cases he
    | apply _ | delete _ => rfl
    | initApply _ =>
      cases he
      simp only [observe, Cache.observe, Assoc.get?_set, if_neg hk]
  stopped := rfl

theorem step_spares {h : Chronicle} (hf : h.Faithful) (hs : h.dispatcher.step i = .ok d')
    (hr : h.dispatcher.regards k i = false) : h.dispatcher.Spares k d' := by
  cases i with
  | watch e =>
    rcases step_watch hs with ⟨-, rfl⟩ | ⟨-, e', he, rfl⟩
    · exact .refl k _
    · have hobject := object?_of_sight he
      simp only [regards, Option.all_eq_false, decide_eq_false_iff_not] at hr
      obtain ⟨gs, hgs, hkey⟩ := hr
      rw [hgs, Option.bind_some] at hobject
      cases hsight : h.dispatcher.sight gs with
      | none =>
        cases e <;> cases hgs <;> simp [Watch.Event.mapM?, hsight] at he
      | some s =>
        refine spares_observe hf.coherent (hobject.trans hsight) fun hk => hkey ?_
        obtain ⟨key, hkey', rfl⟩ := Option.map_eq_some_iff.mp hsight
        rw [hkey', ← hk]
  | settled id r millis =>
    obtain ⟨hqueue, hcache, -, hstopped⟩ := step_settled hs
    have hother : ∀ x ∈ h.dispatcher.queue.slots.running, x.id = id → x.delivery.key ≠ k := by
      intro x hx hid hk
      have hnone := List.any_eq_false.mp hr x hx
      simp [hid, hk] at hnone
    refine ⟨?_, by rw [hcache], by rw [hcache], hstopped⟩
    rw [hqueue]
    exact Queue.spares_settle hf.nodup_unfinished hother r
  | join now =>
    rcases step_join hs with ⟨-, rfl⟩ | ⟨x, o, slots, hj, rfl⟩
    · exact .refl k _
    · have hk : x.delivery.key ≠ k := by
        simpa [regards, Slots.ended_of_join hj] using hr
      exact ⟨hf.coherent.spares_finish hj hk now _, rfl, rfl, rfl⟩
  | expire timer =>
    rcases step_expired hs with ⟨-, rfl⟩ | ⟨t, ht, hid, -, -, rfl⟩
    · exact .refl k _
    · have hk : t.key ≠ k := by
        intro hk
        have hnone := List.any_eq_false.mp hr t ht
        simp [hid, hk] at hnone
      exact ⟨hf.coherent.spares_expire ht hf.keyed hk, rfl, rfl, rfl⟩
  | tick => cases hr
  | stop => cases hr

end Dispatcher

namespace Turn

variable {k : Key} {t : Turn}

def regards (k : Key) (t : Turn) : Bool := t.before.dispatcher.regards k t.input

/-- The turn leaves the game server alone. -/
def Spares (k : Key) (t : Turn) : Prop := t.before.dispatcher.Spares k t.after

/-- What came to the unfinished calls of a game server are the calls that were queued for it. -/
theorem queued_of_append (hc : t.before.dispatcher.queue.Sound) {new : List Call}
    (h : t.after.queue.slots.unfinishedOf k = t.before.slots.unfinishedOf k ++ new)
    (hnew : ∀ x ∈ new, t.before.slots.queued ≤ x.id) :
    t.queued.filter (·.delivery.key = k) = new := by
  have hold : (t.before.slots.unfinishedOf k).filter (t.before.slots.queued ≤ ·.id) = [] := by
    rw [List.filter_eq_nil_iff]
    intro x hx
    have hlt : x.id < t.before.slots.queued :=
      hc.numbered x (Multiset.mem_add.mpr (.inr (List.mem_of_mem_filter hx)))
    simpa using hlt
  have hall : new.filter (t.before.slots.queued ≤ ·.id) = new := by
    rw [List.filter_eq_self]
    intro x hx
    exact decide_eq_true (hnew x hx)
  rw [queued, Slots.queuedSince, List.filter_comm]
  change (t.after.queue.slots.unfinishedOf k).filter _ = new
  rw [h, List.filter_append, hold, hall, List.nil_append]

theorem new_of_spares (hc : t.before.dispatcher.queue.Sound)
    (hs : t.before.dispatcher.queue.Spares k t.after.queue) :
    t.queued.filter (·.delivery.key = k) = [] ∧ t.armed.filter (·.key = k) = [] := by
  constructor
  · exact queued_of_append hc (hs.unfinished.trans (List.append_nil _).symm)
      fun x hx => absurd hx List.not_mem_nil
  · rw [armed, List.filter_filter, List.filter_eq_nil_iff]
    intro x hx
    simp only [Bool.and_eq_true, decide_eq_true_eq, not_and, Nat.not_le]
    intro hk
    have hmem : x ∈ t.after.queue.timers.filter (·.key = k) :=
      List.mem_filter.mpr ⟨hx, decide_eq_true hk⟩
    rw [hs.timers] at hmem
    exact hc.armed x (List.mem_of_mem_filter hmem)

end Turn

theorem Run.spares {c : Settings} {ts : List Turn} {h : Chronicle} (hr : Run c ts h) {t : Turn}
    (ht : t ∈ ts) {k : Key} (hk : t.regards k = false) : t.Spares k :=
  Dispatcher.step_spares (hr.of_mem ht).1 (hr.of_mem ht).2 hk

end GameIngress.Dispatch
