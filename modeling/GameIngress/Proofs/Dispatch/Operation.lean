import GameIngress.Proofs.Dispatch.Coherence

/-!
# What an operation queues and what it puts off

Every operation of the queue comes with a list of its outcomes: the calls that it queues, and the
deliveries that wait for a running call to end.
-/
namespace GameIngress.Dispatch

open Watch (Key)

def Standing.pending? : Standing → Option Delivery
  | running pending => pending
  | waiting _ => none

namespace Queue

variable {q : Queue} {k k' : Key} {o : Origin} {d : Delivery}

/-- The delivery that is put off until the running call ends. -/
def pending? (k : Key) (q : Queue) : Option Delivery := (q.standing? k).bind Standing.pending?

theorem standing?_of_pending? (h : q.pending? k = some d) :
    q.standing? k = some (.running (some d)) := by
  obtain ⟨s, hs, hd⟩ := Option.bind_eq_some_iff.mp h
  cases s with
  | running pending => rw [hs, show pending = some d from hd]
  | waiting id => cases hd

theorem pending?_start : (q.start o d).pending? k = if d.key = k then none else q.pending? k := by
  rw [pending?, standing?_start]
  split <;> rfl

theorem pending?_erase : { q with standings := q.standings.erase k }.pending? k' =
    if k = k' then none else q.pending? k' := by
  simp only [pending?, standing?, Assoc.get?_erase]
  split <;> rfl

theorem pending?_set (after : Option Delivery) :
    { q with standings := q.standings.set k (.running after) }.pending? k' =
    if k = k' then after else q.pending? k' := by
  simp only [pending?, standing?, Assoc.get?_set]
  split <;> rfl

theorem pending?_arm (now : Nat) : (q.arm now k).pending? k' =
    if k = k' then none else q.pending? k' := by
  simp only [pending?, standing?, arm, Assoc.get?_set]
  split <;> rfl

theorem pending?_of_idle (h : q.standing? k = none) : q.pending? k = none := by
  rw [pending?, h]; rfl

theorem pending?_of_waiting {id : Nat} (h : q.standing? k = some (.waiting id)) :
    q.pending? k = none := by
  rw [pending?, h]; rfl

theorem pending?_stays (h : q.pending? k = none) :
    (if k = k' then none else q.pending? k') = q.pending? k' := by
  split
  · next hk => rw [← hk, h]
  · rfl

theorem enqueue_cases (q : Queue) (d : Delivery) :
    ((q.enqueue d).slots = q.slots.enqueue .watch d ∧
      ∀ k, (q.enqueue d).pending? k = if d.key = k then none else q.pending? k) ∨
    (d.isDelete = false ∧ (∃ pending, q.standing? d.key = some (.running pending)) ∧
      (q.enqueue d).slots = q.slots ∧
      ∀ k, (q.enqueue d).pending? k = if d.key = k then some d else q.pending? k) := by
  unfold Queue.enqueue
  cases hd : d.isDelete with
  | true =>
    simp only [↓reduceIte]
    rw [show (q.forget d.key).standing? d.key = q.standing? d.key from rfl]
    refine .inl ?_
    cases hs : q.standing? d.key with
    | none => exact ⟨rfl, fun k => (pending?_stays (pending?_of_idle hs)).symm⟩
    | some s =>
      cases s with
      | running pending => exact ⟨rfl, fun k => pending?_set none⟩
      | waiting id => exact ⟨rfl, fun k => pending?_erase⟩
  | false =>
    simp only [Bool.false_eq_true, ↓reduceIte]
    cases hs : q.standing? d.key with
    | none => exact .inl ⟨rfl, fun k => pending?_start⟩
    | some s =>
      cases s with
      | running pending => exact .inr ⟨trivial, ⟨pending, rfl⟩, rfl, fun k => pending?_set (some d)⟩
      | waiting id => exact .inl ⟨rfl, fun k => pending?_start⟩

theorem finish_cases (h : q.Coherent) {c : Call} {r : Outcome} {slots : Slots}
    (hj : q.slots.join = some ((c, r), slots)) (now : Nat) (cache : Cache) :
    (∃ d, q.pending? d.key = some d ∧
      ({ q with slots }.finish now cache c r).slots = slots.enqueue .watch d ∧
      ∀ k, ({ q with slots }.finish now cache c r).pending? k =
        if d.key = k then none else q.pending? k) ∨
    (({ q with slots }.finish now cache c r).slots = slots ∧
      ∀ k, ({ q with slots }.finish now cache c r).pending? k = q.pending? k) := by
  unfold Queue.finish
  cases hd : c.delivery.isDelete with
  | true => exact .inr ⟨rfl, fun k => rfl⟩
  | false =>
    have hc : c ∈ q.slots.outstanding := Slots.mem_outstanding_of_join hj
    obtain ⟨-, pending, hs⟩ := h.running_of_outstanding hc hd
    have hjoin : { q with slots }.standing? c.delivery.key = some (.running pending) := hs
    have herase : ∀ k, { q with slots, standings := q.standings.erase c.delivery.key }.pending? k =
        if c.delivery.key = k then none else q.pending? k :=
      fun k => pending?_erase (q := { q with slots })
    simp only [Bool.false_eq_true, ↓reduceIte, hjoin]
    cases pending with
    | some d =>
      have hkey := ((h.running hs).2.2 d rfl).1
      have hpending : q.pending? c.delivery.key = some d := by rw [pending?, hs]; rfl
      refine .inl ⟨d, hkey ▸ hpending, rfl, fun k => ?_⟩
      rw [pending?_start, herase k, hkey]
      split <;> rfl
    | none =>
      have hnone : q.pending? c.delivery.key = none := by rw [pending?, hs]; rfl
      have hstays : ∀ k, (if c.delivery.key = k then none else q.pending? k) = q.pending? k :=
        fun k => pending?_stays hnone
      refine .inr ?_
      cases r with
      | done => exact ⟨rfl, fun k => (herase k).trans (hstays k)⟩
      | retry e =>
        dsimp only
        cases cache.get? c.delivery.key with
        | none => exact ⟨rfl, fun k => (herase k).trans (hstays k)⟩
        | some s =>
          refine ⟨rfl, fun k => ?_⟩
          rw [pending?_arm, herase k]
          split
          · next hk => rw [← hk, hnone]
          · rfl

section Finish
variable {c : Call} {r : Outcome} {slots : Slots}

theorem finish_of_pending (hd : c.delivery.isDelete = false)
    (hp : q.pending? c.delivery.key = some d) (now : Nat) (cache : Cache) :
    { q with slots }.finish now cache c r =
      { q with slots, standings := q.standings.erase c.delivery.key }.start .watch d := by
  have hs : { q with slots }.standing? c.delivery.key = some (.running (some d)) :=
    standing?_of_pending? hp
  unfold Queue.finish
  simp only [hd, Bool.false_eq_true, ↓reduceIte, hs]

/-- At the end of a call that failed, if nothing was put off, its game server waits if it is
cached. -/
theorem standing?_finish_retry (h : q.Coherent) {e : Failure}
    (hj : q.slots.join = some ((c, .retry e), slots)) (hd : c.delivery.isDelete = false)
    (hp : q.pending? c.delivery.key = none) (now : Nat) (cache : Cache) :
    ({ q with slots }.finish now cache c (.retry e)).standing? c.delivery.key =
      (cache.get? c.delivery.key).map fun _ => .waiting q.armed := by
  have hc : c ∈ q.slots.outstanding := Slots.mem_outstanding_of_join hj
  obtain ⟨-, pending, hs⟩ := h.running_of_outstanding hc hd
  have hpending : pending = none := by
    rw [pending?, hs] at hp
    exact hp
  have hjoin : { q with slots }.standing? c.delivery.key = some (.running none) := hpending ▸ hs
  unfold Queue.finish
  simp only [hd, Bool.false_eq_true, ↓reduceIte, hjoin]
  cases cache.get? c.delivery.key with
  | none => exact standing?_erase { q with slots } c.delivery.key
  | some s => simp [arm, standing?, Assoc.get?_set]

/-- What the end of a call makes of the queue. A deletion leaves it alone. What was put off is
started; with nothing put off, a game server whose call ended well is idle, and one whose call
failed waits for a timer if it is cached and is idle if it is not. -/
inductive Finish (q : Queue) (now : Nat) (cache : Cache) (c : Call) : Outcome → Queue → Prop
  | delete {o : Outcome} (hd : c.delivery.isDelete = true) : Finish q now cache c o q
  | next {o : Outcome} {d : Delivery} (hd : c.delivery.isDelete = false)
      (hp : q.pending? c.delivery.key = some d) : Finish q now cache c o
        ({ q with standings := q.standings.erase c.delivery.key }.start .watch d)
  | well (hd : c.delivery.isDelete = false) (hp : q.pending? c.delivery.key = none) :
      Finish q now cache c .done
        ({ q with standings := q.standings.erase c.delivery.key }.forget c.delivery.key)
  | dropped {e : Failure} (hd : c.delivery.isDelete = false)
      (hp : q.pending? c.delivery.key = none) (hc : cache.get? c.delivery.key = none) :
      Finish q now cache c (.retry e)
        ({ q with standings := q.standings.erase c.delivery.key }.forget c.delivery.key)
  | again {e : Failure} {s : Sighting} (hd : c.delivery.isDelete = false)
      (hp : q.pending? c.delivery.key = none) (hc : cache.get? c.delivery.key = some s) :
      Finish q now cache c (.retry e)
        ({ q with standings := q.standings.erase c.delivery.key }.arm now c.delivery.key)

theorem Coherent.finish_of_join (h : q.Coherent) (hj : q.slots.join = some ((c, r), slots))
    (now : Nat) (cache : Cache) :
    Finish { q with slots } now cache c r ({ q with slots }.finish now cache c r) := by
  cases hd : c.delivery.isDelete with
  | true =>
    have hq : { q with slots }.finish now cache c r = { q with slots } := by
      unfold Queue.finish
      simp only [hd, ↓reduceIte]
    rw [hq]
    exact .delete hd
  | false =>
    cases hp : q.pending? c.delivery.key with
    | some d =>
      rw [finish_of_pending hd hp]
      exact .next hd hp
    | none =>
      have hc : c ∈ q.slots.outstanding := Slots.mem_outstanding_of_join hj
      obtain ⟨-, pending, hs⟩ := h.running_of_outstanding hc hd
      have hnone : pending = none := by
        rw [pending?, hs] at hp
        exact hp
      have hrunning : { q with slots }.standing? c.delivery.key = some (.running none) :=
        hnone ▸ hs
      unfold Queue.finish
      simp only [hd, Bool.false_eq_true, ↓reduceIte, hrunning]
      cases r with
      | done => exact .well hd hp
      | retry e =>
        cases hs : cache.get? c.delivery.key with
        | none => exact .dropped hd hp hs
        | some s => exact .again hd hp hs

end Finish

theorem expire_cases (h : q.Coherent) {t : Timer} (ht : t ∈ q.timers) {cache : Cache}
    (hcache : cache.Keyed Sighting.key) :
    ((∃ s, cache.get? t.key = some s ∧
      (q.expire cache t).slots = q.slots.enqueue .requeue (.again s)) ∨
      (q.expire cache t).slots = q.slots) ∧
    ∀ k, (q.expire cache t).pending? k = q.pending? k := by
  have hnone : q.pending? t.key = none := pending?_of_waiting (h.waiting_of_mem ht)
  have herase : ∀ k, { q.cancelTimer t.id with standings := q.standings.erase t.key }.pending? k =
      q.pending? k :=
    fun k => (pending?_erase (q := q.cancelTimer t.id)).trans (pending?_stays hnone)
  unfold Queue.expire
  cases hs : cache.get? t.key with
  | none => exact ⟨.inr rfl, herase⟩
  | some s =>
    refine ⟨.inl ⟨s, rfl, rfl⟩, fun k => ?_⟩
    have hkey : (Delivery.again s).key = t.key := hcache.key_eq hs
    dsimp only
    rw [pending?_start, hkey]
    exact (congrArg (if t.key = k then none else ·) (herase k)).trans (pending?_stays hnone)

theorem pending?_resync (cached : List Sighting) (q : Queue) :
    (q.resync cached).pending? k = q.pending? k := by
  unfold Queue.resync
  induction cached generalizing q with
  | nil => rfl
  | cons s rest ih =>
    rw [List.foldl_cons, ih]
    cases hs : q.standing? s.key with
    | none => exact pending?_start.trans (pending?_stays (pending?_of_idle hs))
    | some _ => rfl

theorem resync_appends (cached : List Sighting) (q : Queue) :
    ∃ new, Slots.Appends new q.slots (q.resync cached).slots ∧
      ∀ c ∈ new, c.origin = .resync ∧ (∃ s ∈ cached, c.delivery = .again s) ∧
        q.pending? c.delivery.key = none := by
  unfold Queue.resync
  induction cached generalizing q with
  | nil => exact ⟨[], .of_eq rfl, fun c hc => absurd hc List.not_mem_nil⟩
  | cons s rest ih =>
    rw [List.foldl_cons]
    cases hs : q.standing? s.key with
    | none =>
      have hidle : q.pending? s.key = none := pending?_of_idle hs
      obtain ⟨new, happ, hnew⟩ := ih (q.start .resync (.again s))
      refine ⟨_, (Slots.Appends.of_enqueue rfl).trans happ, fun c hc => ?_⟩
      rcases List.mem_append.mp hc with hc | hc
      · rw [List.mem_singleton.mp hc]
        exact ⟨rfl, ⟨s, List.mem_cons_self, rfl⟩, hidle⟩
      · obtain ⟨horigin, ⟨s', hs', hd⟩, hpending⟩ := hnew c hc
        rw [pending?_start, show (Delivery.again s).key = s.key from rfl, pending?_stays hidle]
          at hpending
        exact ⟨horigin, ⟨s', List.mem_cons_of_mem _ hs', hd⟩, hpending⟩
    | some _ =>
      obtain ⟨new, happ, hnew⟩ := ih q
      refine ⟨new, happ, fun c hc => ?_⟩
      obtain ⟨horigin, ⟨s', hs', hd⟩, hpending⟩ := hnew c hc
      exact ⟨horigin, ⟨s', List.mem_cons_of_mem _ hs', hd⟩, hpending⟩

theorem packed_resync (h : q.slots.Packed) (cached : List Sighting) :
    (q.resync cached).slots.Packed := by
  unfold Queue.resync
  induction cached generalizing q with
  | nil => exact h
  | cons s rest ih =>
    rw [List.foldl_cons]
    apply ih
    cases q.standing? s.key with
    | none => exact h.enqueue .resync (.again s)
    | some _ => exact h

theorem Coherent.packed_step (hc : q.Coherent) (h : q.slots.Packed) {q' : Queue}
    (hs : q.Step q') : q'.slots.Packed := by
  cases hs with
  | enqueue d =>
    rcases enqueue_cases q d with ⟨hslots, -⟩ | ⟨-, -, hslots, -⟩
    · exact hslots ▸ h.enqueue .watch d
    · exact hslots ▸ h
  | resync cached => exact packed_resync h cached
  | settle id r => exact h.settle id r
  | finish hj now cache =>
    have hjoin := h.join hj
    rcases finish_cases hc hj now cache with ⟨d, -, hslots, -⟩ | ⟨hslots, -⟩
    · rw [hslots]
      exact hjoin.enqueue .watch d
    · rw [hslots]
      exact hjoin
  | expire ht hcache =>
    obtain ⟨⟨s, -, hslots⟩ | hslots, -⟩ := expire_cases hc ht hcache
    · exact hslots ▸ h.enqueue .requeue (.again s)
    · exact hslots ▸ h

theorem enqueue_books (q : Queue) (d : Delivery) :
    (∀ t ∈ (q.enqueue d).timers, t ∈ q.timers) ∧ (q.enqueue d).armed = q.armed ∧
    (q.enqueue d).failures = if d.isDelete then q.failures.erase d.key else q.failures := by
  unfold Queue.enqueue
  cases d.isDelete with
  | true =>
    simp only [↓reduceIte]
    rcases (q.forget d.key).standing? d.key with _ | ⟨_ | id⟩
    · exact ⟨fun t ht => ht, rfl, rfl⟩
    · exact ⟨fun t ht => ht, rfl, rfl⟩
    · exact ⟨fun t ht => List.mem_of_mem_filter ht, rfl, rfl⟩
  | false =>
    simp only [Bool.false_eq_true, ↓reduceIte]
    rcases q.standing? d.key with _ | ⟨_ | id⟩
    · exact ⟨fun t ht => ht, rfl, rfl⟩
    · exact ⟨fun t ht => ht, rfl, rfl⟩
    · exact ⟨fun t ht => List.mem_of_mem_filter ht, rfl, rfl⟩

theorem resync_books (cached : List Sighting) (q : Queue) :
    (q.resync cached).timers = q.timers ∧ (q.resync cached).armed = q.armed ∧
    (q.resync cached).failures = q.failures := by
  unfold Queue.resync
  induction cached generalizing q with
  | nil => exact ⟨rfl, rfl, rfl⟩
  | cons s rest ih =>
    rw [List.foldl_cons]
    cases q.standing? s.key with
    | none => exact ih (q.start .resync (.again s))
    | some _ => exact ih q

end Queue
end GameIngress.Dispatch
