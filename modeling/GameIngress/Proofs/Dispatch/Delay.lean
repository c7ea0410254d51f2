import GameIngress.Proofs.Dispatch.Deletion
import GameIngress.Proofs.Dispatch.Turn
import Mathlib.Data.List.DropRight

/-!
# How long a failed game server waits

The wait after a failure grows with the number of timers that were set since the game server was
last in order. It is in order when it is deleted, when a failure of it or its timer is dropped
because it is not cached, and when a call for it ends well with nothing put off. A call that ends
well while a delivery is put off leaves the count as it is.
-/
namespace GameIngress.Dispatch

open Watch (Key)

def isDeletion (k : Key) : Watch.Event Sighting → Bool
  | .delete s => s.key = k
  | _ => false

theorem isDeletion_eq {k : Key} {cache : Cache} (e : Watch.Event Sighting) : isDeletion k e =
    (Delivery.ofEvent? cache e).any fun d => d.isDelete && decide (d.key = k) := by
  cases e with
  | init | initDone | initApply _ | delete _ => rfl
  | apply s =>
    rw [Delivery.ofEvent?]
    cases cache.get? s.key <;> rfl

namespace Turn

def deletes (k : Key) (t : Turn) : Bool := t.taken?.any (isDeletion k)

/-- A call for the game server ended in anything but a failure that another attempt may mend. -/
def recovers (k : Key) (t : Turn) : Bool :=
  t.joined?.any fun
    | (x, .done) => Call.IsTracked k x
    | (_, .retry _) => false

/-- A failure of the game server with nothing put off, or its expired timer, is dropped because it
is not cached. -/
def givesUp (k : Key) (t : Turn) : Bool :=
  (t.before.dispatcher.cache.get? k).isNone &&
    (t.expired?.any (·.key = k) || t.joined?.any fun
      | (x, .retry _) => Call.IsTracked k x && (t.before.pending? k).isNone
      | (_, .done) => false)

def resets (k : Key) (t : Turn) : Bool := t.deletes k || t.recovers k || t.givesUp k

def clears (k : Key) (t : Turn) : Bool :=
  t.deletes k || t.recovers k && (t.before.pending? k).isNone || t.givesUp k

end Turn

/-- The turns after the last one of this kind. -/
def since (p : Turn → Bool) (ts : List Turn) : List Turn := ts.rtakeWhile fun t => !p t

/-- The timers of the game server that were set in these turns. -/
def timersOf (k : Key) (ts : List Turn) : List Timer :=
  (ts.flatMap Turn.armed).filter (·.key = k)

section Books
variable {q : Queue} {k : Key}

/-- What a turn does to the timers and failure counts. -/
inductive Turn.Books (t : Turn) : Prop
  | same (htimers : ∀ x ∈ t.after.queue.timers, x ∈ t.before.dispatcher.queue.timers)
      (hnext : t.after.queue.armed = t.before.dispatcher.queue.armed)
      (hcounts : t.after.queue.failures = t.before.dispatcher.queue.failures)
      (hclears : ∀ k, t.clears k = false)
  | forgot (k : Key) (htimers : ∀ x ∈ t.after.queue.timers, x ∈ t.before.dispatcher.queue.timers)
      (hnext : t.after.queue.armed = t.before.dispatcher.queue.armed)
      (hcounts : t.after.queue.failures = t.before.dispatcher.queue.failures.erase k)
      (hclears : ∀ k', t.clears k' = decide (k = k'))
  | counted (now : Nat) (k : Key) (htimers : t.after.queue.timers =
        t.before.dispatcher.queue.timers ++ [t.before.dispatcher.queue.nextTimer now k])
      (hnext : t.after.queue.armed = t.before.dispatcher.queue.armed + 1)
      (hcounts : t.after.queue.failures = t.before.dispatcher.queue.failures.set k
        (min (t.before.dispatcher.queue.failureCount k + 1) Queue.maxFailures))
      (hclears : ∀ k, t.clears k = false)

namespace Turn

variable {t : Turn}

theorem armed_eq_nil (hs : t.before.dispatcher.queue.Sound)
    (h : ∀ x ∈ t.after.queue.timers, x ∈ t.before.dispatcher.queue.timers) : t.armed = [] := by
  rw [armed, List.filter_eq_nil_iff]
  intro x hx
  simpa using hs.armed x (h x hx)

theorem armed_concat (hs : t.before.dispatcher.queue.Sound) {x : Timer}
    (hx : x.id = t.before.dispatcher.queue.armed)
    (h : t.after.queue.timers = t.before.dispatcher.queue.timers ++ [x]) : t.armed = [x] := by
  have hold : t.before.dispatcher.queue.timers.filter
      (t.before.dispatcher.queue.armed ≤ ·.id) = [] := by
    rw [List.filter_eq_nil_iff]
    intro y hy
    simpa using hs.armed y hy
  rw [armed, h, List.filter_append, hold, List.nil_append, List.filter_eq_self]
  intro y hy
  rw [List.mem_singleton.mp hy]
  exact decide_eq_true hx.ge

/-- A turn that looks at no call and at no timer ends a series of failures by a deletion only. -/
theorem clears_eq_deletes (hj : t.joined? = none) (he : t.expired? = none) :
    t.clears k = t.deletes k := by
  simp [clears, recovers, givesUp, hj, he]

theorem clears_eq_false (ht : t.taken? = none) (hj : t.joined? = none) (he : t.expired? = none) :
    t.clears k = false := by
  rw [clears_eq_deletes hj he, deletes, ht, Option.any_none]

section Joined
variable {x : Call}

theorem joined?_eq_some {o : Outcome} (hj : t.joined? = some (x, o)) :
    t.taken? = none ∧ t.expired? = none := by
  obtain ⟨time, h, i, d⟩ := t
  cases i with
  | join now => exact ⟨rfl, rfl⟩
  | watch _ | settled _ _ _ | expire _ | tick | stop => cases hj

theorem clears_of_done (hj : t.joined? = some (x, .done)) :
    t.clears k = (decide (Call.IsTracked k x) && (t.before.pending? k).isNone) := by
  obtain ⟨ht, he⟩ := joined?_eq_some hj
  simp [clears, deletes, recovers, givesUp, hj, ht, he]

theorem clears_of_retry {e : Failure} (hj : t.joined? = some (x, .retry e)) :
    t.clears k = ((t.before.dispatcher.cache.get? k).isNone &&
      (decide (Call.IsTracked k x) && (t.before.pending? k).isNone)) := by
  obtain ⟨ht, he⟩ := joined?_eq_some hj
  simp [clears, deletes, recovers, givesUp, hj, ht, he]

/-- The end of a call with something put off behind it, or of a deletion, ends no series of
failures. -/
theorem clears_of_unheard {o : Outcome} (hj : t.joined? = some (x, o))
    (h : Call.IsTracked k x → (t.before.pending? k).isSome) : t.clears k = false := by
  have hnone : (decide (Call.IsTracked k x) && (t.before.pending? k).isNone) = false := by
    by_cases ht : Call.IsTracked k x
    · rw [Option.isNone_eq_false_iff.mpr (h ht), Bool.and_false]
    · rw [decide_eq_false ht, Bool.false_and]
  cases o with
  | done => rw [clears_of_done hj, hnone]
  | retry e => rw [clears_of_retry hj, hnone, Bool.and_false]

end Joined

theorem Books.of_same (ht : t.after.queue.timers = t.before.dispatcher.queue.timers)
    (hn : t.after.queue.armed = t.before.dispatcher.queue.armed)
    (hc : t.after.queue.failures = t.before.dispatcher.queue.failures)
    (hclears : ∀ k, t.clears k = false) : t.Books :=
  .same (fun _ hx => ht ▸ hx) hn hc hclears

section Cases
variable {time : Nat} {h : Chronicle} {d : Dispatcher}

theorem books_watch {e : Watch.Event GameServer}
    (hs : h.dispatcher.step (.watch e) = .ok d) : Books ⟨time, h, .watch e, d⟩ := by
  rcases Dispatcher.step_watch hs with ⟨hstop, rfl⟩ | ⟨hstop, e', he, rfl⟩
  · exact .of_same rfl rfl rfl fun k =>
      clears_eq_false (by simp [taken?, Dispatcher.taken?, hstop]) rfl rfl
  have htaken : taken? ⟨time, h, .watch e, h.dispatcher.observe e'⟩ = some e' := by
    simp [taken?, Dispatcher.taken?, hstop, he]
  have hclears : ∀ k, clears k ⟨time, h, .watch e, h.dispatcher.observe e'⟩ =
      (Delivery.ofEvent? h.dispatcher.cache e').any fun x => x.isDelete && decide (x.key = k) := by
    intro k
    rw [clears_eq_deletes rfl rfl, deletes, htaken, Option.any_some, isDeletion_eq]
  cases hd : Delivery.ofEvent? h.dispatcher.cache e' with
  | none =>
    have hqueue : (h.dispatcher.observe e').queue = h.dispatcher.queue := by
      simp only [Dispatcher.observe, hd]
    refine .of_same (by rw [hqueue]) (by rw [hqueue]) (by rw [hqueue]) fun k => ?_
    rw [hclears, hd]
    rfl
  | some delivery =>
    have hqueue : (h.dispatcher.observe e').queue = h.dispatcher.queue.enqueue delivery := by
      simp only [Dispatcher.observe, hd]
    obtain ⟨htimers, harmed, hfailures⟩ := h.dispatcher.queue.enqueue_books delivery
    rw [← hqueue] at htimers harmed hfailures
    cases hdelete : delivery.isDelete with
    | true =>
      rw [if_pos hdelete] at hfailures
      refine .forgot delivery.key htimers harmed hfailures fun k => ?_
      rw [hclears, hd, Option.any_some, hdelete, Bool.true_and]
    | false =>
      rw [hdelete, if_neg Bool.false_ne_true] at hfailures
      refine .same htimers harmed hfailures fun k => ?_
      rw [hclears, hd, Option.any_some, hdelete, Bool.false_and]

theorem books_join (hf : h.Faithful) {now : Nat} (hs : h.dispatcher.step (.join now) = .ok d) :
    Books ⟨time, h, .join now, d⟩ := by
  rcases Dispatcher.step_join hs with ⟨hj, rfl⟩ | ⟨x, o, slots, hj, rfl⟩
  · exact .of_same rfl rfl rfl fun k =>
      clears_eq_false rfl (by simp [joined?, Dispatcher.joined?, hj]) rfl
  generalize hq : { h.dispatcher.queue with slots }.finish now h.dispatcher.cache x o = q'
  have hjoined : joined? ⟨time, h, .join now, { h.dispatcher with queue := q' }⟩ = some (x, o) := by
    simp [joined?, Dispatcher.joined?, hj]
  have hfinish := hf.coherent.finish_of_join hj now h.dispatcher.cache
  rw [hq] at hfinish
  have htracked : ∀ k, x.delivery.isDelete = false →
      (Call.IsTracked k x ↔ x.delivery.key = k) :=
    fun k hd => ⟨fun ht => ht.2, fun hk => ⟨hd, hk⟩⟩
  cases hfinish with
  | delete hd =>
    refine .of_same rfl rfl rfl fun k => clears_of_unheard hjoined fun ht => ?_
    exact absurd (ht.1.symm.trans hd) (by decide)
  | @next _ delivery hd hp =>
    have hp' : h.pending? x.delivery.key = some delivery := hp
    refine .of_same rfl rfl rfl fun k => clears_of_unheard hjoined fun ht => ?_
    rw [← ht.2]
    exact Option.isSome_iff_exists.mpr ⟨delivery, hp'⟩
  | well hd hp =>
    refine .forgot x.delivery.key (fun _ hx => hx) rfl rfl fun k => ?_
    rw [clears_of_done hjoined]
    have hp' : h.pending? x.delivery.key = none := hp
    by_cases hk : x.delivery.key = k
    · subst hk
      simp [htracked _ hd, hp']
    · simp [htracked k hd, hk]
  | dropped hd hp hc =>
    refine .forgot x.delivery.key (fun _ hx => hx) rfl rfl fun k => ?_
    rw [clears_of_retry hjoined]
    have hp' : h.pending? x.delivery.key = none := hp
    by_cases hk : x.delivery.key = k
    · subst hk
      simp [htracked _ hd, hp', hc]
    · simp [htracked k hd, hk]
  | again hd hp hc =>
    refine .counted now x.delivery.key rfl rfl rfl fun k => ?_
    rw [clears_of_retry hjoined]
    by_cases hk : x.delivery.key = k
    · subst hk
      simp [hc]
    · simp [htracked k hd, hk]

theorem books_expire {timer : Nat}
    (hs : h.dispatcher.step (.expire timer) = .ok d) : Books ⟨time, h, .expire timer, d⟩ := by
  rcases Dispatcher.step_expired hs with ⟨he, rfl⟩ | ⟨t, ht, -, -, he, rfl⟩
  · exact .of_same rfl rfl rfl fun k => clears_eq_false rfl rfl he
  generalize hq : h.dispatcher.queue.expire h.dispatcher.cache t = q'
  have hclears : ∀ k, clears k ⟨time, h, .expire timer, { h.dispatcher with queue := q' }⟩ =
      ((h.dispatcher.cache.get? k).isNone && decide (t.key = k)) := by
    intro k
    have hexpired : expired? ⟨time, h, .expire timer, { h.dispatcher with queue := q' }⟩ = some t :=
      he
    simp [clears, deletes, recovers, givesUp, hexpired, taken?, Dispatcher.taken?, joined?,
      Dispatcher.joined?]
  unfold Queue.expire at hq
  cases hcached : h.dispatcher.cache.get? t.key with
  | none =>
    rw [hcached] at hq
    subst hq
    refine .forgot t.key (fun _ hx => List.mem_of_mem_filter hx)
      rfl rfl fun k => ?_
    rw [hclears]
    by_cases hk : t.key = k
    · subst hk
      simp [hcached]
    · simp [hk]
  | some s =>
    rw [hcached] at hq
    subst hq
    refine .same (fun _ hx => List.mem_of_mem_filter hx) rfl rfl
      fun k => ?_
    rw [hclears]
    by_cases hk : t.key = k
    · subst hk
      simp [hcached]
    · simp [hk]

end Cases

theorem books (hf : t.before.Faithful) (hs : t.before.dispatcher.step t.input = .ok t.after) :
    t.Books := by
  obtain ⟨time, h, i, d⟩ := t
  cases i with
  | watch e => exact books_watch hs
  | settled id r millis =>
    have hqueue := (Dispatcher.step_settled hs).1
    dsimp only at hqueue
    exact .of_same (by rw [hqueue]) (by rw [hqueue]) (by rw [hqueue])
      fun k => clears_eq_false rfl rfl rfl
  | join now => exact books_join hf hs
  | expire timer => exact books_expire hs
  | tick =>
    rcases Dispatcher.step_tick hs with heq | ⟨-, heq⟩
    all_goals
      dsimp only at heq
      subst heq
    · exact .of_same rfl rfl rfl fun k => clears_eq_false rfl rfl rfl
    · obtain ⟨htimers, harmed, hfailures⟩ :=
        h.dispatcher.queue.resync_books h.dispatcher.cache.values
      exact .of_same htimers harmed hfailures fun k =>
        clears_eq_false rfl rfl rfl
  | stop =>
    have heq := Dispatcher.step_stop hs
    dsimp only at heq
    subst heq
    exact .of_same rfl rfl rfl fun k => clears_eq_false rfl rfl rfl

theorem armed_ids (hf : t.before.Faithful)
    (hs : t.before.dispatcher.step t.input = .ok t.after) :
    t.armed.map (·.id) = List.range' t.before.dispatcher.queue.armed t.armed.length ∧
    t.after.queue.armed = t.before.dispatcher.queue.armed + t.armed.length := by
  have hsound := hf.coherent.toSound
  rcases books hf hs with ⟨htimers, hnext, -, -⟩ | ⟨k', htimers, hnext, -, -⟩ |
    ⟨now, k', htimers, hnext, -, -⟩
  · rw [armed_eq_nil hsound htimers]
    exact ⟨rfl, hnext⟩
  · rw [armed_eq_nil hsound htimers]
    exact ⟨rfl, hnext⟩
  · rw [armed_concat hsound rfl htimers]
    exact ⟨rfl, hnext⟩

theorem mem_timers (hf : t.before.Faithful)
    (hs : t.before.dispatcher.step t.input = .ok t.after) {x : Timer}
    (hx : x ∈ t.after.queue.timers) : x ∈ t.before.dispatcher.queue.timers ∨ x ∈ t.armed := by
  rcases books hf hs with ⟨htimers, -, -, -⟩ | ⟨k', htimers, -, -, -⟩ | ⟨now, k', htimers, -, -, -⟩
  · exact .inl (htimers x hx)
  · exact .inl (htimers x hx)
  · rw [armed_concat hf.coherent.toSound rfl htimers]
    exact List.mem_append.mp (htimers ▸ hx)

end Turn

end Books

section Since
variable {p q : Turn → Bool} {ts us : List Turn} {t : Turn} {k : Key}

theorem since_concat : since p (ts ++ [t]) = if p t then [] else since p ts ++ [t] := by
  rw [since, since]
  cases hp : p t with
  | true => exact List.rtakeWhile_concat_neg _ _ _ (by simp [hp])
  | false => exact List.rtakeWhile_concat_pos _ _ _ (by simp [hp])

/-- Where one kind includes the other, what is left of turns since the last one of it is the end of
what is left since the last one of the other, and is preceded by one of it. -/
theorem since_of_le (h : ∀ t, p t = true → q t = true) (ts : List Turn) : ∃ kept,
    since p ts = kept ++ since q ts ∧ ∀ r ∈ kept.getLast?, q r = true ∧ p r = false := by
  induction ts using List.reverseRecOn with
  | nil => exact ⟨[], rfl, fun r hr => by cases hr⟩
  | append_singleton ts t ih =>
    obtain ⟨kept, hkept, hlast⟩ := ih
    rw [since_concat, since_concat]
    cases hp : p t with
    | true => exact ⟨[], by simp [h t hp], fun r hr => by cases hr⟩
    | false =>
      cases hq : q t with
      | true =>
        refine ⟨since p ts ++ [t], by simp, fun r hr => ?_⟩
        rw [List.getLast?_concat, Option.mem_some_iff] at hr
        exact hr ▸ ⟨hq, hp⟩
      | false => exact ⟨kept, by simp [hkept], hlast⟩

theorem timersOf_append : timersOf k (ts ++ us) = timersOf k ts ++ timersOf k us := by
  simp [timersOf]

theorem timersOf_singleton : timersOf k [t] = t.armed.filter (·.key = k) := by
  simp [timersOf]

end Since

theorem Turn.clears_resets {k : Key} {t : Turn} (h : t.clears k = true) : t.resets k = true := by
  simp only [clears, resets, Bool.or_eq_true, Bool.and_eq_true] at h ⊢
  tauto

/-- Only a call that ends well with something put off ends a series of failures and does not. -/
theorem Turn.recovers_of_resets {k : Key} {t : Turn} (h : t.resets k = true)
    (hc : t.clears k = false) : t.recovers k = true ∧ (t.before.pending? k).isSome := by
  simp only [clears, resets, Bool.or_eq_true, Bool.or_eq_false_iff, Bool.and_eq_false_iff] at h hc
  obtain ⟨⟨hd, hr⟩, hg⟩ := hc
  rcases h with (h | h) | h
  · rw [hd] at h
    cases h
  · rw [h, Option.isNone_eq_false_iff] at hr
    exact ⟨h, hr.resolve_left Bool.noConfusion⟩
  · rw [hg] at h
    cases h

theorem backoffDelay_min (n : Nat) (base cap : Duration) :
    backoffDelay (min n Queue.maxFailures) base cap = backoffDelay n base cap := by
  have hmax : 16 ≤ Queue.maxFailures := by decide
  have hmin : min (min n Queue.maxFailures) 16 = min n 16 := by omega
  rw [backoffDelay, hmin, backoffDelay]

namespace Run

variable {c : Settings} {ts us : List Turn} {t : Turn} {h : Chronicle}

/-- Failures are counted by the timers that were set since they were last forgotten. -/
theorem failureCount (hr : Run c ts h) (k : Key) : h.dispatcher.queue.failureCount k =
    min (timersOf k (since (Turn.clears k) ts)).length Queue.maxFailures := by
  induction hr with
  | start hnew =>
    rw [Dispatcher.eq_of_new hnew]
    rfl
  | @turn ts h i d hr time hs ih =>
    rw [since_concat]
    change d.queue.failureCount k = _
    rcases Turn.books (t := ⟨time, h, i, d⟩) hr.faithful hs with
      ⟨htimers, -, hcounts, hclears⟩ | ⟨k', htimers, -, hcounts, hclears⟩ |
        ⟨now, k', htimers, -, hcounts, hclears⟩
    all_goals dsimp only at hcounts
    · have hset := Turn.armed_eq_nil (t := ⟨time, h, i, d⟩) hr.faithful.coherent.toSound htimers
      rw [hclears, if_neg Bool.false_ne_true, timersOf_append, timersOf_singleton, hset,
        List.filter_nil, List.append_nil, ← ih, Queue.failureCount, hcounts, Queue.failureCount]
    · have hset := Turn.armed_eq_nil (t := ⟨time, h, i, d⟩) hr.faithful.coherent.toSound htimers
      rw [hclears, Queue.failureCount, hcounts, Assoc.get?_erase]
      by_cases hk : k' = k
      · simp [hk, timersOf]
      · simp only [hk, decide_false, Bool.false_eq_true, ↓reduceIte]
        rw [timersOf_append, timersOf_singleton, hset, List.filter_nil, List.append_nil, ← ih,
          Queue.failureCount]
    · have hset := Turn.armed_concat (t := ⟨time, h, i, d⟩) hr.faithful.coherent.toSound rfl htimers
      rw [hclears, if_neg Bool.false_ne_true, timersOf_append, timersOf_singleton, hset,
        Queue.failureCount, hcounts, Assoc.get?_set]
      by_cases hk : k' = k
      · subst hk
        simp only [↓reduceIte, Option.getD_some, ih, Queue.nextTimer, decide_true,
          List.filter_cons_of_pos, List.filter_nil, List.length_append, List.length_singleton]
        omega
      · simp only [hk, ↓reduceIte, Queue.nextTimer, decide_false, Bool.false_eq_true,
          not_false_eq_true, List.filter_cons_of_neg, List.filter_nil, List.append_nil]
        rw [← ih, Queue.failureCount]

/-- A timer that was just set waits for as long as the number of failures asks that were counted. -/
theorem delay_eq (hr : Run c ts h) {i : Input} {d : Dispatcher} (hs : h.dispatcher.step i = .ok d)
    {time : Nat} {timer : Timer} (ht : timer ∈ (Turn.mk time h i d).armed) :
    timer.delay =
      backoffDelay (h.dispatcher.queue.failureCount timer.key) c.delays.base c.delays.cap := by
  have hsound := hr.faithful.coherent.toSound
  rcases Turn.books (t := ⟨time, h, i, d⟩) hr.faithful hs with
    ⟨htimers, -, -, -⟩ | ⟨k', htimers, -, -, -⟩ | ⟨now, k', htimers, -, -, -⟩
  · rw [Turn.armed_eq_nil hsound htimers] at ht
    cases ht
  · rw [Turn.armed_eq_nil hsound htimers] at ht
    cases ht
  · rw [Turn.armed_concat hsound rfl htimers] at ht
    rw [List.mem_singleton.mp ht, Queue.nextTimer, hr.reached.delays]

/-- A timer, which was survived, waits for as long as the number of timers asks that were set for
its game server since its failures were last forgotten. They are forgotten at every end of a series
of failures, except that a call that ends well forgets nothing when something was put off behind it.
-/
theorem delay_of_armed (hr : Run c (ts ++ t :: us) h) {timer : Timer} (ht : timer ∈ t.armed) :
    timer.delay = backoffDelay (timersOf timer.key (since (Turn.clears timer.key) ts)).length
      c.delays.base c.delays.cap ∧
    (timersOf timer.key (since (Turn.clears timer.key) ts) = [] →
      timer.delay = c.delays.base.least c.delays.cap) ∧
    ∃ kept, since (Turn.clears timer.key) ts = kept ++ since (Turn.resets timer.key) ts ∧
      ∀ r ∈ kept.getLast?, r.recovers timer.key = true ∧
        (r.before.pending? timer.key).isSome := by
  obtain ⟨hbefore, hs⟩ := hr.split
  have hdelay := hbefore.delay_eq hs ht
  rw [hbefore.failureCount, backoffDelay_min] at hdelay
  refine ⟨hdelay, fun hnone => ?_, ?_⟩
  · rw [hdelay, hnone, List.length_nil, backoffDelay]
    simp [Duration.scale, Duration.ofNanos_nanos]
  · obtain ⟨kept, hkept, hlast⟩ := since_of_le (fun _ => Turn.clears_resets) ts
    exact ⟨kept, hkept, fun r hr => Turn.recovers_of_resets (hlast r hr).1 (hlast r hr).2⟩

/-- A game server is added, which fails, and again, while an update is put off, which succeeds. The
update fails. -/
def failingAround : List (Nat × Input) :=
  [(0, .watch (.apply Queue.lone.gs)), (7, .settled 0 (.failed Chronicle.internalError) 7),
    (7, .join 7), (107, .expire 0), (120, .watch (.apply Queue.lone.gs)), (157, .settled 1 .ok 50),
    (157, .join 157), (162, .settled 2 (.failed Chronicle.internalError) 5)]

/-- The call before the failure ended well, and the wait after it is not the shortest one. -/
theorem longer_wait_after_success : ∃ ts h d timer,
    play Chronicle.oneSlot failingAround = .ok (ts, h) ∧
      h.dispatcher.step (.join 162) = .ok d ∧ timer ∈ (Turn.mk 162 h (.join 162) d).armed ∧
      timersOf timer.key (since (Turn.resets timer.key) ts) = [] ∧
      timer.delay ≠ backoffDelay 0 Chronicle.oneSlot.delays.base Chronicle.oneSlot.delays.cap := by
  refine ⟨_, _, _, _, rfl, rfl, List.mem_singleton_self _, rfl, ?_⟩
  decide

/-- Without anything put off, the wait after a success is the shortest one. -/
theorem shortest_wait_after_success : ∃ ts t h timer,
    Run Chronicle.oneSlot (ts ++ [t]) h ∧ timer ∈ t.armed ∧
      timersOf timer.key ts ≠ [] ∧ timer.delay = .ofMillis 100 := by
  obtain ⟨ts, h, d, timer, hp, hs, ht, hearlier, hnone⟩ : ∃ ts h d timer,
      play Chronicle.oneSlot [(0, .watch (.apply Queue.lone.gs)),
        (7, .settled 0 (.failed Chronicle.internalError) 7), (7, .join 7), (107, .expire 0),
        (157, .settled 1 .ok 50), (157, .join 157), (160, .watch (.apply Queue.lone.gs)),
        (162, .settled 2 (.failed Chronicle.internalError) 2)] = .ok (ts, h) ∧
      h.dispatcher.step (.join 162) = .ok d ∧ timer ∈ (Turn.mk 162 h (.join 162) d).armed ∧
      timersOf timer.key ts ≠ [] ∧ timersOf timer.key (since (Turn.clears timer.key) ts) = [] :=
    ⟨_, _, _, _, rfl, rfl, List.mem_singleton_self _, by decide, rfl⟩
  have hr := (of_play hp).turn 162 hs
  exact ⟨ts, _, _, timer, hr, ht, hearlier, (delay_of_armed hr ht).2.1 hnone⟩

end Run

end GameIngress.Dispatch
