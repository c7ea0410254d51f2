import GameIngress.Proofs.Dispatch.Concurrency
import GameIngress.Proofs.Dispatch.Limits
import Mathlib.Data.List.Induction
import Mathlib.Data.Multiset.Filter

/-!
# What becomes of a call that ended

Calls are looked at in the order in which they ended. After that, the game server of the call runs
what was put off, waits out a failure that another attempt may mend, or is idle; and the dispatcher
takes the next input, unless the wait is too long. In a simulation, the dispatcher has counted the
calls that ended, by how they ended.
-/
namespace GameIngress

/-- The innermost failure is one of the manifest, of the configuration, or the cancellation. -/
def Failure.IsFinal (e : Failure) : Prop :=
  (∃ v, e.root = .validation v) ∨ (∃ reason, e.root = .config reason) ∨ e.root = .cancelled

theorem Failure.isRetriable_iff {e : Failure} : e.isRetriable = true ↔ ¬ e.IsFinal := by
  unfold isRetriable IsFinal
  cases e.root <;> simp

namespace Dispatch

universe u

theorem Outcome.of_eq_retry {d : Delivery} {r : CallResult} {e : Failure} :
    Outcome.of d r = .retry e ↔ d.isDelete = false ∧ r = .failed e ∧ e.isRetriable = true := by
  cases r with
  | ok | panicked => simp [Outcome.of]
  | failed e' =>
    simp only [Outcome.of]
    split
    · next h =>
      refine iff_of_false (fun hdone => by cases hdone) ?_
      rintro ⟨hd, hr, he⟩
      cases hr
      simp [hd, he] at h
    · next h =>
      simp only [Bool.or_eq_true, Bool.not_eq_true', not_or, Bool.not_eq_true,
        Bool.not_eq_false] at h
      simp only [h.1, Outcome.retry.injEq, CallResult.failed.injEq, true_and]
      exact ⟨fun heq => ⟨heq, heq ▸ h.2⟩, And.left⟩

namespace Turn

variable {t : Turn} {x : Call} {r : CallResult}

def ended? (t : Turn) : Option (Call × CallResult) :=
  match t.input with
  | .settled id r _ => (t.before.slots.running.find? (·.id = id)).map (·, r)
  | .watch _ | .join _ | .expire _ | .tick | .stop => none

/-- The call was an addition or an update, its failure is not final, nothing was put off behind it,
and its game server is still cached. -/
def Retries (t : Turn) (x : Call) (r : CallResult) : Prop :=
  x.delivery.isDelete = false ∧ (∃ e, r = .failed e ∧ e.isRetriable = true ∧ ¬ e.IsFinal) ∧
    t.before.pending? x.delivery.key = none ∧
    (t.before.dispatcher.cache.get? x.delivery.key).isSome

/-- What a turn leaves of the game server of the call that it looked at. -/
inductive Aftermath (t : Turn) (x : Call) (r : CallResult) : Prop
  /-- The call was a delete: all game servers stand as before. -/
  | untracked (hd : x.delivery.isDelete = true)
      (hs : t.after.queue.standings = t.before.dispatcher.queue.standings)
  /-- The game server runs what was put off. -/
  | resumed {y : Call} (hd : x.delivery.isDelete = false)
      (hp : t.before.pending? x.delivery.key = some y.delivery)
      (hs : t.after.queue.standing? x.delivery.key = some (.running none))
      (hcalls : (t.after.queue.profile x.delivery.key).calls = {y})
  /-- The game server waits. -/
  | waits {timer : Timer} (hr : t.Retries x r)
      (hs : t.after.queue.standing? x.delivery.key = some (.waiting timer.id))
      (htimers : (t.after.queue.profile x.delivery.key).timers = [timer])
      (harmed : t.armed = [timer])
  /-- The game server is idle. -/
  | rests (hd : x.delivery.isDelete = false) (hp : t.before.pending? x.delivery.key = none)
      (hr : ¬ t.Retries x r) (hs : t.after.queue.standing? x.delivery.key = none)

theorem not_retries_of_done (h : Outcome.of x.delivery r = .done) : ¬ t.Retries x r := by
  rintro ⟨hd, ⟨e, hr, he, -⟩, -, -⟩
  rw [Outcome.of_eq_retry.mpr ⟨hd, hr, he⟩] at h
  cases h

theorem finish_of_joined (hf : t.before.Faithful)
    (hs : t.before.dispatcher.step t.input = .ok t.after) {o : Outcome}
    (hj : t.joined? = some (x, o)) : ∃ now slots, t.before.slots.join = some ((x, o), slots) ∧
      Queue.Finish { t.before.dispatcher.queue with slots } now t.before.dispatcher.cache x o
        t.after.queue := by
  obtain ⟨time, h, i, d⟩ := t
  cases i with
  | watch _ | settled _ _ _ | expire _ | tick | stop => cases hj
  | join now =>
    rcases Dispatcher.step_join hs with ⟨hnone, -⟩ | ⟨x', o', slots, hjoin, heq⟩
    · simp [joined?, Dispatcher.joined?, hnone] at hj
    obtain ⟨rfl, rfl⟩ : x' = x ∧ o' = o := by
      simpa [joined?, Dispatcher.joined?, hjoin] using hj
    have hfinish := hf.coherent.finish_of_join hjoin now h.dispatcher.cache
    dsimp only at heq
    rw [heq]
    exact ⟨now, slots, hjoin, hfinish⟩

theorem aftermath (hf : t.before.Faithful) (hs : t.before.dispatcher.step t.input = .ok t.after)
    (hj : t.joined? = some (x, Outcome.of x.delivery r)) :
    t.Aftermath x r ∧ (t.armed ≠ [] ↔ t.Retries x r) := by
  have hc : t.after.queue.Coherent := (hf.step ⟨_, t.after, hs, rfl⟩).coherent
  have hsound := hf.coherent.toSound
  have hnone (htimers : t.after.queue.timers = t.before.dispatcher.queue.timers) : ¬ t.armed ≠ [] :=
    not_not_intro (armed_eq_nil hsound fun _ ht => htimers ▸ ht)
  obtain ⟨now, slots, -, hfinish⟩ := finish_of_joined hf hs hj
  generalize hq : t.after.queue = q at hfinish
  generalize ho : Outcome.of x.delivery r = o at hfinish
  cases hfinish with
  | delete hd =>
    refine ⟨.untracked hd (by rw [hq]), iff_of_false (hnone (by rw [hq])) fun hr => ?_⟩
    exact absurd (hr.1.symm.trans hd) (by decide)
  | @next _ d hd hp =>
    obtain ⟨hkey, hdelete⟩ := hf.of_pending hp
    have hstanding : t.after.queue.standing? x.delivery.key = some (.running none) := by
      rw [hq, Queue.standing?_start, if_pos hkey]
    obtain ⟨y, hy⟩ := (hc.running hstanding).1
    let z : Call := ⟨slots.queued, .watch, d⟩
    have hout : z ∈ t.after.queue.slots.outstanding := by
      rw [hq]
      simp [Queue.start, Queue.spawn, z]
    have hstarted : z ∈ (t.after.queue.profile x.delivery.key).calls :=
      Multiset.mem_filter.mpr ⟨hout, hdelete, hkey⟩
    rw [hy, Multiset.mem_singleton] at hstarted
    refine ⟨.resumed (y := z) hd hp hstanding (hstarted ▸ hy),
      iff_of_false (hnone (by rw [hq]; rfl)) fun hr => ?_⟩
    cases hp.symm.trans hr.2.2.1
  | well hd hp =>
    have hr := not_retries_of_done (t := t) ho
    refine ⟨.rests hd hp hr ?_, iff_of_false (hnone (by rw [hq]; rfl)) hr⟩
    rw [hq]
    exact Queue.standing?_erase _ _
  | dropped hd hp hcached =>
    have hr : ¬ t.Retries x r := by
      rintro ⟨-, -, -, hsome⟩
      rw [hcached] at hsome
      cases hsome
    refine ⟨.rests hd hp hr ?_, iff_of_false (hnone (by rw [hq]; rfl)) hr⟩
    rw [hq]
    exact Queue.standing?_erase _ _
  | @again e s hd hp hcached =>
    obtain ⟨-, hfailed, he⟩ := Outcome.of_eq_retry.mp ho
    have hr : t.Retries x r := ⟨hd, ⟨e, hfailed, he, Failure.isRetriable_iff.mp he⟩, hp,
      Option.isSome_iff_exists.mpr ⟨s, hcached⟩⟩
    have hset : t.armed = [t.before.dispatcher.queue.nextTimer now x.delivery.key] :=
      armed_concat hsound rfl (by rw [hq]; rfl)
    have hstanding : t.after.queue.standing? x.delivery.key =
        some (.waiting t.before.dispatcher.queue.armed) := by
      rw [hq]
      simp [Queue.standing?, Queue.arm, Assoc.get?_set]
    have hmem : t.before.dispatcher.queue.nextTimer now x.delivery.key ∈ t.after.queue.timers := by
      rw [hq]
      exact List.mem_append_right _ (List.mem_singleton_self _)
    refine ⟨.waits hr hstanding (hc.eq_of_waiting hstanding hmem rfl) hset, iff_of_true ?_ hr⟩
    rw [hset]
    exact List.cons_ne_nil _ _

/-- What ends waits to be looked at behind all that ended before, of which the first may be looked
at. -/
theorem looked (hf : t.before.Faithful) (hs : t.before.dispatcher.step t.input = .ok t.after) :
    t.before.slots.ended ++ t.ended?.toList.map (fun e => (e.1, Outcome.of e.1.delivery e.2)) =
      t.joined?.toList ++ t.after.queue.slots.ended := by
  obtain ⟨time, h, i, d⟩ := t
  have hchange := Dispatcher.step_slots hf.coherent hf.keyed hs
  cases i with
  | settled id r millis =>
    have hslots : d.queue.slots = h.slots.settle id r := by
      rw [(Dispatcher.step_settled hs).1]
      rfl
    simp only [ended?, joined?, Dispatcher.joined?, hslots]
    cases hfound : h.slots.running.find? (·.id = id) with
    | none =>
      have hnot : ∀ y ∈ h.slots.running, y.id ≠ id := by simpa using hfound
      simp [(Slots.settle_of_not_running hnot r).2]
    | some x =>
      have hid : x.id = id := by simpa using List.find?_some hfound
      have hx := List.mem_of_find?_eq_some hfound
      have hend := (Slots.settle_of_running hf.nodup_unfinished hx r).2
      simp [← hid, hend]
  | join now =>
    rcases Dispatcher.step_join hs with ⟨hnone, heq⟩ | ⟨x, o, slots, hjoin, heq⟩
    · dsimp only at hnone heq
      simp [ended?, joined?, Dispatcher.joined?, hnone, heq, Chronicle.slots]
    · dsimp only at hjoin heq
      have hrest : d.queue.slots.ended = slots.ended := by
        rw [heq]
        rcases Queue.finish_cases hf.coherent hjoin now h.dispatcher.cache with
          ⟨_, -, hslots, -⟩ | ⟨hslots, -⟩
        · exact (congrArg Slots.ended hslots).trans (Slots.ended_enqueue _ _ _)
        · exact congrArg Slots.ended hslots
      simp [ended?, joined?, Dispatcher.joined?, hjoin, hrest, Chronicle.slots,
        Slots.ended_of_join hjoin]
  | watch _ | expire _ | tick | stop =>
    cases hchange with
    | queued ha =>
      have hsame : d.queue.slots.ended = h.slots.ended := ha.ended
      simp [ended?, joined?, Dispatcher.joined?, hsame]

theorem ended?_eq_some (hf : t.before.Faithful) : t.ended? = some (x, r) ↔
    ∃ millis, t.input = .settled x.id r millis ∧ x ∈ t.before.slots.running := by
  obtain ⟨time, h, i, d⟩ := t
  cases i with
  | watch _ | join _ | expire _ | tick | stop => simp [ended?]
  | settled id r' millis =>
    have hd := hf.nodup_unfinished
    rw [Slots.unfinished, List.map_append] at hd
    constructor
    · intro he
      obtain ⟨y, hy, hyx⟩ := Option.map_eq_some_iff.mp he
      cases hyx
      have hid : x.id = id := by simpa using List.find?_some hy
      exact ⟨millis, by rw [hid], List.mem_of_find?_eq_some hy⟩
    · rintro ⟨millis', hi, hx⟩
      cases hi
      have hone : h.slots.running.filter (·.id = x.id) = [x] :=
        Slots.filter_eq_singleton (List.nodup_append'.mp hd).1 hx
      simp only [ended?, ← List.head?_filter, hone, List.head?_cons, Option.map_some]

theorem vacated_eq (hf : t.before.Faithful) : t.vacated = t.ended?.toList.map (·.1) := by
  obtain ⟨time, h, i, d⟩ := t
  cases i with
  | watch _ | join _ | expire _ | tick | stop => rfl
  | settled id r millis =>
    have hd := hf.nodup_unfinished
    rw [Slots.unfinished, List.map_append] at hd
    simp only [vacated, ended?]
    cases hfound : h.slots.running.find? (·.id = id) with
    | none =>
      have hnot : ∀ y ∈ h.slots.running, y.id ≠ id := by simpa using hfound
      simpa using hnot
    | some x =>
      have hid : x.id = id := by simpa using List.find?_some hfound
      have hone := Slots.filter_eq_singleton (List.nodup_append'.mp hd).1
        (List.mem_of_find?_eq_some hfound)
      rw [hid] at hone
      exact hone

end Turn

def endings (ts : List Turn) : List (Call × CallResult) := ts.filterMap Turn.ended?

/-- What becomes of the calls that ended in a run. -/
structure Contained (ts : List Turn) (h : Chronicle) : Prop where
  /-- Calls end once. -/
  once : ((endings ts).map (·.1.id)).Nodup
  /-- Calls are looked at in the order in which they ended, and those that are left wait for it. -/
  looked : (endings ts).map (fun e => (e.1, Outcome.of e.1.delivery e.2)) =
    ts.filterMap Turn.joined? ++ h.slots.ended
  /-- Where no call is looked at, no timer is set. -/
  quiet : ∀ t ∈ ts, t.joined? = none → t.armed = []
  /-- Where a call is looked at, a timer is set exactly if the call is retried. -/
  aftermath : ∀ us t vs x o, ts = us ++ t :: vs → t.joined? = some (x, o) →
    ∃ r, (x, r) ∈ endings us ∧ t.Aftermath x r ∧ (t.armed ≠ [] ↔ t.Retries x r)
  /-- A game server that runs has a call. -/
  manned : ∀ k pending, h.dispatcher.queue.standing? k = some (.running pending) →
    ∃ y, (h.dispatcher.queue.profile k).calls = {y}
  /-- The next input is survived, unless it sets a timer beyond the limit. -/
  goesOn : ∀ i : Input, i.Named →
    ((∃ d, h.dispatcher.step i = .ok d) ↔ ¬ h.dispatcher.Overshoots i)

namespace Run

variable {c : Settings} {ts us vs : List Turn} {t : Turn} {h : Chronicle}

theorem endings_eq_vacated (hr : Run c ts h) :
    (endings ts).map (·.1) = ts.flatMap Turn.vacated := by
  rw [endings, List.filterMap_eq_flatMap_toList, List.map_flatMap]
  exact List.flatMap_congr fun t ht => (Turn.vacated_eq (hr.of_mem ht).1).symm

theorem nodup_endings (hr : Run c ts h) : ((endings ts).map (·.1.id)).Nodup := by
  have hserved := hr.served
  have hseated : ((ts.flatMap Turn.seated).map (·.id)).Nodup := by
    have hd := hserved.distinct
    rw [hserved.ordered, List.map_append] at hd
    exact (List.nodup_append'.mp hd).1
  have hback := congrArg (Multiset.map Call.id) hserved.handedBack
  rw [Multiset.map_add, Multiset.map_coe, Multiset.map_coe, Multiset.map_coe] at hback
  have hle : (↑((ts.flatMap Turn.vacated).map Call.id) : Multiset Nat) ≤
      ↑((ts.flatMap Turn.seated).map Call.id) := hback ▸ Multiset.le_add_left _ _
  have hnodup : ((ts.flatMap Turn.vacated).map Call.id).Nodup :=
    Multiset.nodup_of_le hle hseated
  rwa [← hr.endings_eq_vacated, List.map_map] at hnodup

theorem looked (hr : Run c ts h) : (endings ts).map (fun e => (e.1, Outcome.of e.1.delivery e.2)) =
    ts.filterMap Turn.joined? ++ h.slots.ended := by
  induction ts using List.reverseRecOn generalizing h with
  | nil =>
    rw [hr.nil_inv]
    rfl
  | append_singleton ts t ih =>
    obtain ⟨hbefore, hs, rfl⟩ := hr.concat_inv
    have hturn := Turn.looked hbefore.faithful hs
    rw [endings, List.filterMap_append, List.map_append, List.filterMap_append, ← endings,
      ih hbefore, List.append_assoc, List.append_assoc]
    exact congrArg _ hturn

theorem contained (hr : Run c ts h) : Contained ts h where
  once := hr.nodup_endings
  looked := hr.looked
  quiet := fun t ht hj =>
    have ⟨hf, hs⟩ := hr.of_mem ht
    Turn.armed_eq_nil hf.coherent.toSound fun _ hx => Dispatcher.mem_timers_of_step hj hs hx
  aftermath := by
    rintro us t vs x o rfl hj
    obtain ⟨hbefore, hs⟩ := hr.split
    have hended : (x, o) ∈ (endings us).map fun e => (e.1, Outcome.of e.1.delivery e.2) := by
      obtain ⟨now, slots, hjoin, -⟩ := Turn.finish_of_joined hbefore.faithful hs hj
      rw [hbefore.looked, Slots.ended_of_join hjoin]
      exact List.mem_append_right _ List.mem_cons_self
    obtain ⟨⟨y, r⟩, hmem, heq⟩ := List.mem_map.mp hended
    cases heq
    obtain ⟨hleft, harmed⟩ := Turn.aftermath hbefore.faithful hs hj
    exact ⟨r, hmem, hleft, harmed⟩
  manned := fun k pending hs => (hr.faithful.coherent.running hs).1
  goesOn := fun i hi => hr.reached.survives_iff hi

end Run

namespace CallRecord

/-- The call came back, with or without a failure. -/
def returned (r : CallRecord) : Bool :=
  match r.result with
  | .panicked => false
  | .ok | .failed _ => true

/-- The call came back with a failure that counts here. -/
def counts (k : Counter) (r : CallRecord) : Bool :=
  match r.result with
  | .failed e => k = .errors "gameserver" e.kind
  | .ok | .panicked => false

end CallRecord

theorem Dispatcher.counts_of_step {d d' : Dispatcher} {i : Input} (hs : d.step i = .ok d')
    (hi : ∀ id r millis, i ≠ .settled id r millis) :
    d'.elapsed = d.elapsed ∧ d'.tally = d.tally := by
  cases i with
  | settled id r millis => exact absurd rfl (hi id r millis)
  | watch e => rcases step_watch hs with ⟨-, rfl⟩ | ⟨-, e', -, rfl⟩ <;> exact ⟨rfl, rfl⟩
  | join now => rcases step_join hs with ⟨-, rfl⟩ | ⟨x, o, slots, -, rfl⟩ <;> exact ⟨rfl, rfl⟩
  | expire timer => rcases step_expire hs with rfl | ⟨-, t, -, rfl⟩ <;> exact ⟨rfl, rfl⟩
  | tick => rcases step_tick hs with rfl | ⟨-, rfl⟩ <;> exact ⟨rfl, rfl⟩
  | stop =>
    rw [step_stop hs]
    exact ⟨rfl, rfl⟩

theorem Dispatcher.counts_of_settled {d d' : Dispatcher} (r : CallRecord)
    (hs : d.step (.settled r.call.id r.result (r.ended - r.began)) = .ok d') :
    d'.elapsed = (if r.returned then [r.ended - r.began] else []) ++ d.elapsed ∧
    ∀ k, d'.tally.count k = d.tally.count k + if r.counts k then 1 else 0 := by
  cases hs
  cases hr : r.result with
  | ok => simp [record, CallRecord.returned, CallRecord.counts, hr]
  | panicked => simp [record, CallRecord.returned, CallRecord.counts, hr]
  | failed e => simp [record, CallRecord.returned, CallRecord.counts, hr, Tally.count_bump]

namespace Simulation

variable {σ : Type} {π : Type u} {env : Surroundings σ π} {s s' : Simulation σ π} {c : Settings}
  {ts : List Turn} {h : Chronicle}

/-- What the dispatcher has counted are the calls that have records, which are those that ended. -/
structure Booked (c : Settings) (s : Simulation σ π) (ts : List Turn) (h : Chronicle) : Prop
    extends Follows c s ts h where
  seats : ∀ p ∈ s.inProgress, p.call ∈ h.slots.running
  records : endings ts = (s.records.map fun r => (r.call, r.result)).reverse
  elapsed : s.dispatcher.elapsed =
    (s.records.filter CallRecord.returned).map fun r => r.ended - r.began
  tally : ∀ k, s.dispatcher.tally.count k = s.records.countP (CallRecord.counts k)

theorem Booked.holds (hb : Booked c s ts h) {x : Call} (hx : s.Holds x) : x ∈ h.slots.running := by
  rcases hx with hx | ⟨p, hp, rfl⟩
  · rw [Chronicle.slots, hb.dispatcher]
    exact hx
  · exact hb.seats p hp

theorem Booked.kept (hb : Booked c s ts h) {i : Input} {d : Dispatcher}
    (hs : s.dispatcher.step i = .ok d) {x : Call} (hx : x ∈ h.slots.running)
    (hi : ∀ r millis, i ≠ .settled x.id r millis) : x ∈ d.queue.slots.running := by
  have hrun := hb.run.turn s.now (hb.dispatcher ▸ hs)
  refine (hrun.seats (List.mem_append_right _ (List.mem_singleton_self _))).kept x hx fun hmem => ?_
  cases i with
  | watch _ | join _ | expire _ | tick | stop => cases hmem
  | settled id r millis =>
    have hid : x.id = id := by simpa using (List.mem_filter.mp hmem).2
    exact hi r millis (by rw [hid])

theorem endings_concat (t : Turn) : endings (ts ++ [t]) = endings ts ++ t.ended?.toList := by
  rw [endings, endings, List.filterMap_append]
  cases he : t.ended? <;> simp [he]

theorem upholds_booked : Upholds (fun _ => True) env fun s => ∃ ts h, Booked c s ts h where
  elapses := by
    rintro s s' ⟨ts, h, hb⟩ he
    exact ⟨ts, h, hb.toFollows.later he.dispatcher he.now, he.inProgress ▸ hb.seats,
      he.records ▸ hb.records, he.dispatcher ▸ he.records ▸ hb.elapsed,
      he.dispatcher ▸ he.records ▸ hb.tally⟩
  takes := by
    rintro s i ⟨ts, h, hb⟩ ho -
    cases hs : s.dispatcher.step i with
    | error e =>
      rw [input_error hs]
      trivial
    | ok d =>
      obtain ⟨turned, ahead, hinput⟩ := input_eq hs
      rw [hinput]
      have hi : ∀ id r millis, i ≠ .settled id r millis := by
        rintro id r millis rfl
        exact ho
      have hf : Follows c { s with dispatcher := d, turned, ahead }
          (ts ++ [⟨s.now, h, i, d⟩]) (h.extend i d) :=
        hb.toFollows.takes hs rfl (hb.timely ho d)
      obtain ⟨helapsed, htally⟩ := Dispatcher.counts_of_step hs hi
      refine ⟨_, _, hf, fun p hp => hb.kept hs (hb.seats p hp) fun r millis => hi _ r millis, ?_,
        helapsed.trans hb.elapsed, fun k => htally ▸ hb.tally k⟩
      have hnone : Turn.ended? ⟨s.now, h, i, d⟩ = none := by
        cases i with
        | settled id r millis => exact absurd rfl (hi id r millis)
        | watch _ | join _ | expire _ | tick | stop => rfl
      rw [endings_concat, hnone, hb.records]
      exact List.append_nil _
  blocks := by
    rintro s p ⟨ts, h, hb⟩ hx
    refine ⟨ts, h, hb.toFollows.later rfl (Nat.le_refl _), fun q hq => ?_, hb.records, hb.elapsed,
      hb.tally⟩
    rcases List.mem_append.mp hq with hq | hq
    · exact hb.seats q (List.mem_of_mem_filter hq)
    · exact List.mem_singleton.mp hq ▸ hb.holds hx
  ends := by
    rintro s r ⟨ts, h, hb⟩ hx hr
    let i : Input := .settled r.call.id r.result (r.ended - r.began)
    obtain ⟨d, hs⟩ : ∃ d, s.dispatcher.step i = .ok d := ⟨_, rfl⟩
    obtain ⟨turned, ahead, hinput⟩ := input_eq (s := s.ending r) hs
    rw [hinput]
    have hlater : Follows c (s.ending r) ts h := hb.toFollows.later rfl (Nat.le_refl _)
    have hf : Follows c { s.ending r with dispatcher := d, turned, ahead }
        (ts ++ [⟨s.now, h, i, d⟩]) (h.extend i d) := hlater.takes (i := i) hs rfl trivial
    have hended : Turn.ended? ⟨s.now, h, i, d⟩ = some (r.call, r.result) :=
      (Turn.ended?_eq_some hb.run.faithful).mpr ⟨_, rfl, hb.holds hx⟩
    obtain ⟨helapsed, htally⟩ := Dispatcher.counts_of_settled r hs
    refine ⟨_, _, hf, fun p hp => ?_, ?_, ?_, fun k => ?_⟩
    · obtain ⟨hp, hne⟩ := List.mem_filter.mp hp
      refine hb.kept hs (hb.seats p hp) fun r' millis hi => ?_
      have hid : r.call.id = p.call.id := (Input.settled.inj hi).1
      simp [hid] at hne
    · rw [endings_concat, hended, hb.records]
      simp [ending]
    · dsimp only [ending]
      rw [helapsed, hb.elapsed]
      cases hret : r.returned <;> simp [hret]
    · dsimp only [ending]
      rw [htally, hb.tally, List.countP_cons]

/-- In every run that was survived so far, whatever the results of calls, the dispatcher takes the
next input, unless a wait is too long; the game server of a call that was looked at is idle, waits
or runs, and waits only after a failure of an addition or an update that another attempt may mend.
What a simulation that was survived has counted are the calls that came back, and for every kind of
failure the calls that came back with it. -/
theorem failures_contained (c : Settings) :
    (∀ ts h, Run c ts h → Contained ts h) ∧
    ∀ {σ : Type} {π : Type u} (env : Surroundings σ π) world now cancelAt n s s',
      start world c now cancelAt = .ok s → run env n s = .ok s' →
      ∃ ts h, Follows c s' ts h ∧
        endings ts = (s'.records.map fun r => (r.call, r.result)).reverse ∧
        s'.dispatcher.metrics.durations.length = s'.records.countP CallRecord.returned ∧
        (∀ k, s'.dispatcher.metrics.tally.count k = s'.records.countP (CallRecord.counts k)) := by
  refine ⟨fun ts h hr => hr.contained, fun {σ π} env world now cancelAt n s s' hstart hrun => ?_⟩
  have hbooked : Booked c s [] { dispatcher := s.dispatcher } ∧ s.Distinct := by
    have hf := follows_start hstart
    obtain ⟨d, hnew, rfl⟩ := start_inv hstart
    have hd := Dispatcher.eq_of_new hnew
    exact ⟨⟨hf, fun p hp => absurd hp List.not_mem_nil, rfl, by rw [hd]; rfl,
      fun k => by rw [hd]; rfl⟩, List.nodup_nil⟩
  obtain ⟨⟨ts, h, hb⟩, -⟩ :=
    (upholds_booked.sat_run ⟨⟨_, _, hbooked.1⟩, hbooked.2⟩ n).of_ok hrun
  refine ⟨ts, h, hb.toFollows, hb.records, ?_, hb.tally⟩
  rw [Dispatcher.metrics, List.length_map, hb.elapsed, List.length_map,
    List.countP_eq_length_filter]

/-- A call fails, is counted, and is waited out. -/
theorem failure_counted : ∃ s s' : Simulation Script CallResult,
    start failsOnce Chronicle.oneSlot 0 none = .ok s ∧ run Script.surroundings 9 s = .ok s' ∧
    s'.dispatcher.metrics.durations.length = 1 ∧
    s'.dispatcher.metrics.tally.count (.errors "gameserver" "kube") = 1 ∧
    ∃ ts h, Follows Chronicle.oneSlot s' ts h ∧ Contained ts h := by
  obtain ⟨s, s', hstart, hrun, hreturned, hcounts⟩ : ∃ s s' : Simulation Script CallResult,
      start failsOnce Chronicle.oneSlot 0 none = .ok s ∧ run Script.surroundings 9 s = .ok s' ∧
      s'.records.countP CallRecord.returned = 1 ∧
      s'.records.countP (CallRecord.counts (.errors "gameserver" "kube")) = 1 :=
    ⟨_, _, rfl, rfl, rfl, rfl⟩
  obtain ⟨ts, h, hf, -, hdurations, htally⟩ :=
    (failures_contained Chronicle.oneSlot).2 Script.surroundings failsOnce 0 none 9 s s' hstart hrun
  exact ⟨s, s', hstart, hrun, hdurations.trans hreturned, (htally _).trans hcounts, ts, h, hf,
    (failures_contained.{0} Chronicle.oneSlot).1 ts h hf.run⟩

/-- The configuration is valid, but the dispatcher does not take the next input after the
failure. -/
theorem loop_ends_after_failure : ∃ (c : Config) (s s' : Simulation Script CallResult),
    c = { requeueBaseDelay := .ofMillis 68719476736, requeueMaxDelay := .ofMillis 68719476736 } ∧
    c.validate = .ok c ∧ start failsOnce (Controller.dispatchSettings c) 0 none = .ok s ∧
    run Script.surroundings 8 s = .ok s' ∧
    s'.records.map (·.result) = [.failed Chronicle.internalError] ∧
    step Script.surroundings s' = .error .timerTooFar :=
  ⟨_, _, _, rfl, rfl, rfl, rfl, rfl, rfl⟩

end Simulation
end Dispatch
end GameIngress
