import GameIngress.Dispatch.Script
import GameIngress.Proofs.Dispatch.Deletion
import GameIngress.Proofs.Dispatch.Simulation
import GameIngress.Proofs.Dispatch.Spared
import GameIngress.Proofs.Dispatch.Upheld

/-!
# Slots are given away in order

There are never more calls with a slot than slots, a free slot is taken by the call that waits
longest, and a call gives its slot back once, when it ends, however it ends. In a simulation the
calls in progress are those with a slot.
-/
namespace GameIngress.Dispatch

open Watch (Key)

universe u

namespace Queue

theorem Step.size {q q' : Queue} (hs : q.Step q') : q'.slots.size = q.slots.size := by
  cases hs with
  | settle id r => rfl
  | enqueue d =>
    rcases enqueue_cases q d with ⟨hslots, -⟩ | ⟨-, -, hslots, -⟩ <;> rw [hslots]
    rfl
  | resync cached =>
    unfold Queue.resync
    induction cached generalizing q with
    | nil => rfl
    | cons s rest ih =>
      rw [List.foldl_cons, ih]
      cases q.standing? s.key <;> rfl
  | @finish c r slots hj now cache =>
    have hsize : slots.size = q.slots.size := (Slots.seats_of_join hj).2.2
    rcases { q with slots }.finish_eq now cache c r with hq | ⟨_, hq⟩ | hq | ⟨-, hq⟩ <;>
      rw [hq] <;> exact hsize
  | @expire t _ cache _ =>
    unfold Queue.expire
    cases cache.get? t.key <;> rfl

end Queue

namespace Turn

variable {t : Turn}

def seated (t : Turn) : List Call :=
  t.after.queue.slots.running.filter fun x => t.before.slots.running.all (·.id ≠ x.id)

def vacated (t : Turn) : List Call :=
  match t.input with
  | .settled id _ _ => t.before.slots.running.filter (·.id = id)
  | .watch _ | .join _ | .expire _ | .tick | .stop => []

theorem seated_eq {kept seated : List Call} (h : t.after.queue.slots.running = kept ++ seated)
    (hkept : ∀ x ∈ kept, x ∈ t.before.slots.running)
    (hnew : ∀ x ∈ seated, ∀ y ∈ t.before.slots.running, y.id ≠ x.id) : t.seated = seated := by
  have hold : kept.filter (fun x => t.before.slots.running.all (·.id ≠ x.id)) = [] := by
    rw [List.filter_eq_nil_iff]
    intro x hx hall
    have hne := List.all_eq_true.mp hall x (hkept x hx)
    simp at hne
  have hall : seated.filter (fun x => t.before.slots.running.all (·.id ≠ x.id)) = seated := by
    rw [List.filter_eq_self]
    intro x hx
    exact List.all_eq_true.mpr fun y hy => decide_eq_true (hnew x hx y hy)
  rw [Turn.seated, h, List.filter_append, hold, hall, List.nil_append]

/-- What a turn does to the calls with a slot and to those that wait for one. -/
structure Seats (t : Turn) : Prop where
  size : t.after.queue.slots.size = t.before.slots.size
  kept : ∀ x ∈ t.before.slots.running, x ∉ t.vacated → x ∈ t.after.queue.slots.running
  running : (↑t.before.slots.running : Multiset Call) + ↑t.seated =
    ↑t.after.queue.slots.running + ↑t.vacated
  waiting : t.before.slots.waiting ++ t.queued = t.seated ++ t.after.queue.slots.waiting

theorem seats_of_appends {mid : Slots} {new : List Call}
    (hrunning : mid.running = t.before.slots.running)
    (hwaiting : mid.waiting = t.before.slots.waiting) (hsize : mid.size = t.before.slots.size)
    (hqueued : mid.queued = t.before.slots.queued) (hn : mid.Numbered) (hp : mid.Packed)
    (ha : Slots.Appends new mid t.after.queue.slots) (hp' : t.after.queue.slots.Packed)
    (hsize' : t.after.queue.slots.size = t.before.slots.size)
    (hd : (t.after.queue.slots.unfinished.map (·.id)).Nodup) (hv : t.vacated = []) : t.Seats := by
  obtain ⟨seated, hrun, hwait⟩ := hp.seats_of_appends ha hp' (hsize'.trans hsize.symm)
  rw [hrunning] at hrun
  have hnew : t.queued = new := by
    rw [Turn.queued, ← hqueued]
    exact ha.queuedSince hn
  have hseated : t.seated = seated := by
    refine seated_eq hrun (fun x hx => hx) fun x hx y hy hid => ?_
    rw [Slots.unfinished, hrun, List.map_append, List.map_append] at hd
    have hdisjoint := (List.nodup_append'.mp (List.nodup_append'.mp hd).1).2.2
    exact hdisjoint (List.mem_map_of_mem hy) (hid ▸ List.mem_map_of_mem hx)
  refine ⟨hsize', fun x hx _ => ?_, ?_, ?_⟩
  · rw [hrun]
    exact List.mem_append_left _ hx
  · rw [hseated, hrun, hv, Multiset.coe_add]
    exact (Multiset.add_zero _).symm
  · rw [hseated, hnew, ← hwaiting, hwait]

theorem seats_of_settled {h : Chronicle} (hf : h.Faithful) {d : Dispatcher} {time id millis : Nat}
    {r : CallResult} (hs : h.dispatcher.step (.settled id r millis) = .ok d) :
    Seats ⟨time, h, .settled id r millis, d⟩ := by
  have hslots : d.queue.slots = h.slots.settle id r := by
    rw [(Dispatcher.step_settled hs).1]
    rfl
  obtain ⟨seated, hrun, hwait⟩ := h.slots.seats_of_settle id r
  have hseated : Turn.seated ⟨time, h, .settled id r millis, d⟩ = seated := by
    refine seated_eq (by rw [hslots]; exact hrun) (fun x hx => List.mem_of_mem_filter hx)
      fun x hx y hy hid => ?_
    have hold := hf.nodup_unfinished
    rw [Slots.unfinished, List.map_append] at hold
    have hx' : x ∈ h.slots.waiting := hwait ▸ List.mem_append_left _ hx
    exact (List.nodup_append'.mp hold).2.2 (List.mem_map_of_mem hy) (hid ▸ List.mem_map_of_mem hx')
  have hqueued : Turn.queued ⟨time, h, .settled id r millis, d⟩ = [] := by
    rw [Turn.queued, hslots]
    exact (hf.coherent.numbered.settle id r).queuedSince_eq_nil
  have hvacated : Turn.vacated ⟨time, h, .settled id r millis, d⟩ =
      h.slots.running.filter (·.id = id) := rfl
  refine ⟨by rw [hslots]; rfl, fun x hx hstays => ?_, ?_, ?_⟩
  · dsimp only
    rw [hslots, hrun]
    refine List.mem_append_left _ (List.mem_filter.mpr ⟨hx, ?_⟩)
    rw [hvacated, List.mem_filter, not_and] at hstays
    simpa using hstays hx
  · dsimp only
    rw [hseated, hvacated, hslots, hrun, ← Multiset.coe_add, ← h.slots.running_split id,
      Multiset.add_assoc]
    exact Multiset.add_comm _ _
  · dsimp only
    rw [hqueued, List.append_nil, hseated, hslots, hwait]

theorem seats (hf : t.before.Faithful) (hs : t.before.dispatcher.step t.input = .ok t.after)
    (hp : t.before.slots.Packed) (hp' : t.after.queue.slots.Packed) : t.Seats := by
  have hf' : t.reached.Faithful := hf.step ⟨_, _, hs, rfl⟩
  have hd : (t.after.queue.slots.unfinished.map (·.id)).Nodup := hf'.nodup_unfinished
  have hsize : t.after.queue.slots.size = t.before.slots.size := by
    rcases Dispatcher.step_queue hf.keyed hs with hq | hq
    · rw [hq]
      rfl
    · exact hq.size
  obtain ⟨time, h, i, d⟩ := t
  have hchange := Dispatcher.step_slots hf.coherent hf.keyed hs
  dsimp only at hchange hs hf hp hp' hd hsize
  cases i with
  | settled id r millis => exact seats_of_settled hf hs
  | join now =>
    cases hchange with
    | queued ha =>
      exact seats_of_appends rfl rfl rfl rfl hf.coherent.numbered hp ha hp' hsize hd rfl
    | joined hj ha =>
      obtain ⟨hrun, hwait, hsame⟩ := Slots.seats_of_join hj
      exact seats_of_appends hrun hwait hsame (Slots.queued_of_join hj)
        (hf.coherent.numbered.join hj) (hp.join hj) ha hp' hsize hd rfl
  | watch _ | expire _ | tick | stop =>
    cases hchange with
    | queued ha =>
      exact seats_of_appends rfl rfl rfl rfl hf.coherent.numbered hp ha hp' hsize hd rfl

end Turn

/-- The slots are used as they should be: there are no more calls with a slot than slots, the calls
get their slots in the order in which they were queued, no call waits while a slot is free, and the
calls that have a slot are those that got one and did not give it back. No call is queued twice. -/
structure Served (size : Nat) (ts : List Turn) (h : Chronicle) : Prop where
  bounded : h.slots.running.length ≤ size
  ordered : ts.flatMap Turn.queued = ts.flatMap Turn.seated ++ h.slots.waiting
  busy : h.slots.running.length < size → h.slots.waiting = []
  handedBack : (↑(ts.flatMap Turn.seated) : Multiset Call) =
    ↑h.slots.running + ↑(ts.flatMap Turn.vacated)
  distinct : ((ts.flatMap Turn.queued).map (·.id)).Nodup

theorem Chronicle.Reached.size {c : Settings} {h : Chronicle} (hr : Reached c h) :
    h.slots.size = max c.concurrency 1 := by
  obtain ⟨d, hnew, hl⟩ := hr
  induction hl with
  | refl =>
    rw [Dispatcher.eq_of_new hnew]
    rfl
  | step hl hn ih =>
    have hf := Reached.faithful ⟨d, hnew, hl⟩
    obtain ⟨i, d', hs, rfl⟩ := hn
    rw [← ih]
    rcases Dispatcher.step_queue hf.keyed hs with hq | hq
    · exact congrArg (·.slots.size) hq
    · exact hq.size

namespace Run

variable {c : Settings} {ts : List Turn} {t : Turn} {h : Chronicle}

theorem seats (hr : Run c ts h) (ht : t ∈ ts) : t.Seats := by
  obtain ⟨us, vs, rfl⟩ := List.append_of_mem ht
  obtain ⟨hbefore, hs⟩ := hr.split
  exact Turn.seats hbefore.faithful hs hbefore.reached.packed
    (hbefore.reached.step ⟨_, _, hs, rfl⟩).packed

theorem served (hr : Run c ts h) : Served (max c.concurrency 1) ts h := by
  have hp := hr.reached.packed
  have hsize := hr.reached.size
  have hlists : ts.flatMap Turn.queued = ts.flatMap Turn.seated ++ h.slots.waiting ∧
      (↑(ts.flatMap Turn.seated) : Multiset Call) =
        ↑h.slots.running + ↑(ts.flatMap Turn.vacated) := by
    clear hp hsize
    induction ts using List.reverseRecOn generalizing h with
    | nil =>
      rw [hr.nil_inv]
      exact ⟨rfl, rfl⟩
    | append_singleton ts t ih =>
      have hseats := hr.seats (List.mem_append_right _ (List.mem_singleton_self t))
      obtain ⟨hbefore, -, rfl⟩ := hr.concat_inv
      obtain ⟨hordered, hback⟩ := ih hbefore
      simp only [List.flatMap_append, List.flatMap_singleton]
      constructor
      · rw [hordered, List.append_assoc, hseats.waiting, ← List.append_assoc]
        rfl
      · rw [← Multiset.coe_add, hback, ← Multiset.coe_add, Multiset.add_assoc,
          Multiset.add_comm _ (↑t.seated : Multiset Call), ← Multiset.add_assoc, hseats.running,
          Multiset.add_assoc, Multiset.add_comm (↑t.vacated : Multiset Call)]
        rfl
  refine ⟨hsize ▸ hp.fits, hlists.1, fun hfree => ?_, hlists.2, ?_⟩
  · exact hp.full.resolve_right fun hfull => by omega
  · rw [hr.queued_eq, List.map_map]
    exact hr.faithful.ids ▸ List.nodup_range

end Run

namespace Simulation

variable {σ : Type} {π : Type u} {env : Surroundings σ π} {s s' : Simulation σ π}

/-- The calls in progress are different ones with a slot, and there were never more than slots. -/
structure Manned (size : Nat) (s : Simulation σ π) : Prop where
  seats : ∀ p ∈ s.inProgress, p.call ∈ s.dispatcher.queue.slots.running
  distinct : (s.inProgress.map (·.call.id)).Nodup
  busiest : s.busiest ≤ size

namespace Manned

variable {c : Settings} {ts : List Turn} {h : Chronicle} {size : Nat}

theorem holds (hm : Manned size s) {x : Call} (hx : s.Holds x) :
    x ∈ s.dispatcher.queue.slots.running := by
  rcases hx with hx | ⟨p, hp, rfl⟩
  · exact hx
  · exact hm.seats p hp

theorem length_le_of_seats (calls : List Call) {running : List Call}
    (hfits : running.length ≤ size) (hsub : ∀ x ∈ calls, x ∈ running)
    (hd : (calls.map (·.id)).Nodup) : calls.length ≤ size :=
  (List.subperm_of_subset (hd.of_map _) hsub).length_le.trans hfits

theorem length_le (hm : Manned size s)
    (hfits : s.dispatcher.queue.slots.running.length ≤ size) : s.inProgress.length ≤ size := by
  have hle := length_le_of_seats (s.inProgress.map (·.call)) hfits
    (fun x hx => ?_) (by rw [List.map_map]; exact hm.distinct)
  · rwa [List.length_map] at hle
  · obtain ⟨p, hp, rfl⟩ := List.mem_map.mp hx
    exact hm.seats p hp

theorem seats_others (hm : Manned size s) (id : Nat) :
    ∀ p ∈ s.others id, p.call ∈ s.dispatcher.queue.slots.running :=
  fun p hp => hm.seats p (List.mem_of_mem_filter hp)

theorem distinct_others (hm : Manned size s) (id : Nat) :
    (id :: (s.others id).map (·.call.id)).Nodup := Distinct.others hm.distinct id

/-- A call that begins or goes on is one more than the others in progress, and has a slot as they
do. -/
theorem length_others_lt (hm : Manned size s)
    (hfits : s.dispatcher.queue.slots.running.length ≤ size) {x : Call} (hx : s.Holds x) :
    (s.others x.id).length + 1 ≤ size := by
  have hle := length_le_of_seats (x :: (s.others x.id).map (·.call)) hfits
    (fun y hy => ?_) (by rw [List.map_cons, List.map_map]; exact hm.distinct_others x.id)
  · rwa [List.length_cons, List.length_map] at hle
  · rcases List.mem_cons.mp hy with rfl | hy
    · exact hm.holds hx
    · obtain ⟨p, hp, rfl⟩ := List.mem_map.mp hy
      exact hm.seats_others x.id p hp

theorem same (hm : Manned size s) (hd : s'.dispatcher = s.dispatcher)
    (hcalls : s'.inProgress = s.inProgress) (hbusiest : s'.busiest = s.busiest) :
    Manned size s' :=
  ⟨by rw [hd, hcalls]; exact hm.seats, hcalls ▸ hm.distinct, hbusiest ▸ hm.busiest⟩

theorem move (hm : Manned size s) (hf : Follows c s ts h) (hsize : size = max c.concurrency 1)
    (hmove : Move s s') : Manned size s' := by
  have hfits : s.dispatcher.queue.slots.running.length ≤ size := by
    rw [hsize, ← hf.dispatcher]
    exact hf.run.served.bounded
  have hseats : ∀ {i}, s.dispatcher.step i = .ok s'.dispatcher →
      Turn.Seats ⟨s.now, h, i, s'.dispatcher⟩ := by
    intro i hs
    have hrun := hf.run.turn s.now (hf.dispatcher ▸ hs)
    exact hrun.seats (List.mem_append_right _ (List.mem_singleton_self _))
  have hkept : ∀ {x : Call} {result millis}, s.dispatcher.step (.settled x.id result millis) =
      .ok s'.dispatcher → ∀ p ∈ s.others x.id, p.call ∈ s'.dispatcher.queue.slots.running := by
    intro x result millis hs p hp
    refine (hseats hs).kept p.call ?_ fun hvacated => ?_
    · change p.call ∈ h.dispatcher.queue.slots.running
      rw [hf.dispatcher]
      exact hm.seats_others x.id p hp
    · have hid := (List.mem_filter.mp hvacated).2
      have hne := (List.mem_filter.mp hp).2
      simp only [decide_eq_true_eq, ne_eq, decide_not, Bool.not_eq_true',
        decide_eq_false_iff_not] at hid hne
      exact hne hid
  cases hmove with
  | rests hd _ hcalls hbusiest => exact hm.same hd hcalls hbusiest
  | @takes i hs hi _ hcalls hbusiest =>
    refine ⟨fun p hp => ?_, hcalls ▸ hm.distinct, hbusiest ▸ hm.busiest⟩
    have hnone : Turn.vacated ⟨s.now, h, i, s'.dispatcher⟩ = [] := by
      cases i with
      | settled _ _ _ => exact hi.elim
      | watch _ | join _ | expire _ | tick | stop => rfl
    refine (hseats hs).kept p.call ?_ (hnone ▸ List.not_mem_nil)
    change p.call ∈ h.dispatcher.queue.slots.running
    rw [hf.dispatcher]
    exact hm.seats p (hcalls ▸ hp)
  | @blocks q hq hd _ hcalls hbusiest =>
    refine ⟨fun p hp => ?_, ?_, ?_⟩
    · rw [hd]
      rcases List.mem_append.mp (hcalls ▸ hp) with hp | hp
      · exact hm.seats_others _ p hp
      · exact List.mem_singleton.mp hp ▸ hm.holds hq
    · rw [hcalls, List.map_append]
      exact (List.perm_append_singleton _ _).nodup_iff.mpr (hm.distinct_others q.call.id)
    · rw [hbusiest]
      exact Nat.max_le.mpr ⟨hm.busiest, hm.length_others_lt hfits hq⟩
  | @ends x result millis hx hs _ hcalls hbusiest =>
    refine ⟨fun p hp => hkept hs p (hcalls ▸ hp), ?_, ?_⟩
    · rw [hcalls]
      exact (List.nodup_cons.mp (hm.distinct_others x.id)).2
    · rw [hbusiest]
      exact Nat.max_le.mpr ⟨hm.busiest, hm.length_others_lt hfits hx⟩
  | @interrupted x result millis hs _ hcalls hbusiest =>
    refine ⟨fun p hp => hkept hs p (hcalls ▸ hp), ?_, hbusiest ▸ hm.busiest⟩
    rw [hcalls]
    exact (List.nodup_cons.mp (hm.distinct_others x.id)).2

theorem goes (hm : Manned size s) (hf : Follows c s ts h) (hsize : size = max c.concurrency 1)
    (hg : Goes s s') : Manned size s' := by
  induction hg with
  | refl => exact hm
  | tail hbefore hone ih =>
    obtain ⟨us, h', hf'⟩ := hf.goes hbefore
    rcases hone with hmove | hw
    · exact ih.move hf' hsize hmove
    · exact ih.same hw.dispatcher hw.calls hw.busiest

end Manned

/-- Where every call with a slot has begun, those in progress are the calls with a slot. -/
theorem Manned.perm {size : Nat} (hm : Manned size s)
    (hd : (s.dispatcher.queue.slots.running.map (·.id)).Nodup) (hr : s.ready? = none) :
    (s.inProgress.map (·.call)).Perm s.dispatcher.queue.slots.running := by
  have hdistinct : (s.inProgress.map (·.call)).Nodup := by
    have hids := hm.distinct
    rw [show (fun p : InProgress π => p.call.id) = Call.id ∘ fun p => p.call from rfl,
      ← List.map_map] at hids
    exact hids.of_map _
  refine (List.perm_ext_iff_of_nodup hdistinct (hd.of_map _)).mpr fun x =>
    ⟨fun hx => ?_, fun hx => ?_⟩
  · obtain ⟨p, hp, rfl⟩ := List.mem_map.mp hx
    exact hm.seats p hp
  · unfold ready? at hr
    have hbegun := List.find?_eq_none.mp hr x hx
    simp only [ne_eq, decide_not, List.all_eq_true, Bool.not_eq_true', decide_eq_false_iff_not,
      not_forall, not_not] at hbegun
    obtain ⟨p, hp, hid⟩ := hbegun
    have heq : p.call = x := List.inj_on_of_nodup_map hd (hm.seats p hp) hx hid
    exact List.mem_map.mpr ⟨p, hp, heq⟩

/-- In every run that was survived so far, the slots are used as they should be. In a simulation
that was, whatever the events, the calls and the cancellation do, the calls in progress have slots,
and whenever time passes they are all that have slots, so that none waits while fewer are in
progress than there are slots. -/
theorem slots_used_in_order (c : Settings) :
    (∀ ts h, Run c ts h → Served (max c.concurrency 1) ts h) ∧
    ∀ {σ : Type} {π : Type u} (env : Surroundings σ π) world now cancelAt n s s',
      start world c now cancelAt = .ok s → run env n s = .ok s' →
      (∃ ts h, Follows c s' ts h) ∧ Manned (max c.concurrency 1) s' ∧
      s'.inProgress.length ≤ max c.concurrency 1 ∧
      (s'.ready? = none →
        (s'.inProgress.map (·.call)).Perm s'.dispatcher.queue.slots.running ∧
        (s'.inProgress.length < max c.concurrency 1 → s'.dispatcher.queue.slots.waiting = [])) ∧
      ∀ s'', step env s' = .ok (some s'') → s'.now < s''.now → s'.ready? = none := by
  refine ⟨fun ts h hr => hr.served, fun {σ π} env world now cancelAt n s s' hstart hrun => ?_⟩
  obtain ⟨ts, h, hf, -⟩ := follows_of_run hstart hrun
  have hempty : Manned (max c.concurrency 1) s := by
    obtain ⟨d, -, rfl⟩ := start_inv hstart
    exact ⟨fun p hp => absurd hp List.not_mem_nil, List.nodup_nil, Nat.zero_le _⟩
  have hm := hempty.goes (follows_start hstart) rfl (goes_run hrun)
  have hserved := hf.run.served
  have hslots : h.slots = s'.dispatcher.queue.slots := by rw [Chronicle.slots, hf.dispatcher]
  rw [← hslots]
  have hfits : s'.dispatcher.queue.slots.running.length ≤ max c.concurrency 1 :=
    hslots ▸ hserved.bounded
  refine ⟨⟨ts, h, hf⟩, hm, hm.length_le hfits, fun hready => ?_, fun s'' => ready_of_lt⟩
  have hdistinct := hf.run.faithful.nodup_unfinished
  rw [Slots.unfinished, List.map_append] at hdistinct
  have hperm := hm.perm (hslots ▸ (List.nodup_append'.mp hdistinct).1) hready
  refine ⟨hslots ▸ hperm, fun hfew => hserved.busy ?_⟩
  rw [hslots, ← hperm.length_eq, List.length_map]
  exact hfew

/-- Two game servers are shown at once, and every call takes 5 ms. -/
def twoAtOnce : Script where
  events := [⟨0, some (.apply Queue.lone.gs)⟩,
    ⟨0, some (.apply { metadata := { ns := some "d", name := some "b" } })⟩]
  otherwise := { delay := 5 }

/-- With one slot, the second call waits while time passes, and the first is in progress. -/
theorem second_waits_for_slot : ∃ s s' s'' : Simulation Script CallResult,
    start twoAtOnce Chronicle.oneSlot 0 none = .ok s ∧
    run Script.surroundings 5 s = .ok s' ∧ step Script.surroundings s' = .ok (some s'') ∧
    s'.now < s''.now ∧ s'.dispatcher.queue.slots.waiting.length = 1 ∧
    (s'.inProgress.map (·.call)).Perm s'.dispatcher.queue.slots.running ∧
    s'.inProgress.length = 1 ∧ ∃ ts h, Follows Chronicle.oneSlot s' ts h ∧ Served 1 ts h := by
  obtain ⟨s, s', s'', hstart, hrun, hstep, hnow, hwaiting⟩ :
      ∃ s s' s'' : Simulation Script CallResult,
        start twoAtOnce Chronicle.oneSlot 0 none = .ok s ∧
        run Script.surroundings 5 s = .ok s' ∧ step Script.surroundings s' = .ok (some s'') ∧
        s'.now < s''.now ∧ s'.dispatcher.queue.slots.waiting.length = 1 :=
    ⟨_, _, _, rfl, rfl, rfl, by decide, rfl⟩
  obtain ⟨⟨ts, h, hf⟩, -, hlength, hbegun, htime⟩ :=
    (slots_used_in_order Chronicle.oneSlot).2 Script.surroundings twoAtOnce 0 none 5 s s' hstart
      hrun
  obtain ⟨hperm, hidle⟩ := hbegun (htime s'' hstep hnow)
  have hserved := (slots_used_in_order.{0} Chronicle.oneSlot).1 ts h hf.run
  refine ⟨s, s', s'', hstart, hrun, hstep, hnow, hwaiting, hperm, ?_, ts, h, hf, hserved⟩
  refine Nat.le_antisymm hlength (Nat.le_of_not_lt fun hfew => ?_)
  rw [hidle hfew] at hwaiting
  cases hwaiting

end Simulation
end GameIngress.Dispatch
