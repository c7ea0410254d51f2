import GameIngress.Controller
import GameIngress.Dispatch.Script
import GameIngress.Duration.Reader
import GameIngress.Proofs.Backoff
import GameIngress.Proofs.Dispatch.Delay
import GameIngress.Proofs.Dispatch.Survival
import Mathlib.Algebra.Order.Group.Nat
import Mathlib.Data.List.Find
import Mathlib.Order.Lattice.Nat

/-!
# What a dispatcher breaks down over

Slots cannot be too many, and neither the first tick nor the end of a wait too far ahead. A
dispatcher whose settings are within these limits survives every input about game servers with
names. One whose longest wait is beyond its limit breaks down over a game server for which every
call fails.
-/
namespace GameIngress.Dispatch

universe u

def RetryDelays.longest (r : RetryDelays) : Duration := backoffDelay 16 r.base r.cap

theorem RetryDelays.le_longest (r : RetryDelays) (n : Nat) :
    backoffDelay n r.base r.cap ≤ r.longest :=
  backoffDelay_le_of_min_le (Nat.min_le_right n 16) r.base r.cap

theorem timerMillis_mono {a b : Duration} (h : a ≤ b) : a.timerMillis ≤ b.timerMillis :=
  Nat.div_le_div_right (Nat.add_le_add_right h _)

/-- The settings ask for no more than there can be, when the clock shows `now` at the start. -/
structure Settings.WithinLimits (now : Nat) (c : Settings) : Prop where
  slots : max c.concurrency 1 ≤ Dispatcher.maxSlots
  clock : now * 1000000 + c.period.nanos < Simulation.clockLimit
  timers : c.delays.longest.timerMillis ≤ Dispatcher.timerLimit

theorem Dispatcher.new_iff {c : Settings} : (∃ d, new c = .ok d) ↔
    max c.concurrency 1 ≤ maxSlots ∧ c.period.nanos ≠ 0 := by
  unfold new
  simp only
  split
  · next h => simp [Nat.not_le.mpr h]
  split
  · next h => simp [h]
  · next hslots hperiod => exact ⟨fun _ => ⟨Nat.le_of_not_lt hslots, hperiod⟩, fun _ => ⟨_, rfl⟩⟩

theorem Chronicle.Reached.not_overshoots {c : Settings} {h : Chronicle} (hr : Reached c h)
    (hc : c.delays.longest.timerMillis ≤ Dispatcher.timerLimit) (i : Input) :
    ¬ h.dispatcher.Overshoots i := by
  rintro ⟨x, o, -, -, hfar⟩
  rw [Dispatcher.waitFor, hr.delays] at hfar
  have hle := timerMillis_mono
    (c.delays.le_longest (h.dispatcher.queue.failureCount x.delivery.key))
  exact absurd (hfar.trans_le hle) (Nat.not_lt.mpr hc)

namespace Simulation

variable {σ : Type} {π : Type u} {env : Surroundings σ π} {s s' : Simulation σ π} {c : Settings}

theorem start_iff (world : σ) (now : Nat) (cancelAt : Option Nat) :
    (∃ s : Simulation σ π, start world c now cancelAt = .ok s) ↔
      max c.concurrency 1 ≤ Dispatcher.maxSlots ∧ c.period.nanos ≠ 0 ∧
        now * 1000000 + c.period.nanos < clockLimit := by
  rw [← and_assoc, ← Dispatcher.new_iff]
  unfold start
  cases hnew : Dispatcher.new c with
  | error e => simp
  | ok d =>
    dsimp only
    split
    · next h => simp [Nat.not_lt.mpr h]
    · next h => exact ⟨fun _ => ⟨⟨d, rfl⟩, Nat.lt_of_not_le h⟩, fun _ => ⟨_, rfl⟩⟩

/-- Within limits, nothing that is about game servers with names breaks a dispatcher down. -/
theorem not_breaksDown (hc : c.delays.longest.timerMillis ≤ Dispatcher.timerLimit)
    (hn : ∀ i, Shows env i → i.Named) (e : Crash) : ¬ BreaksDown c env e := by
  rintro ⟨h, i, hr, hshows, hb⟩
  cases hb with
  | unnamed _ hi => exact hi (hn i hshows)
  | timerTooFar hfar => exact hr.not_overshoots hc i hfar

/-- A game server is shown again after each of its calls, and all of them fail. -/
def relentless : Surroundings Bool π where
  poll _ shown := (if shown then .nothing else .event (.apply Queue.lone.gs), true)
  due? _ := none
  advance _ shown := shown
  begin _ _ _ := (.ended (.failed Chronicle.internalError), false)
  resume _ _ _ := (.ended (.failed Chronicle.internalError), false)
  interrupt? _ := none

end Simulation

/-- After `n` failures of the lone game server, these are its calls, and they are to be waited
out. -/
structure Dispatcher.Stage (n : Nat) (calls : List Call) (looks : List (Call × Outcome))
    (d : Dispatcher) : Prop where
  going : d.stopped = false
  room : 0 < d.queue.slots.size
  running : d.queue.slots.running = calls
  waiting : d.queue.slots.waiting = []
  ended : d.queue.slots.ended = looks
  count : d.queue.failureCount Queue.lone.key = n
  timers : ∀ t ∈ d.queue.timers, t.key = Queue.lone.key
  waitsOut : ∀ x ∈ calls ++ looks.map (·.1), x.delivery.key = Queue.lone.key ∧
    d.WaitsOut x (.retry Chronicle.internalError)

namespace Dispatcher.Stage

variable {n : Nat} {d : Dispatcher} {x : Call}

theorem appears (h : Stage n [] [] d) (hc : d.queue.Coherent) :
    ∃ d' x, d.step (.watch (.apply Queue.lone.gs)) = .ok d' ∧ Stage n [x] [] d' := by
  let s : Sighting := { Queue.lone with serial := d.consumed }
  have hstep : d.step (.watch (.apply Queue.lone.gs)) = .ok (d.observe (.apply s)) := by
    simp only [Dispatcher.step, h.going, Bool.false_eq_true, ↓reduceIte]
    rfl
  obtain ⟨delivery, hd, hkey, hdelete⟩ : ∃ delivery, Delivery.ofEvent? d.cache (.apply s) =
      some delivery ∧ delivery.key = Queue.lone.key ∧ delivery.isDelete = false := by
    simp only [Delivery.ofEvent?]
    cases d.cache.get? s.key with
    | none => exact ⟨_, rfl, rfl, rfl⟩
    | some old => exact ⟨_, rfl, rfl, rfl⟩
  have hqueue : (d.observe (.apply s)).queue = d.queue.enqueue delivery := by
    simp only [observe, hd]
  have hcached : ((d.observe (.apply s)).cache.get? Queue.lone.key).isSome := by
    simp [observe, Watch.Cache.observe, Watch.Cache.get?, Assoc.get?_set, s]
  obtain ⟨hslots, hpending⟩ := (d.queue.enqueue_cases delivery).resolve_right fun hheld => by
    obtain ⟨-, ⟨pending, hrunning⟩, -⟩ := hheld
    obtain ⟨x, hx⟩ := (hc.running hrunning).1
    have hnone : d.queue.slots.outstanding = 0 := by
      simp [Slots.outstanding, Slots.unfinished, h.running, h.waiting, h.ended]
    simp [Queue.profile, hnone] at hx
  obtain ⟨htimers, -, hfailures⟩ := d.queue.enqueue_books delivery
  rw [hdelete, if_neg Bool.false_ne_true] at hfailures
  let x : Call := ⟨d.queue.slots.queued, .watch, delivery⟩
  have hroom : 1 ≤ d.queue.slots.size := h.room
  refine ⟨_, x, hstep, h.going, ?_, ?_, ?_, ?_, ?_, ?_, ?_⟩
  · rw [hqueue, hslots]
    exact h.room
  · rw [hqueue, hslots]
    simp [Slots.enqueue, Slots.fill, h.running, h.waiting, List.take_of_length_le, hroom, x]
  · rw [hqueue, hslots]
    simp [Slots.enqueue, Slots.fill, h.running, h.waiting, hroom]
  · rw [hqueue, hslots]
    exact h.ended
  · rw [hqueue, Queue.failureCount, hfailures]
    exact h.count
  · intro t ht
    exact h.timers t (htimers t (hqueue ▸ ht))
  · intro y hy
    obtain rfl : y = x := by simpa using hy
    refine ⟨hkey, ⟨_, rfl⟩, hdelete, ?_, ?_⟩
    · rw [hqueue, hpending, if_pos rfl]
    · exact hkey.symm ▸ hcached

theorem fails (h : Stage n [x] [] d) (millis : Nat) :
    ∃ d', d.step (.settled x.id (.failed Chronicle.internalError) millis) = .ok d' ∧
      Stage n [] [(x, .retry Chronicle.internalError)] d' := by
  obtain ⟨hkey, hw⟩ := h.waitsOut x (by simp)
  have houtcome : Outcome.of x.delivery (.failed Chronicle.internalError) =
      .retry Chronicle.internalError := by
    rw [Outcome.of, hw.2.1]
    rfl
  refine ⟨_, rfl, h.going, h.room, ?_, ?_, ?_, h.count, h.timers, ?_⟩
  · simp [record, Slots.settle, Slots.fill, h.running, h.waiting]
  · simp [record, Slots.settle, Slots.fill, h.running, h.waiting]
  · simp [record, Slots.settle, Slots.fill, h.running, h.ended, houtcome]
  · intro y hy
    obtain rfl : y = x := by simpa using hy
    exact ⟨hkey, hw⟩

theorem untimed (h : Stage n [x] [] d) (hc : d.queue.Coherent) : d.queue.timers = [] := by
  obtain ⟨hkey, hw⟩ := h.waitsOut x (by simp)
  have hx : x ∈ d.queue.slots.outstanding := by
    simp [Slots.outstanding, Slots.unfinished, h.running]
  obtain ⟨-, pending, hrunning⟩ := hc.running_of_outstanding hx hw.2.1
  have hnone := (hc.running hrunning).2.1
  rw [hkey] at hnone
  refine List.eq_nil_iff_forall_not_mem.mpr fun t ht => ?_
  exact List.filter_eq_nil_iff.mp hnone t ht (decide_eq_true (h.timers t ht))

theorem join_eq (h : Stage n [] [(x, .retry Chronicle.internalError)] d) :
    d.queue.slots.join =
      some ((x, .retry Chronicle.internalError), { d.queue.slots with ended := [] }) := by
  rw [Slots.join, h.ended]

theorem waitFor_eq (h : Stage n [] [(x, .retry Chronicle.internalError)] d) :
    d.waitFor x.delivery.key = backoffDelay n d.queue.delays.base d.queue.delays.cap := by
  obtain ⟨hkey, -⟩ := h.waitsOut x (by simp)
  rw [waitFor, hkey, h.count]

theorem waits (h : Stage n [] [(x, .retry Chronicle.internalError)] d) (hc : d.queue.Coherent)
    (hd : d.InTime) (now : Nat) (hn : n < Queue.maxFailures)
    (hnear : (backoffDelay n d.queue.delays.base d.queue.delays.cap).timerMillis ≤ timerLimit) :
    ∃ d', d.step (.join now) = .ok d' ∧ Stage (n + 1) [] [] d' := by
  obtain ⟨hkey, -, hdelete, hp, hcached⟩ := h.waitsOut x (by simp)
  have hstep := step_join_of_within hc hd h.join_eq now fun _ => h.waitFor_eq ▸ hnear
  refine ⟨_, hstep, ?_⟩
  have hfinish := hc.finish_of_join h.join_eq now d.cache
  generalize Queue.finish now d.cache x (.retry Chronicle.internalError)
    { d.queue with slots := { d.queue.slots with ended := [] } } = q at hfinish
  cases hfinish with
  | delete hd => exact absurd (hdelete.symm.trans hd) (by decide)
  | next _ hp' => cases hp.symm.trans hp'
  | dropped _ _ hnone =>
    rw [hnone] at hcached
    cases hcached
  | again =>
    refine ⟨h.going, h.room, h.running, h.waiting, rfl, ?_, fun t ht => ?_,
      fun y hy => absurd hy List.not_mem_nil⟩
    · have hmin : min (n + 1) Queue.maxFailures = n + 1 := by omega
      simp only [Queue.arm, Queue.failureCount, Assoc.get?_set, hkey, ↓reduceIte, Option.getD_some]
      rw [← hmin]
      exact congrArg (fun m => min (m + 1) Queue.maxFailures) h.count
    · rcases List.mem_append.mp ht with ht | ht
      · exact h.timers t ht
      · exact List.mem_singleton.mp ht ▸ hkey

end Dispatcher.Stage

namespace Simulation

variable {π : Type u} {s : Simulation Bool π} {n : Nat} {x : Call} {c : Settings}

/-- The tick is not due yet, and no call is in progress. -/
structure Lull (calling shown : Bool) (s : Simulation Bool π) : Prop where
  cancelAt : s.cancelAt = none
  tickAt : s.now * 1000000 < s.tickAt
  calling : s.calling = calling
  shown : s.world = shown
  calls : s.inProgress = []

namespace Lull

theorem step_shows (h : Lull false false s) (hs : s.dispatcher.Stage n [] [])
    (hc : s.dispatcher.queue.Coherent) : ∃ s' x, step relentless s = .ok (some s') ∧
      Lull false true s' ∧ s'.dispatcher.Stage n [x] [] := by
  obtain ⟨d, x, hd, hstage⟩ := hs.appears hc
  obtain ⟨turned, ahead, hinput⟩ := input_eq (s := { s with world := true }) hd
  let s' : Simulation Bool π := { s with world := true, dispatcher := d, turned, ahead }
  have hdue : s.isCancelDue = false := by simp [isCancelDue, h.cancelAt]
  have htake : take relentless s = .ok (some s') := by
    simp [take, hdue, hs.ended, hs.going, relentless, h.shown, hinput, s']
  refine ⟨s', x, ?_, ⟨h.cancelAt, h.tickAt, h.calling, rfl, h.calls⟩, hstage⟩
  simp only [step, h.calling, Bool.false_eq_true, ↓reduceIte, htake]
  rfl

theorem step_calls (h : Lull false true s) (hs : s.dispatcher.Stage n [x] [])
    (hc : s.dispatcher.queue.Coherent) : ∃ s', step relentless s = .ok (some s') ∧
      Lull true true s' ∧ s'.dispatcher = s.dispatcher := by
  have htake : take relentless s = .ok none := by
    have htick := Nat.not_le.mpr h.tickAt
    simp [take, isCancelDue, h.cancelAt, hs.ended, hs.going, relentless, h.shown, expired?,
      hs.untimed hc, htick]
    rfl
  have hready : s.ready? = some x := by simp [ready?, hs.running, h.calls]
  refine ⟨{ s with calling := true }, ?_, ⟨h.cancelAt, h.tickAt, rfl, h.shown, h.calls⟩, rfl⟩
  simp only [step, h.calling, Bool.false_eq_true, ↓reduceIte, htake, hready]
  rfl

theorem step_fails (h : Lull true true s) (hs : s.dispatcher.Stage n [x] []) :
    ∃ s', step relentless s = .ok (some s') ∧ Lull true false s' ∧
      s'.dispatcher.Stage n [] [(x, .retry Chronicle.internalError)] := by
  obtain ⟨d, hd, hstage⟩ := hs.fails (s.now - s.now)
  have hready : s.ready? = some x := by simp [ready?, hs.running, h.calls]
  let busy : Simulation Bool π :=
    { s with
      world := false, busiest := max s.busiest (s.inProgress.length + 1)
      records := { call := x, began := s.now, ended := s.now,
                   result := .failed Chronicle.internalError } :: s.records }
  obtain ⟨turned, ahead, hinput⟩ := input_eq (s := busy) hd
  let s' : Simulation Bool π := { busy with dispatcher := d, turned, ahead }
  have hcall : call relentless s = .ok (some s') := by
    simp only [call, hready, relentless, progress]
    exact congrArg (fun r => r >>= fun s => pure (some s)) hinput
  refine ⟨s', ?_, ⟨h.cancelAt, h.tickAt, h.calling, rfl, h.calls⟩, hstage⟩
  simp only [step, h.calling, ↓reduceIte, hcall]
  rfl

theorem step_returns (h : Lull true false s) {looks : List (Call × Outcome)}
    (hs : s.dispatcher.Stage n [] looks) : ∃ s', step relentless s = .ok (some s') ∧
      Lull false false s' ∧ s'.dispatcher = s.dispatcher := by
  have hready : s.ready? = none := by simp [ready?, hs.running]
  have hwake : s.wakeable? = none := by simp [wakeable?, h.calls]
  have hcall : call relentless s = .ok none := by
    simp only [call, hready, hwake]
    rfl
  refine ⟨{ s with calling := false }, ?_,
    ⟨h.cancelAt, h.tickAt, rfl, h.shown, h.calls⟩, rfl⟩
  simp only [step, h.calling, ↓reduceIte, hcall]
  rfl

theorem step_looks (h : Lull false false s)
    (hs : s.dispatcher.Stage n [] [(x, .retry Chronicle.internalError)]) :
    step relentless s = (do return some (← input (.join s.now) s)) := by
  have htake : take relentless s = (do return some (← input (.join s.now) s)) := by
    simp [take, isCancelDue, h.cancelAt, hs.ended]
  simp only [step, h.calling, Bool.false_eq_true, ↓reduceIte, htake]
  cases input (.join s.now) s <;> rfl

end Lull

/-- Between two rounds, in each of which the game server is shown and its call fails. -/
structure Idle (c : Settings) (n : Nat) (s : Simulation Bool π) : Prop where
  lull : Lull false false s
  course : OnCourse c s
  stage : s.dispatcher.Stage n [] []

theorem run_succ {σ : Type} {env : Surroundings σ π} {s s' : Simulation σ π}
    (h : step env s = .ok (some s')) (n : Nat) : run env (n + 1) s = run env n s' := by
  rw [run, h]
  rfl

theorem OnCourse.step {σ : Type} {env : Surroundings σ π} {s s' : Simulation σ π}
    (hf : OnCourse c s) (hs : Simulation.step env s = .ok (some s')) : OnCourse c s' := by
  obtain ⟨ts, h, hf⟩ := hf
  obtain ⟨us, h', hf'⟩ := hf.goes (goes_run (run_succ hs 0))
  exact ⟨_, h', hf'⟩

theorem OnCourse.dispatcher {σ : Type} {s : Simulation σ π} (hf : OnCourse c s) :
    s.dispatcher.queue.Coherent ∧ s.dispatcher.InTime ∧ s.dispatcher.queue.delays = c.delays := by
  obtain ⟨ts, h, hf⟩ := hf
  rw [← hf.dispatcher]
  exact ⟨hf.run.faithful.coherent, hf.run.reached.inTime, hf.run.reached.delays⟩

theorem Idle.fails (h : Idle c n s) : ∃ s' x,
    (∀ m, run relentless (m + 4) s = run relentless m s') ∧ Lull false false s' ∧ OnCourse c s' ∧
    s'.dispatcher.Stage n [] [(x, .retry Chronicle.internalError)] := by
  obtain ⟨s₁, x, hstep₁, hlull₁, hstage₁⟩ := h.lull.step_shows h.stage h.course.dispatcher.1
  have hcourse₁ := h.course.step hstep₁
  obtain ⟨s₂, hstep₂, hlull₂, hd₂⟩ := hlull₁.step_calls hstage₁ hcourse₁.dispatcher.1
  obtain ⟨s₃, hstep₃, hlull₃, hstage₃⟩ := hlull₂.step_fails (hd₂ ▸ hstage₁)
  obtain ⟨s₄, hstep₄, hlull₄, hd₄⟩ := hlull₃.step_returns hstage₃
  refine ⟨s₄, x, fun m => ?_, hlull₄, ((hcourse₁.step hstep₂).step hstep₃).step hstep₄,
    hd₄ ▸ hstage₃⟩
  rw [run_succ hstep₁, run_succ hstep₂, run_succ hstep₃, run_succ hstep₄]

theorem Idle.round (h : Idle c n s) (hn : n < Queue.maxFailures)
    (hnear : (backoffDelay n c.delays.base c.delays.cap).timerMillis ≤ Dispatcher.timerLimit) :
    ∃ s', (∀ m, run relentless (m + 5) s = run relentless m s') ∧ Idle c (n + 1) s' := by
  obtain ⟨s₄, x, hrun, hlull, hcourse, hstage⟩ := h.fails
  obtain ⟨hc, htime, hdelays⟩ := hcourse.dispatcher
  obtain ⟨d, hd, hstage'⟩ := hstage.waits hc htime s₄.now hn (hdelays ▸ hnear)
  obtain ⟨turned, ahead, hinput⟩ := input_eq hd
  have hstep : step relentless s₄ = .ok (some { s₄ with dispatcher := d, turned, ahead }) := by
    rw [hlull.step_looks hstage, hinput]
    rfl
  refine ⟨_, fun m => ?_, ?_, hcourse.step hstep, hstage'⟩
  · rw [hrun (m + 1), run_succ hstep]
  · exact ⟨hlull.cancelAt, hlull.tickAt, hlull.calling, hlull.shown, hlull.calls⟩

theorem Idle.breaks (h : Idle c n s)
    (hfar : Dispatcher.timerLimit < (backoffDelay n c.delays.base c.delays.cap).timerMillis) :
    run relentless 5 s = .error .timerTooFar := by
  obtain ⟨s₄, x, hrun, hlull, hcourse, hstage⟩ := h.fails
  obtain ⟨hc, -, hdelays⟩ := hcourse.dispatcher
  have hw := (hstage.waitsOut x (by simp)).2
  have hd := Dispatcher.step_join_of_far hc hstage.join_eq s₄.now hw
    (hstage.waitFor_eq ▸ hdelays.symm ▸ hfar)
  rw [hrun 1, run, hlull.step_looks hstage, input_error hd]
  rfl

theorem Idle.near_of_survives (h : Idle c n s) (hall : ∀ m, ∃ s', run relentless m s = .ok s') :
    (backoffDelay n c.delays.base c.delays.cap).timerMillis ≤ Dispatcher.timerLimit := by
  refine Nat.le_of_not_lt fun hfar => ?_
  obtain ⟨s', hs'⟩ := hall 5
  rw [h.breaks hfar] at hs'
  cases hs'

theorem Idle.near (h : Idle c n s) (hall : ∀ m, ∃ s', run relentless m s = .ok s') {k : Nat}
    (hk : n + k < Queue.maxFailures) :
    (backoffDelay (n + k) c.delays.base c.delays.cap).timerMillis ≤ Dispatcher.timerLimit := by
  induction k generalizing n s with
  | zero => exact h.near_of_survives hall
  | succ k ih =>
    obtain ⟨s', hrun, hidle⟩ := h.round (by omega) (h.near_of_survives hall)
    have hnext := ih hidle (fun m => by rw [← hrun m]; exact hall (m + 5)) (by omega)
    rwa [show n + 1 + k = n + (k + 1) by omega] at hnext

theorem idle_start {now : Nat} (hstart : start false c now none = .ok s)
    (hp : c.period.nanos ≠ 0) : Idle c 0 s := by
  have hcourse := follows_start hstart
  obtain ⟨d, hnew, rfl⟩ := start_inv hstart
  refine ⟨?_, ⟨_, _, hcourse⟩, ?_⟩
  · exact ⟨rfl, Nat.lt_add_of_pos_right (Nat.pos_of_ne_zero hp), rfl, rfl, rfl⟩
  · rw [Dispatcher.eq_of_new hnew]
    exact ⟨rfl, Nat.lt_of_lt_of_le Nat.one_pos (Nat.le_max_right _ _), rfl, rfl, rfl, rfl,
      fun t ht => absurd ht List.not_mem_nil, fun x hx => absurd hx List.not_mem_nil⟩

theorem named_relentless (i : Input) (h : Shows (relentless : Surroundings Bool π) i) :
    i.Named := by
  rintro e gs rfl hgs
  obtain ⟨now, shown, shown', hpoll⟩ := h
  cases shown with
  | true => cases hpoll
  | false =>
    cases hpoll
    cases hgs
    rfl

theorem period_ne_zero {c : Config} (hc : c.validate = .ok c) :
    (Controller.dispatchSettings c).period.nanos ≠ 0 := by
  intro hzero
  have hzero' : c.syncPeriod.nanos = 0 := hzero
  unfold Config.validate Config.fault? at hc
  split at hc
  · cases hc
  · next hnone =>
    rw [if_pos hzero'] at hnone
    split at hnone <;> cases hnone

/-- A dispatcher of a valid configuration, started when the clock shows `now`, survives whatever the
events about game servers with names, the calls and the cancellation do, exactly if it is within
limits. That the configuration is valid puts no upper bound on it. -/
theorem survives_iff_within_limits (c : Config) (hc : c.validate = .ok c) (now : Nat) :
    (∀ (σ : Type) (π : Type u) (env : Surroundings σ π), (∀ i, Shows env i → i.Named) →
      ∀ world cancelAt n, ∃ s s',
        start world (Controller.dispatchSettings c) now cancelAt = .ok s ∧ run env n s = .ok s') ↔
    (Controller.dispatchSettings c).WithinLimits now := by
  have hp := period_ne_zero hc
  constructor
  · intro hall
    have hruns (n : Nat) := hall Bool PUnit relentless named_relentless false none n
    obtain ⟨s, -, hstart, -⟩ := hruns 0
    obtain ⟨hslots, -, hclock⟩ := (start_iff false now none).mp ⟨s, hstart⟩
    refine ⟨hslots, hclock, (idle_start hstart hp).near (k := 16) (fun m => ?_) (by decide)⟩
    obtain ⟨s₁, s', hstart₁, hrun⟩ := hruns m
    cases hstart.symm.trans hstart₁
    exact ⟨s', hrun⟩
  · intro hw σ π env hn world cancelAt n
    obtain ⟨s, hstart⟩ := (start_iff world now cancelAt).mpr ⟨hw.slots, hp, hw.clock⟩
    rcases run_cases hstart n with ⟨s', hrun, -⟩ | ⟨e, -, hbreaks⟩
    · exact ⟨s, s', hstart, hrun⟩
    · exact absurd hbreaks (not_breaksDown hw.timers hn e)

/-- The default configuration is valid, and its dispatcher, started when the clock shows an hour,
survives a game server that never comes to rest. -/
theorem default_survives_relentless : ({} : Config).validate = .ok {} ∧
    ∃ s s' : Simulation Bool PUnit,
      start false (Controller.dispatchSettings {}) 3600000 none = .ok s ∧
        run relentless 1000 s = .ok s' :=
  ⟨rfl, (survives_iff_within_limits {} rfl 3600000).mpr ⟨by decide, by decide, by decide⟩ Bool PUnit
    relentless named_relentless false none 1000⟩

/-- One game server is shown, and its only call fails after 7 ms. -/
def failsOnce : Script where
  events := [⟨0, some (.apply Queue.lone.gs)⟩]
  otherwise := { delay := 7, result := .failed Chronicle.internalError }

/-- Three valid configurations whose dispatchers break down: the retries of the first are too far
ahead, and the second has too many slots. The period of the third is one that the clock can show,
but a clock that shows a second cannot show the first tick. -/
theorem breakdown_of_valid :
    (∃ (far : Duration) (c : Config) (s : Simulation Script CallResult),
      Duration.read "20000h" = .ok far ∧ c = { requeueBaseDelay := far, requeueMaxDelay := far } ∧
      c.validate = .ok c ∧ start failsOnce (Controller.dispatchSettings c) 0 none = .ok s ∧
      run Script.surroundings 9 s = .error .timerTooFar) ∧
    (∃ c : Config, c = { maxConcurrentReconciles := 2305843009213693952 } ∧ c.validate = .ok c ∧
      start (π := CallResult) failsOnce (Controller.dispatchSettings c) 0 none =
        .error .tooManySlots) ∧
    ∃ (long : Duration) (c : Config),
      Duration.read "9223372036854775807s" = .ok long ∧ c = { syncPeriod := long } ∧
      c.validate = .ok c ∧
      start (π := CallResult) failsOnce (Controller.dispatchSettings c) 1000 none =
        .error .clockOverflow := by
  have hfar : Duration.read "20000h" = .ok (.ofSecs 72000000) := by with_unfolding_all rfl
  have hlong : Duration.read "9223372036854775807s" = .ok (.ofSecs 9223372036854775807) := by
    with_unfolding_all rfl
  exact ⟨⟨_, _, _, hfar, rfl, rfl, rfl, rfl⟩, ⟨_, rfl, rfl, rfl⟩, ⟨_, _, hlong, rfl, rfl, rfl⟩⟩

end Simulation
end GameIngress.Dispatch
