import GameIngress.Proofs.Dispatch.Upheld

/-!
# What a dispatcher survives

Two inputs break a dispatcher down: one that shows a game server without a name, and the end of a
call that is to be waited out longer than a timer can run. It survives every other input. So a run
on any inputs, and a simulation in any surroundings, is survived or ends at one of these two.
-/
namespace GameIngress.Dispatch

universe u

/-- A game server that the input shows has a name. -/
def Input.Named (i : Input) : Prop :=
  ∀ e gs, i = .watch e → e.object? = some gs → (keyOf? gs).isSome

namespace Dispatcher

variable {d d' : Dispatcher} {x : Call} {o : Outcome} {slots : Slots}

def InTime (d : Dispatcher) : Prop := ∀ t ∈ d.queue.timers, t.delay.timerMillis ≤ timerLimit

theorem checked_of_inTime (h : d.InTime) : d.checked = .ok d := by
  refine if_neg fun hany => ?_
  obtain ⟨t, ht, hfar⟩ := List.any_eq_true.mp hany
  exact Nat.not_lt.mpr (h t ht) (of_decide_eq_true hfar)

theorem checked_of_far {t : Timer} (ht : t ∈ d.queue.timers)
    (h : timerLimit < t.delay.timerMillis) : d.checked = .error .timerTooFar :=
  if_pos (List.any_eq_true.mpr ⟨t, ht, decide_eq_true h⟩)

theorem inTime_of_checked (h : d.checked = .ok d') : d'.InTime := by
  unfold checked at h
  split at h
  · cases h
  · next hany =>
    cases h
    exact fun t ht => Nat.le_of_not_lt fun hfar =>
      hany (List.any_eq_true.mpr ⟨t, ht, decide_eq_true hfar⟩)

theorem mem_timers_of_step {i : Input} (hj : d.joined? i = none) (hs : d.step i = .ok d')
    {t : Timer} (ht : t ∈ d'.queue.timers) : t ∈ d.queue.timers := by
  cases i with
  | watch e =>
    rcases step_watch hs with ⟨-, rfl⟩ | ⟨-, e', -, rfl⟩
    · exact ht
    · simp only [observe] at ht
      cases hd : Delivery.ofEvent? d.cache e' with
      | none => rwa [hd] at ht
      | some delivery =>
        rw [hd] at ht
        exact (d.queue.enqueue_books delivery).1 t ht
  | settled id r millis => rwa [(step_settled hs).1] at ht
  | join now =>
    rcases step_join hs with ⟨-, rfl⟩ | ⟨x, o, slots, hsome, -⟩
    · exact ht
    · simp [joined?, hsome] at hj
  | expire timer =>
    rcases step_expire hs with rfl | ⟨-, t', -, rfl⟩
    · exact ht
    · simp only [Queue.expire] at ht
      cases hc : d.cache.get? t'.key with
      | none =>
        rw [hc] at ht
        exact List.mem_of_mem_filter ht
      | some s =>
        rw [hc] at ht
        exact List.mem_of_mem_filter ht
  | tick =>
    rcases step_tick hs with rfl | ⟨-, rfl⟩
    · exact ht
    · exact (d.queue.resync_books d.cache.values).1 ▸ ht
  | stop =>
    rw [step_stop hs] at ht
    exact ht

theorem InTime.step (h : d.InTime) {i : Input} (hs : d.step i = .ok d') : d'.InTime := by
  cases hj : d.joined? i with
  | none => exact fun t ht => h t (mem_timers_of_step hj hs ht)
  | some found =>
    cases i with
    | join now =>
      obtain ⟨⟨_, slots⟩, hslots, -⟩ := Option.map_eq_some_iff.mp hj
      simp only [Dispatcher.step, hslots] at hs
      exact inTime_of_checked hs
    | watch _ | settled _ _ _ | expire _ | tick | stop => cases hj

/-- The outcome of the call is waited out: the call failed, the game server is still cached, and
nothing was put off. -/
def WaitsOut (d : Dispatcher) (x : Call) (o : Outcome) : Prop :=
  (∃ e, o = .retry e) ∧ x.delivery.isDelete = false ∧
    d.queue.pending? x.delivery.key = none ∧ (d.cache.get? x.delivery.key).isSome

def waitFor (d : Dispatcher) (k : Watch.Key) : Duration :=
  backoffDelay (d.queue.failureCount k) d.queue.delays.base d.queue.delays.cap

/-- The input would set a timer beyond the limit. -/
def Overshoots (d : Dispatcher) (i : Input) : Prop :=
  ∃ x o, d.joined? i = some (x, o) ∧ d.WaitsOut x o ∧
    timerLimit < (d.waitFor x.delivery.key).timerMillis

theorem step_join_of_within (hc : d.queue.Coherent) (hd : d.InTime)
    (hj : d.queue.slots.join = some ((x, o), slots)) (now : Nat)
    (h : d.WaitsOut x o → (d.waitFor x.delivery.key).timerMillis ≤ timerLimit) :
    d.step (.join now) = .ok { d with queue := { d.queue with slots }.finish now d.cache x o } := by
  simp only [Dispatcher.step, hj]
  apply checked_of_inTime
  have hfinish := hc.finish_of_join hj now d.cache
  generalize { d.queue with slots }.finish now d.cache x o = q at hfinish
  cases hfinish with
  | delete | next | well | dropped => exact hd
  | @again e s hdelete hp hcached =>
    intro t ht
    rcases List.mem_append.mp ht with ht | ht
    · exact hd t ht
    · rw [List.mem_singleton.mp ht]
      exact h ⟨⟨e, rfl⟩, hdelete, hp, Option.isSome_iff_exists.mpr ⟨s, hcached⟩⟩

theorem step_join_of_far (hc : d.queue.Coherent)
    (hj : d.queue.slots.join = some ((x, o), slots)) (now : Nat) (hw : d.WaitsOut x o)
    (h : timerLimit < (d.waitFor x.delivery.key).timerMillis) :
    d.step (.join now) = .error .timerTooFar := by
  obtain ⟨⟨e, rfl⟩, hdelete, hp, hcached⟩ := hw
  simp only [Dispatcher.step, hj]
  have hfinish := hc.finish_of_join hj now d.cache
  generalize { d.queue with slots }.finish now d.cache x (.retry e) = q at hfinish
  cases hfinish with
  | delete hd => exact absurd (hdelete.symm.trans hd) (by decide)
  | next _ hp' => cases hp.symm.trans hp'
  | dropped _ _ hnone =>
    rw [hnone] at hcached
    cases hcached
  | again => exact checked_of_far (List.mem_append_right _ (List.mem_singleton_self _)) h

/-- The input breaks the dispatcher down. -/
inductive Breaks (d : Dispatcher) (i : Input) : Crash → Prop
  | unnamed (hgoing : d.stopped = false) (hi : ¬ i.Named) : Breaks d i .unnamed
  | timerTooFar (hfar : d.Overshoots i) : Breaks d i .timerTooFar

theorem named_iff {e : Watch.Event GameServer} :
    (Input.watch e).Named ↔ (e.mapM? d.sight).isSome := by
  constructor
  · intro h
    cases e with
    | init | initDone => rfl
    | initApply gs | apply gs | delete gs =>
      simpa [Watch.Event.mapM?, sight] using h _ gs rfl rfl
  · rintro h _ gs ⟨⟩ hgs
    cases e with
    | init | initDone => cases hgs
    | initApply gs | apply gs | delete gs =>
      cases hgs
      simpa [Watch.Event.mapM?, sight] using h

theorem step_watch_going {e : Watch.Event GameServer} (hs : d.stopped = false) :
    d.step (.watch e) =
      match e.mapM? d.sight with
      | none => .error .unnamed
      | some e' => .ok (d.observe e') := by
  simp only [step, hs, Bool.false_eq_true, ↓reduceIte]
  rfl

theorem step_watch_cases (d : Dispatcher) (e : Watch.Event GameServer) :
    (∃ d', d.step (.watch e) = .ok d') ∨
    d.step (.watch e) = .error .unnamed ∧ d.stopped = false ∧ ¬ (Input.watch e).Named := by
  cases hs : d.stopped with
  | true => exact .inl ⟨d, by simp [step, hs]⟩
  | false =>
    rw [step_watch_going hs, named_iff (d := d)]
    cases e.mapM? d.sight with
    | none => exact .inr ⟨rfl, rfl, by simp⟩
    | some e' => exact .inl ⟨_, rfl⟩

end Dispatcher

namespace Chronicle

variable {c : Settings} {h : Chronicle} {i : Input} {e : Crash}

theorem Reached.inTime (hr : Reached c h) : h.dispatcher.InTime := by
  obtain ⟨d, hnew, hl⟩ := hr
  induction hl with
  | refl =>
    rw [Dispatcher.eq_of_new hnew]
    exact fun t ht => absurd ht List.not_mem_nil
  | step _ hn ih =>
    obtain ⟨i, d', hs, rfl⟩ := hn
    exact ih.step hs

/-- After a run that was survived so far, an input is survived or breaks the dispatcher down. -/
theorem Reached.step_cases (hr : Reached c h) (i : Input) :
    (∃ d, h.dispatcher.step i = .ok d) ∨
    ∃ e, h.dispatcher.step i = .error e ∧ h.dispatcher.Breaks i e := by
  cases i with
  | watch e =>
    rcases h.dispatcher.step_watch_cases e with hok | ⟨hs, hgoing, hnamed⟩
    · exact .inl hok
    · exact .inr ⟨_, hs, .unnamed hgoing hnamed⟩
  | settled id r millis => exact .inl ⟨_, rfl⟩
  | join now =>
    cases hj : h.dispatcher.queue.slots.join with
    | none =>
      simp only [Dispatcher.step, hj]
      exact .inl ⟨_, rfl⟩
    | some found =>
      obtain ⟨⟨x, o⟩, slots⟩ := found
      have hc := hr.faithful.coherent
      by_cases hfar : h.dispatcher.WaitsOut x o ∧
          Dispatcher.timerLimit < (h.dispatcher.waitFor x.delivery.key).timerMillis
      · refine .inr ⟨_, Dispatcher.step_join_of_far hc hj now hfar.1 hfar.2, .timerTooFar ?_⟩
        exact ⟨x, o, by simp [Dispatcher.joined?, hj], hfar⟩
      · refine .inl ⟨_, Dispatcher.step_join_of_within hc hr.inTime hj now fun hw => ?_⟩
        exact Nat.le_of_not_lt fun hlt => hfar ⟨hw, hlt⟩
  | expire timer =>
    simp only [Dispatcher.step]
    split
    · exact .inl ⟨_, rfl⟩
    · split <;> exact .inl ⟨_, rfl⟩
  | tick =>
    simp only [Dispatcher.step]
    split <;> exact .inl ⟨_, rfl⟩
  | stop => exact .inl ⟨_, rfl⟩

theorem Reached.breaks (hr : Reached c h) (hs : h.dispatcher.step i = .error e) :
    h.dispatcher.Breaks i e := by
  rcases hr.step_cases i with ⟨d, hok⟩ | ⟨e', herror, hb⟩
  · cases hok.symm.trans hs
  · cases herror.symm.trans hs
    exact hb

theorem Reached.step_of_overshoots (hr : Reached c h) (hi : h.dispatcher.Overshoots i) :
    h.dispatcher.step i = .error .timerTooFar := by
  obtain ⟨x, o, hj, hw, hfar⟩ := hi
  cases i with
  | join now =>
    obtain ⟨⟨found, slots⟩, hslots, rfl⟩ := Option.map_eq_some_iff.mp hj
    exact Dispatcher.step_join_of_far hr.faithful.coherent hslots now hw hfar
  | watch _ | settled _ _ _ | expire _ | tick | stop => cases hj

/-- A dispatcher survives every input about game servers with names that sets no timer beyond the
limit. -/
theorem Reached.survives_iff (hr : Reached c h) (hi : i.Named) :
    (∃ d, h.dispatcher.step i = .ok d) ↔ ¬ h.dispatcher.Overshoots i := by
  constructor
  · rintro ⟨d, hd⟩ hfar
    cases (hr.step_of_overshoots hfar).symm.trans hd
  · intro hnear
    rcases hr.step_cases i with hok | ⟨e, -, hb⟩
    · exact hok
    · cases hb with
      | unnamed _ hnot => exact absurd hi hnot
      | timerTooFar hfar => exact absurd hfar hnear

/-- By induction on the inputs: all are survived, or those before one that breaks the dispatcher
down. -/
theorem Reached.extendAll_cases (hr : Reached c h) (is : List Input) :
    (∃ h', h.extendAll is = .ok h' ∧ Reached c h') ∨
    ∃ before i after h' e, is = before ++ i :: after ∧ h.extendAll before = .ok h' ∧
      Reached c h' ∧ h'.dispatcher.Breaks i e ∧ h.extendAll is = .error e := by
  induction is generalizing h with
  | nil => exact .inl ⟨h, rfl, hr⟩
  | cons i is ih =>
    simp only [extendAll]
    rcases hr.step_cases i with ⟨d, hs⟩ | ⟨e, hs, hb⟩
    · rw [hs]
      rcases ih (hr.step ⟨i, d, hs, rfl⟩) with hall | ⟨before, j, after, h', e, rfl, hbefore, hrest⟩
      · exact .inl hall
      · refine .inr ⟨i :: before, j, after, h', e, rfl, ?_, hrest⟩
        simp only [extendAll, hs]
        exact hbefore
    · rw [hs]
      exact .inr ⟨[], i, is, h, e, rfl, rfl, hr, hb, rfl⟩

end Chronicle

namespace Simulation

variable {σ : Type} {π : Type u} {env : Surroundings σ π} {s s' : Simulation σ π} {c : Settings}

theorem input_eq {i : Input} {d : Dispatcher} (hs : s.dispatcher.step i = .ok d) :
    ∃ turned ahead, input i s = .ok { s with dispatcher := d, turned, ahead } := by
  simp only [input, hs]
  exact ⟨_, _, rfl⟩

theorem input_error {i : Input} {e : Crash} (hs : s.dispatcher.step i = .error e) :
    input i s = .error e := by
  simp only [input, hs]

/-- The simulation has been through a run. -/
def OnCourse (c : Settings) (s : Simulation σ π) : Prop := ∃ ts h, Follows c s ts h

theorem OnCourse.later (hf : OnCourse c s) (hd : s'.dispatcher = s.dispatcher)
    (hnow : s.now ≤ s'.now) : OnCourse c s' :=
  have ⟨ts, h, hf⟩ := hf
  ⟨ts, h, hf.later hd hnow⟩

/-- Something that the surroundings show or do breaks the dispatcher down after a run that it
survived. -/
def BreaksDown (c : Settings) (env : Surroundings σ π) (e : Crash) : Prop :=
  ∃ h i, Chronicle.Reached c h ∧ Shows env i ∧ h.dispatcher.Breaks i e

theorem upholds_onCourse : Upholds (BreaksDown c env) env (OnCourse c) where
  elapses hf he := hf.later he.dispatcher he.now
  takes := by
    intro s i ⟨ts, h, hf⟩ ho hshows
    cases hs : s.dispatcher.step i with
    | error e =>
      rw [input_error hs]
      exact ⟨h, i, hf.run.reached, hshows, hf.run.reached.breaks (hf.dispatcher ▸ hs)⟩
    | ok d =>
      obtain ⟨turned, ahead, hinput⟩ := input_eq hs
      rw [hinput]
      exact ⟨_, _, hf.takes hs rfl (hf.timely ho d)⟩
  blocks hf _ := hf.later rfl (Nat.le_refl _)
  ends := by
    intro s r hf _ _
    obtain ⟨ts, h, hf'⟩ : OnCourse c (s.ending r) := hf.later rfl (Nat.le_refl _)
    let i : Input := .settled r.call.id r.result (r.ended - r.began)
    obtain ⟨turned, ahead, hinput⟩ := input_eq (i := i) (s := s.ending r) rfl
    rw [hinput]
    exact ⟨_, _, hf'.takes (i := i) rfl rfl trivial⟩

theorem run_cases {world : σ} {now : Nat} {cancelAt : Option Nat}
    (hstart : start world c now cancelAt = .ok s) (n : Nat) :
    (∃ s', run env n s = .ok s' ∧ OnCourse c s') ∨
    ∃ e, run env n s = .error e ∧ BreaksDown c env e := by
  have hcourse : OnCourse c s := ⟨_, _, follows_start hstart⟩
  have hdistinct : s.Distinct := by
    obtain ⟨d, -, rfl⟩ := start_inv hstart
    exact List.nodup_nil
  rcases (upholds_onCourse.sat_run ⟨hcourse, hdistinct⟩ n).cases with ⟨s', hrun, hf, -⟩ | hbreaks
  · exact .inl ⟨s', hrun, hf⟩
  · exact .inr hbreaks

end Simulation
end GameIngress.Dispatch
