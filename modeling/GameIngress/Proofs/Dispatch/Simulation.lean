import GameIngress.Dispatch.Simulation
import GameIngress.Proofs.Dispatch.Turn
import Mathlib.Logic.Relation

/-!
# Runs of a dispatcher on a clock

Whatever the stream of events, the calls and the cancellation do, and whenever they do it, the
dispatcher of a simulation only ever takes inputs. So all that holds of every run of a dispatcher
holds of a simulation, and a simulation in which nothing is left to happen is done.
-/
namespace GameIngress.Dispatch

universe u

theorem Chronicle.Reached.packed {c : Settings} {h : Chronicle} (hr : Reached c h) :
    h.slots.Packed := by
  obtain ⟨d, hnew, hl⟩ := hr
  induction hl with
  | refl =>
    rw [Dispatcher.eq_of_new hnew]
    exact ⟨by simp [slots], Nat.zero_le _, .inl rfl⟩
  | step hl hn ih =>
    have hf : Faithful _ := Reached.faithful ⟨d, hnew, hl⟩
    obtain ⟨i, d', hs, rfl⟩ := hn
    change d'.queue.slots.Packed
    rcases Dispatcher.step_queue hf.keyed hs with hq | hq
    · rw [hq]
      exact ih
    · exact hf.coherent.packed_step ih hq

namespace Simulation

variable {σ : Type} {π : Type u} {env : Surroundings σ π} {s s' : Simulation σ π}
  {r : Option (Simulation σ π)}

/-- The inputs that a simulation has for its dispatcher at its time, except for the ends of calls.
-/
def Offers (s : Simulation σ π) : Input → Prop
  | .join now => now = s.now
  | .expire id => ∃ t ∈ s.dispatcher.queue.timers, t.id = id ∧ t.due ≤ s.now
  | .settled _ _ _ => False
  | .watch _ | .tick | .stop => True

/-- The calls in progress but the one of this number. -/
def others (id : Nat) (s : Simulation σ π) : List (InProgress π) :=
  s.inProgress.filter (·.call.id ≠ id)

/-- The call has a slot and has not begun, or is in progress. -/
def Holds (s : Simulation σ π) (x : Call) : Prop :=
  x ∈ s.dispatcher.queue.slots.running ∨ ∃ p ∈ s.inProgress, p.call = x

/-- What one action of a simulation, which takes no time, does to its dispatcher and its calls. -/
inductive Move (s s' : Simulation σ π) : Prop
  /-- Neither is concerned. -/
  | rests (hd : s'.dispatcher = s.dispatcher) (hnow : s'.now = s.now)
      (hcalls : s'.inProgress = s.inProgress) (hbusiest : s'.busiest = s.busiest)
  /-- The dispatcher takes an input. -/
  | takes {i : Input} (hs : s.dispatcher.step i = .ok s'.dispatcher) (hi : s.Offers i)
      (hnow : s'.now = s.now) (hcalls : s'.inProgress = s.inProgress)
      (hbusiest : s'.busiest = s.busiest)
  /-- A call begins or goes on, and comes to a point at which it waits. -/
  | blocks {p : InProgress π} (hp : s.Holds p.call) (hd : s'.dispatcher = s.dispatcher)
      (hnow : s'.now = s.now) (hcalls : s'.inProgress = s.others p.call.id ++ [p])
      (hbusiest : s'.busiest = max s.busiest ((s.others p.call.id).length + 1))
  /-- A call begins or goes on, and ends. -/
  | ends {x : Call} {result : CallResult} {millis : Nat} (hx : s.Holds x)
      (hs : s.dispatcher.step (.settled x.id result millis) = .ok s'.dispatcher)
      (hnow : s'.now = s.now) (hcalls : s'.inProgress = s.others x.id)
      (hbusiest : s'.busiest = max s.busiest ((s.others x.id).length + 1))
  /-- A call does not survive cancellation. -/
  | interrupted {x : Call} {result : CallResult} {millis : Nat}
      (hs : s.dispatcher.step (.settled x.id result millis) = .ok s'.dispatcher)
      (hnow : s'.now = s.now) (hcalls : s'.inProgress = s.others x.id)
      (hbusiest : s'.busiest = s.busiest)

abbrev Moves : Simulation σ π → Simulation σ π → Prop := Relation.ReflTransGen Move

/-- Time passes, and all calls that have a slot have begun. -/
structure Waits (s s' : Simulation σ π) : Prop where
  ready : s.ready? = none
  dispatcher : s'.dispatcher = s.dispatcher
  now : s.now ≤ s'.now
  calls : s'.inProgress = s.inProgress
  busiest : s'.busiest = s.busiest

/-- Any number of actions, with time passing between them. -/
abbrev Goes : Simulation σ π → Simulation σ π → Prop :=
  Relation.ReflTransGen fun s s' => Move s s' ∨ Waits s s'

theorem Move.now (hm : Move s s') : s'.now = s.now := by
  cases hm <;> assumption

theorem Moves.now (hm : Moves s s') : s'.now = s.now := by
  induction hm with
  | refl => rfl
  | tail _ hm ih => rw [hm.now, ih]

theorem Moves.goes (hm : Moves s s') : Goes s s' := by
  induction hm with
  | refl => exact .refl
  | tail _ hm ih => exact ih.tail (.inl hm)

theorem ok_of_bind {ε : Type} {α β : Type u} {x : Except ε α} {f : α → Except ε β} {b : β}
    (h : (x >>= f) = .ok b) : ∃ a, x = .ok a ∧ f a = .ok b := by
  cases x with
  | error e => cases h
  | ok a => exact ⟨a, rfl, h⟩

theorem of_input {i : Input} (hs : input i s = .ok s') :
    s.dispatcher.step i = .ok s'.dispatcher ∧ s'.now = s.now ∧ s'.inProgress = s.inProgress ∧
      s'.busiest = s.busiest := by
  unfold input at hs
  cases hstep : s.dispatcher.step i with
  | error e => simp [hstep] at hs
  | ok d =>
    simp only [hstep, Except.ok.injEq] at hs
    subst hs
    exact ⟨rfl, rfl, rfl, rfl⟩

theorem move_input {i : Input} (hs : input i s = .ok s') (hi : s.Offers i) : Move s s' := by
  obtain ⟨hstep, hnow, hcalls, hbusiest⟩ := of_input hs
  exact .takes hstep hi hnow hcalls hbusiest

theorem move_progress {world : σ} {x : Call} {began : Nat} {p : Progress π}
    {inProgress : List (InProgress π)} (hx : s.Holds x) (hrest : inProgress = s.others x.id)
    (hs : progress x began p { s with world, inProgress } = .ok s') : Move s s' := by
  subst hrest
  unfold progress at hs
  cases p with
  | blocked millis state =>
    cases hs
    exact .blocks (p := { call := x, began, wake := s.now + millis, state }) hx rfl rfl rfl rfl
  | ended result =>
    obtain ⟨hstep, hnow, hcalls, hbusiest⟩ := of_input hs
    exact .ends hx hstep hnow hcalls hbusiest

theorem moves_interrupt {calls : List (InProgress π)} (hs : interrupt env calls s = .ok s') :
    Moves s s' := by
  induction calls generalizing s with
  | nil =>
    cases hs
    exact .refl
  | cons c rest ih =>
    unfold interrupt at hs
    cases hc : env.interrupt? c.state with
    | none =>
      simp only [hc] at hs
      exact ih hs
    | some result =>
      simp only [hc] at hs
      obtain ⟨s₁, hs₁, hrest⟩ := ok_of_bind hs
      obtain ⟨hstep, hnow, hcalls, hbusiest⟩ := of_input hs₁
      exact (ih hrest).head (.interrupted hstep hnow hcalls hbusiest)

theorem moves_cancel (hs : cancel env s = .ok s') : Moves s s' := by
  obtain ⟨s₁, hs₁, hrest⟩ := ok_of_bind hs
  exact (moves_interrupt hrest).head (move_input hs₁ trivial)

theorem moves_of_some {x : Except Crash (Simulation σ π)}
    (hs : (do return some (← x)) = Except.ok r) (hx : ∀ s', x = .ok s' → Moves s s') :
    ∃ s', r = some s' ∧ Moves s s' := by
  obtain ⟨s', hs', hr⟩ := ok_of_bind hs
  cases hr
  exact ⟨s', rfl, hx s' hs'⟩

theorem holds_of_ready {x : Call} (h : s.ready? = some x) :
    s.Holds x ∧ s.others x.id = s.inProgress := by
  unfold ready? at h
  have hnone := List.find?_some h
  refine ⟨.inl (List.mem_of_find?_eq_some h), ?_⟩
  rw [others, List.filter_eq_self]
  exact List.all_eq_true.mp hnone

theorem mem_of_foldl_choose {α : Type u} {f : Option α → α → Option α}
    (hf : ∀ best a, f best a = some a ∨ f best a = best) {l : List α} {best : Option α} {a : α}
    (h : l.foldl f best = some a) : a ∈ l ∨ best = some a := by
  induction l generalizing best with
  | nil => exact .inr h
  | cons b rest ih =>
    rw [List.foldl_cons] at h
    rcases ih h with hmem | hbest
    · exact .inl (List.mem_cons_of_mem _ hmem)
    · rcases hf best b with heq | heq
      · rw [heq] at hbest
        cases hbest
        exact .inl List.mem_cons_self
      · exact .inr (heq ▸ hbest)

theorem holds_of_wakeable {p : InProgress π} (h : s.wakeable? = some p) : s.Holds p.call := by
  unfold wakeable? at h
  have hmem := (mem_of_foldl_choose ?_ h).resolve_right nofun
  · exact .inr ⟨p, List.mem_of_mem_filter hmem, rfl⟩
  · intro best c
    cases best with
    | none => exact .inl rfl
    | some b =>
      dsimp only
      split
      · exact .inl rfl
      · exact .inr rfl

theorem offers_of_expired {t : Timer} (h : s.expired? = some t) : s.Offers (.expire t.id) := by
  unfold expired? at h
  split at h
  · cases h
  have hmem := (mem_of_foldl_choose ?_ h).resolve_right nofun
  · obtain ⟨ht, hdue⟩ := List.mem_filter.mp hmem
    exact ⟨t, ht, rfl, by simpa using hdue⟩
  · intro best t
    cases best with
    | none => exact .inl rfl
    | some b =>
      dsimp only
      split
      · exact .inl rfl
      · exact .inr rfl

theorem call_cases (hs : call env s = .ok r) : (∃ s', r = some s' ∧ Moves s s') ∨ r = none := by
  unfold call at hs
  cases hready : s.ready? with
  | some c =>
    simp only [hready] at hs
    obtain ⟨hholds, hothers⟩ := holds_of_ready hready
    exact .inl (moves_of_some hs fun _ hs' => .single (move_progress hholds hothers.symm hs'))
  | none =>
    simp only [hready] at hs
    cases hwake : s.wakeable? with
    | some c =>
      simp only [hwake] at hs
      have hholds := holds_of_wakeable hwake
      exact .inl (moves_of_some hs fun _ hs' => .single (move_progress hholds rfl hs'))
    | none =>
      simp only [hwake] at hs
      cases hs
      exact .inr rfl

/-- What is at hand is taken, unless nothing is; then no call waits to be looked at. -/
theorem take_cases (hs : take env s = .ok r) :
    (∃ s', r = some s' ∧ Moves s s') ∨ (r = none ∧ s.dispatcher.queue.slots.ended = []) := by
  unfold take at hs
  split at hs
  · exact .inl (moves_of_some hs fun _ => moves_cancel)
  split at hs
  · exact .inl (moves_of_some hs fun _ hs' => .single (move_input hs' rfl))
  next hended =>
  split at hs
  next item world _ =>
  have hpolled : Move s { s with world } := .rests rfl rfl rfl rfl
  cases item with
  | event e =>
    dsimp only at hs
    exact .inl (moves_of_some hs fun _ hs' => .head hpolled (.single (move_input hs' trivial)))
  | failed =>
    cases hs
    exact .inl ⟨_, rfl, .single hpolled⟩
  | ended =>
    dsimp only at hs
    exact .inl (moves_of_some hs fun _ hs' => .head hpolled (.single (move_input hs' trivial)))
  | nothing =>
    dsimp only at hs
    split at hs
    · next t ht =>
      exact .inl (moves_of_some hs fun _ hs' =>
        .head hpolled (.single (move_input hs' (offers_of_expired ht))))
    split at hs
    · refine .inl (moves_of_some hs fun s' hs' => ?_)
      have hticked : Move s { s with world, tickAt := s.tickAt + s.period } :=
        .rests rfl rfl rfl rfl
      exact .head hticked (.single (move_input hs' trivial))
    split at hs
    · exact .inl (moves_of_some hs fun _ hs' => .head hpolled (moves_cancel hs'))
    · cases hs
      exact .inr ⟨rfl, by simpa using hended⟩

theorem waits_of_wait (hr : s.ready? = none) (hs : wait env s = some s') : Waits s s' := by
  unfold wait at hs
  split at hs
  · cases hs
  · obtain ⟨t, -, rfl⟩ := Option.map_eq_some_iff.mp hs
    exact ⟨hr, rfl, Nat.le_max_right _ _, rfl, rfl⟩

/-- Where no time passes and no call can begin, no call runs, and only a dispatcher that has stopped
waits for nothing. -/
theorem wait_eq_none (hr : s.ready? = none) (hs : wait env s = none) :
    s.dispatcher.isDone = true ∨
    (s.dispatcher.stopped = true ∧ s.dispatcher.queue.slots.running = []) := by
  unfold wait at hs
  split at hs
  · next hdone => exact .inl hdone
  · have hnext := List.min?_eq_none_iff.mp (Option.map_eq_none_iff.mp hs)
    obtain ⟨hcalls, hrest⟩ := List.append_eq_nil_iff.mp hnext
    have hnone : s.inProgress = [] := List.map_eq_nil_iff.mp hcalls
    refine .inr ⟨?_, ?_⟩
    · by_contra hgoing
      simp [hgoing] at hrest
    · apply List.eq_nil_iff_forall_not_mem.mpr
      simpa [ready?, hnone] using hr

theorem step_cases (hs : step env s = .ok r) :
    (∃ s', r = some s' ∧ (Moves s s' ∨ Waits s s')) ∨
    (r = none ∧ (s.dispatcher.queue.slots.Packed → s.dispatcher.isDone = true)) := by
  unfold step at hs
  split at hs
  · obtain ⟨found, hcall, hrest⟩ := ok_of_bind hs
    rcases call_cases hcall with ⟨s', rfl, hm⟩ | rfl
    · cases hrest
      exact .inl ⟨s', rfl, .inl hm⟩
    · cases hrest
      exact .inl ⟨_, rfl, .inl (.single (.rests rfl rfl rfl rfl))⟩
  · obtain ⟨found, htake, hrest⟩ := ok_of_bind hs
    rcases take_cases htake with ⟨s', rfl, hm⟩ | ⟨rfl, hended⟩
    · cases hrest
      exact .inl ⟨s', rfl, .inl hm⟩
    dsimp only at hrest
    split at hrest
    · cases hrest
      exact .inl ⟨_, rfl, .inl (.single (.rests rfl rfl rfl rfl))⟩
    next hcalls =>
    have hready : s.ready? = none := by
      cases hr : s.ready? with
      | none => rfl
      | some c => simp [hr] at hcalls
    cases hwait : wait env s with
    | some s' =>
      rw [hwait] at hrest
      cases hrest
      exact .inl ⟨s', rfl, .inr (waits_of_wait hready hwait)⟩
    | none =>
      rw [hwait] at hrest
      cases hrest
      refine .inr ⟨rfl, fun hp => ?_⟩
      rcases wait_eq_none hready hwait with hdone | ⟨hstop, hrunning⟩
      · exact hdone
      · rw [Dispatcher.isDone, hstop, hp.isIdle hrunning hended]
        rfl

theorem goes_run {n : Nat} (hs : run env n s = .ok s') : Goes s s' := by
  induction n generalizing s with
  | zero =>
    cases hs
    exact .refl
  | succ n ih =>
    obtain ⟨r, hstep, hrest⟩ := ok_of_bind hs
    rcases step_cases hstep with ⟨s₁, rfl, hm | hw⟩ | ⟨rfl, -⟩
    · exact hm.goes.trans (ih hrest)
    · exact (ih hrest).head (.inr hw)
    · cases hrest
      exact .refl

theorem ready_of_lt (hs : step env s = .ok (some s')) (hnow : s.now < s'.now) :
    s.ready? = none := by
  rcases step_cases hs with ⟨s₁, hsome, hm | hw⟩ | ⟨hnone, -⟩
  · cases hsome
    exact absurd hm.now (Nat.ne_of_gt hnow)
  · cases hsome
    exact hw.ready
  · cases hnone

/-- The run on the clock that the simulation has been through. -/
structure Follows (c : Settings) (s : Simulation σ π) (ts : List Turn) (h : Chronicle) : Prop where
  run : Run c ts h
  onTime : OnTime ts
  past : ∀ t ∈ ts, t.time ≤ s.now
  dispatcher : h.dispatcher = s.dispatcher

section Follows
variable {c : Settings} {ts : List Turn} {h : Chronicle}

theorem Follows.takes (hf : Follows c s ts h) {i : Input}
    (hs : s.dispatcher.step i = .ok s'.dispatcher) (hnow : s'.now = s.now)
    (ht : Turn.Timely ⟨s.now, h, i, s'.dispatcher⟩) :
    Follows c s' (ts ++ [⟨s.now, h, i, s'.dispatcher⟩]) (h.extend i s'.dispatcher) where
  run := hf.run.turn s.now (hf.dispatcher ▸ hs)
  onTime := hf.onTime.concat hf.past ht
  past := by
    intro u hu
    rw [hnow]
    rcases List.mem_append.mp hu with hu | hu
    · exact hf.past u hu
    · rw [List.mem_singleton.mp hu]
  dispatcher := rfl

theorem Follows.later (hf : Follows c s ts h) (hd : s'.dispatcher = s.dispatcher)
    (hnow : s.now ≤ s'.now) : Follows c s' ts h :=
  ⟨hf.run, hf.onTime, fun t ht => (hf.past t ht).trans hnow, hd ▸ hf.dispatcher⟩

theorem Follows.same (hf : Follows c s ts h) (hd : s'.dispatcher = s.dispatcher)
    (hnow : s.now ≤ s'.now) : ∃ us h', Follows c s' (ts ++ us) h' :=
  ⟨[], h, by rw [List.append_nil]; exact hf.later hd hnow⟩

theorem Follows.timely (hf : Follows c s ts h) {i : Input} (hi : s.Offers i) (d : Dispatcher) :
    Turn.Timely ⟨s.now, h, i, d⟩ := by
  cases i with
  | watch _ | tick | stop => trivial
  | settled _ _ _ => exact hi.elim
  | join now => exact hi
  | expire id =>
    intro x hx hid
    obtain ⟨t, ht, hid', hdue⟩ := hi
    have hdistinct := hf.run.faithful.coherent.distinct
    rw [hf.dispatcher] at hdistinct hx
    have heq : x = t := List.inj_on_of_nodup_map hdistinct hx ht (hid.trans hid'.symm)
    exact heq ▸ hdue

theorem Follows.move (hf : Follows c s ts h) (hm : Move s s') :
    ∃ us h', Follows c s' (ts ++ us) h' := by
  cases hm with
  | rests hd hnow | blocks _ hd hnow => exact hf.same hd hnow.ge
  | ends _ hs hnow => exact ⟨_, _, hf.takes hs hnow trivial⟩
  | interrupted hs hnow => exact ⟨_, _, hf.takes hs hnow trivial⟩
  | takes hs hi hnow => exact ⟨_, _, hf.takes hs hnow (hf.timely hi _)⟩

theorem Follows.goes (hf : Follows c s ts h) (hg : Goes s s') :
    ∃ us h', Follows c s' (ts ++ us) h' := by
  induction hg with
  | refl => exact ⟨[], h, by rwa [List.append_nil]⟩
  | tail _ hone ih =>
    obtain ⟨us, h', hf'⟩ := ih
    obtain ⟨vs, h'', hf''⟩ := hone.elim hf'.move fun hw => hf'.same hw.dispatcher hw.now
    exact ⟨us ++ vs, h'', by rwa [← List.append_assoc]⟩

theorem start_inv {world : σ} {now : Nat} {cancelAt : Option Nat}
    (hstart : start world c now cancelAt = .ok s) :
    ∃ dispatcher, Dispatcher.new c = .ok dispatcher ∧
      s = { world, dispatcher, now, cancelAt, period := c.period.nanos
            tickAt := now * 1000000 + c.period.nanos } := by
  unfold start at hstart
  cases hnew : Dispatcher.new c with
  | error e =>
    rw [hnew] at hstart
    cases hstart
  | ok d =>
    simp only [hnew] at hstart
    split at hstart
    · cases hstart
    · cases hstart
      exact ⟨d, rfl, rfl⟩

theorem follows_start {world : σ} {now : Nat} {cancelAt : Option Nat}
    (hstart : start world c now cancelAt = .ok s) :
    Follows c s [] { dispatcher := s.dispatcher } := by
  obtain ⟨d, hnew, rfl⟩ := start_inv hstart
  exact ⟨.start hnew, .nil, fun t ht => absurd ht List.not_mem_nil, rfl⟩

end Follows

/-- What a simulation does, from its start on, is a run of the dispatcher on a clock, and where it
ends, the dispatcher is done. -/
theorem follows_of_run {c : Settings} {world : σ} {now n : Nat} {cancelAt : Option Nat}
    (hstart : start world c now cancelAt = .ok s) (hrun : run env n s = .ok s') :
    ∃ ts h, Follows c s' ts h ∧ (step env s' = .ok none → s'.dispatcher.isDone = true) := by
  obtain ⟨ts, h, hf⟩ := (follows_start hstart).goes (goes_run hrun)
  refine ⟨_, h, hf, fun hend => ?_⟩
  rcases step_cases hend with ⟨s'', hsome, -⟩ | ⟨-, hdone⟩
  · cases hsome
  · exact hdone (hf.dispatcher ▸ hf.run.reached.packed)

end Simulation
end GameIngress.Dispatch
