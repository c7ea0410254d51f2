import GameIngress.Proofs.Failure
import GameIngress.Retry
import Mathlib.Order.Lattice.Nat

/-!
# Calls repeated on tape

A call whose outcomes are given in advance is repeated after conflicts, and a tape keeps what is
done: the calls, and the pauses between them. So it shows how often the call is made, how long the
pauses are, and which outcome decides the result.

A call that is repeated after any failure may also change a state of its own. It is made in the
states that calls and pauses in turn lead to, up to the first success or the last attempt.
-/
namespace GameIngress

inductive Act where
  | call
  | pause (d : Duration)
  deriving DecidableEq

abbrev Tape := List Act

variable {α : Type} {outcome : Nat → Except Failure α} {delay : Nat → Duration}
  {last waits made k : Nat} {r : Except Failure α}

namespace Tape

/-- The `n`th call has the outcome `outcome n`, counted from one. -/
def call (outcome : Nat → Except Failure α) : StateM Tape (Except Failure α) := fun tape =>
  (outcome (tape.count .call + 1), tape ++ [.call])

def pause (d : Duration) : StateM Tape Unit := fun tape => ((), tape ++ [.pause d])

/-- As many calls as `count` says, each after a pause; `made` pauses were made before. -/
def again (delay : Nat → Duration) (made count : Nat) : Tape :=
  (List.range' made count).flatMap fun i => [.pause (delay i), .call]

end Tape

/-- The outcome is a conflict, in any number of wrappers. -/
def Conflicts (r : Except Failure α) : Prop :=
  ∃ f, ∃ s : ApiStatus, r = .error f ∧ Failure.Wraps (.api s) f ∧ s.code = 409 ∧
    s.reason ≠ "AlreadyExists"

theorem conflicts_error_iff {e : Failure} :
    Conflicts (.error e : Except Failure α) ↔ e.isConflict = true := by
  simp [Conflicts, Failure.isConflict_iff]

theorem Conflicts.exists_error {r : Except Failure α} (h : Conflicts r) :
    ∃ e, r = .error e ∧ e.isConflict = true := by
  obtain ⟨e, s, rfl, hs⟩ := h
  exact ⟨e, rfl, Failure.isConflict_iff.mpr ⟨s, hs⟩⟩

/-- After `made` calls the next outcome that is no conflict is the `k`th, unless the `last` call
comes before it; then `k` is the last. -/
def Stops (outcome : Nat → Except Failure α) (last made k : Nat) : Prop :=
  IsLeast {n | n = last ∨ made < n ∧ ¬ Conflicts (outcome n)} k

theorem Stops.next (hlast : made < last)
    (h : made + 1 = last ∨ ¬ Conflicts (outcome (made + 1))) :
    Stops outcome last made (made + 1) := by
  refine ⟨h.imp_right fun h => ⟨Nat.lt_succ_self made, h⟩, ?_⟩
  rintro n (rfl | ⟨hn, -⟩)
  · exact hlast
  · exact hn

theorem Stops.later (hconflict : Conflicts (outcome (made + 1)))
    (h : Stops outcome last (made + 1) k) : Stops outcome last made k := by
  refine ⟨h.1.imp_right fun ⟨hk, hother⟩ => ⟨by omega, hother⟩, ?_⟩
  rintro n (rfl | ⟨hn, hother⟩)
  · exact h.2 (.inl rfl)
  · have hne : n ≠ made + 1 := by
      rintro rfl
      exact hother hconflict
    exact h.2 (.inr ⟨by omega, hother⟩)

/-- What a series comes to whose last outcome is the `k`th: that outcome, or if it is a conflict,
the report that `last` attempts were in vain. -/
structure Ends (outcome : Nat → Except Failure α) (last k : Nat) (r : Except Failure α) : Prop where
  settled : ¬ Conflicts (outcome k) → r = outcome k
  exhausted : ∀ e, outcome k = .error e → Conflicts (outcome k) → r = .error (.exhausted last e)

theorem Ends.of_settled (h : ¬ Conflicts (outcome k)) : Ends outcome last k (outcome k) :=
  ⟨fun _ => rfl, fun _ _ hconflict => absurd hconflict h⟩

section Loop
variable {tape : Tape} {e : Failure}

theorem conflictLoop_run (hmade : tape.count .call = made) :
    (conflictLoop Tape.pause delay (Tape.call outcome) waits made).run tape =
      StateT.run (match outcome (made + 1) with
        | .ok a => pure (.ok a)
        | .error e =>
          if e.isConflict then
            match waits with
            | 0 => pure (.error (.exhausted (made + 1) e))
            | waits + 1 => do
              Tape.pause (delay made)
              conflictLoop Tape.pause delay (Tape.call outcome) waits (made + 1)
          else pure (.error e)) (tape ++ [.call]) := by
  subst hmade
  rw [conflictLoop, StateT.run_bind]
  rfl

theorem conflictLoop_of_settled (hmade : tape.count .call = made)
    (h : ¬ Conflicts (outcome (made + 1))) :
    (conflictLoop Tape.pause delay (Tape.call outcome) waits made).run tape =
      (outcome (made + 1), tape ++ [.call]) := by
  rw [conflictLoop_run hmade]
  cases houtcome : outcome (made + 1) with
  | ok a => rfl
  | error e =>
    rw [houtcome, conflicts_error_iff] at h
    dsimp only
    rw [if_neg h]
    rfl

theorem conflictLoop_of_spent (hmade : tape.count .call = made)
    (houtcome : outcome (made + 1) = .error e) (h : e.isConflict = true) :
    (conflictLoop Tape.pause delay (Tape.call outcome) 0 made).run tape =
      (.error (.exhausted (made + 1) e), tape ++ [.call]) := by
  rw [conflictLoop_run hmade, houtcome]
  dsimp only
  rw [if_pos h]
  rfl

theorem conflictLoop_of_conflict (hmade : tape.count .call = made)
    (houtcome : outcome (made + 1) = .error e) (h : e.isConflict = true) :
    (conflictLoop Tape.pause delay (Tape.call outcome) (waits + 1) made).run tape =
      (conflictLoop Tape.pause delay (Tape.call outcome) waits (made + 1)).run
        (tape ++ [.call] ++ [.pause (delay made)]) := by
  rw [conflictLoop_run hmade, houtcome]
  dsimp only
  rw [if_pos h]
  rfl

/-- What is on the tape after the loop: the calls up to the one that stops it. By induction on the
calls that may still follow the next one. -/
theorem conflictLoop_tape (outcome : Nat → Except Failure α) (delay : Nat → Duration) (waits : Nat)
    (hmade : tape.count .call = made) :
    ∃ n r, Stops outcome (made + waits + 1) made (made + n + 1) ∧
      (conflictLoop Tape.pause delay (Tape.call outcome) waits made).run tape =
        (r, tape ++ .call :: Tape.again delay made n) ∧
      Ends outcome (made + waits + 1) (made + n + 1) r := by
  induction waits generalizing made tape with
  | zero =>
    by_cases h : Conflicts (outcome (made + 1))
    · obtain ⟨e, houtcome, hconflict⟩ := h.exists_error
      refine ⟨0, _, .next (by omega) (.inl rfl), conflictLoop_of_spent hmade houtcome hconflict,
        fun hsettled => absurd h hsettled, fun e' he' _ => ?_⟩
      cases houtcome.symm.trans he'
      rfl
    · exact ⟨0, _, .next (by omega) (.inr h), conflictLoop_of_settled hmade h, .of_settled h⟩
  | succ waits ih =>
    by_cases h : Conflicts (outcome (made + 1))
    · obtain ⟨e, houtcome, hconflict⟩ := h.exists_error
      have hcount : List.count Act.call (tape ++ [.call] ++ [.pause (delay made)]) = made + 1 := by
        rw [List.count_append, List.count_append, hmade]
        rfl
      obtain ⟨n, r, hstops, hrun, hends⟩ := ih hcount
      have hlast : made + 1 + waits + 1 = made + (waits + 1) + 1 := by omega
      have hk : made + 1 + n + 1 = made + (n + 1) + 1 := by omega
      rw [hlast, hk] at hstops hends
      refine ⟨n + 1, r, .later h hstops, ?_, hends⟩
      rw [conflictLoop_of_conflict hmade houtcome hconflict, hrun, Tape.again, Tape.again,
        List.range'_succ, List.append_assoc, List.append_assoc]
      rfl
    · exact ⟨0, _, .next (by omega) (.inr h), conflictLoop_of_settled hmade h, .of_settled h⟩

end Loop

/-- With `max 1 b.steps` calls in all, the call is made up to the first outcome that is no conflict.
Before the next call but one after the `i`th there is the pause that belongs to `i` earlier ones. -/
theorem retryOnConflict_tape (b : Backoff) (outcome : Nat → Except Failure α) :
    ∃ k r,
      IsLeast {n | n = max 1 b.steps ∨ 0 < n ∧ ¬ Conflicts (outcome n)} k ∧
      (retryOnConflict Tape.pause b (Tape.call outcome)).run [] =
        (r, .call :: (List.range (k - 1)).flatMap fun i =>
          [.pause (backoffDelay i b.initial b.cap), .call]) ∧
      (¬ Conflicts (outcome k) → r = outcome k) ∧
      ∀ e, outcome k = .error e → Conflicts (outcome k) →
        r = .error (.exhausted (max 1 b.steps) e) := by
  have hnone : List.count Act.call [] = 0 := rfl
  obtain ⟨n, r, hstops, hrun, hends⟩ := conflictLoop_tape outcome b.delay (b.budget - 1) hnone
  have hbudget : 0 + (b.budget - 1) + 1 = max 1 b.steps := by
    rw [Backoff.budget]
    omega
  rw [hbudget] at hstops hends
  refine ⟨0 + n + 1, r, hstops, ?_, hends.settled, hends.exhausted⟩
  rw [retryOnConflict, hrun, Tape.again, ← List.range_eq_range', Nat.zero_add, Nat.add_sub_cancel]
  rfl

/-- Of at most `attempts` calls the `k`th is the last one: the first success, or the last attempt. A
success is the result as it is, a failure comes in the report that all attempts were in vain. -/
structure Polled (outcome : Nat → Except Failure α) (attempts k : Nat) (r : Except Failure α) :
    Prop where
  last : IsLeast {n | n = attempts ∨ 0 < n ∧ ∃ a, outcome n = .ok a} k
  succeeded : ∀ a, outcome k = .ok a → r = .ok a
  exhausted : ∀ e, outcome k = .error e → k = attempts ∧ r = .error (.exhausted attempts e)

theorem error_of_lt {n i : Nat}
    (h : IsLeast {n | n = last ∨ 0 < n ∧ ∃ a, outcome n = .ok a} (n + 1)) (hi : i < n) :
    ∃ e, outcome (i + 1) = .error e := by
  cases houtcome : outcome (i + 1) with
  | error e => exact ⟨e, rfl⟩
  | ok a =>
    have hle : n + 1 ≤ i + 1 := h.2 (.inr ⟨i.succ_pos, a, houtcome⟩)
    omega

theorem eq_of_error {e : Failure}
    (h : IsLeast {n | n = last ∨ 0 < n ∧ ∃ a, outcome n = .ok a} k) (he : outcome k = .error e) :
    k = last := by
  rcases h.1 with heq | ⟨-, a, ha⟩
  · exact heq
  · cases he.symm.trans ha

theorem Polled.pos (h : Polled outcome last k r) (hlast : 0 < last) : 0 < k := by
  rcases h.last.1 with rfl | ⟨hk, -⟩
  · exact hlast
  · exact hk

theorem Polled.le (h : Polled outcome last k r) : k ≤ last := h.last.2 (.inl rfl)

theorem Polled.eq_ok {a : α} (h : Polled outcome last k (.ok a)) : outcome k = .ok a := by
  cases houtcome : outcome k with
  | ok b => exact (h.succeeded b houtcome).symm
  | error e => cases (h.exhausted e houtcome).2

section Poll
variable {σ : Type} {pause : Duration → StateM σ Unit} {interval : Duration}
  {call : StateM σ (Except Failure α)} {s t : σ} {e : Failure}

def afterPause (pause : Duration → StateM σ Unit) (interval : Duration)
    (call : StateM σ (Except Failure α)) (s : σ) : σ :=
  ((pause interval).run (call.run s).2).2

theorem pollLoop_of_ok {a : α} (h : call.run s = (.ok a, t)) :
    (pollLoop pause interval call waits made).run s = (.ok a, t) := by
  rw [pollLoop, StateT.run_bind, h]
  rfl

theorem pollLoop_of_spent (h : call.run s = (.error e, t)) :
    (pollLoop pause interval call 0 made).run s = (.error (.exhausted (made + 1) e), t) := by
  rw [pollLoop, StateT.run_bind, h]
  rfl

theorem pollLoop_of_error (h : (call.run s).1 = .error e) :
    (pollLoop pause interval call (waits + 1) made).run s =
      (pollLoop pause interval call waits (made + 1)).run (afterPause pause interval call s) := by
  have hcall : call.run s = (.error e, (call.run s).2) := Prod.ext h rfl
  rw [pollLoop, StateT.run_bind, hcall]
  rfl

/-- The loop after `n` failures. By induction on `n`, from the state after a call and a pause. -/
theorem pollLoop_of_errors (n : Nat)
    (h : ∀ i < n, ∃ e, (call.run ((afterPause pause interval call)^[i] s)).1 = .error e) :
    (pollLoop pause interval call (waits + n) made).run s =
      (pollLoop pause interval call waits (made + n)).run
        ((afterPause pause interval call)^[n] s) := by
  induction n generalizing s made with
  | zero => rfl
  | succ n ih =>
    obtain ⟨e, he⟩ : ∃ e, (call.run s).1 = .error e := h 0 n.succ_pos
    have hrest := @ih (made + 1) (afterPause pause interval call s)
      fun i hi => h (i + 1) (Nat.succ_lt_succ hi)
    rw [← Nat.add_assoc, pollLoop_of_error he, hrest, Function.iterate_succ_apply]
    congr 2
    omega

theorem retryEvery_run (attempts : Nat)
    (houtcome : ∀ n, (call.run ((afterPause pause interval call)^[n] s)).1 = outcome (n + 1)) :
    ∃ k r, Polled outcome (max 1 attempts) k r ∧
      (retryEvery pause interval attempts call).run s =
        (r, (call.run ((afterPause pause interval call)^[k - 1] s)).2) := by
  have hexists : ∃ k, IsLeast {n | n = max 1 attempts ∨ 0 < n ∧ ∃ a, outcome n = .ok a} k :=
    ⟨_, isLeast_csInf ⟨_, .inl rfl⟩⟩
  obtain ⟨k, hk⟩ := hexists
  obtain ⟨n, rfl⟩ : ∃ n, k = n + 1 := by
    refine Nat.exists_eq_succ_of_ne_zero ?_
    rcases hk.1 with h | ⟨h, -⟩ <;> omega
  have hle : n + 1 ≤ max 1 attempts := hk.2 (.inl rfl)
  obtain ⟨waits, hwaits⟩ : ∃ waits, max attempts 1 - 1 = waits + n :=
    ⟨max attempts 1 - 1 - n, by omega⟩
  have herrors : ∀ i < n,
      ∃ e, (call.run ((afterPause pause interval call)^[i] s)).1 = .error e := by
    intro i hi
    rw [houtcome]
    exact error_of_lt hk hi
  rw [retryEvery, hwaits, pollLoop_of_errors n herrors, Nat.zero_add]
  have hlast := houtcome n
  cases h : outcome (n + 1) with
  | ok a =>
    rw [h] at hlast
    refine ⟨n + 1, .ok a, ⟨hk, ?_, ?_⟩, pollLoop_of_ok (Prod.ext hlast rfl)⟩
    · simp [h]
    · simp [h]
  | error e =>
    rw [h] at hlast
    have hattempts := eq_of_error hk h
    obtain rfl : waits = 0 := by omega
    refine ⟨n + 1, .error (.exhausted (n + 1) e), ⟨hk, ?_, ?_⟩,
      pollLoop_of_spent (Prod.ext hlast rfl)⟩
    · simp [h]
    · simp [h, ← hattempts]

theorem retryEvery_modify (wait : Duration → σ → σ) (interval : Duration) (attempts : Nat)
    (call : σ → Except Failure α × σ) (s : σ) :
    ∃ k r, Polled (fun n => (call ((fun s => wait interval (call s).2)^[n - 1] s)).1)
        (max 1 attempts) k r ∧
      (retryEvery (m := StateM σ) (fun d => modify (wait d)) interval attempts call).run s =
        (r, (call ((fun s => wait interval (call s).2)^[k - 1] s)).2) :=
  retryEvery_run attempts fun _ => rfl

end Poll

theorem afterPause_tape (outcome : Nat → Except Failure α) (interval : Duration) (n : Nat) :
    (afterPause Tape.pause interval (Tape.call outcome))^[n] [] =
      (List.replicate n [Act.call, .pause interval]).flatten := by
  induction n with
  | zero => rfl
  | succ n ih =>
    rw [Function.iterate_succ_apply', ih, List.replicate_succ', List.flatten_concat]
    exact List.append_assoc _ _ _

/-- The call is made up to the first success, at most `max 1 attempts` times, with a pause between
each two calls. -/
theorem retryEvery_tape (interval : Duration) (attempts : Nat) (outcome : Nat → Except Failure α) :
    ∃ k r, Polled outcome (max 1 attempts) k r ∧
      (retryEvery Tape.pause interval attempts (Tape.call outcome)).run [] =
        (r, (List.replicate (k - 1) [.call, .pause interval]).flatten ++ [.call]) := by
  have houtcome (n : Nat) : ((Tape.call outcome).run
      ((afterPause Tape.pause interval (Tape.call outcome))^[n] [])).1 = outcome (n + 1) := by
    have hcount :
        List.count Act.call (List.replicate n [Act.call, .pause interval]).flatten = n := by
      simp [List.count_flatten]
    rw [afterPause_tape]
    change outcome _ = _
    rw [hcount]
  obtain ⟨k, r, hpolled, hrun⟩ := retryEvery_run attempts houtcome
  rw [afterPause_tape] at hrun
  exact ⟨k, r, hpolled, hrun⟩

end GameIngress
