import GameIngress.Controller
import GameIngress.Proofs.Backoff
import GameIngress.Proofs.Dispatch.Delay
import Mathlib.Algebra.Group.Nat.Defs

/-!
# How long waits can be

A valid configuration has a shortest wait that is no longer than its longest one. Every timer of its
dispatcher waits for something in between, and for just what the number of failures asks, however
many there were: the count of failures stops only where waits have long ceased to grow.
-/
namespace GameIngress

theorem Config.base_le_max {c c' : Config} (h : c.validate = .ok c') :
    c.requeueBaseDelay ≤ c.requeueMaxDelay := by
  unfold validate fault? at h
  refine Nat.le_of_not_lt fun hlt => ?_
  have hfault : c.requeueMaxDelay < c.requeueBaseDelay := hlt
  split at h
  · cases h
  · next hnone =>
    rw [if_pos hfault] at hnone
    split at hnone
    · cases hnone
    · split at hnone <;> cases hnone

namespace Dispatch

/-- The wait is the base delay, doubled so many times but no more than sixteen times, unless that is
above the longest delay; and so it is between the two. -/
structure WaitsFor (c : Config) (failures : Nat) (wait : Duration) : Prop where
  exact : wait.nanos =
    min c.requeueMaxDelay.nanos (c.requeueBaseDelay.nanos * 2 ^ min failures 16)
  base_le : c.requeueBaseDelay ≤ wait
  le_max : wait ≤ c.requeueMaxDelay

variable {c : Config}

theorem waitsFor_backoffDelay (hc : c.validate = .ok c) (n : Nat) :
    WaitsFor c n (backoffDelay n c.requeueBaseDelay c.requeueMaxDelay) :=
  have hbounds := backoffDelay_bounds (Config.base_le_max hc) n
  ⟨nanos_backoffDelay n _ _, hbounds.1, hbounds.2⟩

theorem Queue.failureCount_arm (q : Queue) (now : Nat) (k : Watch.Key) :
    (q.arm now k).failureCount k = min (q.failureCount k + 1) maxFailures := by
  simp [arm, failureCount, Assoc.get?_set]

theorem Run.waitsFor {ts us : List Turn} {t : Turn} {h : Chronicle} (hc : c.validate = .ok c)
    (hr : Run (Controller.dispatchSettings c) (ts ++ t :: us) h) {timer : Timer}
    (ht : timer ∈ t.armed) :
    WaitsFor c (timersOf timer.key (since (Turn.clears timer.key) ts)).length timer.delay := by
  obtain ⟨hbefore, hs⟩ := hr.split
  have hdelay := hbefore.delay_eq hs ht
  rw [hbefore.failureCount, backoffDelay_min] at hdelay
  rw [hdelay]
  exact waitsFor_backoffDelay hc _

/-- Waits are exact although they are reckoned in machine words, they do not become shorter, and a
base within the cap keeps them between the two. So do the timers of a valid configuration, from any
count of failures and at any time of a run, where the number of timers before counts without bound.
-/
theorem waits_exact_and_bounded :
    (∀ attempt base cap, backoffDelay attempt base cap = heldDelay attempt base cap ∧
      (backoffDelay attempt base cap).nanos =
        min cap.nanos (base.nanos * 2 ^ min attempt 16)) ∧
    (∀ attempt attempt' base cap, attempt ≤ attempt' →
      backoffDelay attempt base cap ≤ backoffDelay attempt' base cap) ∧
    (∀ attempt base cap, base ≤ cap →
      base ≤ backoffDelay attempt base cap ∧ backoffDelay attempt base cap ≤ cap) ∧
    ∀ c : Config, c.validate = .ok c → c.requeueBaseDelay ≤ c.requeueMaxDelay ∧
      (∀ (q : Queue) now k, q.delays = (Controller.dispatchSettings c).delays →
        ∃ timer, (q.arm now k).timers = q.timers ++ [timer] ∧ timer.key = k ∧
          WaitsFor c (q.failureCount k) timer.delay ∧
          (q.arm now k).failureCount k = min (q.failureCount k + 1) (2 ^ 32 - 1)) ∧
      ∀ ts t us h, Run (Controller.dispatchSettings c) (ts ++ t :: us) h →
        ∀ timer ∈ t.armed, WaitsFor c
          (timersOf timer.key (since (Turn.clears timer.key) ts)).length timer.delay := by
  refine ⟨fun attempt base cap => ⟨backoffDelay_eq_heldDelay attempt base cap,
    nanos_backoffDelay attempt base cap⟩, fun attempt attempt' base cap hle => ?_,
    fun attempt base cap hle => backoffDelay_bounds hle attempt,
    fun c hc => ⟨Config.base_le_max hc, fun q now k hdelays => ?_, fun ts t us h hr timer ht =>
      hr.waitsFor hc ht⟩⟩
  · exact backoffDelay_le_of_min_le (by omega) base cap
  · refine ⟨q.nextTimer now k, rfl, rfl, ?_, q.failureCount_arm now k⟩
    rw [Queue.nextTimer, hdelays]
    exact waitsFor_backoffDelay hc _

/-- With the default configuration, a counter at its end waits like any after the sixteenth failure,
and the second failure of a game server waits twice as long as the first. -/
theorem waits_of_default :
    ({} : Config).validate = .ok {} ∧
    (Duration.greatest ≤ Duration.greatest ∧
      Duration.greatest ≤ backoffDelay (2 ^ 32 - 1) .greatest .greatest) ∧
    (0 ≤ 1 ∧ backoffDelay 0 (.ofMillis 5) .greatest ≤ backoffDelay 1 (.ofMillis 5) .greatest) ∧
    (∃ (q : Queue) (timer : Timer),
      q.delays = (Controller.dispatchSettings {}).delays ∧
      q.failureCount Queue.lone.key = 2 ^ 32 - 1 ∧
      (q.arm 0 Queue.lone.key).timers = [timer] ∧ WaitsFor {} (2 ^ 32 - 1) timer.delay) ∧
    ∃ ts t h timer, Run (Controller.dispatchSettings {}) (ts ++ [t]) h ∧ timer ∈ t.armed ∧
      timer.delay.nanos = 10000000 := by
  obtain ⟨-, hmono, hbounds, hvalid⟩ := waits_exact_and_bounded
  obtain ⟨-, hqueue, hrun⟩ := hvalid {} rfl
  refine ⟨rfl, ⟨Nat.le_refl _, (hbounds _ _ _ (Nat.le_refl _)).1⟩,
    ⟨Nat.zero_le 1, hmono 0 1 _ _ (Nat.zero_le 1)⟩, ?_, ?_⟩
  · let q : Queue :=
      { slots := { size := 1 }, delays := (Controller.dispatchSettings {}).delays
        failures := [(Queue.lone.key, 2 ^ 32 - 1)] }
    obtain ⟨timer, htimers, -, hwaits, -⟩ := hqueue q 0 Queue.lone.key rfl
    exact ⟨q, timer, rfl, rfl, htimers, hwaits⟩
  · obtain ⟨ts, h, d, timer, hp, hs, ht, hcount⟩ : ∃ ts h d timer,
        play (Controller.dispatchSettings {}) [(0, .watch (.apply Queue.lone.gs)),
          (7, .settled 0 (.failed Chronicle.internalError) 7), (7, .join 7), (12, .expire 0),
          (20, .settled 1 (.failed Chronicle.internalError) 8)] = .ok (ts, h) ∧
        h.dispatcher.step (.join 20) = .ok d ∧ timer ∈ (Turn.mk 20 h (.join 20) d).armed ∧
        (timersOf timer.key (since (Turn.clears timer.key) ts)).length = 1 :=
      ⟨_, _, _, _, rfl, rfl, List.mem_singleton_self _, rfl⟩
    have hr := (Run.of_play hp).turn 20 hs
    refine ⟨ts, _, _, timer, hr, ht, ?_⟩
    rw [(hrun ts _ [] _ hr timer ht).exact, hcount]
    rfl

end Dispatch
end GameIngress
