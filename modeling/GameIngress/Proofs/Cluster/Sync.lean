import GameIngress.Proofs.Cluster.Clock
import GameIngress.Proofs.Retry
import Mathlib.Data.Nat.Basic
import Mathlib.Logic.Function.Iterate
import Mathlib.Order.Basic

/-!
# Waiting for the caches

An attempt to see both caches complete ends when they are, when one that is waited for never will
be, or when its time is up. Attempts are repeated after pauses, so the whole wait has a bound.
Timers count whole milliseconds, and so does the bound.
-/
namespace GameIngress

theorem Duration.timerMillis_mul_of_dvd {d : Duration} (h : 1000000 ∣ d.nanos) :
    d.timerMillis * 1000000 = d.nanos := by
  unfold timerMillis
  omega

namespace Cluster.World

variable {interval timeout : Duration} {deadline fuel : Nat} {v w : World}
  {x : Except Failure Unit × World}

/-- How a wait that begins at `v` ends: with both caches complete, with one that never will be, or
at the deadline. -/
inductive AwaitEnds (timeout : Duration) (deadline : Nat) (v : World) :
    Except Failure Unit × World → Prop
  | complete {w : World} (hservices : w.services.synced = true)
      (hingresses : w.ingresses.synced = true) (hstart : v.now ≤ w.now)
      (hnow : w.now = v.now ∨ w.now < deadline) : AwaitEnds timeout deadline v (.ok (), w)
  | dropped {w : World} (hhopeless : w.isHopeless = true) (hstart : v.now ≤ w.now)
      (hnow : w.now = v.now ∨ w.now < deadline) :
      AwaitEnds timeout deadline v
        (.error (.cacheSync "writer was dropped before store became ready"), w)
  | late {w : World} (hsynced : w.isSynced = false) (hnow : w.now = deadline) :
      AwaitEnds timeout deadline v
        (.error (.cacheSync ("caches not synced within " ++ timeout.text)), w)

theorem AwaitEnds.later (h : AwaitEnds timeout deadline w x) (hstart : v.now ≤ w.now)
    (hnow : w.now < deadline) : AwaitEnds timeout deadline v x := by
  cases h with
  | complete hservices hingresses hw hend =>
    exact .complete hservices hingresses (hstart.trans hw) (by omega)
  | dropped hhopeless hw hend => exact .dropped hhopeless (hstart.trans hw) (by omega)
  | late hsynced hend => exact .late hsynced hend

theorem AwaitEnds.now_le (h : AwaitEnds timeout deadline v x) (hv : v.now ≤ deadline) :
    x.2.now ≤ deadline := by
  cases h with
  | complete _ _ _ hnow | dropped _ _ hnow => dsimp only; omega
  | late _ hnow => exact hnow.le

theorem awaitEnds_succ (h : ∀ t, w.due? = some t → max t w.now < deadline →
      AwaitEnds timeout deadline (w.advance (max t w.now))
        (awaitSync timeout deadline fuel (w.advance (max t w.now)))) :
    AwaitEnds timeout deadline w (awaitSync timeout deadline (fuel + 1) w) := by
  rw [awaitSync]
  split
  · next hsynced =>
    obtain ⟨hservices, hingresses⟩ := Bool.and_eq_true_iff.mp hsynced
    exact .complete hservices hingresses (Nat.le_refl _) (.inl rfl)
  · next hsynced =>
    have hincomplete : w.isSynced = false := by simpa using hsynced
    have hlate : AwaitEnds timeout deadline w (awaitSync.late timeout deadline w) :=
      .late hincomplete rfl
    split
    · next hhopeless => exact .dropped hhopeless (Nat.le_refl _) (.inl rfl)
    · split
      · next t hdue =>
        split
        · next hlt =>
          refine (h t hdue hlt).later ?_ ?_ <;> rw [now_advance]
          · exact Nat.le_max_right _ _
          · exact hlt
        · exact hlate
      · exact hlate

/-- Where all that was due has happened, the clock moves with whatever happens next. So no more can
happen than there are milliseconds left. -/
theorem awaitEnds_of_ahead (hahead : w.Ahead) (hnow : w.now < deadline)
    (hfuel : deadline ≤ w.now + fuel) :
    AwaitEnds timeout deadline w (awaitSync timeout deadline fuel w) := by
  induction fuel generalizing w with
  | zero => omega
  | succ fuel ih =>
    refine awaitEnds_succ fun t hdue hlt => ih (ahead_advance _ _) ?_ ?_ <;> rw [now_advance]
    · exact hlt
    · have hlater := hahead t hdue
      omega

theorem attemptSync_ends (timeout : Duration) (w : World) :
    AwaitEnds timeout (w.now + timeout.timerMillis) w (attemptSync timeout w) := by
  refine awaitEnds_succ fun t _ hlt => awaitEnds_of_ahead (ahead_advance _ _) ?_ ?_ <;>
    rw [now_advance]
  · exact hlt
  · omega

/-- From `v` to `w` not more time passes than `d`, and at its end both caches are complete. -/
structure CompleteWithin (d : Duration) (v w : World) : Prop where
  services : w.services.synced = true
  ingresses : w.ingresses.synced = true
  start : v.now ≤ w.now
  inTime : (w.now - v.now) * 1000000 ≤ d.nanos

theorem AwaitEnds.completeWithin (h : AwaitEnds timeout (v.now + timeout.timerMillis) v x)
    (hx : x.1 = .ok ()) : CompleteWithin timeout v x.2 := by
  cases h with
  | complete hservices hingresses hstart hnow =>
    refine ⟨hservices, hingresses, hstart, ?_⟩
    unfold Duration.timerMillis at hnow
    dsimp only
    omega
  | dropped | late => cases hx

/-- The cluster when the `n`th attempt begins, after the attempts before it with a pause each. -/
def beforeAttempt (interval timeout : Duration) (n : Nat) (w : World) : World :=
  (fun w => (attemptSync timeout w).2.pass interval.timerMillis)^[n - 1] w

def attempt (interval timeout : Duration) (n : Nat) (w : World) : Except Failure Unit × World :=
  attemptSync timeout (w.beforeAttempt interval timeout n)

theorem attempt_ends (interval timeout : Duration) (n : Nat) (w : World) :
    AwaitEnds timeout ((w.beforeAttempt interval timeout n).now + timeout.timerMillis)
      (w.beforeAttempt interval timeout n) (w.attempt interval timeout n) :=
  attemptSync_ends timeout _

theorem sync_run (interval timeout : Duration) (attempts : Nat) (w : World) :
    ∃ k r, Polled (fun n => (w.attempt interval timeout n).1) (max 1 attempts) k r ∧
      (sync interval timeout attempts).run w = (r, (w.attempt interval timeout k).2) :=
  retryEvery_modify (fun d => pass d.timerMillis) interval attempts (attemptSync timeout) w

theorem now_beforeAttempt (interval timeout : Duration) (n : Nat) (w : World) :
    (w.beforeAttempt interval timeout (n + 1)).now ≤
      w.now + n * (timeout.timerMillis + interval.timerMillis) := by
  induction n with
  | zero => exact Nat.le_add_right _ _
  | succ n ih =>
    have hend := (attempt_ends interval timeout (n + 1) w).now_le (Nat.le_add_right _ _)
    have hnext : w.beforeAttempt interval timeout (n + 1 + 1) =
        (w.attempt interval timeout (n + 1)).2.pass interval.timerMillis := by
      simp only [beforeAttempt, attempt, Nat.add_sub_cancel, Function.iterate_succ_apply']
    rw [hnext, now_pass, Nat.succ_mul]
    omega

/-- Attempts up to the `k`th take no more than their time, and there is a pause before each but the
first. -/
theorem now_attempt {attempts k : Nat} (hpos : 0 < k) (hk : k ≤ attempts) :
    (w.attempt interval timeout k).2.now ≤
      w.now + (attempts * timeout.timerMillis + (attempts - 1) * interval.timerMillis) := by
  obtain ⟨n, rfl⟩ : ∃ n, k = n + 1 := Nat.exists_eq_succ_of_ne_zero hpos.ne'
  have hend := (attempt_ends interval timeout (n + 1) w).now_le (Nat.le_add_right _ _)
  have hbegin := now_beforeAttempt interval timeout n w
  have htimes : (n + 1) * timeout.timerMillis ≤ attempts * timeout.timerMillis :=
    Nat.mul_le_mul_right _ hk
  have hpauses : n * interval.timerMillis ≤ (attempts - 1) * interval.timerMillis :=
    Nat.mul_le_mul_right _ (by omega)
  rw [Nat.mul_add] at hbegin
  rw [Nat.succ_mul] at htimes
  omega

theorem elapsed_le {begun ended attempts : Nat} (htimeout : 1000000 ∣ timeout.nanos)
    (hinterval : 1000000 ∣ interval.nanos)
    (h : ended ≤ begun + (attempts * timeout.timerMillis + (attempts - 1) * interval.timerMillis)) :
    (ended - begun) * 1000000 ≤ attempts * timeout.nanos + (attempts - 1) * interval.nanos := by
  rw [← Duration.timerMillis_mul_of_dvd htimeout, ← Duration.timerMillis_mul_of_dvd hinterval,
    ← Nat.mul_assoc, ← Nat.mul_assoc, ← Nat.add_mul]
  exact Nat.mul_le_mul_right _ (by omega)

/-- A call that is repeated after any failure is made up to its first success, at most
`max 1 attempts` times, with a pause between each two calls and none after the last. So the caches
are waited for no longer than that many attempts and the pauses between them take, each counted in
milliseconds as timers count it, and the wait is successful only if one attempt sees both caches
complete within its time. -/
theorem sync_in_attempts :
    (∀ (α : Type) (interval : Duration) (attempts : Nat) (outcome : Nat → Except Failure α),
      ∃ k r, Polled outcome (max 1 attempts) k r ∧
        (retryEvery Tape.pause interval attempts (Tape.call outcome)).run [] =
          (r, (List.replicate (k - 1) [.call, .pause interval]).flatten ++ [.call])) ∧
    ∀ (interval timeout : Duration) (attempts : Nat) (w : World),
      ∃ k r w', (sync interval timeout attempts).run w = (r, w') ∧
        Polled (fun n => (w.attempt interval timeout n).1) (max 1 attempts) k r ∧
        w' = (w.attempt interval timeout k).2 ∧
        (∀ n, AwaitEnds timeout ((w.beforeAttempt interval timeout n).now + timeout.timerMillis)
          (w.beforeAttempt interval timeout n) (w.attempt interval timeout n)) ∧
        w'.now ≤ w.now + (max 1 attempts * timeout.timerMillis +
          (max 1 attempts - 1) * interval.timerMillis) ∧
        (1000000 ∣ timeout.nanos → 1000000 ∣ interval.nanos → (w'.now - w.now) * 1000000 ≤
          max 1 attempts * timeout.nanos + (max 1 attempts - 1) * interval.nanos) ∧
        (r = .ok () → CompleteWithin timeout (w.beforeAttempt interval timeout k) w') := by
  refine ⟨fun _ => retryEvery_tape, fun interval timeout attempts w => ?_⟩
  obtain ⟨k, r, hpolled, hrun⟩ := sync_run interval timeout attempts w
  have hends (n : Nat) := attempt_ends interval timeout n w
  have hpos : 0 < k := hpolled.pos (by omega)
  have hnow : (w.attempt interval timeout k).2.now ≤ w.now + (max 1 attempts * timeout.timerMillis +
      (max 1 attempts - 1) * interval.timerMillis) := now_attempt hpos hpolled.le
  refine ⟨k, r, _, hrun, hpolled, rfl, hends, hnow,
    fun htimeout hinterval => elapsed_le htimeout hinterval hnow, ?_⟩
  rintro rfl
  exact (hends k).completeWithin hpolled.eq_ok

/-- An empty cluster whose server takes so many milliseconds to answer. -/
def answering (latency : Nat) : World :=
  follow 0 { server := {}, services := idle .services, ingresses := idle .ingresses, latency }

/-- Where the first answers come in time, one attempt is enough. -/
theorem sync_in_attempts_answering :
    ∃ v w', (sync (.ofMillis 10) (.ofMillis 100) 3).run (answering 70) = (.ok (), w') ∧
      CompleteWithin (.ofMillis 100) v w' ∧
      (w'.now - (answering 70).now) * 1000000 ≤
        max 1 3 * (Duration.ofMillis 100).nanos + (max 1 3 - 1) * (Duration.ofMillis 10).nanos := by
  obtain ⟨-, hsync⟩ := sync_in_attempts
  obtain ⟨k, r, w', hrun, -, -, -, -, hnow, hok⟩ :=
    hsync (.ofMillis 10) (.ofMillis 100) 3 (answering 70)
  have hsuccess : ((sync (.ofMillis 10) (.ofMillis 100) 3).run (answering 70)).1.isOk = true := by
    decide +kernel
  rw [hrun] at hsuccess
  cases r with
  | error e => cases hsuccess
  | ok a =>
    exact ⟨_, w', hrun, hok rfl, hnow (by decide) (by decide)⟩

/-- Three attempts of a nanosecond each, a nanosecond apart, take five milliseconds. -/
theorem sync_outlasts_attempts :
    ¬ (((sync (.ofNanos 1) (.ofNanos 1) 3).run (answering 5000)).2.now -
        (answering 5000).now) * 1000000 ≤
      max 1 3 * (Duration.ofNanos 1).nanos + (max 1 3 - 1) * (Duration.ofNanos 1).nanos := by
  decide +kernel

end Cluster.World
end GameIngress
