import GameIngress.Proofs.Reconcile.Crowd
import GameIngress.Proofs.Store.Interruption

/-!
# Cancelled reconciles

A reconcile that is cancelled has done the first part of what it does when it is left alone, and
nothing else: the same calls with the same answers, the same events and the same counts. It fails
without a label, and is not tried again.
-/
namespace GameIngress.Reconcile

open Memory

variable {c : Settings} {gs : GameServer} {m whole : Memory} {t : Transcript}

/-- When a notification is cut off, with one more cut-off planned for it. -/
def cancelAt? (cut : Option Nat) (m : Memory) : Option Nat :=
  match m.cutAt, cut with
  | some t, some u => some (min t u)
  | none, some u => some u
  | cutAt, none => cutAt

/-- What a run comes to for the one who asked for it. -/
def outcome (x : Option (Except Failure Unit) × Memory) : Except Failure Unit × Memory :=
  (x.1.getD (.error .cancelled), x.2)

theorem notify_eq (c : Settings) (gs : GameServer) (cut : Option Nat) (m : Memory) :
    m.notify c gs cut = match plan c gs with
      | .skip reason => (.ok (),
          { m with cutAt := cancelAt? cut m, tally := m.tally.bump (.skipped reason.label) })
      | .run p =>
        if m.cutAt.any (· ≤ m.now) then
          (.error .cancelled, m.clocked m.now m.latency (cancelAt? cut m))
        else outcome (run p (m.clocked m.now m.latency (cancelAt? cut m))) := by
  obtain ⟨gameServers, services, ingresses, faults, latency, now, cutAt, tally, log, events⟩ := m
  unfold notify
  cases plan c gs with
  | skip reason => cases cutAt <;> cases cut <;> rfl
  | run p =>
    cases cutAt <;> cases cut
    all_goals
      dsimp only [cancelAt?, clocked]
      congr 1
      rcases run p _ with ⟨_ | r, m'⟩ <;> rfl

theorem notify_of_skip {reason : SkipReason} (hgate : gs.skipReason? = some reason)
    (cut : Option Nat) (m : Memory) :
    m.notify c gs cut = (.ok (),
      { m with cutAt := cancelAt? cut m, tally := m.tally.bump (.skipped reason.label) }) := by
  rw [notify_eq, plan, hgate]

theorem notify_of_due (hgate : gs.skipReason? = none) (hdue : m.cutAt.any (· ≤ m.now) = true)
    (cut : Option Nat) :
    m.notify c gs cut = (.error .cancelled, m.clocked m.now m.latency (cancelAt? cut m)) := by
  rw [notify_eq, plan, hgate]
  exact if_pos hdue

theorem notify_of_not_due (hgate : gs.skipReason? = none)
    (hdue : ¬ m.cutAt.any (· ≤ m.now) = true) (cut : Option Nat) :
    m.notify c gs cut =
      outcome (run (converge c gs) (m.clocked m.now m.latency (cancelAt? cut m))) := by
  rw [notify_eq, plan, hgate]
  exact if_neg hdue

theorem notify_of_uncut {r : Except Failure Unit} (hgate : gs.skipReason? = none)
    (hy : (converge c gs).Yields t r) (hs : m.Serves t whole) {cut : Option Nat}
    (hcut : cancelAt? cut m = none) :
    m.notify c gs cut = (r, whole.clocked (m.now + m.spent t) m.latency none) := by
  have hdue : ¬ m.cutAt.any (· ≤ m.now) = true := by
    unfold cancelAt? at hcut
    split at hcut
    · cases hcut
    · cases hcut
    · simp [hcut]
  rw [notify_of_not_due hgate hdue, hcut, run_uncut hy hs]
  rfl

/-- A game server that does not pass the gate is counted, cancelled or not. For one that passes, a
cancelled notification does what comes before the instant of its cancellation of all that the same
notification does when it is left alone: it gives the same answer if that was over before, and else
leaves the store as these first requests leave it, and fails. Cancelled from the start, it leaves
the store as it is. -/
theorem cancelled_part_way (c : Settings) (gs : GameServer) (cut : Option Nat) (m : Memory) :
    Failure.cancelled.isRetriable = false ∧
    match gs.skipReason? with
    | some reason =>
      m.notify c gs cut = (.ok (),
        { m with cutAt := cancelAt? cut m, tally := m.tally.bump (.skipped reason.label) })
    | none =>
      ∃ t r whole, (converge c gs).Yields t r ∧ m.Serves t whole ∧ r ≠ .error .cancelled ∧
        { m with cutAt := none }.notify c gs none =
          (r, whole.clocked (m.now + m.spent t) m.latency none) ∧
        match cancelAt? cut m with
        | none =>
          m.notify c gs cut = (r, whole.clocked (m.now + m.spent t) m.latency none)
        | some instant =>
          if m.cutAt.any (· ≤ m.now) then
            m.notify c gs cut = (.error .cancelled, m.clocked m.now m.latency (some instant))
          else if Before instant m.now (m.spent t) then
            m.notify c gs cut = (r, whole.clocked (m.now + m.spent t) m.latency (some instant))
          else
            ∃ done left, m.CutShort t instant m.now done ∧ m.Serves done left ∧
              left.log <:+ whole.log ∧ left.events <:+ whole.events ∧
              m.notify c gs cut =
                (.error .cancelled, left.clocked (max instant m.now) m.latency (some instant)) := by
  refine ⟨rfl, ?_⟩
  split
  · next reason hgate => exact notify_of_skip hgate cut m
  · next hgate =>
    obtain ⟨t, r, whole, hy, hs⟩ := exists_serves (converge c gs) m
    have hleft : { m with cutAt := none }.notify c gs none =
        (r, whole.clocked (m.now + m.spent t) m.latency none) := by
      rw [notify_of_not_due hgate (by simp)]
      exact congrArg outcome (run_uncut hy hs m.now)
    refine ⟨t, r, whole, hy, hs, (sequenced_of_yields hy).ne_cancelled, hleft, ?_⟩
    split
    · next hcut => exact notify_of_uncut hgate hy hs hcut
    · next instant hcut =>
      split
      · next hdue => rw [notify_of_due hgate hdue, hcut]
      · next hdue =>
        rw [notify_of_not_due hgate hdue, hcut]
        obtain ⟨hbefore, hrun⟩ | ⟨hbefore, done, left, hshort, hserves, hrun⟩ :=
          run_cut hy hs instant m.now
        · rw [if_pos hbefore, hrun]
          rfl
        · obtain ⟨e, rest, ht, -⟩ := hshort.rest
          obtain ⟨hlog, hevents⟩ := (ht ▸ hs).suffix hserves
          rw [if_neg hbefore]
          exact ⟨done, left, hshort, hserves, hlog, hevents, congrArg outcome hrun⟩

def slowStore : Memory := { gameServers := [("d/a", Crowd.exposed)], latency := 10 }

/-- Cancelled after 25 ms, when both objects were created and the game server was not read yet. -/
theorem cancelled_before_marker :
    (slowStore.notify {} Crowd.exposed (some 25)).1 = .error .cancelled ∧
      ∃ t r done left, (converge {} Crowd.exposed).Yields t r ∧ slowStore.CutShort t 25 0 done ∧
        slowStore.Serves done left ∧ left.services.length = 1 ∧ left.ingresses.length = 1 ∧
        left.gameServers.any (·.2.isMarkedReady) = false := by
  have hresult : (slowStore.notify {} Crowd.exposed (some 25)).1 = .error .cancelled := by
    decide +kernel
  have h := (cancelled_part_way {} Crowd.exposed (some 25) slowStore).2
  rw [show Crowd.exposed.skipReason? = none from rfl] at h
  obtain ⟨t, r, whole, hy, -, hne, -, h⟩ := h
  change if _ then _ else if _ then _ else _ at h
  rw [if_neg (by decide)] at h
  split at h
  · rw [h] at hresult
    exact absurd hresult hne
  · obtain ⟨done, left, hcut, hs, -, -, hnotify⟩ := h
    have hleft : (slowStore.notify {} Crowd.exposed (some 25)).2 = left.clocked 25 10 (some 25) :=
      congrArg Prod.snd hnotify
    have hstore : (slowStore.notify {} Crowd.exposed (some 25)).2.services.length = 1 ∧
        (slowStore.notify {} Crowd.exposed (some 25)).2.ingresses.length = 1 ∧
        (slowStore.notify {} Crowd.exposed (some 25)).2.gameServers.any (·.2.isMarkedReady) =
          false := by
      decide +kernel
    rw [hleft] at hstore
    exact ⟨hresult, t, r, done, left, hy, hcut, hs, hstore⟩

end GameIngress.Reconcile
