import GameIngress.Dispatch.Queue
import GameIngress.Proofs.Dispatch.Slots

/-!
# What a queue holds for one game server

The profile of a game server collects its standing, its outstanding calls, its timers and its
failure count. The parts of an operation on one game server leave the profiles of all others alone.
-/
namespace GameIngress.Dispatch

open Watch (Key)

/-- An addition or update of the game server; deletes are not kept track of. -/
def Call.IsTracked (k : Key) (c : Call) : Prop := c.delivery.isDelete = false ∧ c.delivery.key = k

instance (k : Key) : DecidablePred (Call.IsTracked k) := fun c =>
  inferInstanceAs (Decidable (c.delivery.isDelete = false ∧ c.delivery.key = k))

@[ext] structure Profile where
  standing : Option Standing
  calls : Multiset Call
  timers : List Timer
  failures : Option Nat

namespace Queue

def profile (k : Key) (q : Queue) : Profile where
  standing := q.standing? k
  calls := q.slots.outstanding.filter (Call.IsTracked k)
  timers := q.timers.filter (·.key = k)
  failures := q.failures.get? k

section Parts
variable {q : Queue} {k k' : Key} {o : Origin} {d : Delivery}

theorem standing?_start : (q.start o d).standing? k =
    if d.key = k then some (.running none) else q.standing? k := Assoc.get?_set _ _ _ _

theorem standing?_erase (q : Queue) (k : Key) :
    { q with standings := q.standings.erase k }.standing? k = none := by
  simp [standing?, Assoc.get?_erase]

theorem profile_spawn (hd : d.isDelete = true) : (q.spawn o d).profile k = q.profile k := by
  have hc : ¬ Call.IsTracked k ⟨q.slots.queued, o, d⟩ := by simp [Call.IsTracked, hd]
  simp only [profile, spawn, Slots.outstanding_enqueue]
  rw [Multiset.filter_cons_of_neg _ hc]
  rfl

theorem profile_start_self (hd : d.isDelete = false) (hk : d.key = k) :
    (q.start o d).profile k = { q.profile k with
      standing := some (.running none)
      calls := ⟨q.slots.queued, o, d⟩ ::ₘ (q.profile k).calls } := by
  have hc : Call.IsTracked k ⟨q.slots.queued, o, d⟩ := ⟨hd, hk⟩
  ext1
  · simp only [profile, standing?_start, if_pos hk]
  · simp only [profile, start, spawn, Slots.outstanding_enqueue]
    rw [Multiset.filter_cons_of_pos _ hc]
  · rfl
  · rfl

theorem profile_start_of_ne (hk : d.key ≠ k) : (q.start o d).profile k = q.profile k := by
  have hc : ¬ Call.IsTracked k ⟨q.slots.queued, o, d⟩ := fun h => hk h.2
  ext1
  · simp only [profile, standing?_start, if_neg hk]
  · simp only [profile, start, spawn, Slots.outstanding_enqueue]
    rw [Multiset.filter_cons_of_neg _ hc]
  · rfl
  · rfl

theorem profile_forget_self : (q.forget k).profile k = { q.profile k with failures := none } := by
  simp [profile, forget, Assoc.get?_erase]
  rfl

theorem profile_forget_of_ne (hk : k ≠ k') : (q.forget k).profile k' = q.profile k' := by
  simp [profile, forget, Assoc.get?_erase, hk]
  rfl

theorem profile_erase_of_ne (hk : k ≠ k') :
    { q with standings := q.standings.erase k }.profile k' = q.profile k' := by
  simp [profile, standing?, Assoc.get?_erase, hk]

theorem profile_set_self (v : Standing) : { q with standings := q.standings.set k v }.profile k =
    { q.profile k with standing := some v } := by
  simp [profile, standing?, Assoc.get?_set]

theorem profile_set_of_ne (v : Standing) (hk : k ≠ k') :
    { q with standings := q.standings.set k v }.profile k' = q.profile k' := by
  simp [profile, standing?, Assoc.get?_set, hk]

theorem profile_cancelTimer (id : Nat) : (q.cancelTimer id).profile k =
    { q.profile k with timers := (q.profile k).timers.filter (·.id ≠ id) } := by
  simp only [profile, cancelTimer, List.filter_comm]
  rfl

theorem profile_settle (id : Nat) (r : CallResult) :
    { q with slots := q.slots.settle id r }.profile k = q.profile k := by
  simp only [profile, Slots.outstanding_settle]
  rfl

def nextTimer (now : Nat) (k : Key) (q : Queue) : Timer :=
  let delay := backoffDelay (q.failureCount k) q.delays.base q.delays.cap
  ⟨q.armed, k, delay, now + delay.timerMillis⟩

theorem profile_arm_self (now : Nat) : (q.arm now k).profile k = { q.profile k with
    standing := some (.waiting q.armed)
    timers := (q.profile k).timers ++ [q.nextTimer now k]
    failures := some (min (q.failureCount k + 1) maxFailures) } := by
  simp [profile, arm, standing?, nextTimer, Assoc.get?_set]

theorem profile_arm_of_ne (now : Nat) (hk : k ≠ k') : (q.arm now k).profile k' = q.profile k' := by
  simp [profile, arm, standing?, Assoc.get?_set, hk]

end Parts
end Queue
end GameIngress.Dispatch
