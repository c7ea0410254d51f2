import GameIngress.Proofs.Dispatch.Profile
import GameIngress.Proofs.Watch.Cache

/-!
# Coherence of the work queue

The standings, the outstanding calls, the timers and the failure counts of a queue describe one and
the same situation. Every operation keeps it so: it first makes the profile of its game server
vacant, and then fills it again in one of three ways.
-/
namespace GameIngress.Dispatch

open Watch (Key)

/-- How the parts of a profile go together. Nothing is kept for an idle game server; a running one
has one call and no timer; a waiting one has one timer, no call and at least one failure. -/
def Profile.Fits (k : Key) (p : Profile) : Prop :=
  match p.standing with
  | none => p.calls = 0 ∧ p.timers = [] ∧ p.failures = none
  | some (.running pending) =>
    (∃ c, p.calls = {c}) ∧ p.timers = [] ∧ ∀ d, pending = some d → d.key = k ∧ d.isDelete = false
  | some (.waiting id) =>
    p.calls = 0 ∧ (∃ t, p.timers = [t] ∧ t.id = id) ∧ ∃ n, p.failures = some (n + 1)

namespace Queue

variable {q : Queue} {k k' : Key} {o : Origin} {d : Delivery}

/-- Calls and timers are told apart by their numbers. -/
structure Sound (q : Queue) : Prop where
  numbered : q.slots.Numbered
  distinct : (q.timers.map (·.id)).Nodup
  armed : ∀ t ∈ q.timers, t.id < q.armed

structure Coherent (q : Queue) : Prop extends Sound q where
  fits : ∀ k, (q.profile k).Fits k

/-- A queue that has neither a call nor a timer for `k`, and is coherent elsewhere. -/
structure Vacant (k : Key) (q : Queue) : Prop extends Sound q where
  others : ∀ k', k ≠ k' → (q.profile k').Fits k'
  calls : (q.profile k).calls = 0
  timers : (q.profile k).timers = []

namespace Sound

theorem start (h : q.Sound) (o : Origin) (d : Delivery) : (q.start o d).Sound :=
  ⟨h.numbered.enqueue o d, h.distinct, h.armed⟩

theorem spawn (h : q.Sound) (o : Origin) (d : Delivery) : (q.spawn o d).Sound :=
  ⟨h.numbered.enqueue o d, h.distinct, h.armed⟩

theorem settle (h : q.Sound) (id : Nat) (r : CallResult) :
    { q with slots := q.slots.settle id r }.Sound :=
  ⟨h.numbered.settle id r, h.distinct, h.armed⟩

theorem join (h : q.Sound) {c : Call} {r : Outcome} {slots : Slots}
    (hj : q.slots.join = some ((c, r), slots)) : { q with slots }.Sound :=
  ⟨h.numbered.join hj, h.distinct, h.armed⟩

theorem cancelTimer (h : q.Sound) (id : Nat) : (q.cancelTimer id).Sound := by
  refine ⟨h.numbered, ?_, ?_⟩
  · exact h.distinct.sublist (List.filter_sublist.map _)
  · intro t ht
    exact h.armed t (List.mem_of_mem_filter ht)

theorem arm (h : q.Sound) (now : Nat) (k : Key) : (q.arm now k).Sound := by
  refine ⟨h.numbered, ?_, ?_⟩
  · have hnew : q.armed ∉ q.timers.map (·.id) := by
      intro hm
      obtain ⟨t, ht, hid⟩ := List.mem_map.mp hm
      exact Nat.lt_irrefl _ (hid ▸ h.armed t ht)
    simp only [Queue.arm, List.map_append, List.map_cons, List.map_nil]
    exact List.nodup_append'.mpr ⟨h.distinct, List.nodup_singleton _, by simpa using hnew⟩
  · intro t ht
    rcases List.mem_append.mp ht with ht | ht
    · exact (h.armed t ht).trans (Nat.lt_succ_self _)
    · rw [List.mem_singleton.mp ht]
      exact Nat.lt_succ_self _

end Sound

namespace Vacant

theorem erase (h : q.Vacant k) : Vacant k { q with standings := q.standings.erase k } where
  toSound := ⟨h.numbered, h.distinct, h.armed⟩
  others := fun k' hk => (profile_erase_of_ne hk).symm ▸ h.others k' hk
  calls := h.calls
  timers := h.timers

theorem start (h : q.Vacant k) (o : Origin) (hk : d.key = k) (hd : d.isDelete = false) :
    (q.start o d).Coherent where
  toSound := h.toSound.start o d
  fits := by
    intro k'
    by_cases hk' : k = k'
    · subst hk'
      rw [profile_start_self hd hk]
      exact ⟨⟨_, by rw [h.calls]; rfl⟩, h.timers, by simp⟩
    · rw [profile_start_of_ne (hk ▸ hk')]
      exact h.others k' hk'

theorem forget (h : q.Vacant k) (hs : q.standing? k = none) : (q.forget k).Coherent where
  toSound := ⟨h.numbered, h.distinct, h.armed⟩
  fits := by
    intro k'
    by_cases hk : k = k'
    · subst hk
      rw [profile_forget_self]
      have hstanding : (q.profile k).standing = none := hs
      simp only [Profile.Fits, hstanding]
      exact ⟨h.calls, h.timers, trivial⟩
    · rw [profile_forget_of_ne hk]
      exact h.others k' hk

theorem arm (h : q.Vacant k) (now : Nat) : (q.arm now k).Coherent where
  toSound := h.toSound.arm now k
  fits := by
    intro k'
    by_cases hk : k = k'
    · subst hk
      rw [profile_arm_self]
      have hcount : min (q.failureCount k + 1) maxFailures
          = min (q.failureCount k) (maxFailures - 1) + 1 := by
        have hpos : 0 < maxFailures := by decide
        omega
      refine ⟨h.calls, ⟨q.nextTimer now k, ?_, rfl⟩, ⟨_, congrArg some hcount⟩⟩
      rw [h.timers, List.nil_append]
    · rw [profile_arm_of_ne now hk]
      exact h.others k' hk

end Vacant

namespace Coherent

theorem idle (h : q.Coherent) (hs : q.standing? k = none) : (q.profile k).calls = 0 ∧
    (q.profile k).timers = [] ∧ (q.profile k).failures = none := by
  have hfits := h.fits k
  simp only [Profile.Fits, show (q.profile k).standing = none from hs] at hfits
  exact hfits

theorem running (h : q.Coherent) {pending : Option Delivery}
    (hs : q.standing? k = some (.running pending)) : (∃ c, (q.profile k).calls = {c}) ∧
    (q.profile k).timers = [] ∧ ∀ d, pending = some d → d.key = k ∧ d.isDelete = false := by
  have hfits := h.fits k
  simp only [Profile.Fits, show (q.profile k).standing = some (.running pending) from hs] at hfits
  exact hfits

theorem waiting (h : q.Coherent) {id : Nat} (hs : q.standing? k = some (.waiting id)) :
    (q.profile k).calls = 0 ∧ (∃ t, (q.profile k).timers = [t] ∧ t.id = id) ∧
    ∃ n, (q.profile k).failures = some (n + 1) := by
  have hfits := h.fits k
  simp only [Profile.Fits, show (q.profile k).standing = some (.waiting id) from hs] at hfits
  exact hfits

theorem vacant_of_idle (h : q.Coherent) (hs : q.standing? k = none) : q.Vacant k where
  toSound := h.toSound
  others := fun k' _ => h.fits k'
  calls := (h.idle hs).1
  timers := (h.idle hs).2.1

/-- The timer of a waiting game server is there, and is the only one of its number. -/
theorem eq_of_waiting (h : q.Coherent) {id : Nat} (hs : q.standing? k = some (.waiting id))
    {t : Timer} (ht : t ∈ q.timers) (hid : t.id = id) : (q.profile k).timers = [t] := by
  obtain ⟨_, ⟨t', hone, hid'⟩, _⟩ := h.waiting hs
  have hmem : t' ∈ q.timers := by
    have : t' ∈ (q.profile k).timers := by rw [hone]; exact List.mem_singleton_self _
    exact List.mem_of_mem_filter this
  have heq : t' = t := List.inj_on_of_nodup_map h.distinct hmem ht (hid'.trans hid.symm)
  exact heq ▸ hone

theorem key_of_waiting (h : q.Coherent) {id : Nat} (hs : q.standing? k = some (.waiting id))
    {t : Timer} (ht : t ∈ q.timers) (hid : t.id = id) : t.key = k := by
  have hmem : t ∈ (q.profile k).timers := by
    rw [h.eq_of_waiting hs ht hid]; exact List.mem_singleton_self _
  simpa using List.of_mem_filter hmem

theorem waiting_of_mem (h : q.Coherent) {t : Timer} (ht : t ∈ q.timers) :
    q.standing? t.key = some (.waiting t.id) := by
  have hmem : t ∈ (q.profile t.key).timers := List.mem_filter.mpr ⟨ht, by simp⟩
  cases hs : q.standing? t.key with
  | none => simp [(h.idle hs).2.1] at hmem
  | some s =>
    cases s with
    | running pending => simp [(h.running hs).2.1] at hmem
    | waiting id =>
      obtain ⟨_, ⟨t', hone, hid⟩, _⟩ := h.waiting hs
      have : t = t' := by simpa [hone] using hmem
      rw [this, hid]

theorem vacant_cancelTimer (h : q.Coherent) {id : Nat}
    (hs : q.standing? k = some (.waiting id)) : (q.cancelTimer id).Vacant k where
  toSound := h.toSound.cancelTimer id
  others := by
    intro k' hk
    have hkeep : (q.profile k').timers.filter (·.id ≠ id) = (q.profile k').timers := by
      rw [List.filter_eq_self]
      intro t ht
      have hne : t.id ≠ id := fun hid =>
        hk ((h.key_of_waiting hs (List.mem_of_mem_filter ht) hid).symm.trans
          (by simpa using List.of_mem_filter ht))
      simpa using hne
    rw [profile_cancelTimer, hkeep]
    exact h.fits k'
  calls := (h.waiting hs).1
  timers := by
    obtain ⟨_, ⟨t, hone, hid⟩, _⟩ := h.waiting hs
    rw [profile_cancelTimer]
    simp [hone, hid]

/-- A tracked call is outstanding only while its game server is running, and then it is the only
one. -/
theorem running_of_outstanding (h : q.Coherent) {c : Call} (hc : c ∈ q.slots.outstanding)
    (hd : c.delivery.isDelete = false) : (q.profile c.delivery.key).calls = {c} ∧
    ∃ pending, q.standing? c.delivery.key = some (.running pending) := by
  have hmem : c ∈ (q.profile c.delivery.key).calls := Multiset.mem_filter.mpr ⟨hc, hd, rfl⟩
  cases hs : q.standing? c.delivery.key with
  | none => simp [(h.idle hs).1] at hmem
  | some s =>
    cases s with
    | running pending =>
      obtain ⟨c', hone⟩ := (h.running hs).1
      have heq : c = c' := by simpa [hone] using hmem
      exact ⟨heq ▸ hone, pending, rfl⟩
    | waiting id => simp [(h.waiting hs).1] at hmem

section Join
variable {c : Call} {r : Outcome} {slots : Slots}

theorem profile_join_of_ne (hj : q.slots.join = some ((c, r), slots))
    (hk : ¬ Call.IsTracked k c) : { q with slots }.profile k = q.profile k := by
  simp only [profile, Slots.outstanding_of_join hj]
  rw [Multiset.filter_cons_of_neg _ hk]
  rfl

theorem vacant_of_join (h : q.Coherent) (hj : q.slots.join = some ((c, r), slots))
    (hd : c.delivery.isDelete = false) : { q with slots }.Vacant c.delivery.key where
  toSound := h.toSound.join hj
  others := fun k' hk => (profile_join_of_ne hj fun ht => hk ht.2) ▸ h.fits k'
  calls := by
    have hc : c ∈ q.slots.outstanding := Slots.mem_outstanding_of_join hj
    have hone := (h.running_of_outstanding hc hd).1
    simp only [profile, Slots.outstanding_of_join hj] at hone
    rw [Multiset.filter_cons_of_pos _ ⟨hd, rfl⟩] at hone
    exact (Multiset.cons_inj_right c).mp hone
  timers := by
    have hc : c ∈ q.slots.outstanding := Slots.mem_outstanding_of_join hj
    obtain ⟨_, pending, hs⟩ := h.running_of_outstanding hc hd
    exact (h.running hs).2.1

theorem join_delete (h : q.Coherent) (hj : q.slots.join = some ((c, r), slots))
    (hd : c.delivery.isDelete = true) : { q with slots }.Coherent where
  toSound := h.toSound.join hj
  fits := fun k =>
    (profile_join_of_ne hj fun ht => absurd (ht.1.symm.trans hd) (by decide)) ▸ h.fits k

end Join

theorem spawn_delete (h : q.Coherent) (o : Origin) (hd : d.isDelete = true) :
    (q.spawn o d).Coherent where
  toSound := h.toSound.spawn o d
  fits := fun k => (profile_spawn hd).symm ▸ h.fits k

theorem set_running (h : q.Coherent) {before after : Option Delivery}
    (hs : q.standing? k = some (.running before))
    (ha : ∀ d, after = some d → d.key = k ∧ d.isDelete = false) :
    { q with standings := q.standings.set k (.running after) }.Coherent where
  toSound := ⟨h.numbered, h.distinct, h.armed⟩
  fits := by
    intro k'
    by_cases hk : k = k'
    · subst hk
      obtain ⟨hcalls, htimers, _⟩ := h.running hs
      rw [profile_set_self]
      exact ⟨hcalls, htimers, ha⟩
    · rw [profile_set_of_ne _ hk]
      exact h.fits k'

theorem forget_running (h : q.Coherent) {pending : Option Delivery}
    (hs : q.standing? k = some (.running pending)) : (q.forget k).Coherent where
  toSound := ⟨h.numbered, h.distinct, h.armed⟩
  fits := by
    intro k'
    by_cases hk : k = k'
    · subst hk
      have hfits := h.fits k
      simp only [Profile.Fits, show (q.profile k).standing = some (.running pending) from hs]
        at hfits
      rw [profile_forget_self]
      simp only [Profile.Fits, show (q.profile k).standing = some (.running pending) from hs]
      exact hfits
    · rw [profile_forget_of_ne hk]
      exact h.fits k'

theorem enqueue (h : q.Coherent) (d : Delivery) : (q.enqueue d).Coherent := by
  unfold Queue.enqueue
  cases hd : d.isDelete with
  | true =>
    simp only [↓reduceIte]
    have hforget : (q.forget d.key).standing? d.key = q.standing? d.key := rfl
    rw [hforget]
    apply spawn_delete _ _ hd
    cases hs : q.standing? d.key with
    | none => exact (h.vacant_of_idle hs).forget hs
    | some s =>
      cases s with
      | running pending =>
        exact (h.forget_running hs).set_running hs fun d hd => by cases hd
      | waiting id => exact ((h.vacant_cancelTimer hs).erase).forget (standing?_erase _ _)
  | false =>
    simp only [Bool.false_eq_true, ↓reduceIte]
    cases hs : q.standing? d.key with
    | none => exact (h.vacant_of_idle hs).start .watch rfl hd
    | some s =>
      cases s with
      | running pending =>
        exact h.set_running hs fun d' hd' => Option.some.inj hd' ▸ ⟨rfl, hd⟩
      | waiting id => exact (h.vacant_cancelTimer hs).start .watch rfl hd

theorem resync (h : q.Coherent) (cached : List Sighting) : (q.resync cached).Coherent := by
  unfold Queue.resync
  induction cached generalizing q with
  | nil => exact h
  | cons s rest ih =>
    rw [List.foldl_cons]
    apply ih
    cases hs : q.standing? s.key with
    | none => exact (h.vacant_of_idle hs).start .resync rfl rfl
    | some _ => exact h

theorem settle (h : q.Coherent) (id : Nat) (r : CallResult) :
    { q with slots := q.slots.settle id r }.Coherent where
  toSound := h.toSound.settle id r
  fits := fun k => (profile_settle id r).symm ▸ h.fits k

theorem finish (h : q.Coherent) {c : Call} {r : Outcome} {slots : Slots}
    (hj : q.slots.join = some ((c, r), slots)) (now : Nat) (cache : Cache) :
    ({ q with slots }.finish now cache c r).Coherent := by
  unfold Queue.finish
  cases hd : c.delivery.isDelete with
  | true => exact h.join_delete hj hd
  | false =>
    have hc : c ∈ q.slots.outstanding := Slots.mem_outstanding_of_join hj
    obtain ⟨-, pending, hs⟩ := h.running_of_outstanding hc hd
    have hv := (h.vacant_of_join hj hd).erase
    have hjoin : { q with slots }.standing? c.delivery.key = some (.running pending) := hs
    simp only [Bool.false_eq_true, ↓reduceIte, hjoin]
    cases pending with
    | some next =>
      obtain ⟨hkey, hnext⟩ := (h.running hs).2.2 next rfl
      exact hv.start .watch hkey hnext
    | none =>
      cases r with
      | done => exact hv.forget (standing?_erase _ _)
      | retry e =>
        dsimp only
        cases cache.get? c.delivery.key with
        | none => exact hv.forget (standing?_erase _ _)
        | some s => exact hv.arm now

theorem expire (h : q.Coherent) {t : Timer} (ht : t ∈ q.timers) {cache : Cache}
    (hcache : cache.Keyed Sighting.key) : (q.expire cache t).Coherent := by
  have hv := (h.vacant_cancelTimer (h.waiting_of_mem ht)).erase
  unfold Queue.expire
  cases hs : cache.get? t.key with
  | none => exact hv.forget (standing?_erase _ _)
  | some s => exact hv.start .requeue (hcache.key_eq hs) rfl

end Coherent

/-- What can happen to a queue. -/
inductive Step (q : Queue) : Queue → Prop
  | enqueue (d : Delivery) : Step q (q.enqueue d)
  | resync (cached : List Sighting) : Step q (q.resync cached)
  /-- A call ends. -/
  | settle (id : Nat) (r : CallResult) : Step q { q with slots := q.slots.settle id r }
  /-- The call that ended first is looked at. -/
  | finish {c : Call} {r : Outcome} {slots : Slots} (hj : q.slots.join = some ((c, r), slots))
      (now : Nat) (cache : Cache) : Step q ({ q with slots }.finish now cache c r)
  | expire {t : Timer} (ht : t ∈ q.timers) {cache : Cache} (hcache : cache.Keyed Sighting.key) :
      Step q (q.expire cache t)

/-- The queues that can come about from an empty one. -/
inductive Reachable (size : Nat) (delays : RetryDelays) : Queue → Prop
  | empty : Reachable size delays { slots := { size }, delays }
  | step {q q' : Queue} (hq : Reachable size delays q) (hs : q.Step q') : Reachable size delays q'

theorem coherent_empty (size : Nat) (delays : RetryDelays) :
    Coherent { slots := { size }, delays } where
  numbered := by intro c hc; exact absurd hc (Multiset.notMem_zero c)
  distinct := List.nodup_nil
  armed := by intro t ht; cases ht
  fits := fun _ => ⟨rfl, rfl, rfl⟩

theorem Coherent.step {q' : Queue} (h : q.Coherent) (hs : q.Step q') : q'.Coherent := by
  cases hs with
  | enqueue d => exact h.enqueue d
  | resync cached => exact h.resync cached
  | settle id r => exact h.settle id r
  | finish hj now cache => exact h.finish hj now cache
  | expire ht hcache => exact h.expire ht hcache

theorem Reachable.coherent {size : Nat} {delays : RetryDelays} (h : Reachable size delays q) :
    q.Coherent := by
  induction h with
  | empty => exact coherent_empty size delays
  | step _ hs ih => exact ih.step hs

/-- A game server with nothing but a name and a namespace. -/
def lone : Sighting where
  key := { ns := some "d", name := "a" }
  gs := { metadata := { ns := some "d", name := some "a" } }
  serial := 0

/-- In every queue that can come about, the four structures tell the same story: a game server is
running exactly as long as one call of it is outstanding, and waits exactly as long as its timer is
set; failures are only counted for these two. A call that ends finds its game server running. -/
theorem Reachable.structures_agree {size : Nat} {delays : RetryDelays}
    (h : Reachable size delays q) :
    (∀ k, (q.slots.outstanding.filter (Call.IsTracked k)).card =
      match q.standing? k with
      | some (.running _) => 1
      | _ => 0) ∧
    (∀ k id, q.standing? k = some (.waiting id) ↔ ∃ t ∈ q.timers, t.id = id ∧ t.key = k) ∧
    (q.timers.map (·.id)).Nodup ∧
    (∀ t ∈ q.timers, ∃! k, q.standing? k = some (.waiting t.id)) ∧
    (∀ k, (q.failures.get? k).isSome → (q.standing? k).isSome) ∧
    (∀ k id, q.standing? k = some (.waiting id) → 1 ≤ q.failureCount k) ∧
    (∀ c r slots, q.slots.join = some ((c, r), slots) → c.delivery.isDelete = false →
      ∃ pending, q.standing? c.delivery.key = some (.running pending)) := by
  have hc := h.coherent
  refine ⟨?_, ?_, hc.distinct, ?_, ?_, ?_, ?_⟩
  · intro k
    change (q.profile k).calls.card = _
    cases hs : q.standing? k with
    | none => rw [(hc.idle hs).1]; rfl
    | some s =>
      cases s with
      | running pending =>
        obtain ⟨c, hone⟩ := (hc.running hs).1
        rw [hone]; rfl
      | waiting id => rw [(hc.waiting hs).1]; rfl
  · intro k id
    constructor
    · intro hs
      obtain ⟨_, ⟨t, hone, hid⟩, _⟩ := hc.waiting hs
      have ht : t ∈ (q.profile k).timers := by rw [hone]; exact List.mem_singleton_self t
      exact ⟨t, List.mem_of_mem_filter ht, hid, by simpa using List.of_mem_filter ht⟩
    · rintro ⟨t, ht, rfl, rfl⟩
      exact hc.waiting_of_mem ht
  · intro t ht
    refine ⟨t.key, hc.waiting_of_mem ht, fun k hk => ?_⟩
    exact (hc.key_of_waiting hk ht rfl).symm
  · intro k hk
    cases hs : q.standing? k with
    | none =>
      have hnone : q.failures.get? k = none := (hc.idle hs).2.2
      simp [hnone] at hk
    | some s => rfl
  · intro k id hs
    obtain ⟨_, _, n, hn⟩ := hc.waiting hs
    have hcount : q.failures.get? k = some (n + 1) := hn
    simp [failureCount, hcount]
  · intro c r slots hj hd
    have hmem : c ∈ q.slots.outstanding := Slots.mem_outstanding_of_join hj
    exact (hc.running_of_outstanding hmem hd).2

/-- The addition of a lone game server fails while the game server is cached. -/
theorem structures_agree_after_failure : ∃ q,
    Reachable 1 { base := .ofMillis 5, cap := .ofSecs 1 } q ∧
      q.standing? lone.key = some (.waiting 0) ∧
      (∃ t ∈ q.timers, t.id = 0 ∧ t.key = lone.key) ∧ 1 ≤ q.failureCount lone.key := by
  have hempty : Reachable 1 { base := .ofMillis 5, cap := .ofSecs 1 } _ := .empty
  have hended := (hempty.step (.enqueue (.add lone))).step (.settle 0 (.failed .undecodable))
  have hq := hended.step (.finish rfl 0 { store := [(lone.key, lone)] })
  obtain ⟨-, hwaiting, -, -, -, hcount, -⟩ := hq.structures_agree
  exact ⟨_, hq, rfl, (hwaiting _ _).mp rfl, hcount _ 0 rfl⟩

end Queue
end GameIngress.Dispatch
