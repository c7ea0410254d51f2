import GameIngress.Dispatch.Dispatcher
import GameIngress.Proofs.Dispatch.Operation

/-!
# What one input does to a dispatcher
-/
namespace GameIngress.Dispatch

open Watch (Key)

namespace Dispatcher

variable {d d' : Dispatcher}

/-- A game server as the next event shows it. -/
def sight (d : Dispatcher) (gs : GameServer) : Option Sighting :=
  (keyOf? gs).map fun key => { key, gs, serial := d.consumed }

/-- The event that an input makes the dispatcher take. -/
def taken? (d : Dispatcher) : Input → Option (Watch.Event Sighting)
  | .watch e => if d.stopped then none else e.mapM? d.sight
  | _ => none

/-- The call that an input makes the dispatcher look at. -/
def joined? (d : Dispatcher) : Input → Option (Call × Outcome)
  | .join _ => d.queue.slots.join.map (·.1)
  | _ => none

theorem eq_of_new {c : Settings} (h : new c = .ok d) :
    d = { queue := { slots := { size := max c.concurrency 1 }, delays := c.delays } } := by
  simp only [new] at h
  split at h
  · cases h
  · split at h
    · cases h
    · cases h
      rfl

theorem step_watch {e : Watch.Event GameServer} (h : d.step (.watch e) = .ok d') :
    (d.stopped = true ∧ d' = d) ∨
    (d.stopped = false ∧ ∃ e', e.mapM? d.sight = some e' ∧ d' = d.observe e') := by
  cases hs : d.stopped with
  | true =>
    simp only [step, hs, ↓reduceIte, Except.ok.injEq] at h
    exact .inl ⟨rfl, h.symm⟩
  | false =>
    simp only [step, hs, Bool.false_eq_true, ↓reduceIte] at h
    split at h
    · cases h
    · next e' he =>
      cases h
      exact .inr ⟨rfl, e', he, rfl⟩

theorem step_settled {id millis : Nat} {r : CallResult}
    (h : d.step (.settled id r millis) = .ok d') :
    d'.queue = { d.queue with slots := d.queue.slots.settle id r } ∧ d'.cache = d.cache ∧
    d'.consumed = d.consumed ∧ d'.stopped = d.stopped := by
  simp only [step, Except.ok.injEq] at h
  subst h
  cases r <;> exact ⟨rfl, rfl, rfl, rfl⟩

theorem step_join {now : Nat} (h : d.step (.join now) = .ok d') :
    (d.queue.slots.join = none ∧ d' = d) ∨
    ∃ c o slots, d.queue.slots.join = some ((c, o), slots) ∧
      d' = { d with queue := { d.queue with slots }.finish now d.cache c o } := by
  simp only [step] at h
  cases hj : d.queue.slots.join with
  | none =>
    simp only [hj, Except.ok.injEq] at h
    exact .inl ⟨rfl, h.symm⟩
  | some found =>
    obtain ⟨⟨c, o⟩, slots⟩ := found
    simp only [hj, checked] at h
    split at h
    · cases h
    · cases h
      exact .inr ⟨c, o, slots, rfl, rfl⟩

theorem step_expire {timer : Nat} (h : d.step (.expire timer) = .ok d') :
    d' = d ∨ (d.stopped = false ∧ ∃ t ∈ d.queue.timers,
      d' = { d with queue := d.queue.expire d.cache t }) := by
  cases hs : d.stopped with
  | true =>
    simp only [step, hs, ↓reduceIte, Except.ok.injEq] at h
    exact .inl h.symm
  | false =>
    simp only [step, hs, Bool.false_eq_true, ↓reduceIte] at h
    cases ht : d.queue.timers.find? (·.id = timer) with
    | none =>
      simp only [ht, Except.ok.injEq] at h
      exact .inl h.symm
    | some t =>
      simp only [ht, Except.ok.injEq] at h
      exact .inr ⟨rfl, t, List.mem_of_find?_eq_some ht, h.symm⟩

theorem step_tick (h : d.step .tick = .ok d') :
    d' = d ∨ (d.stopped = false ∧ d' = { d with queue := d.queue.resync d.cache.values }) := by
  cases hs : d.stopped with
  | true =>
    simp only [step, hs, ↓reduceIte, Except.ok.injEq] at h
    exact .inl h.symm
  | false =>
    simp only [step, hs, Bool.false_eq_true, ↓reduceIte, Except.ok.injEq] at h
    exact .inr ⟨rfl, h.symm⟩

theorem step_stop (h : d.step .stop = .ok d') : d' = { d with stopped := true } := by
  simpa [step, eq_comm] using h

theorem step_queue {i : Input} (hk : d.cache.Keyed Sighting.key) (h : d.step i = .ok d') :
    d'.queue = d.queue ∨ d.queue.Step d'.queue := by
  cases i with
  | watch e =>
    rcases step_watch h with ⟨-, rfl⟩ | ⟨-, e', -, rfl⟩
    · exact .inl rfl
    · simp only [observe]
      cases Delivery.ofEvent? d.cache e' with
      | none => exact .inl rfl
      | some delivery => exact .inr (.enqueue delivery)
  | settled id r millis => exact .inr ((step_settled h).1 ▸ .settle id r)
  | join now =>
    rcases step_join h with ⟨-, rfl⟩ | ⟨c, o, slots, hj, rfl⟩
    · exact .inl rfl
    · exact .inr (.finish hj now d.cache)
  | expire timer =>
    rcases step_expire h with rfl | ⟨-, t, ht, rfl⟩
    · exact .inl rfl
    · exact .inr (.expire ht hk)
  | tick =>
    rcases step_tick h with rfl | ⟨-, rfl⟩
    · exact .inl rfl
    · exact .inr (.resync _)
  | stop => exact .inl (step_stop h ▸ rfl)

/-- What was taken is cached and counted, and a dispatcher that has stopped takes nothing. -/
theorem step_taken {i : Input} (h : d.step i = .ok d') :
    d'.cache = (d.taken? i).toList.foldl (fun c e => c.observe Sighting.key e) d.cache ∧
    d'.consumed = d.consumed + (d.taken? i).toList.length ∧
    (d.stopped = true → d'.stopped = true ∧ d.taken? i = none) := by
  cases i with
  | watch e =>
    rcases step_watch h with ⟨hs, rfl⟩ | ⟨hs, e', he, rfl⟩
    · simp [taken?, hs]
    · simp [taken?, hs, he, observe]
  | settled id r millis =>
    obtain ⟨-, hcache, hconsumed, hstopped⟩ := step_settled h
    exact ⟨hcache, hconsumed, fun hs => ⟨hstopped.trans hs, rfl⟩⟩
  | join now =>
    rcases step_join h with ⟨-, rfl⟩ | ⟨c, o, slots, -, rfl⟩ <;>
      exact ⟨rfl, rfl, fun hs => ⟨hs, rfl⟩⟩
  | expire timer =>
    rcases step_expire h with rfl | ⟨-, t, -, rfl⟩ <;> exact ⟨rfl, rfl, fun hs => ⟨hs, rfl⟩⟩
  | tick =>
    rcases step_tick h with rfl | ⟨-, rfl⟩ <;> exact ⟨rfl, rfl, fun hs => ⟨hs, rfl⟩⟩
  | stop =>
    rw [step_stop h]
    exact ⟨rfl, rfl, fun _ => ⟨rfl, rfl⟩⟩

theorem serial_of_taken {i : Input} {e : Watch.Event Sighting} {s : Sighting}
    (h : d.taken? i = some e) (hs : e.object? = some s) : s.serial = d.consumed := by
  cases i with
  | watch e₀ =>
    simp only [taken?] at h
    split at h
    · cases h
    · have hsight : ∀ {gs}, d.sight gs = some s → s.serial = d.consumed := by
        intro gs hgs
        obtain ⟨key, -, rfl⟩ := Option.map_eq_some_iff.mp hgs
        rfl
      cases e₀ with
      | init => cases h; cases hs
      | initDone => cases h; cases hs
      | initApply gs | apply gs | delete gs =>
        obtain ⟨s', hgs, rfl⟩ := Option.map_eq_some_iff.mp h
        cases hs
        exact hsight hgs
  | settled _ _ _ | join _ | expire _ | tick | stop => cases h

end Dispatcher

namespace Delivery

variable {cache : Cache} {e : Watch.Event Sighting} {d : Delivery}

theorem object?_of_ofEvent? (h : ofEvent? cache e = some d) : e.object? = some d.subject := by
  cases e with
  | init | initDone => cases h
  | initApply s | delete s => cases h; rfl
  | apply s =>
    simp only [ofEvent?] at h
    split at h <;> · cases h; rfl

theorem object?_of_ofEvent?_none (h : ofEvent? cache e = none) : e.object? = none := by
  cases e with
  | init | initDone => rfl
  | initApply s | delete s => cases h
  | apply s =>
    simp only [ofEvent?] at h
    split at h <;> cases h

theorem eq_delete_of_ofEvent? (h : ofEvent? cache e = some d) (hd : d.isDelete = true) :
    e = .delete d.subject := by
  cases e with
  | init | initDone => cases h
  | initApply s => cases h; cases hd
  | delete s => cases h; rfl
  | apply s =>
    simp only [ofEvent?] at h
    split at h <;> · cases h; cases hd

end Delivery

end GameIngress.Dispatch
