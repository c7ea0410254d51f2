import GameIngress.Reconcile.Readiness

/-!
# How the marker is written

A reconcile writes a game server only as it read it last, with the marker set, and only if the
marker was not set in what it read. Retries do not change this: every attempt reads anew.
-/
namespace GameIngress.Reconcile

variable {α β : Type}

/-- What `held` is, if anything, was read and not written since. A write is one of `held` with its
marker set, which it was not before. -/
def Careful : Option GameServer → Program α → Prop
  | _, .done _ => True
  | _, .ask (.readGameServer _ _) next => ∀ answer, Careful answer.toOption (next answer)
  | held, .ask (.writeGameServer gs) next =>
    (∃ current, held = some current ∧ current.isMarkedReady = false ∧ gs = current.markReady) ∧
      ∀ answer, Careful none (next answer)
  | held, .ask (.findService _ _) next => ∀ answer, Careful held (next answer)
  | held, .ask (.findIngress _ _) next => ∀ answer, Careful held (next answer)
  | held, .ask (.createService _) next => ∀ answer, Careful held (next answer)
  | held, .ask (.createIngress _) next => ∀ answer, Careful held (next answer)
  | held, .ask (.publish _ _) next => ∀ answer, Careful held (next answer)
  | held, .ask (.count _) next => ∀ answer, Careful held (next answer)
  | held, .ask (.pause _) next => ∀ answer, Careful held (next answer)

namespace Careful

theorem weaken {p : Program α} (h : Careful none p) (held : Option GameServer) :
    Careful held p := by
  induction p generalizing held with
  | done a => trivial
  | ask r next ih =>
    cases r with
    | readGameServer name ns => exact h
    | writeGameServer gs =>
      obtain ⟨⟨current, hnone, -⟩, -⟩ := h
      cases hnone
    | findService _ _ | findIngress _ _ | createService _ | createIngress _ | publish _ _
    | count _ | pause _ => exact fun answer => ih answer (h answer) held

theorem bind {p : Program α} {f : α → Program β} {held : Option GameServer} (h : Careful held p)
    (hf : ∀ a, Careful none (f a)) : Careful held (p >>= f) := by
  induction p generalizing held with
  | done a => exact (hf a).weaken held
  | ask r next ih =>
    rw [Program.ask_bind]
    cases r with
    | writeGameServer gs => exact ⟨h.1, fun answer => ih answer (h.2 answer)⟩
    | readGameServer name ns => exact fun answer => ih answer (h answer)
    | findService _ _ | findIngress _ _ | createService _ | createIngress _ | publish _ _
    | count _ | pause _ => exact fun answer => ih answer (h answer)

theorem publish (gs : GameServer) (type : EventType) (reason message : String) :
    Careful none (Program.publish gs type reason message) := fun _ => trivial

theorem count (c : Counter) : Careful none (Program.count c) := fun _ => trivial

theorem pause (d : Duration) : Careful none (Program.pause d) := fun _ => trivial

end Careful

theorem careful_markOnce (name ns : String) : Careful none (markOnce name ns) := by
  intro answer
  cases answer with
  | error e => trivial
  | ok current =>
    change Careful (some current) (if current.isMarkedReady = true then _ else _)
    split
    · trivial
    · next hready =>
      refine ⟨⟨current, rfl, Bool.eq_false_iff.mpr hready, rfl⟩, fun answer => ?_⟩
      cases answer <;> trivial

theorem careful_conflictLoop {call : Program (Except Failure α)} (h : Careful none call)
    (delay : Nat → Duration) (waits attempt : Nat) :
    Careful none (conflictLoop Program.pause delay call waits attempt) := by
  induction waits generalizing attempt with
  | zero =>
    rw [conflictLoop]
    refine h.bind fun result => ?_
    cases result with
    | ok a => trivial
    | error e =>
      dsimp only
      split <;> trivial
  | succ waits ih =>
    rw [conflictLoop]
    refine h.bind fun result => ?_
    cases result with
    | ok a => trivial
    | error e =>
      dsimp only
      split
      · exact (Careful.pause _).bind fun _ => ih (attempt + 1)
      · trivial

theorem careful_announce (gs : GameServer) : Careful none (announce gs) := by
  refine (Careful.count _).bind fun _ => (Careful.publish _ _ _ _).bind fun _ => ?_
  split
  · exact Careful.publish _ _ _ _
  · trivial

theorem careful_mark (b : Backoff) (gs : GameServer) : Careful none (mark b gs) := by
  refine (careful_conflictLoop (careful_markOnce _ _) _ _ _).bind fun result => ?_
  cases result with
  | error e => trivial
  | ok found =>
    obtain ⟨written, flag⟩ := found
    cases flag with
    | false => trivial
    | true => exact (careful_announce written).bind fun _ => trivial

theorem careful_readiness (b : Backoff) (gs : GameServer) : Careful none (readiness b gs) := by
  unfold readiness
  cases gs.readiness with
  | ready => trivial
  | pending => exact careful_mark b gs
  | malformed e =>
    refine (Careful.publish _ _ _ _).bind fun _ => (careful_mark b gs).bind fun result => ?_
    cases result <;> trivial

end GameIngress.Reconcile
