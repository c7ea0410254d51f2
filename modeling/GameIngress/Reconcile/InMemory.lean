import GameIngress.Reconcile.Basic
import GameIngress.Store.Memory

/-!
# Notifications over a store in memory
-/
namespace GameIngress.Memory
open Reconcile

/-- Handle an added or updated game server. `cut` plans a cut-off for this run and the later ones;
one that is already due keeps the run from starting, but not a skip. -/
def notify (c : Settings) (gs : GameServer) (cut : Option Nat) (m : Memory) :
    Except Failure Unit × Memory :=
  let due := m.cutAt.any (· ≤ m.now)
  let m := match m.cutAt, cut with
    | some t, some u => { m with cutAt := some (min t u) }
    | none, some u => { m with cutAt := some u }
    | _, none => m
  match plan c gs with
  | .skip reason => (.ok (), { m with tally := m.tally.bump (.skipped reason.label) })
  | .run p =>
    if due then (.error .cancelled, m)
    else match run p m with
      | (some r, m) => (r, m)
      | (none, m) => (.error .cancelled, m)

end GameIngress.Memory
