import GameIngress.Cluster.World
import Mathlib.Algebra.Order.Ring.Nat
import Mathlib.Algebra.Order.Sub.Basic
import Mathlib.Data.List.TakeDrop

/-!
# The clock of a cluster

The clock goes from one instant at which something happens to the next. At such an instant all that
is due happens, also what becomes due at once by it. So what is due next is due later.
-/
namespace GameIngress.Cluster

namespace Follower

variable {now : Nat} {f : Follower}

/-- How many steps the follower may still make at an instant, before it waits for something. -/
def backlog (now : Nat) (f : Follower) : Nat :=
  match f.phase with
  | .resting due _ => if due ≤ now then 3 else 0
  | .listing due => if due ≤ now then 2 else 0
  | .opening due => if due ≤ now then 1 else 0
  | .watching | .stopped => 0

theorem restMillis_pos (failures : Nat) : 0 < restMillis failures := by
  have hpow : 0 < Nat.pow 2 (min failures 6) := Nat.pow_pos (by decide)
  unfold restMillis
  omega

theorem backlog_rest (now : Nat) (listed : Bool) (f : Follower) :
    (f.rest now listed).backlog now = 0 := by
  have hrest := restMillis_pos f.failures
  simp only [rest, backlog]
  rw [if_neg (by omega)]

theorem backlog_eq_zero_iff {due : Nat} (hdue : f.due? = some due) :
    f.backlog now = 0 ↔ now < due := by
  unfold due? at hdue
  unfold backlog
  split at hdue <;> simp_all

theorem backlog_step (decodes : Json → Bool) (now latency : Nat) (f : Follower) (s : Server) :
    (f.step decodes now latency s).2.2.1.backlog now ≤ f.backlog now - 1 := by
  have hwaits {due : Nat} (hdue : f.due? = some due) (hearly : now < due) :
      f.backlog now ≤ f.backlog now - 1 := by
    rw [(backlog_eq_zero_iff hdue).mpr hearly]
  unfold step
  split
  · next due hphase =>
    split
    · next hearly => exact hwaits (by rw [due?, hphase]) hearly
    · next hdue =>
      have hleft : f.backlog now = 2 := by simp [backlog, hphase, Nat.not_lt.mp hdue]
      split
      · split
        · rw [hleft]
          simp only [backlog]
          split <;> omega
        · simp [backlog_rest]
      · simp [backlog_rest]
  · next due hphase =>
    split
    · next hearly => exact hwaits (by rw [due?, hphase]) hearly
    · split
      · simp [backlog]
      · simp [backlog_rest]
  · next hphase => simp [backlog, hphase]
  · next due listed hphase =>
    split
    · next hearly => exact hwaits (by rw [due?, hphase]) hearly
    · next hdue =>
      have hleft : f.backlog now = 3 := by simp [backlog, hphase, Nat.not_lt.mp hdue]
      rw [hleft]
      cases listed with
      | false =>
        change (if now + latency ≤ now then 2 else 0) ≤ 2
        split <;> omega
      | true =>
        change (if now + latency ≤ now then 1 else 0) ≤ 2
        split <;> omega
  · next hphase => simp [backlog, hphase]

theorem backlog_le (now : Nat) (f : Follower) : f.backlog now ≤ 3 := by
  unfold backlog
  split
  · split <;> omega
  · split <;> omega
  · split <;> omega
  · exact Nat.zero_le 3
  · exact Nat.zero_le 3

theorem backlog_foldl {g : List Lesson × Bool × Follower × Server → Nat →
      List Lesson × Bool × Follower × Server}
    (hg : ∀ x i, (g x i).2.2.1.backlog now ≤ x.2.2.1.backlog now - 1) (rounds : List Nat)
    (x : List Lesson × Bool × Follower × Server) :
    (rounds.foldl g x).2.2.1.backlog now ≤ x.2.2.1.backlog now - rounds.length := by
  induction rounds generalizing x with
  | nil => exact Nat.le_refl _
  | cons i rounds ih =>
    have hround := hg x i
    refine (ih (g x i)).trans ?_
    rw [List.length_cons]
    omega

theorem backlog_advance (decodes : Json → Bool) (now latency : Nat) (f : Follower) (s : Server) :
    (f.advance decodes now latency s).2.2.1.backlog now = 0 := by
  have hle : f.backlog now - (List.range 4).length ≤ 0 := by
    have hthree := backlog_le now f
    rw [List.length_range]
    omega
  unfold advance
  refine Nat.le_zero.mp (le_trans (backlog_foldl ?_ (List.range 4) ([], false, f, s)) hle)
  exact fun x _ => backlog_step decodes now latency x.2.2.1 x.2.2.2

end Follower

theorem Replica.follower_learn (m : Replica) (lessons : List Lesson) :
    (lessons.foldl learn m).follower = m.follower := by
  induction lessons generalizing m with
  | nil => rfl
  | cons lesson lessons ih =>
    rw [List.foldl_cons, ih]
    cases lesson <;> rfl

namespace World

variable {w w' w'' : World} {now : Nat}

/-- The time, and what happens by itself apart from what the followers do. -/
structure SameClock (w w' : World) : Prop where
  now : w'.now = w.now
  plan : w'.plan = w.plan
  cancelAt : w'.cancelAt = w.cancelAt

theorem SameClock.trans (h : SameClock w w') (h' : SameClock w' w'') : SameClock w w'' :=
  ⟨h'.now.trans h.now, h'.plan.trans h.plan, h'.cancelAt.trans h.cancelAt⟩

theorem sameClock_act (w : World) (d : Deed) : SameClock w (w.act d) := by
  cases d <;> exact ⟨rfl, rfl, rfl⟩

/-- No follower has anything left to do at an instant. -/
structure CaughtUp (now : Nat) (w : World) : Prop where
  services : w.services.follower.backlog now = 0
  ingresses : w.ingresses.follower.backlog now = 0
  watch : ∀ f ∈ w.watch, f.backlog now = 0

theorem exists_noteList_eq (scope : Server.Scope) (limit : Nat) (w : World) :
    ∃ lists, w.noteList scope limit = { w with lists } := by
  unfold noteList
  dsimp only
  split <;> exact ⟨_, rfl⟩

theorem exists_advanceReplica_eq (decodes : Json → Bool) (m : Replica) (w : World) :
    ∃ server lists, (w.advanceReplica decodes m).2 = { w with server, lists } := by
  unfold advanceReplica
  dsimp only
  split
  · obtain ⟨lists, hlists⟩ := exists_noteList_eq
      (m.follower.advance decodes w.now w.latency w.server).2.2.1.scope Follower.pageLimit
      { w with server := (m.follower.advance decodes w.now w.latency w.server).2.2.2 }
    exact ⟨_, lists, hlists⟩
  · exact ⟨_, _, rfl⟩

theorem backlog_advanceReplica (decodes : Json → Bool) (m : Replica) (w : World) :
    (w.advanceReplica decodes m).1.follower.backlog w.now = 0 := by
  have hbacklog := m.follower.backlog_advance decodes w.now w.latency w.server
  unfold advanceReplica
  dsimp only
  rw [Replica.follower_learn]
  exact hbacklog

theorem refresh_spec (w : World) : SameClock w w.refresh ∧ CaughtUp w.now w.refresh := by
  have hstart : SameClock w (if w.isCancelled then w.stopReplicas else w) := by
    split <;> exact ⟨rfl, rfl, rfl⟩
  rw [← hstart.now]
  unfold refresh
  generalize (if w.isCancelled then w.stopReplicas else w) = start at hstart ⊢
  dsimp only
  obtain ⟨server₁, lists₁, hfirst⟩ :=
    exists_advanceReplica_eq (fun j => (Service.ofJson? j).isSome) start.services start
  have hservices :=
    backlog_advanceReplica (fun j => (Service.ofJson? j).isSome) start.services start
  generalize start.advanceReplica _ start.services = x at hfirst hservices ⊢
  obtain ⟨services, w₁⟩ := x
  obtain rfl : w₁ = { start with server := server₁, lists := lists₁ } := hfirst
  obtain ⟨server₂, lists₂, hsecond⟩ :=
    exists_advanceReplica_eq (fun j => (Ingress.ofJson? j).isSome) start.ingresses
      { start with server := server₁, lists := lists₁, services }
  have hingresses :=
    backlog_advanceReplica (fun j => (Ingress.ofJson? j).isSome) start.ingresses
      { start with server := server₁, lists := lists₁, services }
  dsimp only at hservices hsecond hingresses ⊢
  generalize advanceReplica _ _ _ = x at hsecond hingresses ⊢
  obtain ⟨ingresses, w₂⟩ := x
  obtain rfl := hsecond
  dsimp only
  cases hwatch : start.watch with
  | none =>
    exact ⟨⟨hstart.now, hstart.plan, hstart.cancelAt⟩, ⟨hservices, hingresses, by simp⟩⟩
  | some f =>
    dsimp only
    have hfollower := f.backlog_advance (fun j => (GameServer.ofJson? j).isSome) start.now
      start.latency server₂
    generalize f.advance _ _ _ _ = x at hfollower ⊢
    obtain ⟨lessons, listed, f', server⟩ := x
    dsimp only at hfollower ⊢
    split
    · obtain ⟨lists, hlists⟩ := exists_noteList_eq f'.scope Follower.pageLimit
        { start with
          server, services, ingresses, lists := lists₂, watch := some f'
          shown := start.shown ++ lessons }
      rw [hlists]
      exact ⟨⟨hstart.now, hstart.plan, hstart.cancelAt⟩,
        ⟨hservices, hingresses, by simpa using hfollower⟩⟩
    · exact ⟨⟨hstart.now, hstart.plan, hstart.cancelAt⟩,
        ⟨hservices, hingresses, by simpa using hfollower⟩⟩

theorem sameClock_foldl_act (due : List (Nat × Deed)) (w : World) :
    SameClock w (due.foldl (fun w d => w.act d.2) w) := by
  induction due generalizing w with
  | nil => exact ⟨rfl, rfl, rfl⟩
  | cons d due ih => exact (sameClock_act w d.2).trans (ih (w.act d.2))

theorem advance_spec (now : Nat) (w : World) :
    SameClock { w with now, plan := w.plan.dropWhile (·.1 ≤ now) } (w.advance now) ∧
      CaughtUp now (w.advance now) := by
  have hdeeds := sameClock_foldl_act (w.plan.takeWhile (·.1 ≤ now))
    { w with now, plan := w.plan.dropWhile (·.1 ≤ now) }
  unfold advance
  rw [List.span_eq_takeWhile_dropWhile]
  dsimp only
  obtain ⟨hclock, hcaught⟩ := refresh_spec ((w.plan.takeWhile (·.1 ≤ now)).foldl
    (fun w d => w.act d.2) { w with now, plan := w.plan.dropWhile (·.1 ≤ now) })
  rw [hdeeds.now] at hcaught
  exact ⟨hdeeds.trans hclock, hcaught⟩

theorem now_advance (now : Nat) (w : World) : (w.advance now).now = now :=
  (advance_spec now w).1.now

/-- What is due next is due after the present. -/
def Ahead (w : World) : Prop := ∀ t, w.due? = some t → w.now < t

theorem CaughtUp.ahead (h : CaughtUp w.now w) (hplan : ∀ d ∈ w.plan.head?, w.now < d.1) :
    w.Ahead := by
  intro t ht
  have hmem := List.min?_mem ht
  rw [List.mem_append, List.mem_append] at hmem
  rcases hmem with (hcancel | hdeed) | hfollower
  · cases hcancelled : w.isCancelled with
    | true => simp [hcancelled] at hcancel
    | false =>
      have hat : w.cancelAt = some t := by simpa [hcancelled] using hcancel
      simpa [isCancelled, hat] using hcancelled
  · obtain ⟨d, hd, rfl⟩ : ∃ d, w.plan.head? = some d ∧ d.1 = t := by simpa using hdeed
    exact hplan d hd
  · obtain ⟨f, hf, hdue⟩ := List.mem_filterMap.mp hfollower
    refine (Follower.backlog_eq_zero_iff hdue).mp ?_
    simp only [List.cons_append, List.nil_append, List.mem_cons, Option.mem_toList] at hf
    rcases hf with rfl | rfl | hf
    · exact h.services
    · exact h.ingresses
    · exact h.watch f hf

theorem ahead_advance (now : Nat) (w : World) : (w.advance now).Ahead := by
  obtain ⟨hclock, hcaught⟩ := advance_spec now w
  have hnow : (w.advance now).now = now := hclock.now
  have hplan : (w.advance now).plan = w.plan.dropWhile (·.1 ≤ now) := hclock.plan
  refine CaughtUp.ahead (hnow.symm ▸ hcaught) ?_
  rw [hplan, hnow]
  intro d hd
  have hhead := List.head?_dropWhile_not (fun d : Nat × Deed => decide (d.1 ≤ now)) w.plan
  rw [Option.mem_def.mp hd] at hhead
  simpa using hhead

theorem now_runTo (fuel now : Nat) (w : World) : (runTo fuel now w).now = now := by
  induction fuel generalizing w with
  | zero => rfl
  | succ fuel ih =>
    rw [runTo]
    split
    · split
      · exact ih _
      · rfl
    · rfl

theorem now_pass (millis : Nat) (w : World) : (w.pass millis).now = w.now + millis :=
  now_runTo _ _ _

end World
end GameIngress.Cluster
