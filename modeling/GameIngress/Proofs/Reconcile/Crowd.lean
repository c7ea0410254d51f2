import GameIngress.Proofs.Reconcile.Sharing

/-!
# Many reconciles of one game server

Any number of reconciles run on copies of a game server, which may be outdated, and take turns at
one store, a request at a time. Whatever the turns, the Service and the Ingress are created once at
most, the marker is written once at most, and nobody is kept from success by the others.
-/
namespace GameIngress.Reconcile

variable {α : Type} {c : Settings} {gs : GameServer}

/-- A plan as a program. A game server that is left alone is counted. -/
def Plan.program : Plan → Program (Except Failure Unit)
  | .skip reason => do
    Program.count (.skipped reason.label)
    return .ok ()
  | .run p => p

theorem run_program {m : Memory} (hm : m.cutAt = none) (c : Settings) (gs : GameServer) :
    Memory.run (plan c gs).program m =
      (some (m.notify c gs none).1, (m.notify c gs none).2) := by
  cases hplan : plan c gs with
  | skip reason =>
    simp only [Memory.notify, hplan]
    rfl
  | run p =>
    obtain ⟨cutAt, hcut, hnotify⟩ := notify_eq_of_run hplan none m
    obtain rfl := hcut rfl
    rw [hnotify, if_neg (by simp [hm])]
    obtain ⟨r, hr⟩ := Memory.exists_run_of_uncut p hm
    change Memory.run p m = _
    split
    · next hrun => exact hrun
    · next hrun => cases hr.symm.trans (congrArg Prod.fst hrun)

theorem within_create {kind : ResourceKind} (built : Except ValidationError α)
    (creation : α → Request (Except Failure α)) : (create gs kind built creation).Within 4 := by
  intro _
  cases built with
  | error e => exact fun _ => trivial
  | ok object =>
    intro answer
    cases answer with
    | ok created => exact fun _ _ => trivial
    | error e =>
      change Program.Within 2 (if e.isAlreadyExists = true then _ else _)
      split <;> exact fun _ => trivial

theorem within_service (gs : GameServer) : (service gs).Within 5 := by
  intro found
  cases found with
  | some s => trivial
  | none => exact within_create _ _

theorem within_ingress (rewrite : Bool) (gs : GameServer) : (ingress rewrite gs).Within 5 := by
  intro found
  cases found with
  | some i => trivial
  | none => exact within_create _ _

theorem within_markOnce (name ns : String) : (markOnce name ns).Within 2 := by
  intro answer
  cases answer with
  | error e => trivial
  | ok current =>
    change Program.Within 1 (if current.isMarkedReady = true then _ else _)
    split
    · trivial
    · intro answer
      cases answer <;> trivial

theorem within_conflictLoop {call : Program (Except Failure α)} {n : Nat} (h : call.Within n)
    (delay : Nat → Duration) (waits attempt : Nat) :
    (conflictLoop Program.pause delay call waits attempt).Within (waits * (n + 1) + n) := by
  induction waits generalizing attempt with
  | zero =>
    rw [conflictLoop]
    refine (h.bind (k := 0) fun result => ?_).mono (by omega)
    cases result with
    | ok a => trivial
    | error e =>
      dsimp only
      split <;> trivial
  | succ waits ih =>
    rw [conflictLoop]
    refine (h.bind (k := waits * (n + 1) + n + 1) fun result => ?_).mono
      (by rw [Nat.succ_mul]; omega)
    cases result with
    | ok a => trivial
    | error e =>
      dsimp only
      split
      · exact fun _ => ih (attempt + 1)
      · trivial

theorem within_mark (b : Backoff) (gs : GameServer) :
    (mark b gs).Within (3 * b.budget + 2) := by
  have hloop := within_conflictLoop (within_markOnce gs.name gs.ns) b.delay (b.budget - 1) 0
  refine (hloop.bind (k := 3) fun result => ?_).mono ?_
  · match result with
    | .error e => trivial
    | .ok (found, false) => trivial
    | .ok (written, true) =>
      intro _ _
      change Program.Within 1 ((if _ then _ else _ : Program Unit) >>= _)
      split
      · exact fun _ => trivial
      · trivial
  · have : 1 ≤ b.budget := Nat.le_max_right ..
    omega

theorem within_readiness (b : Backoff) (gs : GameServer) :
    (readiness b gs).Within (3 * b.budget + 3) := by
  unfold readiness
  split
  · trivial
  · exact (within_mark b gs).mono (by omega)
  · intro _
    refine (within_mark b gs).bind (k := 0) fun result => ?_
    cases result <;> trivial

/-- How many requests a reconcile makes at most. -/
def limit (c : Settings) : Nat := 3 * c.backoff.budget + 13

theorem within_program (c : Settings) (gs : GameServer) :
    (plan c gs).program.Within (limit c) := by
  unfold plan
  split
  · exact fun _ => trivial
  · refine ((within_service gs).bind (k := 3 * c.backoff.budget + 8) fun result => ?_).mono
      (by rw [limit]; omega)
    cases result with
    | error e => trivial
    | ok s =>
      refine ((within_ingress c.rewrite gs).bind (k := 3 * c.backoff.budget + 3)
        fun result => ?_).mono (by omega)
      cases result with
      | error e => trivial
      | ok i =>
        refine (within_readiness c.backoff gs).bind (k := 0) fun result => ?_
        cases result <;> trivial

theorem ends_program {g : GameServer} {now : StoreCall → Bool} (c : Settings)
    (hkey : gs.key = g.key) :
    Ends g now (plan c gs).program fun _ r => Fit c gs → r = .ok () := by
  unfold plan
  split
  · exact (ends_count _).bind fun _ _ _ _ => rfl
  · exact ends_converge c hkey

/-- Reconciles at one store, and who asked what and was answered what, earliest first. -/
structure Crowd where
  memory : Memory
  runs : List (Program (Except Failure Unit))
  history : List (Nat × Exchange) := []

namespace Crowd

variable {g : GameServer} {m : Memory} {copies : List (Settings × GameServer)} {s s' : Crowd}

def start (m : Memory) (copies : List (Settings × GameServer)) : Crowd where
  memory := m
  runs := copies.map fun x => (plan x.1 x.2).program

/-- The next request of the reconcile `i` is answered. -/
inductive Step (s : Crowd) : Crowd → Prop
  | ask {β : Type} {i : Nat} {r : Request β} {next : β → Program (Except Failure Unit)} {b : β}
      {memory : Memory} (hi : s.runs[i]? = some (.ask r next))
      (hreply : Replies s.memory r b memory) :
      Step s { memory, runs := s.runs.set i (next b), history := s.history ++ [(i, ⟨r, b⟩)] }

def Reachable (m : Memory) (copies : List (Settings × GameServer)) : Crowd → Prop :=
  Relation.ReflTransGen Step (start m copies)

/-- How often the store agreed to a change. -/
def agreed (s : Crowd) (call : StoreCall) : Nat :=
  s.history.countP fun e => change? e.2 = some call

/-- How many requests the reconcile `i` has made. -/
def asked (s : Crowd) (i : Nat) : Nat := s.history.countP fun e => e.1 = i

/-- The changes that were made are known, each was made once at most, and every reconcile comes to
its end, and to success if nothing else is in its way. -/
structure Orderly (g : GameServer) (copies : List (Settings × GameServer))
    (now : StoreCall → Bool) (s : Crowd) : Prop where
  shows : Shows g now s.memory
  agreed : ∀ call, s.agreed call ≤ (now call).toNat
  length : s.runs.length = copies.length
  runs : ∀ i x, copies[i]? = some x → ∃ p n, s.runs[i]? = some p ∧
    Ends g now p (fun _ r => Fit x.1 x.2 → r = .ok ()) ∧ p.Within n ∧
      s.asked i + n ≤ limit x.1

theorem orderly_start (hfaults : m.faults = []) (hg : m.gameServers.lookup g.key = some g)
    (hcopies : ∀ x ∈ copies, x.2.key = g.key) : ∃ now, Orderly g copies now (start m copies) := by
  refine ⟨fun
    | .createService => (m.services.lookup g.key).isSome
    | .createIngress => (m.ingresses.lookup g.key).isSome
    | _ => false, ⟨hfaults, rfl, rfl, hg⟩, fun _ => Nat.zero_le _, List.length_map _, ?_⟩
  intro i x hx
  refine ⟨(plan x.1 x.2).program, limit x.1, ?_,
    ends_program x.1 (hcopies x (List.mem_of_getElem? hx)), within_program x.1 x.2, ?_⟩
  · rw [start, List.getElem?_map, hx]
    rfl
  · exact (Nat.zero_add _).le

theorem countP_concat (P : Nat × Exchange → Prop) [DecidablePred P] (h : List (Nat × Exchange))
    (e : Nat × Exchange) : (h ++ [e]).countP (P ·) = h.countP (P ·) + if P e then 1 else 0 := by
  rw [List.countP_append, List.countP_singleton]
  simp only [decide_eq_true_eq]

theorem Orderly.of_run {now : StoreCall → Bool} (h : Orderly g copies now s) {i : Nat}
    {p : Program (Except Failure Unit)} (hi : s.runs[i]? = some p) :
    ∃ x n, copies[i]? = some x ∧ Ends g now p (fun _ r => Fit x.1 x.2 → r = .ok ()) ∧
      p.Within n ∧ s.asked i + n ≤ limit x.1 := by
  obtain ⟨hlt, -⟩ := List.getElem?_eq_some_iff.mp hi
  obtain ⟨x, hx⟩ : ∃ x, copies[i]? = some x := ⟨_, List.getElem?_eq_getElem (h.length ▸ hlt)⟩
  obtain ⟨_, n, hp, hends, hwithin, hasked⟩ := h.runs i x hx
  cases hp.symm.trans hi
  exact ⟨x, n, hx, hends, hwithin, hasked⟩

theorem Orderly.step {now : StoreCall → Bool} (h : Orderly g copies now s) (hs : s.Step s') :
    ∃ after, Orderly g copies after s' := by
  obtain @⟨β, i, r, next, b, memory, hi, hreply⟩ := hs
  obtain ⟨hlt, -⟩ := List.getElem?_eq_some_iff.mp hi
  obtain ⟨x, n, hx, hends, hwithin, hasked⟩ := h.of_run hi
  obtain ⟨after, hturns, hshows, hnext⟩ :=
    hends now s.memory memory b (Later.refl now) h.shows hreply
  refine ⟨after, hshows, fun call => ?_, (List.length_set ..).trans h.length, fun j y hy => ?_⟩
  · have hcall := h.agreed call
    have hturn := hturns call
    rw [Crowd.agreed, countP_concat]
    change s.agreed call + _ ≤ _
    split at hturn
    · next hchange =>
      rw [if_pos hchange, hturn.2]
      rw [hturn.1] at hcall
      exact Nat.add_le_add_right hcall 1
    · next hchange =>
      rw [if_neg hchange, hturn]
      exact hcall
  · rw [Crowd.asked, countP_concat]
    change ∃ p n, _ ∧ _ ∧ _ ∧ s.asked j + _ + n ≤ _
    by_cases hj : i = j
    · subst hj
      cases hx.symm.trans hy
      obtain _ | n := n
      · exact hwithin.elim
      · refine ⟨next b, n, List.getElem?_set_self hlt, hnext, hwithin b, ?_⟩
        rw [if_pos rfl]
        omega
    · obtain ⟨q, k, hq, hends, hwithin, hasked⟩ := h.runs j y hy
      refine ⟨q, k, ?_, hends.postpone hturns.keeps, hwithin, ?_⟩
      · exact (List.getElem?_set_ne hj).trans hq
      · rw [if_neg hj]
        exact hasked

theorem Reachable.orderly (hfaults : m.faults = []) (hg : m.gameServers.lookup g.key = some g)
    (hcopies : ∀ x ∈ copies, x.2.key = g.key) (h : Reachable m copies s) :
    ∃ now, Orderly g copies now s := by
  induction h with
  | refl => exact orderly_start hfaults hg hcopies
  | tail _ hs ih =>
    obtain ⟨now, hnow⟩ := ih
    exact hnow.step hs

theorem Orderly.eq_ok {now : StoreCall → Bool} (h : Orderly g copies now s)
    (hfit : ∀ x ∈ copies, Fit x.1 x.2) {i : Nat} {r : Except Failure Unit}
    (hi : s.runs[i]? = some (.done r)) : r = .ok () := by
  obtain ⟨x, -, hx, hends, -⟩ := h.of_run hi
  exact hends (hfit x (List.mem_of_getElem? hx))

/-- At every time, the store has agreed to each change once at most. Of game servers that can be
reconciled, every reconcile makes a bounded number of requests and comes to success: none ends in
any other way, and when none has a request to make, all of them have succeeded. -/
theorem Reachable.once_and_all_succeed (hfaults : m.faults = [])
    (hg : m.gameServers.lookup g.key = some g) (hcopies : ∀ x ∈ copies, x.2.key = g.key)
    (h : Reachable m copies s) :
    s.agreed .createService ≤ 1 ∧ s.agreed .createIngress ≤ 1 ∧ s.agreed .writeGameServer ≤ 1 ∧
      ((∀ x ∈ copies, Fit x.1 x.2) →
        (∀ (i : Nat) (r : Except Failure Unit), s.runs[i]? = some (.done r) → r = .ok ()) ∧
        (∀ i x, copies[i]? = some x → s.asked i ≤ limit x.1) ∧
        ((∀ s', ¬ s.Step s') → s.runs = List.replicate copies.length (Program.done (.ok ())))) := by
  obtain ⟨now, hnow⟩ := h.orderly hfaults hg hcopies
  have honce : ∀ call, s.agreed call ≤ 1 := fun call =>
    (hnow.agreed call).trans (Bool.toNat_le _)
  refine ⟨honce _, honce _, honce _, fun hfit => ⟨fun i r => hnow.eq_ok hfit, fun i x hx => ?_,
    fun hstuck => ?_⟩⟩
  · obtain ⟨_, n, -, -, -, hasked⟩ := hnow.runs i x hx
    omega
  · refine List.eq_replicate_iff.mpr ⟨hnow.length, fun p hp => ?_⟩
    obtain ⟨i, hi⟩ := List.mem_iff_getElem?.mp hp
    cases p with
    | done r => rw [hnow.eq_ok hfit hi]
    | ask r next => exact absurd (.ask hi ⟨.inl rfl, rfl⟩) (hstuck _)

/-- Let the reconcile `i` make its next request, if it has one. -/
def turn (s : Crowd) (i : Nat) : Crowd :=
  match s.runs[i]? with
  | some (.ask r next) => {
      memory := (s.memory.answer r).2
      runs := s.runs.set i (next (s.memory.answer r).1)
      history := s.history ++ [(i, ⟨r, (s.memory.answer r).1⟩)] }
  | _ => s

theorem Reachable.turns (h : Reachable m copies s) (is : List Nat) :
    Reachable m copies (is.foldl turn s) := by
  induction is generalizing s with
  | nil => exact h
  | cons i is ih =>
    refine ih ?_
    unfold turn
    split
    · next r next hi => exact h.tail (.ask hi ⟨.inl rfl, rfl⟩)
    · exact h

def exposed : GameServer where
  metadata := {
    name := some "a"
    ns := some "d"
    annotations := some ((TextMap.empty.insert Annotations.ingressMode "domain").insert
      Annotations.ingressDomain "example.com") }
  status := some { state := .ready }

theorem fit_exposed : Fit {} exposed where
  service := ⟨_, rfl⟩
  ingress := ⟨_, rfl⟩
  marker := by
    rw [show exposed.readiness = .pending from rfl]
    exact nofun
  steps := by decide

/-- Two reconciles in alternation, up to their ends. -/
def lockstep : Crowd :=
  (List.replicate 13 [0, 1]).flatten.foldl turn
    (start { gameServers := [("d/a", exposed)] } [({}, exposed), ({}, exposed)])

theorem once_in_lockstep :
    lockstep.agreed .createService = 1 ∧ lockstep.agreed .createIngress = 1 ∧
      lockstep.agreed .writeGameServer = 1 ∧
      ∀ (i : Nat) (r : Except Failure Unit), lockstep.runs[i]? = some (.done r) → r = .ok () := by
  have hreached : Reachable { gameServers := [("d/a", exposed)] } [({}, exposed), ({}, exposed)]
      lockstep := Reachable.turns .refl _
  have hcopies : ∀ x ∈ [(({} : Settings), exposed), ({}, exposed)],
      x.2 = exposed ∧ Fit x.1 x.2 := by
    intro x hx
    rcases List.mem_pair.mp hx with rfl | rfl <;> exact ⟨rfl, fit_exposed⟩
  obtain ⟨hs, hi, hw, hall⟩ := Reachable.once_and_all_succeed (g := exposed) rfl rfl
    (fun x hx => congrArg GameServer.key (hcopies x hx).1) hreached
  exact ⟨hs.antisymm (by decide +kernel), hi.antisymm (by decide +kernel),
    hw.antisymm (by decide +kernel), (hall fun x hx => (hcopies x hx).2).1⟩

end Crowd

end GameIngress.Reconcile
