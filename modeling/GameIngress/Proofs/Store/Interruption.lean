import GameIngress.Proofs.Store.Transcript

/-!
# Runs that are cut off

Nothing that the store answers depends on the clock or on the cut-off. So a run that is cut off has
made the first requests of the whole run, has got the same answers, and leaves the store as these
requests leave it. The requests are those whose time was over before the cut-off.
-/
namespace GameIngress.Memory

variable {α β : Type} {m m' : Memory} {t : Transcript}

/-- The store gives the answers of a transcript in turn, and is `m'` then. The clock stands still.
-/
inductive Serves : Memory → Transcript → Memory → Prop
  | nil (m : Memory) : Serves m [] m
  | cons {β : Type} {r : Request β} {m m' : Memory} {t : Transcript}
      (h : Serves (m.answer r).2 t m') : Serves m (⟨r, (m.answer r).1⟩ :: t) m'

/-- How long the requests of a transcript take in all. -/
def spent (m : Memory) : Transcript → Nat
  | [] => 0
  | e :: t => m.cost e.request + spent m t

/-- What takes so long from `now` on is over before an instant. What takes no time is over before
anything else happens. -/
def Before (instant now duration : Nat) : Prop := duration = 0 ∨ now + duration < instant

instance (instant now duration : Nat) : Decidable (Before instant now duration) :=
  inferInstanceAs (Decidable (_ ∨ _))

/-- The requests of `t` that are answered before an instant are those of `done`, and not all. -/
structure CutShort (m : Memory) (t : Transcript) (instant now : Nat) (done : Transcript) :
    Prop where
  rest : ∃ e rest, t = done ++ e :: rest ∧ ¬ Before instant now (m.spent (done ++ [e]))
  inTime : Before instant now (m.spent done)

section Clock
variable (m : Memory) (now latency : Nat) (cutAt : Option Nat)

def clocked : Memory := { m with now, latency, cutAt }

theorem takeFault_clocked (call : StoreCall) :
    takeFault call (m.clocked now latency cutAt) =
      ((takeFault call m).1, (takeFault call m).2.clocked now latency cutAt) := by
  unfold takeFault clocked
  dsimp only
  split <;> rfl

theorem createIn_clocked {call : StoreCall} {entry : LogEntry} {key : String} {v : α}
    {table : Memory → List (String × α)} {store : List (String × α) → Memory → Memory}
    (htable : ∀ m : Memory, table (m.clocked now latency cutAt) = table m)
    (hstore : ∀ es (m : Memory),
      store es (m.clocked now latency cutAt) = (store es m).clocked now latency cutAt) :
    createIn call entry key v table store (m.clocked now latency cutAt) =
      ((createIn call entry key v table store m).1,
        (createIn call entry key v table store m).2.clocked now latency cutAt) := by
  unfold createIn
  rw [show { m.clocked now latency cutAt with log := entry :: (m.clocked now latency cutAt).log } =
    clocked { m with log := entry :: m.log } now latency cutAt from rfl, takeFault_clocked]
  rcases takeFault call { m with log := entry :: m.log } with ⟨_ | e, m₁⟩
  · dsimp only
    rw [htable]
    split
    · rfl
    · rw [hstore]
  · rfl

theorem read_clocked (key : String) :
    read key (m.clocked now latency cutAt) =
      ((read key m).1, (read key m).2.clocked now latency cutAt) := by
  unfold read
  rw [show { m.clocked now latency cutAt with
      log := .readGameServer key :: (m.clocked now latency cutAt).log } =
    clocked { m with log := .readGameServer key :: m.log } now latency cutAt from rfl,
    takeFault_clocked]
  rcases takeFault .readGameServer { m with log := .readGameServer key :: m.log } with ⟨_ | e, m₁⟩
  · dsimp only [clocked]
    cases m₁.gameServers.lookup key <;> rfl
  · rfl

theorem write_clocked (gs : GameServer) :
    write gs (m.clocked now latency cutAt) =
      ((write gs m).1, (write gs m).2.clocked now latency cutAt) := by
  unfold write
  rw [show { m.clocked now latency cutAt with
      log := .writeGameServer gs :: (m.clocked now latency cutAt).log } =
    clocked { m with log := .writeGameServer gs :: m.log } now latency cutAt from rfl,
    takeFault_clocked]
  rcases takeFault .writeGameServer { m with log := .writeGameServer gs :: m.log } with ⟨_ | e, m₁⟩
  all_goals
    dsimp only [clocked]
    cases m₁.gameServers.lookup gs.key with
    | none => rfl
    | some stored =>
      dsimp only
      split <;> rfl

theorem answer_clocked (r : Request β) :
    answer r (m.clocked now latency cutAt) =
      ((answer r m).1, (answer r m).2.clocked now latency cutAt) := by
  cases r with
  | findService _ _ | findIngress _ _ | publish _ _ | count _ | pause _ => rfl
  | createService s | createIngress i =>
    simp only [answer]
    exact createIn_clocked m now latency cutAt (fun _ => rfl) (fun _ _ => rfl)
  | readGameServer name ns => exact read_clocked m now latency cutAt _
  | writeGameServer gs => exact write_clocked m now latency cutAt gs

end Clock

theorem latency_answer (r : Request β) (m : Memory) : (answer r m).2.latency = m.latency :=
  congrArg (·.2.latency) (answer_clocked m m.now m.latency m.cutAt r)

theorem cost_answer {r : Request β} {γ : Type} (r' : Request γ) :
    (answer r m).2.cost r' = m.cost r' := by
  cases r' <;> first | exact latency_answer r m | rfl

theorem spent_answer (r : Request β) (m : Memory) (t : Transcript) :
    (answer r m).2.spent t = m.spent t := by
  induction t with
  | nil => rfl
  | cons e t ih => rw [spent, spent, cost_answer, ih]

variable {p : Program α} {a : α}

theorem exists_serves (p : Program α) (m : Memory) :
    ∃ t a m', p.Yields t a ∧ m.Serves t m' := by
  induction p generalizing m with
  | done a => exact ⟨[], a, m, ⟨rfl, rfl⟩, .nil m⟩
  | ask r next ih =>
    obtain ⟨t, a, m', hy, hs⟩ := ih (answer r m).1 (answer r m).2
    exact ⟨_, a, m', ⟨_, t, rfl, hy⟩, .cons hs⟩

theorem Serves.recorded (h : m.Serves t m') : Recorded t m m' := by
  induction h with
  | nil m => exact ⟨rfl, rfl, rfl⟩
  | cons _ ih => exact (recorded_answer _ _).1.cons ih

/-- The log and the events of the first part of a transcript are the first ones of the whole. The
latest stand first. -/
theorem Serves.suffix {done rest : Transcript} {left : Memory} (h : m.Serves (done ++ rest) m')
    (hleft : m.Serves done left) : left.log <:+ m'.log ∧ left.events <:+ m'.events := by
  rw [h.recorded.log, h.recorded.events, hleft.recorded.log, hleft.recorded.events]
  simp only [List.filterMap_append, List.reverse_append, List.append_assoc]
  exact ⟨List.suffix_append _ _, List.suffix_append _ _⟩

theorem run_uncut (hy : p.Yields t a) (hs : m.Serves t m') (now : Nat) :
    run p (m.clocked now m.latency none) =
      (some a, m'.clocked (now + m.spent t) m.latency none) := by
  induction p generalizing m t now with
  | done b =>
    obtain ⟨rfl, rfl⟩ := hy
    obtain _ | _ := hs
    rfl
  | ask r next ih =>
    obtain ⟨b, t, rfl, hy⟩ := hy
    obtain _ | hs := hs
    have hwait : wait (m.cost r) (m.clocked now m.latency none) =
        .ok (m.clocked (now + m.cost r) m.latency none) := by
      unfold wait
      split
      · next hzero => rw [hzero]; rfl
      · rfl
    have hnext := ih _ hy hs (now + m.cost r)
    rw [spent_answer, latency_answer] at hnext
    rw [run, show (m.clocked now m.latency none).cost r = m.cost r by cases r <;> rfl, hwait]
    dsimp only
    rw [answer_clocked, hnext, spent, Nat.add_assoc]

theorem before_cons {instant now cost rest : Nat} (h : Before instant now cost) :
    Before instant (now + cost) rest ↔ Before instant now (cost + rest) := by
  unfold Before at h ⊢
  omega

theorem Before.left {instant now cost rest : Nat} (h : Before instant now (cost + rest)) :
    Before instant now cost := by
  unfold Before at h ⊢
  omega

theorem CutShort.cons {r : Request β} {instant now : Nat} {done : Transcript}
    (h : (answer r m).2.CutShort t instant (now + m.cost r) done)
    (hlate : Before instant now (m.cost r)) :
    m.CutShort (⟨r, (answer r m).1⟩ :: t) instant now (⟨r, (answer r m).1⟩ :: done) := by
  obtain ⟨⟨e, rest, rfl, hout⟩, hin⟩ := h
  rw [spent_answer, before_cons hlate] at hin hout
  refine ⟨⟨e, rest, rfl, ?_⟩, ?_⟩
  · rwa [List.cons_append, spent]
  · rwa [spent]

theorem run_cut (hy : p.Yields t a) (hs : m.Serves t m') (instant now : Nat) :
    (Before instant now (m.spent t) ∧
      run p (m.clocked now m.latency (some instant)) =
        (some a, m'.clocked (now + m.spent t) m.latency (some instant))) ∨
    (¬ Before instant now (m.spent t) ∧ ∃ done left, CutShort m t instant now done ∧
      m.Serves done left ∧ run p (m.clocked now m.latency (some instant)) =
        (none, left.clocked (max instant now) m.latency (some instant))) := by
  induction p generalizing m t now with
  | done b =>
    obtain ⟨rfl, rfl⟩ := hy
    obtain _ | _ := hs
    exact .inl ⟨.inl rfl, rfl⟩
  | ask r next ih =>
    obtain ⟨b, t, rfl, hy⟩ := hy
    obtain _ | hs := hs
    have hcost : (m.clocked now m.latency (some instant)).cost r = m.cost r := by cases r <;> rfl
    by_cases hlate : Before instant now (m.cost r)
    · have hwait : wait (m.cost r) (m.clocked now m.latency (some instant)) =
          .ok (m.clocked (now + m.cost r) m.latency (some instant)) := by
        unfold wait
        split
        · next hzero => rw [hzero]; rfl
        · next hcost => exact if_neg (Nat.not_le.mpr (hlate.resolve_left hcost))
      have hnext := ih _ hy hs (now + m.cost r)
      have hrun : run (.ask r next) (m.clocked now m.latency (some instant)) =
          run (next (answer r m).1)
            ((answer r m).2.clocked (now + m.cost r) m.latency (some instant)) := by
        rw [run, hcost, hwait]
        dsimp only
        rw [answer_clocked]
      simp only [spent_answer, latency_answer, before_cons hlate] at hnext
      rw [hrun, spent]
      rcases hnext with ⟨hbefore, hrun⟩ | ⟨hbefore, done, left, hcut, hserves, hrun⟩
      · exact .inl ⟨hbefore, by rw [hrun, Nat.add_assoc]⟩
      · refine .inr ⟨hbefore, _, left, hcut.cons hlate, .cons hserves, ?_⟩
        have hclock : max instant (now + m.cost r) = max instant now := by
          unfold Before at hlate
          omega
        rw [hrun, hclock]
    · have hwait : wait (m.cost r) (m.clocked now m.latency (some instant)) =
          .error (max instant now) := by
        unfold wait
        rw [if_neg fun hzero => hlate (.inl hzero)]
        exact if_pos (Nat.not_lt.mp fun hlt => hlate (.inr hlt))
      have hout : ∀ t', ¬ Before instant now (m.spent (⟨r, (answer r m).1⟩ :: t')) := by
        intro t' hbefore
        rw [spent] at hbefore
        exact hlate hbefore.left
      refine .inr ⟨hout t, [], m, ⟨⟨_, t, rfl, hout []⟩, .inl rfl⟩, .nil m, ?_⟩
      · rw [run, hcost, hwait]
        rfl

end GameIngress.Memory
