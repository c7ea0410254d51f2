import GameIngress.Proofs.Dispatch.Simulation

/-!
# What a simulation upholds

A property of simulations is upheld if each of a few actions upholds it: time and the world may
change, an input may be taken, and a call may wait or end. An action may also break the dispatcher
down. What is known of such a breakdown is a parameter, which is trivial if only what is left of a
simulation matters.
-/
namespace GameIngress.Dispatch

universe u

/-- The result has the property, and a breakdown has the property `E`. -/
def Sat {α : Type u} (E : Crash → Prop) (x : Except Crash α) (P : α → Prop) : Prop :=
  match x with
  | .ok a => P a
  | .error e => E e

namespace Sat

variable {α β : Type u} {E : Crash → Prop} {x : Except Crash α} {P Q : α → Prop}

theorem bind {f : α → Except Crash β} {R : β → Prop} (h : Sat E x P)
    (hf : ∀ a, P a → Sat E (f a) R) : Sat E (x >>= f) R := by
  cases x with
  | error e => exact h
  | ok a => exact hf a h

theorem and (h : Sat E x P) (hQ : ∀ a, x = .ok a → Q a) : Sat E x fun a => P a ∧ Q a := by
  cases x with
  | error e => exact h
  | ok a => exact ⟨h, hQ a rfl⟩

theorem cases (h : Sat E x P) : (∃ a, x = .ok a ∧ P a) ∨ ∃ e, x = .error e ∧ E e := by
  cases x with
  | error e => exact .inr ⟨e, rfl, h⟩
  | ok a => exact .inl ⟨a, rfl, h⟩

theorem of_ok {a : α} (h : Sat E x P) (hx : x = .ok a) : P a := by
  subst hx
  exact h

end Sat

namespace Simulation

variable {σ : Type} {π : Type u} {env : Surroundings σ π} {E : Crash → Prop}
  {I : Simulation σ π → Prop} {s s' : Simulation σ π}

/-- The event of the input, if it has one, may come from the stream. -/
def Shows (env : Surroundings σ π) : Input → Prop
  | .watch e => ∃ now w w', env.poll now w = (.event e, w')
  | .settled _ _ _ | .join _ | .expire _ | .tick | .stop => True

/-- The world, the clock and the tick may be other ones. -/
structure Elapses (s s' : Simulation σ π) : Prop where
  dispatcher : s'.dispatcher = s.dispatcher
  inProgress : s'.inProgress = s.inProgress
  records : s'.records = s.records
  now : s.now ≤ s'.now

/-- A call waits, for the first time or again. -/
def blocking (p : InProgress π) (s : Simulation σ π) : Simulation σ π :=
  { s with inProgress := s.others p.call.id ++ [p] }

/-- A call is no longer in progress, and has its record. -/
def ending (r : CallRecord) (s : Simulation σ π) : Simulation σ π :=
  { s with inProgress := s.others r.call.id, records := r :: s.records }

/-- Every action upholds the property, or breaks down where that is allowed. -/
structure Upholds (E : Crash → Prop) (env : Surroundings σ π) (I : Simulation σ π → Prop) :
    Prop where
  elapses : ∀ {s s'}, I s → Elapses s s' → I s'
  takes : ∀ {s i}, I s → s.Offers i → Shows env i → Sat E (input i s) I
  blocks : ∀ {s} {p : InProgress π}, I s → s.Holds p.call → I (s.blocking p)
  ends : ∀ {s} {r : CallRecord}, I s → s.Holds r.call → r.ended = s.now →
    Sat E (input (.settled r.call.id r.result (r.ended - r.began)) (s.ending r)) I

/-- The calls in progress are told apart by their numbers. -/
def Distinct (s : Simulation σ π) : Prop := (s.inProgress.map (·.call.id)).Nodup

theorem Distinct.others (h : s.Distinct) (id : Nat) :
    (id :: (s.others id).map (·.call.id)).Nodup := by
  refine List.nodup_cons.mpr ⟨fun hmem => ?_, h.sublist (List.filter_sublist.map _)⟩
  obtain ⟨p, hp, hid⟩ := List.mem_map.mp hmem
  have hne := (List.mem_filter.mp hp).2
  simp [hid] at hne

theorem Distinct.blocking (h : s.Distinct) (p : InProgress π) : (s.blocking p).Distinct := by
  rw [Distinct, Simulation.blocking, List.map_append]
  exact (List.perm_append_singleton _ _).nodup_iff.mpr (h.others p.call.id)

theorem Distinct.ending (h : s.Distinct) (r : CallRecord) : (s.ending r).Distinct :=
  (List.nodup_cons.mp (h.others r.call.id)).2

namespace Upholds

variable {r : CallRecord}

/-- The property, and that the calls in progress are told apart. -/
abbrev Both (I : Simulation σ π → Prop) (s : Simulation σ π) : Prop := I s ∧ s.Distinct

theorem both_elapses (hu : Upholds E env I) (h : Both I s) (he : Elapses s s') : Both I s' := by
  refine ⟨hu.elapses h.1 he, ?_⟩
  rw [Distinct, he.inProgress]
  exact h.2

theorem sat_input {i : Input} (hd : s.Distinct) (h : Sat E (input i s) I) :
    Sat E (input i s) (Both I) := by
  refine h.and fun s' hs => ?_
  rw [Distinct, (of_input hs).2.2.1]
  exact hd

theorem sat_takes (hu : Upholds E env I) {i : Input} (h : Both I s) (ho : s.Offers i)
    (hs : Shows env i) : Sat E (input i s) (Both I) :=
  sat_input h.2 (hu.takes h.1 ho hs)

theorem sat_ends (hu : Upholds E env I) (h : Both I s) (hx : s.Holds r.call)
    (hr : r.ended = s.now) :
    Sat E (input (.settled r.call.id r.result (r.ended - r.began)) (s.ending r)) (Both I) :=
  sat_input (h.2.ending r) (hu.ends h.1 hx hr)

theorem sat_progress (hu : Upholds E env I) (h : Both I s) {x : Call} (hx : s.Holds x)
    (began : Nat) (p : Progress π) (world : σ) {inProgress : List (InProgress π)}
    (hrest : inProgress = s.others x.id) :
    Sat E (progress x began p { s with world, inProgress }) (Both I) := by
  subst hrest
  cases p with
  | blocked millis state =>
    let q : InProgress π := { call := x, began, wake := s.now + millis, state }
    have hblocks : Both I (s.blocking q) := ⟨hu.blocks h.1 hx, h.2.blocking q⟩
    exact hu.both_elapses hblocks ⟨rfl, rfl, rfl, Nat.le_refl _⟩
  | ended result =>
    let busy : Simulation σ π :=
      { s with world, busiest := max s.busiest ((s.others x.id).length + 1) }
    have hbusy : Both I busy := hu.both_elapses h ⟨rfl, rfl, rfl, Nat.le_refl _⟩
    exact hu.sat_ends (r := { call := x, began, ended := s.now, result }) hbusy hx rfl

/-- By induction on the calls that are still to be interrupted, all of which are in progress. -/
theorem sat_interrupt (hu : Upholds E env I) {calls : List (InProgress π)} (h : Both I s)
    (hcalls : ∀ p ∈ calls, p ∈ s.inProgress) (hd : (calls.map (·.call.id)).Nodup) :
    Sat E (interrupt env calls s) (Both I) := by
  induction calls generalizing s with
  | nil => exact h
  | cons c rest ih =>
    obtain ⟨hnot, hrest⟩ := List.nodup_cons.mp hd
    unfold interrupt
    cases env.interrupt? c.state with
    | none => exact ih h (fun p hp => hcalls p (List.mem_cons_of_mem _ hp)) hrest
    | some result =>
      let r : CallRecord := { call := c.call, began := c.began, ended := s.now, result }
      have hheld : s.Holds r.call := .inr ⟨c, hcalls c List.mem_cons_self, rfl⟩
      have hends := (hu.sat_ends h hheld rfl).and fun s' hs => (of_input hs).2.2.1
      refine hends.bind fun s' hs' => ih hs'.1 (fun p hp => ?_) hrest
      rw [hs'.2]
      refine List.mem_filter.mpr ⟨hcalls p (List.mem_cons_of_mem _ hp), decide_eq_true ?_⟩
      exact fun hid => hnot (List.mem_map.mpr ⟨p, hp, hid⟩)

theorem sat_cancel (hu : Upholds E env I) (h : Both I s) : Sat E (cancel env s) (Both I) := by
  have hstop := (hu.sat_takes (i := .stop) h trivial trivial).and fun s' hs => (of_input hs).2.2.1
  refine hstop.bind fun s' hs' => hu.sat_interrupt hs'.1 (fun p hp => ?_) h.2
  rw [hs'.2]
  exact hp

/-- If an action is taken, the property is upheld. -/
abbrev Still (I : Simulation σ π → Prop) (r : Option (Simulation σ π)) : Prop :=
  ∀ s ∈ r, Both I s

theorem sat_some {x : Except Crash (Simulation σ π)} (h : Sat E x (Both I)) :
    Sat E (do return some (← x)) (Still I) := by
  refine h.bind fun s hs s' hs' => ?_
  cases hs'
  exact hs

theorem sat_call (hu : Upholds E env I) (h : Both I s) : Sat E (call env s) (Still I) := by
  unfold call
  cases hready : s.ready? with
  | some c =>
    obtain ⟨hholds, hothers⟩ := holds_of_ready hready
    exact sat_some (hu.sat_progress h hholds s.now _ _ hothers.symm)
  | none =>
    cases hwake : s.wakeable? with
    | some c => exact sat_some (hu.sat_progress h (holds_of_wakeable hwake) c.began _ _ rfl)
    | none => exact nofun

theorem sat_take (hu : Upholds E env I) (h : Both I s) : Sat E (take env s) (Still I) := by
  unfold take
  split
  · exact sat_some (hu.sat_cancel h)
  split
  · exact sat_some (hu.sat_takes (i := .join s.now) h rfl trivial)
  split
  next item world hpoll =>
  have hpolled : Both I { s with world } := hu.both_elapses h ⟨rfl, rfl, rfl, Nat.le_refl _⟩
  cases item with
  | event e =>
    refine sat_some (hu.sat_takes (i := .watch e) hpolled trivial ?_)
    split at hpoll
    · cases hpoll
    · exact ⟨_, _, _, hpoll⟩
  | failed =>
    intro s' hs'
    cases hs'
    exact hpolled
  | ended => exact sat_some (hu.sat_takes (i := .stop) hpolled trivial trivial)
  | nothing =>
    dsimp only
    split
    · next t ht =>
      exact sat_some (hu.sat_takes (i := .expire t.id) hpolled (offers_of_expired ht) trivial)
    split
    · have hticked : Both I { s with world, tickAt := s.tickAt + s.period } :=
        hu.both_elapses h ⟨rfl, rfl, rfl, Nat.le_refl _⟩
      exact sat_some (hu.sat_takes (i := .tick) hticked trivial trivial)
    split
    · exact sat_some (hu.sat_cancel hpolled)
    · exact nofun

theorem still_wait (hu : Upholds E env I) (h : Both I s) : Still I (wait env s) := by
  intro s' hs'
  unfold wait at hs'
  split at hs'
  · cases hs'
  · obtain ⟨t, -, rfl⟩ := Option.map_eq_some_iff.mp hs'
    exact hu.both_elapses h ⟨rfl, rfl, rfl, Nat.le_max_right _ _⟩

theorem sat_step (hu : Upholds E env I) (h : Both I s) : Sat E (step env s) (Still I) := by
  have hcalling (calling : Bool) : Still I (some { s with calling }) := by
    intro s' hs'
    cases hs'
    exact hu.both_elapses h ⟨rfl, rfl, rfl, Nat.le_refl _⟩
  unfold step
  split
  · refine (hu.sat_call h).bind fun r hr => ?_
    cases r with
    | some s' => exact hr
    | none => exact hcalling false
  · refine (hu.sat_take h).bind fun r hr => ?_
    cases r with
    | some s' => exact hr
    | none =>
      dsimp only
      split
      · exact hcalling true
      · exact hu.still_wait h

theorem sat_run (hu : Upholds E env I) (h : Both I s) (n : Nat) :
    Sat E (run env n s) (Both I) := by
  induction n generalizing s with
  | zero => exact h
  | succ n ih =>
    refine (hu.sat_step h).bind fun r hr => ?_
    cases r with
    | some s' => exact ih (hr s' rfl)
    | none => exact h

end Upholds
end Simulation
end GameIngress.Dispatch
