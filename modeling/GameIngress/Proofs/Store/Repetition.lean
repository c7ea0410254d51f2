import GameIngress.Proofs.Store.Transcript

/-!
# Calls that are repeated after conflicts

A call that meets a conflict is made again after a pause, as long as the budget lasts. The
transcripts of such a series are those of its calls, one after the other: every call but the last
meets a conflict, and the last one decides what the series comes to.
-/
namespace GameIngress

variable {α : Type} {delay : Nat → Duration} {budget waits made : Nat} {t : Transcript}
  {answer r : Except Failure α}

/-- What comes of a series whose last call is its `n`th. A conflict ends it only when the budget is
spent, and is then reported with the number of calls. -/
inductive Settles (budget n : Nat) : Except Failure α → Except Failure α → Prop
  | success (a : α) : Settles budget n (.ok a) (.ok a)
  | failure {e : Failure} (other : e.isConflict = false) : Settles budget n (.error e) (.error e)
  | exhausted {e : Failure} (conflict : e.isConflict = true) (spent : n = budget) :
      Settles budget n (.error e) (.error (.exhausted n e))

/-- The transcripts of a series of calls, of which `made` were made before, and what it comes to.
`Call` says what a single call may ask, be answered and come to. -/
inductive Series (delay : Nat → Duration) (budget : Nat)
    (Call : Transcript → Except Failure α → Prop) :
    (made : Nat) → Transcript → Except Failure α → Prop
  | last {made : Nat} {t : Transcript} {answer r : Except Failure α} (h : Call t answer)
      (settles : Settles budget (made + 1) answer r) : Series delay budget Call made t r
  | again {made : Nat} {first t : Transcript} {e : Failure} {r : Except Failure α}
      (h : Call first (.error e)) (conflict : e.isConflict = true) (left : made + 1 < budget)
      (rest : Series delay budget Call (made + 1) t r) :
      Series delay budget Call made (first ++ ⟨.pause (delay made), ()⟩ :: t) r

/-- Of what occurs once in every call, and in no pause, a series has no more than its budget. -/
theorem Series.countP_le {Call : Transcript → Except Failure α → Prop} {p : Exchange → Bool}
    (hcall : ∀ t r, Call t r → t.countP p = 1) (hpause : ∀ d, p ⟨.pause d, ()⟩ = false)
    (h : Series delay budget Call made t r) (hmade : made < budget) :
    made + t.countP p ≤ budget := by
  induction h with
  | last hlast _ =>
    rw [hcall _ _ hlast]
    exact hmade
  | again hfirst _ hleft _ ih =>
    have hrest := ih hleft
    rw [List.countP_append, hcall _ _ hfirst, List.countP_cons_of_neg (by simp [hpause])]
    omega

section Loop
variable {call : Program (Except Failure α)} {Call : Transcript → Except Failure α → Prop}

/-- The first call of the loop: it is the last one, or it meets a conflict and the rest follows. -/
theorem conflictLoop_yields :
    (conflictLoop Program.pause delay call waits made).Yields t r ↔
      ∃ first answer, call.Yields first answer ∧
        (t = first ∧ Settles (made + waits + 1) (made + 1) answer r ∨
          ∃ e waits' rest, answer = .error e ∧ e.isConflict = true ∧ waits = waits' + 1 ∧
            t = first ++ ⟨.pause (delay made), ()⟩ :: rest ∧
            (conflictLoop Program.pause delay call waits' (made + 1)).Yields rest r) := by
  rw [conflictLoop, Program.yields_bind]
  constructor
  · rintro ⟨first, rest, answer, rfl, hfirst, hrest⟩
    refine ⟨first, answer, hfirst, ?_⟩
    cases answer with
    | ok a =>
      obtain ⟨rfl, rfl⟩ := hrest
      exact .inl ⟨List.append_nil _, .success a⟩
    | error e =>
      dsimp only at hrest
      split at hrest
      · next hconflict =>
        cases waits with
        | zero =>
          obtain ⟨rfl, rfl⟩ := hrest
          exact .inl ⟨List.append_nil _, .exhausted hconflict rfl⟩
        | succ waits =>
          obtain ⟨_, rest, rfl, hrest⟩ := hrest
          exact .inr ⟨e, waits, rest, rfl, hconflict, rfl, rfl, hrest⟩
      · next hother =>
        obtain ⟨rfl, rfl⟩ := hrest
        exact .inl ⟨List.append_nil _, .failure (Bool.not_eq_true _ ▸ hother)⟩
  · rintro ⟨first, answer, hfirst, ⟨rfl, hsettles⟩ | ⟨e, waits', rest, rfl, hconflict, rfl, rfl, h⟩⟩
    · refine ⟨t, [], answer, (List.append_nil _).symm, hfirst, ?_⟩
      cases hsettles with
      | success a => exact ⟨rfl, rfl⟩
      | failure hother =>
        dsimp only
        rw [hother, if_neg Bool.false_ne_true]
        exact ⟨rfl, rfl⟩
      | exhausted hconflict hspent =>
        obtain rfl : waits = 0 := by omega
        dsimp only
        rw [if_pos hconflict]
        exact ⟨rfl, rfl⟩
    · refine ⟨first, _, _, rfl, hfirst, ?_⟩
      dsimp only
      rw [if_pos hconflict]
      exact ⟨(), rest, rfl, h⟩

/-- By induction on the calls that may still be made, which the budget counts from the start. -/
theorem conflictLoop_yields_iff_series (hcall : ∀ t r, call.Yields t r ↔ Call t r)
    (hbudget : made + waits + 1 = budget) :
    (conflictLoop Program.pause delay call waits made).Yields t r ↔
      Series delay budget Call made t r := by
  subst hbudget
  constructor
  · intro h
    induction waits generalizing made t with
    | zero =>
      obtain ⟨first, answer, hfirst, ⟨rfl, hsettles⟩ | ⟨_, _, _, -, -, hwaits, -⟩⟩ :=
        conflictLoop_yields.mp h
      · exact .last ((hcall _ _).mp hfirst) hsettles
      · cases hwaits
    | succ waits ih =>
      obtain ⟨first, answer, hfirst,
          ⟨rfl, hsettles⟩ | ⟨e, _, rest, rfl, hconflict, hwaits, rfl, h⟩⟩ :=
        conflictLoop_yields.mp h
      · exact .last ((hcall _ _).mp hfirst) hsettles
      · cases hwaits
        have hsame : made + 1 + waits + 1 = made + (waits + 1) + 1 := by omega
        exact .again ((hcall _ _).mp hfirst) hconflict (by omega) (hsame ▸ ih h)
  · intro h
    generalize hbudget : made + waits + 1 = budget at h
    induction h generalizing waits with
    | last hlast hsettles =>
      subst hbudget
      exact conflictLoop_yields.mpr ⟨_, _, (hcall _ _).mpr hlast, .inl ⟨rfl, hsettles⟩⟩
    | again hfirst hconflict hleft _ ih =>
      obtain ⟨waits, rfl⟩ : ∃ n, waits = n + 1 := ⟨waits - 1, by omega⟩
      exact conflictLoop_yields.mpr ⟨_, _, (hcall _ _).mpr hfirst,
        .inr ⟨_, waits, _, rfl, hconflict, rfl, rfl, ih (by omega)⟩⟩

theorem retryOnConflict_yields_iff {b : Backoff} (hcall : ∀ t r, call.Yields t r ↔ Call t r) :
    (retryOnConflict Program.pause b call).Yields t r ↔
      Series b.delay b.budget Call 0 t r := by
  have hpositive : 1 ≤ b.budget := Nat.le_max_right _ _
  exact conflictLoop_yields_iff_series hcall (by omega)

end Loop
end GameIngress
