import GameIngress.Failure

/-!
# Wrapped failures

A failure keeps its cause under any number of wrappers. What it counts as is decided by that cause.
-/
namespace GameIngress.Failure

/-- The failure `e` in any number of wrappers. -/
inductive Wraps (e : Failure) : Failure → Prop
  | bare : Wraps e e
  | step (kind : ResourceKind) (ns name : String) {f : Failure} (inner : Wraps e f) :
      Wraps e (.step kind ns name f)
  | exhausted (attempts : Nat) {f : Failure} (inner : Wraps e f) : Wraps e (.exhausted attempts f)

variable {e f : Failure}

theorem Wraps.root_eq (h : Wraps e f) : f.root = e.root := by
  induction h with
  | bare => rfl
  | step _ _ _ _ ih => exact ih
  | exhausted _ _ ih => exact ih

theorem wraps_root (f : Failure) : Wraps f.root f := by
  induction f with
  | step kind ns name source ih => exact .step kind ns name ih
  | exhausted attempts source ih => exact .exhausted attempts ih
  | _ => exact .bare

theorem status?_eq_some_iff {s : ApiStatus} : f.status? = some s ↔ Wraps (.api s) f := by
  constructor
  · intro h
    have hroot : f.root = .api s := by
      unfold status? at h
      split at h
      · next heq => rw [heq, Option.some.inj h]
      · cases h
    exact hroot ▸ wraps_root f
  · intro h
    rw [status?, h.root_eq]
    rfl

/-- A conflict is an answer that a write met another version than its own, wrapped or not. -/
theorem isConflict_iff : f.isConflict = true ↔
    ∃ s : ApiStatus, Wraps (.api s) f ∧ s.code = 409 ∧ s.reason ≠ "AlreadyExists" := by
  simp only [isConflict, Option.any_eq_true, status?_eq_some_iff, ApiStatus.conflict,
    Bool.and_eq_true, decide_eq_true_eq]

theorem isNotFound_iff : f.isNotFound = true ↔
    ∃ s : ApiStatus, Wraps (.api s) f ∧ s.code = 404 := by
  simp only [isNotFound, Option.any_eq_true, status?_eq_some_iff, ApiStatus.notFound,
    decide_eq_true_eq]

theorem isAlreadyExists_iff : f.isAlreadyExists = true ↔
    ∃ s : ApiStatus, Wraps (.api s) f ∧ s.code = 409 ∧ s.reason = "AlreadyExists" := by
  simp only [isAlreadyExists, Option.any_eq_true, status?_eq_some_iff, ApiStatus.alreadyExists,
    Bool.and_eq_true, decide_eq_true_eq]

def Bare : Failure → Prop
  | step .. | exhausted .. => False
  | api _ | undecodable | validation _ | cacheSync _ | config _ | cancelled => True

theorem bare_root (f : Failure) : f.root.Bare := by
  induction f with
  | step _ _ _ _ ih => exact ih
  | exhausted _ _ ih => exact ih
  | _ => trivial

theorem Bare.root_eq (h : e.Bare) : e.root = e := by
  cases e with
  | step | exhausted => exact h.elim
  | _ => rfl

theorem wraps_iff_root_eq (h : e.Bare) : Wraps e f ↔ f.root = e := by
  constructor
  · intro hwraps
    rw [hwraps.root_eq, h.root_eq]
  · rintro rfl
    exact wraps_root f

theorem isValidation_iff : f.isValidation = true ↔ ∃ v, Wraps (.validation v) f := by
  have hiff (v : ValidationError) : Wraps (.validation v) f ↔ f.root = .validation v :=
    wraps_iff_root_eq trivial
  simp only [hiff, isValidation]
  cases f.root <;> simp

/-- Waiting helps against everything but faults of the manifest and of the configuration, and
cancellation. -/
theorem isRetriable_eq_false_iff : f.isRetriable = false ↔
    (∃ v, Wraps (.validation v) f) ∨ (∃ reason, Wraps (.config reason) f) ∨ Wraps .cancelled f := by
  have hvalidation (v : ValidationError) : Wraps (.validation v) f ↔ f.root = .validation v :=
    wraps_iff_root_eq trivial
  have hconfig (reason : String) : Wraps (.config reason) f ↔ f.root = .config reason :=
    wraps_iff_root_eq trivial
  have hcancelled : Wraps .cancelled f ↔ f.root = .cancelled := wraps_iff_root_eq trivial
  simp only [hvalidation, hconfig, hcancelled, isRetriable]
  cases f.root <;> simp

theorem Wraps.unique {e' : Failure} (h : Wraps e f) (h' : Wraps e' f) (he : e.Bare)
    (he' : e'.Bare) : e = e' :=
  ((wraps_iff_root_eq he).mp h).symm.trans ((wraps_iff_root_eq he').mp h')

theorem Wraps.isValidation_of_api {s : ApiStatus} (h : Wraps (.api s) f) :
    f.isValidation = false := by
  refine Bool.eq_false_iff.mpr fun hvalidation => ?_
  obtain ⟨v, hv⟩ := isValidation_iff.mp hvalidation
  cases h.unique hv trivial trivial

theorem Wraps.isRetriable_of_api {s : ApiStatus} (h : Wraps (.api s) f) :
    f.isRetriable = true := by
  refine Bool.of_not_eq_false fun hlost => ?_
  rcases isRetriable_eq_false_iff.mp hlost with ⟨v, hv⟩ | ⟨reason, hreason⟩ | hcancelled
  · cases h.unique hv trivial trivial
  · cases h.unique hreason trivial trivial
  · cases h.unique hcancelled trivial trivial

theorem classes_apart (s : ApiStatus) :
    [s.notFound, s.alreadyExists, s.conflict].count true ≤ 1 := by
  simp only [ApiStatus.notFound, ApiStatus.alreadyExists, ApiStatus.conflict]
  by_cases hcode : s.code = 404
  · simp [hcode]
  · by_cases hreason : s.reason = "AlreadyExists" <;> by_cases hwrite : s.code = 409 <;>
      simp [hcode, hreason, hwrite]

theorem kind_ne_unknown (f : Failure) : f.kind ≠ "unknown" := by
  have hbare := f.bare_root
  rw [kind]
  cases hroot : f.root with
  | step | exhausted =>
    rw [hroot] at hbare
    exact hbare.elim
  | api | undecodable | validation | cacheSync | config | cancelled => simp

/-- What is asked about the two failures has the same answers. -/
structure SameAnswers (e f : Failure) : Prop where
  root : f.root = e.root
  kind : f.kind = e.kind
  isNotFound : f.isNotFound = e.isNotFound
  isAlreadyExists : f.isAlreadyExists = e.isAlreadyExists
  isConflict : f.isConflict = e.isConflict
  isValidation : f.isValidation = e.isValidation
  isRetriable : f.isRetriable = e.isRetriable

theorem Wraps.sameAnswers (h : Wraps e f) : SameAnswers e f := by
  have hroot := h.root_eq
  have hstatus : f.status? = e.status? := by rw [status?, status?, hroot]
  constructor
  · exact hroot
  · rw [Failure.kind, Failure.kind, hroot]
  · rw [Failure.isNotFound, Failure.isNotFound, hstatus]
  · rw [Failure.isAlreadyExists, Failure.isAlreadyExists, hstatus]
  · rw [Failure.isConflict, Failure.isConflict, hstatus]
  · rw [Failure.isValidation, Failure.isValidation, hroot]
  · rw [Failure.isRetriable, Failure.isRetriable, hroot]

/-- Whatever is asked about a failure is answered by its cause, which has a kind of its own and is
of at most one class. Waiting helps against all that the API server answered, and against no fault
of the manifest. -/
theorem classified_by_cause (f : Failure) :
    (∀ e, Wraps e f → SameAnswers e f) ∧
    (f.root.Bare ∧ Wraps f.root f) ∧
    f.kind ≠ "unknown" ∧
    [f.isNotFound, f.isAlreadyExists, f.isConflict, f.isValidation].count true ≤ 1 ∧
    (f.isNotFound = true ∨ f.isAlreadyExists = true ∨ f.isConflict = true →
      f.isRetriable = true) ∧
    (f.isValidation = true → f.isRetriable = false) := by
  refine ⟨fun e h => h.sameAnswers, ⟨f.bare_root, wraps_root f⟩, f.kind_ne_unknown, ?_, ?_, ?_⟩
  · simp only [isNotFound, isAlreadyExists, isConflict]
    cases hstatus : f.status? with
    | none => cases f.isValidation <;> decide
    | some s =>
      have hcause := status?_eq_some_iff.mp hstatus
      rw [hcause.isValidation_of_api]
      exact classes_apart s
  · rintro (h | h | h)
    · obtain ⟨s, hs, -⟩ := isNotFound_iff.mp h
      exact hs.isRetriable_of_api
    · obtain ⟨s, hs, -⟩ := isAlreadyExists_iff.mp h
      exact hs.isRetriable_of_api
    · obtain ⟨s, hs, -⟩ := isConflict_iff.mp h
      exact hs.isRetriable_of_api
  · intro h
    exact isRetriable_eq_false_iff.mpr (.inl (isValidation_iff.mp h))

def conflictStatus : ApiStatus where
  message := "the object has been modified"
  reason := "Conflict"
  code := 409

/-- A conflict that stopped a step after five attempts, and a fault of the manifest that stopped
one at once. -/
theorem classified_in_wrappers :
    (∃ e f, Wraps e f ∧ f = .step .gameServer "d" "a" (.exhausted 5 (.api conflictStatus)) ∧
      e = .api conflictStatus ∧ SameAnswers e f ∧ f.isConflict = true ∧ f.isRetriable = true) ∧
    ∃ f : Failure,
      f = .step .ingress "d" "a" (.validation (.customAnnotationSuffix "octops-")) ∧
      f.isValidation = true ∧ f.isRetriable = false := by
  have hwraps : Wraps (.api conflictStatus)
      (.step .gameServer "d" "a" (.exhausted 5 (.api conflictStatus))) :=
    .step _ _ _ (.exhausted 5 .bare)
  obtain ⟨hsame, -, -, -, hretriable, -⟩ := classified_by_cause
    (.step .gameServer "d" "a" (.exhausted 5 (.api conflictStatus)))
  obtain ⟨-, -, -, -, -, hvalidation⟩ := classified_by_cause
    (.step .ingress "d" "a" (.validation (.customAnnotationSuffix "octops-")))
  exact ⟨⟨_, _, hwraps, rfl, rfl, hsame _ hwraps, rfl, hretriable (.inr (.inr rfl))⟩,
    _, rfl, rfl, hvalidation rfl⟩

end GameIngress.Failure
