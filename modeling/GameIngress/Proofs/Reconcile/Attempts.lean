import GameIngress.Proofs.Reconcile.Report
import GameIngress.Proofs.Store.Repetition
import GameIngress.Proofs.TextMap

/-!
# The attempts to set the marker

Every attempt reads the game server anew and, unless it finds the marker set, writes back what it
read with the marker added. Main statement: the transcripts of the readiness step, over every way in
which its calls may be answered, are exactly those of such a series of attempts, of which there are
no more than the budget allows; and the series decides the result.
-/
namespace GameIngress

namespace GameServer

variable {gs : GameServer}

/-- The marker is one of the words for yes. -/
def HasTrueMarker (gs : GameServer) : Prop :=
  ∃ value, gs.annotationValue? Annotations.ingressReady = some value ∧ readBool value = some true

/-- There is a marker, and it is neither empty nor a truth value. -/
def HasMalformedMarker (gs : GameServer) : Prop :=
  ∃ value, gs.annotationValue? Annotations.ingressReady = some value ∧ value ≠ "" ∧
    readBool value = none

/-- The problem that is reported of a malformed marker. -/
def markerProblem (gs : GameServer) : ValidationError :=
  .invalidBool Annotations.ingressReady gs.name

theorem HasTrueMarker.not_malformed (h : gs.HasTrueMarker) : ¬ gs.HasMalformedMarker := by
  obtain ⟨value, hvalue, htrue⟩ := h
  rintro ⟨value', hvalue', -, hnone⟩
  cases hvalue.symm.trans hvalue'
  cases htrue.symm.trans hnone

/-- The decision about the marker. -/
inductive ReadinessSpec (gs : GameServer) : Readiness → Prop
  | ready (h : gs.HasTrueMarker) : ReadinessSpec gs .ready
  | pending (h : ¬ gs.HasTrueMarker) (h' : ¬ gs.HasMalformedMarker) : ReadinessSpec gs .pending
  | malformed (h : gs.HasMalformedMarker) : ReadinessSpec gs (.malformed gs.markerProblem)

theorem readiness_spec (gs : GameServer) : ReadinessSpec gs gs.readiness := by
  unfold readiness
  cases hvalue : gs.annotationValue? Annotations.ingressReady with
  | none => exact .pending (by simp [HasTrueMarker, hvalue]) (by simp [HasMalformedMarker, hvalue])
  | some value =>
    dsimp only
    by_cases hempty : value = ""
    · subst hempty
      exact .pending (by simp [HasTrueMarker, hvalue, readBool])
        (by simp [HasMalformedMarker, hvalue])
    · rw [if_neg hempty]
      cases hbool : readBool value with
      | none => exact .malformed ⟨value, hvalue, hempty, hbool⟩
      | some b =>
        cases b with
        | true => exact .ready ⟨value, hvalue, hbool⟩
        | false =>
          exact .pending (by simp [HasTrueMarker, hvalue, hbool])
            (by simp [HasMalformedMarker, hvalue, hbool])

theorem isMarkedReady_iff : gs.isMarkedReady = true ↔ gs.HasTrueMarker := by
  rw [isMarkedReady, decide_eq_true_iff]
  have hspec := gs.readiness_spec
  generalize gs.readiness = found at hspec ⊢
  cases hspec with
  | ready h => exact ⟨fun _ => h, fun _ => rfl⟩
  | pending h _ => exact ⟨fun heq => (by cases heq), fun htrue => absurd htrue h⟩
  | malformed h => exact ⟨fun heq => (by cases heq), fun htrue => absurd h htrue.not_malformed⟩

theorem annotationValue?_markReady (gs : GameServer) (k : String) :
    gs.markReady.annotationValue? k =
      if k = Annotations.ingressReady then some "true" else gs.annotationValue? k :=
  gs.metadata.annotationValue?_annotate _ _ _

end GameServer

namespace Reconcile

variable {b : Backoff} {gs current sent : GameServer} {t : Transcript}

/-- What is written back after a read: the annotations that were read with the marker set, under the
version that was read. -/
structure WritesBack (current sent : GameServer) : Prop where
  marker : sent.annotationValue? Annotations.ingressReady = some "true"
  others : ∀ k, k ≠ Annotations.ingressReady → sent.annotationValue? k = current.annotationValue? k
  version : sent.metadata.resourceVersion = current.metadata.resourceVersion
  elsewhere : sent = { current with
    metadata := { current.metadata with annotations := sent.metadata.annotations } }

theorem writesBack_iff : WritesBack current sent ↔ sent = current.markReady := by
  constructor
  · intro h
    have hmap : sent.metadata.annotationMap =
        current.metadata.annotationMap.insert Annotations.ingressReady "true" := by
      refine TextMap.ext_get? fun k => ?_
      rw [TextMap.get?_insert, ← ObjectMeta.annotationValue?_eq, ← ObjectMeta.annotationValue?_eq]
      by_cases hk : k = Annotations.ingressReady
      · rw [if_pos hk, hk]
        exact h.marker
      · rw [if_neg hk]
        exact h.others k hk
    have hsome : sent.metadata.annotations = some sent.metadata.annotationMap := by
      have hmarker := h.marker
      unfold GameServer.annotationValue? ObjectMeta.annotationValue? at hmarker
      obtain ⟨m, hm, -⟩ := Option.bind_eq_some_iff.mp hmarker
      rw [ObjectMeta.annotationMap, hm, Option.getD_some]
    rw [h.elsewhere, hsome, hmap]
    rfl
  · rintro rfl
    refine ⟨?_, fun k hk => ?_, rfl, rfl⟩
    · rw [GameServer.annotationValue?_markReady, if_pos rfl]
    · rw [GameServer.annotationValue?_markReady, if_neg hk]

/-- What an attempt may ask, be answered and come to: a game server that carries the marker, and
whether the marker was written for it, or the failure of the read or of the write. -/
inductive Attempt (gs : GameServer) : Transcript → Except Failure (GameServer × Bool) → Prop
  | unread (e : Failure) : Attempt gs [⟨.readGameServer gs.name gs.ns, .error e⟩] (.error e)
  | found {current : GameServer} (marked : current.HasTrueMarker) :
      Attempt gs [⟨.readGameServer gs.name gs.ns, .ok current⟩] (.ok (current, false))
  | written {current sent : GameServer} (written : GameServer) (unmarked : ¬ current.HasTrueMarker)
      (sends : WritesBack current sent) :
      Attempt gs [⟨.readGameServer gs.name gs.ns, .ok current⟩,
        ⟨.writeGameServer sent, .ok written⟩] (.ok (written, true))
  | unwritten {current sent : GameServer} (e : Failure) (unmarked : ¬ current.HasTrueMarker)
      (sends : WritesBack current sent) :
      Attempt gs [⟨.readGameServer gs.name gs.ns, .ok current⟩,
        ⟨.writeGameServer sent, .error e⟩] (.error e)

theorem markOnce_yields_iff {r : Except Failure (GameServer × Bool)} :
    (markOnce gs.name gs.ns).Yields t r ↔ Attempt gs t r := by
  constructor
  · rintro ⟨answer, t, rfl, h⟩
    cases answer with
    | error e =>
      obtain ⟨rfl, rfl⟩ := h
      exact .unread e
    | ok current =>
      change (if current.isMarkedReady = true then _ else _ : Program _).Yields _ _ at h
      split at h
      · next hmarked =>
        obtain ⟨rfl, rfl⟩ := h
        exact .found (GameServer.isMarkedReady_iff.mp hmarked)
      · next hmarked =>
        have hunmarked := mt GameServer.isMarkedReady_iff.mpr hmarked
        obtain ⟨answer, t, rfl, h⟩ := h
        cases answer with
        | ok written =>
          obtain ⟨rfl, rfl⟩ := h
          exact .written written hunmarked (writesBack_iff.mpr rfl)
        | error e =>
          obtain ⟨rfl, rfl⟩ := h
          exact .unwritten e hunmarked (writesBack_iff.mpr rfl)
  · intro h
    cases h with
    | unread e => exact ⟨_, _, rfl, rfl, rfl⟩
    | found hmarked =>
      refine ⟨_, _, rfl, ?_⟩
      change (if _ then _ else _ : Program _).Yields _ _
      rw [if_pos (GameServer.isMarkedReady_iff.mpr hmarked)]
      exact ⟨rfl, rfl⟩
    | written written hunmarked hsends | unwritten e hunmarked hsends =>
      obtain rfl := writesBack_iff.mp hsends
      refine ⟨_, _, rfl, ?_⟩
      change (if _ then _ else _ : Program _).Yields _ _
      rw [if_neg (mt GameServer.isMarkedReady_iff.mp hunmarked)]
      exact ⟨_, _, rfl, rfl, rfl⟩

/-- The attempts for a game server, and what they come to. -/
def Attempts (b : Backoff) (gs : GameServer) :
    Transcript → Except Failure (GameServer × Bool) → Prop :=
  Series b.delay b.budget (Attempt gs) 0

/-- What is reported after the attempts: a marker that they wrote, and no other. -/
def reportOf : Except Failure (GameServer × Bool) → Transcript
  | .ok (written, true) =>
    ⟨.count .ready, ()⟩ :: (announcement written).map fun e => ⟨.publish e.1 e.2, ()⟩
  | _ => []

@[simp] theorem reportOf_error (e : Failure) : reportOf (.error e) = [] := rfl

theorem announce_yields_iff {written : GameServer} {u : Unit} :
    (announce written).Yields t u ↔ t = reportOf (.ok (written, true)) := by
  refine ⟨announce_yields, ?_⟩
  rintro rfl
  refine ⟨(), _, rfl, (), _, rfl, ?_⟩
  change (if _ then _ else _ : Program Unit).Yields _ _
  split
  · exact ⟨(), [], rfl, rfl, rfl⟩
  · exact ⟨rfl, rfl⟩

theorem mark_yields_iff {r : Except Failure GameServer} :
    (mark b gs).Yields t r ↔
      ∃ s x, Attempts b gs s x ∧ t = s ++ reportOf x ∧ r = x.map (·.1) := by
  rw [mark, Program.yields_bind]
  constructor
  · rintro ⟨s, rest, x, rfl, hs, hrest⟩
    refine ⟨s, x, (retryOnConflict_yields_iff fun _ _ => markOnce_yields_iff).mp hs, ?_⟩
    match x with
    | .error e =>
      obtain ⟨rfl, rfl⟩ := hrest
      exact ⟨rfl, rfl⟩
    | .ok (current, false) =>
      obtain ⟨rfl, rfl⟩ := hrest
      exact ⟨rfl, rfl⟩
    | .ok (written, true) =>
      obtain ⟨rest, _, _, rfl, hannounce, rfl, rfl⟩ := Program.yields_bind.mp hrest
      rw [announce_yields_iff.mp hannounce, List.append_nil]
      exact ⟨rfl, rfl⟩
  · rintro ⟨s, x, hs, rfl, rfl⟩
    refine ⟨s, reportOf x, x, rfl,
      (retryOnConflict_yields_iff fun _ _ => markOnce_yields_iff).mpr hs, ?_⟩
    match x with
    | .error e => exact ⟨rfl, rfl⟩
    | .ok (current, false) => exact ⟨rfl, rfl⟩
    | .ok (written, true) =>
      refine Program.yields_bind.mpr ⟨_, [], (), (List.append_nil _).symm, ?_, rfl, rfl⟩
      exact announce_yields_iff.mpr rfl

/-- What the readiness step asks, is answered and comes to. A marker that is set is left alone. A
malformed one is reported before the attempts and, if they succeed, as the result. -/
inductive Readied (b : Backoff) (gs : GameServer) : Transcript → Except Failure GameServer → Prop
  | untouched (h : gs.HasTrueMarker) : Readied b gs [] (.ok gs)
  | attempted {t : Transcript} {x : Except Failure (GameServer × Bool)} (h : ¬ gs.HasTrueMarker)
      (h' : ¬ gs.HasMalformedMarker) (attempts : Attempts b gs t x) :
      Readied b gs (t ++ reportOf x) (x.map (·.1))
  | repaired {t : Transcript} {found : GameServer × Bool} (h : gs.HasMalformedMarker)
      (attempts : Attempts b gs t (.ok found)) :
      Readied b gs (told gs .warning "Failed" gs.markerProblem.message :: t ++ reportOf (.ok found))
        (.error (.validation gs.markerProblem))
  | unrepaired {t : Transcript} {e : Failure} (h : gs.HasMalformedMarker)
      (attempts : Attempts b gs t (.error e)) :
      Readied b gs (told gs .warning "Failed" gs.markerProblem.message :: t) (.error e)

theorem readiness_yields_iff {r : Except Failure GameServer} :
    (readiness b gs).Yields t r ↔ Readied b gs t r := by
  have hspec := gs.readiness_spec
  unfold readiness
  generalize gs.readiness = decision at hspec ⊢
  cases hspec with
  | ready htrue =>
    constructor
    · rintro ⟨rfl, rfl⟩
      exact .untouched htrue
    · intro h
      cases h with
      | untouched => exact ⟨rfl, rfl⟩
      | attempted hno => exact absurd htrue hno
      | repaired hmalformed | unrepaired hmalformed => exact absurd hmalformed htrue.not_malformed
  | pending hno hwell =>
    refine mark_yields_iff.trans ⟨?_, fun h => ?_⟩
    · rintro ⟨s, x, hs, rfl, rfl⟩
      exact .attempted hno hwell hs
    · cases h with
      | untouched htrue => exact absurd htrue hno
      | attempted _ _ hs => exact ⟨_, _, hs, rfl, rfl⟩
      | repaired hmalformed | unrepaired hmalformed => exact absurd hmalformed hwell
  | malformed hmalformed =>
    constructor
    · rintro ⟨_, t, rfl, h⟩
      change (mark b gs >>= _).Yields _ _ at h
      obtain ⟨t, rest, x, rfl, hmark, h⟩ := Program.yields_bind.mp h
      obtain ⟨s, x, hs, rfl, rfl⟩ := mark_yields_iff.mp hmark
      cases x with
      | error e =>
        obtain ⟨rfl, rfl⟩ := h
        rw [reportOf_error, List.append_nil, List.append_nil]
        exact .unrepaired hmalformed hs
      | ok found =>
        obtain ⟨rfl, rfl⟩ := h
        rw [List.append_nil]
        exact .repaired hmalformed hs
    · intro h
      cases h with
      | untouched htrue => exact absurd hmalformed htrue.not_malformed
      | attempted _ hwell => exact absurd hmalformed hwell
      | repaired _ hs =>
        refine ⟨(), _, rfl, ?_⟩
        change (mark b gs >>= _).Yields _ _
        exact Program.yields_bind.mpr
          ⟨_, [], _, (List.append_nil _).symm, mark_yields_iff.mpr ⟨_, _, hs, rfl, rfl⟩, rfl, rfl⟩
      | unrepaired _ hs =>
        refine ⟨(), _, rfl, ?_⟩
        change (mark b gs >>= _).Yields _ _
        refine Program.yields_bind.mpr ⟨_, [], _, (List.append_nil _).symm,
          mark_yields_iff.mpr ⟨_, _, hs, (List.append_nil _).symm, rfl⟩, rfl, rfl⟩

def isRead : Exchange → Bool
  | ⟨.readGameServer _ _, _⟩ => true
  | _ => false

theorem Attempt.reads {r : Except Failure (GameServer × Bool)} (h : Attempt gs t r) :
    t.countP isRead = 1 := by
  cases h <;> rfl

theorem Attempts.reads_le {r : Except Failure (GameServer × Bool)} (h : Attempts b gs t r) :
    t.countP isRead ≤ b.budget := by
  have hpositive : 0 < b.budget := Nat.lt_of_lt_of_le Nat.zero_lt_one (Nat.le_max_right _ _)
  have hle := Series.countP_le (fun _ _ => Attempt.reads) (fun _ => rfl) h hpositive
  omega

theorem reads_reportOf (x : Except Failure (GameServer × Bool)) :
    (reportOf x).countP isRead = 0 := by
  match x with
  | .error e => rfl
  | .ok (current, false) => rfl
  | .ok (written, true) =>
    refine List.countP_eq_zero.mpr fun e he => ?_
    rcases List.mem_cons.mp he with rfl | he
    · exact Bool.false_ne_true
    · obtain ⟨_, -, rfl⟩ := List.mem_map.mp he
      exact Bool.false_ne_true

theorem Readied.reads_le {r : Except Failure GameServer} (h : Readied b gs t r) :
    t.countP isRead ≤ b.budget := by
  cases h with
  | untouched => exact Nat.zero_le _
  | attempted _ _ hs =>
    rw [List.countP_append, reads_reportOf]
    exact hs.reads_le
  | repaired _ hs =>
    rw [List.cons_append, List.countP_cons_of_neg (by exact Bool.false_ne_true), List.countP_append,
      reads_reportOf]
    exact hs.reads_le
  | unrepaired _ hs =>
    rw [List.countP_cons_of_neg (by exact Bool.false_ne_true)]
    exact hs.reads_le

/-- However its calls are answered, the readiness step comes to an end, and what it asks and comes
to is what a series of attempts within the budget asks and comes to: nothing for a marker that is
set; else attempts that each read the game server first and write back what they read with the
marker set, the next one only after a conflict, up to one that finds the marker, writes it or fails
otherwise, or up to the end of the budget. -/
theorem readiness_within_budget (b : Backoff) (gs : GameServer) :
    (∀ w : Responder, ∃ t r, (readiness b gs).Yields t r ∧ w.Gave [] t) ∧
    (∀ t r, (readiness b gs).Yields t r ↔ Readied b gs t r) ∧
    ∀ t r, (readiness b gs).Yields t r → t.countP isRead ≤ max b.steps 1 := by
  refine ⟨fun w => Program.exists_yields w _ [], fun t r => readiness_yields_iff, fun t r h => ?_⟩
  exact (readiness_yields_iff.mp h).reads_le

/-- What the server answers to a write under an outdated version. -/
def outdated : Failure := Memory.refuse "Conflict" 409

/-- Both writes meet a conflict, and there is no third attempt. -/
theorem readiness_spends_budget :
    ∃ t, (readiness (.ofSteps 2) hostless).Yields t (.error (.exhausted 2 outdated)) ∧
      t.countP isRead = 2 ∧ t.countP isRead ≤ max (Backoff.ofSteps 2).steps 1 := by
  have hvalue : hostless.annotationValue? Annotations.ingressReady = none := rfl
  have hno : ¬ hostless.HasTrueMarker := by simp [GameServer.HasTrueMarker, hvalue]
  have hwell : ¬ hostless.HasMalformedMarker := by simp [GameServer.HasMalformedMarker, hvalue]
  have hattempt : Attempt hostless [⟨.readGameServer "a" "d", .ok hostless⟩,
      ⟨.writeGameServer hostless.markReady, .error outdated⟩] (.error outdated) :=
    .unwritten outdated hno (writesBack_iff.mpr rfl)
  have hattempts : Attempts (.ofSteps 2) hostless _ (.error (.exhausted 2 outdated)) :=
    .again hattempt rfl (by decide) (.last hattempt (.exhausted rfl rfl))
  obtain ⟨-, hiff, hle⟩ := readiness_within_budget (.ofSteps 2) hostless
  have hy := (hiff _ _).mpr (.attempted hno hwell hattempts)
  exact ⟨_, hy, rfl, hle _ _ hy⟩

end Reconcile
end GameIngress
