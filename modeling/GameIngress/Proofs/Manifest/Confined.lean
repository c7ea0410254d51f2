import GameIngress.Proofs.Manifest.HandedOn
import GameIngress.Proofs.Manifest.Owned

/-!
# Build steps keep to their own part of an object

A step may meet any object, not only the bare one that it is usually given. Whatever it meets, it
writes to its own part and leaves the rest, and when it objects there is little that it has done
already: nothing, an empty map where there were no annotations, or the templates that come before
the one it objects to.
-/
namespace GameIngress.Manifest

variable {gs : GameServer} {start : String} {keys : String → Prop} {m m' : ObjectMeta}
  {t : TextMap} {i j : Ingress}

/-- Nothing is changed but annotations under the keys. There may be an empty map of annotations
where there was none. -/
structure AnnotatesOnly (keys : String → Prop) (m m' : ObjectMeta) : Prop where
  others : ∀ k, ¬ keys k → m'.annotationValue? k = m.annotationValue? k
  kept : m'.annotations = none → m.annotations = none
  elsewhere : m' = { m with annotations := m'.annotations }

/-- The game server has an annotation under the prefix and the key. -/
def Given (gs : GameServer) (start k : String) : Prop :=
  ∃ value, gs.annotationValue? (start ++ k) = some value

/-- The part of an Ingress that a step may change, and what it may be changed to. -/
def IngressStep.StaysWithin (gs : GameServer) : IngressStep → Ingress → Ingress → Prop
  | .literals, i, j | .templates, i, j => ∃ m,
    AnnotatesOnly (Given gs Annotations.ingressCustom) i.metadata m ∧ j = { i with metadata := m }
  | .className, i, j => j = i ∨ ∃ className,
    j = { i with spec := some { i.spec.getD {} with className } }
  | .rules mode _, i, j => j = i ∨ ∃ m rules,
    (mode = .domain → m = i.metadata) ∧
    AnnotatesOnly (· = Annotations.rewriteTarget) i.metadata m ∧
    (∀ target, i.metadata.annotationValue? Annotations.rewriteTarget = some target →
      m.annotationValue? Annotations.rewriteTarget = some target) ∧
    j = { i with metadata := m, spec := some { i.spec.getD {} with rules } }
  | .tls _, i, j => j = i ∨ ∃ tls, j = { i with spec := some { i.spec.getD {} with tls } }
  | .issuer _, i, j => ∃ m,
    AnnotatesOnly (· = Annotations.clusterIssuer) i.metadata m ∧ j = { i with metadata := m }

def ServiceStep.StaysWithin (gs : GameServer) (s s' : Service) : Prop :=
  ∃ m, AnnotatesOnly (Given gs Annotations.serviceCustom) s.metadata m ∧
    s' = { s with metadata := m }

/-- A template to be handed on under the key. -/
def Pending (gs : GameServer) (start k value : String) : Prop :=
  gs.annotationValue? (start ++ k) = some value ∧ Marked value

/-- Of the templates, those before a key are rendered and the others are not. -/
structure RendersBefore (gs : GameServer) (start last : String) (m m' : ObjectMeta) : Prop where
  rendered : ∀ k value, Pending gs start k value → start ++ k < start ++ last →
    ComesTo gs (some value) (m'.annotationValue? k)
  rest : ∀ k, (∀ value, Pending gs start k value → ¬ start ++ k < start ++ last) →
    m'.annotationValue? k = m.annotationValue? k
  elsewhere : ∃ annotations, m' = { m with annotations := some annotations }

/-- The metadata after the templates were given up. -/
inductive GivesUp (gs : GameServer) (start : String) (m : ObjectMeta) :
    ValidationError → ObjectMeta → Prop
  | unnamed {value : String} (given : gs.annotationValue? start = some value) :
      GivesUp gs start m (.customAnnotationSuffix start) (withAnnotations m)
  | malformed {k value : String} {m' : ObjectMeta} (pending : Pending gs start k value)
      (bad : ¬ Compiles value) (before : RendersBefore gs start k m m') :
      GivesUp gs start m (.invalidTemplate k value) m'

/-- The Ingress after a step objected to something. -/
def IngressStep.LeavesBehind (gs : GameServer) :
    IngressStep → Ingress → ValidationError → Ingress → Prop
  | .literals, i, _, j => j = { i with metadata := withAnnotations i.metadata }
  | .templates, i, e, j => ∃ m,
    GivesUp gs Annotations.ingressCustom i.metadata e m ∧ j = { i with metadata := m }
  | .className, _, _, _ => False
  | .rules _ _, i, _, j | .tls _, i, _, j | .issuer _, i, _, j => j = i

def ServiceStep.LeavesBehind (gs : GameServer) :
    ServiceStep → Service → ValidationError → Service → Prop
  | .literals, s, _, s' => s' = { s with metadata := withAnnotations s.metadata }
  | .templates, s, e, s' => ∃ m,
    GivesUp gs Annotations.serviceCustom s.metadata e m ∧ s' = { s with metadata := m }

/-- In every case the object is within bounds, and after an objection it is as `behind` says. -/
structure Confined {α : Type} (within : α → Prop) (behind : ValidationError → α → Prop)
    (r : Stepped α) : Prop where
  within : within r.1
  behind : ∀ e, r.2 = some e → behind e r.1

namespace AnnotatesOnly

theorem refl (keys : String → Prop) (m : ObjectMeta) : AnnotatesOnly keys m m :=
  ⟨fun _ _ => rfl, id, rfl⟩

theorem of_get? (h : ∀ k, ¬ keys k → t.get? k = m.annotationMap.get? k) :
    AnnotatesOnly keys m { m with annotations := some t } where
  others k hk := by
    rw [ObjectMeta.annotationValue?_eq m, ← h k hk]
    rfl
  kept hnone := by cases hnone
  elsewhere := rfl

theorem withAnnotations (keys : String → Prop) (m : ObjectMeta) :
    AnnotatesOnly keys m (Manifest.withAnnotations m) :=
  of_get? fun _ _ => rfl

theorem annotate (m : ObjectMeta) (key value : String) :
    AnnotatesOnly (· = key) m (m.annotate key value) :=
  of_get? fun k hk => by rw [TextMap.get?_insert, if_neg hk]

end AnnotatesOnly

theorem annotationValue?_withAnnotations (m : ObjectMeta) (k : String) :
    (withAnnotations m).annotationValue? k = m.annotationValue? k :=
  (AnnotatesOnly.withAnnotations (fun _ => False) m).others k id

theorem annotationValue?_of_not_given {k : String} (h : ¬ Given gs start k) :
    gs.annotationValue? (start ++ k) = none :=
  Option.eq_none_iff_forall_ne_some.mpr fun value hvalue => h ⟨value, hvalue⟩

theorem literalStep_confined (gs : GameServer) (start : String) (m : ObjectMeta) :
    Confined (AnnotatesOnly (Given gs start) m) (fun _ m' => m' = withAnnotations m)
      (onAnnotations (literalStep gs start) m) := by
  rw [onAnnotations, literalStep]
  cases hnamed : gs.annotationValue? start with
  | some value =>
    rw [customs_of_unnamed hnamed]
    exact ⟨.withAnnotations _ m, fun _ _ => rfl⟩
  | none =>
    rw [customs_of_named hnamed]
    refine ⟨.of_get? fun k hk => ?_, fun e he => by cases he⟩
    rw [get?_copyLiterals (nodup_handedOn gs start), valueIn_handedOn,
      annotationValue?_of_not_given hk]

/-- Of the annotations before the first template that is not well formed, the templates are
rendered. -/
theorem rendersBefore_of_split {before after : List Custom} {c : Custom}
    (hsplit : handedOn gs start = before ++ c :: after) (hbefore : AllCompile before) :
    RendersBefore gs start c.key m { m with
      annotations := some (renderTemplates (fields gs) before m.annotationMap).1 } := by
  have hnodup : (before.map (·.key)).Nodup := by
    have hall := nodup_handedOn gs start
    rw [hsplit, List.map_append] at hall
    exact (List.nodup_append.mp hall).1
  have hget := get?_renderTemplates (f := fields gs) hnodup hbefore m.annotationMap
  refine ⟨fun k value hk hlt => ?_, fun k hk => ?_, _, rfl⟩
  · have hmem : ⟨k, value⟩ ∈ before := (mem_before_iff hsplit).mpr ⟨hk.1, hlt⟩
    have hmarked := (isTemplate_iff value).mpr hk.2
    change ComesTo gs _ ((renderTemplates _ _ _).1.get? k)
    rw [hget, (valueIn_eq_some_iff hnodup).mpr hmem]
    have hcomes : ComesTo gs (some value) _ := comesTo_of_compiles (hbefore _ hmem)
    rw [if_pos hmarked] at hcomes
    simpa only [if_pos hmarked] using hcomes
  · change (renderTemplates _ _ _).1.get? k = _
    rw [hget, ObjectMeta.annotationValue?_eq]
    cases hvalue : valueIn before k with
    | none => rfl
    | some value =>
      obtain ⟨hgiven, hlt⟩ := (mem_before_iff hsplit).mp ((valueIn_eq_some_iff hnodup).mp hvalue)
      have hplain : ¬ isTemplate value = true := fun hmarked =>
        hk value ⟨hgiven, (isTemplate_iff value).mp hmarked⟩ hlt
      exact if_neg hplain

theorem RendersBefore.annotatesOnly {last : String} (h : RendersBefore gs start last m m') :
    AnnotatesOnly (Given gs start) m m' := by
  obtain ⟨t, rfl⟩ := h.elsewhere
  refine .of_get? fun k hk => ?_
  rw [← ObjectMeta.annotationValue?_eq, ← h.rest k fun value hpending => absurd ⟨_, hpending.1⟩ hk]
  rfl

theorem templateStep_confined (gs : GameServer) (start : String) (m : ObjectMeta) :
    Confined (AnnotatesOnly (Given gs start) m) (GivesUp gs start m)
      (onAnnotations (templateStep gs start) m) := by
  rw [onAnnotations, templateStep]
  cases hnamed : gs.annotationValue? start with
  | some value =>
    rw [customs_of_unnamed hnamed]
    refine ⟨.withAnnotations _ m, ?_⟩
    rintro e ⟨⟩
    exact .unnamed hnamed
  | none =>
    rw [customs_of_named hnamed]
    by_cases hall : AllCompile (handedOn gs start)
    · refine ⟨.of_get? fun k hk => ?_, fun e he => ?_⟩
      · rw [get?_renderTemplates (nodup_handedOn gs start) hall, valueIn_handedOn,
          annotationValue?_of_not_given hk]
      · cases (renderTemplates_of_allCompile hall _).symm.trans he
    · obtain ⟨before, c, after, hsplit, hbefore, hmarked, hbad⟩ := exists_first_bad hall
      have hrenders := rendersBefore_of_split (m := m) hsplit hbefore
      have hc : c ∈ handedOn gs start := by simp [hsplit]
      dsimp only
      rw [hsplit, renderTemplates_of_bad hbefore hmarked hbad]
      refine ⟨hrenders.annotatesOnly, ?_⟩
      rintro e ⟨⟩
      exact .malformed ⟨mem_handedOn.mp hc, (isTemplate_iff _).mp hmarked⟩ hbad hrenders

theorem applyRules_confined (gs : GameServer) (mode : RoutingMode) (rewrite : Bool) (i : Ingress) :
    Confined ((IngressStep.rules mode rewrite).StaysWithin gs i) (fun _ j => j = i)
      (applyRules gs mode rewrite i) := by
  unfold applyRules
  cases modeHosts gs mode with
  | error e => exact ⟨.inl rfl, fun _ _ => rfl⟩
  | ok hosts =>
    refine ⟨.inr ?_, fun e he => by cases he⟩
    cases mode with
    | domain =>
      exact ⟨i.metadata, _, fun _ => rfl, .refl _ _, fun _ => id, rfl⟩
    | path =>
      dsimp only
      split
      · next hlacks =>
        refine ⟨_, _, nofun, AnnotatesOnly.annotate _ _ _, fun target htarget => ?_, rfl⟩
        rw [ObjectMeta.annotationValue?_eq] at htarget
        simp [TextMap.contains, htarget] at hlacks
      · refine ⟨_, _, nofun, AnnotatesOnly.withAnnotations _ _, fun target htarget => ?_, rfl⟩
        rw [annotationValue?_withAnnotations, htarget]

theorem applyTls_confined (gs : GameServer) (mode : RoutingMode) (i : Ingress) :
    Confined ((IngressStep.tls mode).StaysWithin gs i) (fun _ j => j = i) (applyTls gs mode i) := by
  unfold applyTls
  dsimp only
  split
  · exact ⟨.inl rfl, fun _ _ => rfl⟩
  · cases modeHosts gs mode with
    | error e => exact ⟨.inl rfl, fun _ _ => rfl⟩
    | ok hosts => exact ⟨.inr ⟨_, rfl⟩, fun e he => by cases he⟩

theorem applyIssuer_confined (gs : GameServer) (issuer : String) (i : Ingress) :
    Confined ((IngressStep.issuer issuer).StaysWithin gs i) (fun _ j => j = i)
      (applyIssuer gs issuer i) := by
  have hsame : (IngressStep.issuer issuer).StaysWithin gs i i := ⟨_, .refl _ _, rfl⟩
  unfold applyIssuer
  split
  · exact ⟨hsame, fun _ _ => rfl⟩
  · split
    · exact ⟨hsame, fun _ _ => rfl⟩
    · exact ⟨hsame, fun _ _ => rfl⟩
    · split
      · exact ⟨hsame, fun _ _ => rfl⟩
      · exact ⟨⟨_, .annotate _ _ _, rfl⟩, fun e he => by cases he⟩

theorem IngressStep.confined (gs : GameServer) (step : IngressStep) (i : Ingress) :
    Confined (step.StaysWithin gs i) (step.LeavesBehind gs i) (step.apply gs i) := by
  cases step with
  | literals =>
    have h := literalStep_confined gs Annotations.ingressCustom i.metadata
    refine ⟨⟨_, h.within, rfl⟩, fun e he => ?_⟩
    rw [LeavesBehind, ← h.behind e he]
    rfl
  | templates =>
    have h := templateStep_confined gs Annotations.ingressCustom i.metadata
    exact ⟨⟨_, h.within, rfl⟩, fun e he => ⟨_, h.behind e he, rfl⟩⟩
  | className =>
    rw [IngressStep.apply]
    split
    · exact ⟨.inl rfl, fun e he => by cases he⟩
    · exact ⟨.inr ⟨_, rfl⟩, fun e he => by cases he⟩
  | rules mode rewrite => exact applyRules_confined gs mode rewrite i
  | tls mode => exact applyTls_confined gs mode i
  | issuer name => exact applyIssuer_confined gs name i

theorem ServiceStep.confined (gs : GameServer) (step : ServiceStep) (s : Service) :
    Confined (StaysWithin gs s) (step.LeavesBehind gs s) (step.apply gs s) := by
  cases step with
  | literals =>
    have h := literalStep_confined gs Annotations.serviceCustom s.metadata
    refine ⟨⟨_, h.within, rfl⟩, fun e he => ?_⟩
    rw [LeavesBehind, ← h.behind e he]
    rfl
  | templates =>
    have h := templateStep_confined gs Annotations.serviceCustom s.metadata
    exact ⟨⟨_, h.within, rfl⟩, fun e he => ⟨_, h.behind e he, rfl⟩⟩

/-- Every step stays within its own part of the object, whatever the object holds, and what it
leaves behind after an objection is the object as it was, apart from an empty map of annotations or
the templates before the malformed one. -/
theorem steps_confined (gs : GameServer) :
    (∀ (step : IngressStep) (i : Ingress),
      Confined (step.StaysWithin gs i) (step.LeavesBehind gs i) (step.apply gs i)) ∧
    ∀ (step : ServiceStep) (s : Service),
      Confined (ServiceStep.StaysWithin gs s) (step.LeavesBehind gs s) (step.apply gs s) :=
  ⟨fun step i => step.confined gs i, fun step s => step.confined gs s⟩

/-- A block that is closed before it is opened. -/
def inverted : String := String.ofList ['}', '}', ' ', '{', '{']

/-- A game server with a malformed template between two good ones. -/
def gapped : GameServer where
  metadata := {
    name := some "a"
    annotations := some <| .ofList [
      ("octops-first", Text.braced (Text.braced " .Name ")),
      ("octops-second", inverted),
      ("octops-third", Text.braced (Text.braced " .Port "))] }

/-- An Ingress that somebody else has annotated under the same keys. -/
def annotated : Ingress where
  metadata := { annotations := some <| .ofList [("first", "x"), ("fourth", "y"), ("third", "z")] }

theorem steps_confined_before_gap :
    let stepped := IngressStep.templates.apply gapped annotated
    let objection := ValidationError.invalidTemplate "second" inverted
    stepped.2 = some objection ∧
    IngressStep.templates.LeavesBehind gapped annotated objection stepped.1 ∧
    stepped.1.metadata.annotations =
      some (.ofList [("first", "a"), ("fourth", "y"), ("third", "z")]) := by
  intro stepped objection
  have hobjects : stepped.2 = some objection := by decide +kernel
  exact ⟨hobjects, ((steps_confined gapped).1 .templates annotated).behind objection hobjects,
    by decide +kernel⟩

end GameIngress.Manifest
