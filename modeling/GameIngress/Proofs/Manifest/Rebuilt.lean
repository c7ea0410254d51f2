import GameIngress.Proofs.Manifest.Defect
import Mathlib.Data.Bool.Basic

/-!
# Building on what was built

The steps are applied again to an object that they built. Annotations come out as they were, and so
does the rest of the object, with one exception: the default target of a rewrite, once it is
written, is taken for one that the game server gave, and the captures that it refers to are lost.
-/
namespace GameIngress.Manifest

variable {gs : GameServer} {rewrite : Bool} {start k : String} {m : TextMap}

theorem customized_customized (h : CustomsSound gs start) (m : TextMap) :
    customized gs start (customized gs start m) = customized gs start m := by
  refine TextMap.ext_get? fun k => ?_
  rw [get?_customized h, get?_customized h]
  cases prescribed gs start k <;> rfl

theorem dressedService_dressedService (h : CustomsSound gs Annotations.serviceCustom)
    (s : Service) :
    dressedService gs (dressedService gs s) = dressedService gs s := by
  have hsame := customized_customized h s.metadata.annotationMap
  simp only [dressedService, ObjectMeta.annotationMap, Option.getD_some] at hsame ⊢
  rw [hsame]

/-- On the second pass the default target is seen as given, unless the game server prescribes what
is to be there. -/
theorem captures_finished (h : CustomsSound gs Annotations.ingressCustom) (rewrite : Bool)
    (m : TextMap) :
    captures gs rewrite (customized gs Annotations.ingressCustom (finished gs rewrite m)) =
      (captures gs rewrite (customized gs Annotations.ingressCustom m) &&
        (prescribed gs Annotations.ingressCustom Annotations.rewriteTarget).isSome) := by
  have hfinished := get?_finished_rewriteTarget gs rewrite m
  have hfirst := get?_customized h m Annotations.rewriteTarget
  have hsecond := get?_customized h (finished gs rewrite m) Annotations.rewriteTarget
  unfold captures TextMap.contains at *
  cases hp : prescribed gs Annotations.ingressCustom Annotations.rewriteTarget with
  | some given =>
    rw [hp, Option.getD_some] at hfirst hsecond
    rw [hfirst, hsecond, Option.isSome_some, Bool.and_true]
  | none =>
    rw [hp, Option.getD_none] at hsecond
    rw [hsecond, hfinished, Option.isSome_none, Bool.and_false]
    split
    · simp
    · next hno => exact Bool.eq_false_of_not_eq_true hno

theorem finished_finished (h : CustomsSound gs Annotations.ingressCustom) (rewrite : Bool)
    (m : TextMap) : finished gs rewrite (finished gs rewrite m) = finished gs rewrite m := by
  refine TextMap.ext_get? fun k => ?_
  have hcaptures := captures_finished h rewrite m
  rw [finished, get?_certified]
  by_cases hissuer : terminates gs = true ∧ k = Annotations.clusterIssuer
  · rw [if_pos hissuer, finished, get?_certified, if_pos hissuer]
  · rw [if_neg hissuer, get?_routed, get?_customized h, hcaptures]
    have hfinished : (finished gs rewrite m).get? k =
        if captures gs rewrite (customized gs Annotations.ingressCustom m) = true ∧
          k = Annotations.rewriteTarget then some defaultRewrite
        else (prescribed gs Annotations.ingressCustom k).getD (m.get? k) := by
      rw [finished, get?_certified, if_neg hissuer, get?_routed, get?_customized h]
    rw [hfinished]
    by_cases hk : k = Annotations.rewriteTarget
    · subst hk
      cases prescribed gs Annotations.ingressCustom Annotations.rewriteTarget <;>
        by_cases hc : captures gs rewrite (customized gs Annotations.ingressCustom m) = true <;>
        simp [hc]
    · cases prescribed gs Annotations.ingressCustom k <;> simp [hk]

/-- Match other paths, under the same hosts and for the same service. -/
def repath (p : PathMatch) (r : IngressRule) : IngressRule :=
  { r with http := r.http.map fun paths =>
      paths.map fun q => { q with path := some p.path, pathType := p.pathType } }

def repathed (p : PathMatch) (i : Ingress) : Ingress :=
  { i with spec := i.spec.map fun s => { s with rules := s.rules.map (·.map (repath p)) } }

theorem map_repath_rulesFor (gs : GameServer) (p q : PathMatch) :
    (rulesFor gs p).map (repath q) = rulesFor gs q := by
  simp [rulesFor, repath, rule, Function.comp_def]

theorem repathed_dressed (gs : GameServer) (rewrite : Bool) (i : Ingress) :
    repathed (pathMatch gs rewrite (ingressCustoms gs i)) (dressed gs rewrite i) =
      dressed gs rewrite i := by
  simp only [repathed, dressed, Option.map_some, map_repath_rulesFor]

theorem dressed_dressed (h : CustomsSound gs Annotations.ingressCustom) (rewrite : Bool)
    (i : Ingress) :
    dressed gs rewrite (dressed gs rewrite i) =
      repathed (pathMatch gs rewrite (ingressCustoms gs (dressed gs rewrite i)))
        (dressed gs rewrite i) := by
  have hannotations : finished gs rewrite (dressed gs rewrite i).metadata.annotationMap =
      finished gs rewrite i.metadata.annotationMap := finished_finished h rewrite _
  have hclass (old : Option String) : className? gs (className? gs old) = className? gs old := by
    unfold className?
    split <;> rfl
  rw [dressed, hannotations]
  simp only [repathed, dressed, Option.getD_some, Option.map_some, hclass, map_repath_rulesFor]

theorem pathMatch_dressed (h : CustomsSound gs Annotations.ingressCustom) (rewrite : Bool)
    (i : Ingress) :
    pathMatch gs rewrite (ingressCustoms gs (dressed gs rewrite i)) =
      if captures gs rewrite (ingressCustoms gs i) = true ∧
          prescribed gs Annotations.ingressCustom Annotations.rewriteTarget = none then
        .below gs.name
      else pathMatch gs rewrite (ingressCustoms gs i) := by
  have hcaptures : captures gs rewrite (ingressCustoms gs (dressed gs rewrite i)) =
      (captures gs rewrite (ingressCustoms gs i) &&
        (prescribed gs Annotations.ingressCustom Annotations.rewriteTarget).isSome) :=
    captures_finished h rewrite _
  rw [pathMatch, hcaptures]
  cases hp : prescribed gs Annotations.ingressCustom Annotations.rewriteTarget with
  | some given => simp [pathMatch]
  | none =>
    by_cases hc : captures gs rewrite (ingressCustoms gs i) = true
    · have hmode : gs.routingMode = .path := by
        simp only [captures, Bool.and_eq_true, decide_eq_true_eq] at hc
        exact hc.1.1
      simp [hc, hmode]
    · simp [hc, pathMatch]

/-- Paths are to be rewritten, and the game server does not say how, not even by a template. -/
def DefaultTarget (gs : GameServer) (rewrite : Bool) : Prop :=
  gs.routingMode = .path ∧ rewrite = true ∧ givenTarget? gs = none

theorem defaultTarget_iff (h : CustomsSound gs Annotations.ingressCustom) :
    DefaultTarget gs rewrite ↔ captures gs rewrite (ingressCustoms gs (bareIngress gs)) = true ∧
      prescribed gs Annotations.ingressCustom Annotations.rewriteTarget = none := by
  have hempty : (bareIngress gs).metadata.annotationMap.get? Annotations.rewriteTarget = none := rfl
  have hfirst := get?_customized h (bareIngress gs).metadata.annotationMap Annotations.rewriteTarget
  rw [DefaultTarget, ingressCustoms, captures, TextMap.contains, hfirst, hempty, prescribed,
    ← givenTarget?]
  cases givenTarget? gs with
  | none => simp
  | some value => simp

theorem repathed_ne (h : HostsSound gs) {i : Ingress} {p q : PathMatch}
    (hi : i.spec.bind (·.rules) = some (rulesFor gs p)) (hne : p.path ≠ q.path) :
    repathed q i ≠ i := by
  intro heq
  have hrules : (repathed q i).spec.bind (·.rules) = some (rulesFor gs q) := by
    obtain ⟨spec, hspec, hrules⟩ := Option.bind_eq_some_iff.mp hi
    simp only [repathed, hspec, Option.map_some, Option.bind_some, hrules, map_repath_rulesFor]
  rw [heq, hi, Option.some_inj] at hrules
  obtain ⟨host, rest, hhosts⟩ := List.exists_cons_of_ne_nil h.listedHosts_ne_nil
  simp only [rulesFor, hhosts, List.map_cons, List.cons.injEq, rule, IngressRule.mk.injEq] at hrules
  simp at hrules
  exact hne hrules.1.1

/-- Applied to a Service that they built, the build steps give it back; and so they do with an
Ingress, unless it carries the default target of a rewrite, which they take for one that was given:
then the rules lose their captures, and the target is left to refer to them. -/
theorem rebuilt_unless_default (gs : GameServer) (rewrite : Bool) :
    (∀ s, buildService gs = .ok s → build (ServiceStep.apply gs) serviceSteps s = .ok s) ∧
    ∀ i, buildIngress gs rewrite = .ok i →
      ∃ j, build (IngressStep.apply gs) (ingressSteps gs rewrite) i = .ok j ∧
        (¬ DefaultTarget gs rewrite → j = i) ∧
        (DefaultTarget gs rewrite → j = repathed (.below gs.name) i ∧ j ≠ i) := by
  constructor
  · intro s hs
    obtain ⟨hsound, rfl⟩ := service_of_ok hs
    rw [build_of_customsSound hsound, dressedService_dressedService hsound]
  · intro i hi
    obtain ⟨hsound, rfl⟩ := ingress_of_ok hi
    have hiff : DefaultTarget gs rewrite ↔ _ := defaultTarget_iff hsound.customs
    have hpath := pathMatch_dressed hsound.customs rewrite (bareIngress gs)
    refine ⟨_, build_of_ingressSound hsound rewrite _, fun hgiven => ?_, fun hdefault => ?_⟩
    · rw [dressed_dressed hsound.customs, hpath, if_neg fun h => hgiven (hiff.mpr h),
        repathed_dressed]
    · have hcaptures := hiff.mp hdefault
      rw [dressed_dressed hsound.customs, hpath, if_pos hcaptures]
      refine ⟨rfl, repathed_ne hsound.hosts rfl ?_⟩
      rw [pathMatch, hdefault.1]
      simp only [hcaptures.1, if_true]
      intro heq
      have hlength := congrArg String.length heq
      simp [PathMatch.capturing, PathMatch.below] at hlength

/-- A game server that is reached under a path and does not say how paths are rewritten. -/
def pathed : GameServer where
  metadata := {
    name := some "a"
    ns := some "d"
    annotations := some ((TextMap.empty.insert Annotations.ingressMode "path").insert
      Annotations.ingressFqdn "example.com") }

theorem rebuilt_with_and_without_rewrite :
    (∃ s, buildService pathed = .ok s ∧ build (ServiceStep.apply pathed) serviceSteps s = .ok s) ∧
    (∃ i, buildIngress pathed false = .ok i ∧
      build (IngressStep.apply pathed) (ingressSteps pathed false) i = .ok i) ∧
    ∃ i, buildIngress pathed true = .ok i ∧
      build (IngressStep.apply pathed) (ingressSteps pathed true) i =
        .ok (repathed (.below "a") i) := by
  obtain ⟨hservice, hwithout⟩ := rebuilt_unless_default pathed false
  obtain ⟨-, hwith⟩ := rebuilt_unless_default pathed true
  refine ⟨⟨_, rfl, hservice _ rfl⟩, ⟨_, rfl, ?_⟩, ⟨_, rfl, ?_⟩⟩
  · obtain ⟨j, hj, hsame, -⟩ := hwithout _ rfl
    have hgiven : ¬ DefaultTarget pathed false := fun h => Bool.false_ne_true h.2.1
    rw [hj, hsame hgiven]
  · obtain ⟨j, hj, -, hlost⟩ := hwith _ rfl
    have hdefault : DefaultTarget pathed true := ⟨rfl, rfl, rfl⟩
    rw [hj, (hlost hdefault).1]
    rfl

def pathsOf (i : Ingress) : List (Option String × String) :=
  ((i.spec.bind (·.rules)).getD []).flatMap fun r =>
    (r.http.getD []).map fun p => (p.path, p.pathType)

theorem captures_lost_when_rebuilt :
    ∃ i j, buildIngress pathed true = .ok i ∧
      build (IngressStep.apply pathed) (ingressSteps pathed true) i = .ok j ∧ j ≠ i ∧
      pathsOf i = [(some "/a(/|$)(.*)", "ImplementationSpecific")] ∧
      pathsOf j = [(some "/a", "Prefix")] ∧
      j.metadata.annotationValue? Annotations.rewriteTarget = some "/$2" := by
  refine ⟨_, _, rfl, rfl, ?_, rfl, rfl, rfl⟩
  intro heq
  have hpaths := congrArg pathsOf heq
  revert hpaths
  decide +kernel

end GameIngress.Manifest
