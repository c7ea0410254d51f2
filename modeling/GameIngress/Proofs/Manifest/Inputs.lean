import GameIngress.Proofs.Manifest.HandedOn
import Mathlib.Data.List.Nodup

/-!
# What built objects depend on

An Ingress is built from the origin of the game server, from the annotations under its prefix and
from six annotations that say how it is routed; a Service from the origin, the declared port and the
annotations under its own prefix. Two game servers that agree on these, and on nothing else, get the
same object, or the same objection.
-/
namespace GameIngress.Manifest

variable {gs gs' : GameServer} {rewrite : Bool} {start : String} {mode : RoutingMode}

/-- What is put into every object that is built for a game server. -/
structure SameOrigin (gs gs' : GameServer) : Prop where
  name : gs.name = gs'.name
  ns : gs.metadata.ns = gs'.metadata.ns
  uid : gs.metadata.uid.getD "" = gs'.metadata.uid.getD ""
  port : gs.port = gs'.port

def SameUnder (start : String) (gs gs' : GameServer) : Prop :=
  ∀ suffix, gs.annotationValue? (start ++ suffix) = gs'.annotationValue? (start ++ suffix)

/-- The annotations that route a game server, among them the one that lists the hosts of its mode.
-/
def routingKeys (mode : RoutingMode) : List String :=
  [Annotations.ingressMode, mode.hostsAnnotation, Annotations.tlsSecretName,
    Annotations.terminateTls, Annotations.issuerName, Annotations.className]

structure SameForIngress (gs gs' : GameServer) : Prop extends SameOrigin gs gs' where
  customs : SameUnder Annotations.ingressCustom gs gs'
  routing : ∀ key ∈ routingKeys gs.routingMode, gs.annotationValue? key = gs'.annotationValue? key

structure SameForService (gs gs' : GameServer) : Prop extends SameOrigin gs gs' where
  containerPort : gs.containerPort = gs'.containerPort
  customs : SameUnder Annotations.serviceCustom gs gs'

/-- Both lists are in the order of their keys, and so equal once they have the same members. -/
theorem SameUnder.handedOn (h : SameUnder start gs gs') :
    handedOn gs start = handedOn gs' start := by
  have hmem : ∀ c, c ∈ Manifest.handedOn gs start ↔ c ∈ Manifest.handedOn gs' start := by
    intro c
    rw [mem_handedOn, mem_handedOn, h c.key]
  have hnodup (gs : GameServer) : (Manifest.handedOn gs start).Nodup :=
    List.Nodup.of_map _ (nodup_handedOn gs start)
  have hperm := (List.perm_ext_iff_of_nodup (hnodup gs) (hnodup gs')).mpr hmem
  refine hperm.eq_of_pairwise ?_ (sorted_handedOn gs start) (sorted_handedOn gs' start)
  intro a b _ _ hab hba
  exact absurd (String.lt_trans hab hba) (String.lt_irrefl _)

theorem SameUnder.customs (h : SameUnder start gs gs') : customs gs start = customs gs' start := by
  have hself := h ""
  rw [String.append_empty] at hself
  cases hvalue : gs.annotationValue? start with
  | none => rw [customs_of_named hvalue, customs_of_named (hself ▸ hvalue), h.handedOn]
  | some value => rw [customs_of_unnamed hvalue, customs_of_unnamed (hself ▸ hvalue)]

theorem SameOrigin.fields (h : SameOrigin gs gs') : fields gs = fields gs' := by
  rw [Manifest.fields, Manifest.fields, h.name, h.port]

theorem SameUnder.literalStep (h : SameUnder start gs gs') :
    literalStep gs start = literalStep gs' start := by
  funext m
  rw [Manifest.literalStep, Manifest.literalStep, h.customs]

theorem SameUnder.templateStep (h : SameUnder start gs gs') (horigin : SameOrigin gs gs') :
    templateStep gs start = templateStep gs' start := by
  funext m
  rw [Manifest.templateStep, Manifest.templateStep, h.customs, horigin.fields]

theorem build_congr {σ α : Type} {apply apply' : σ → α → Stepped α} {steps : List σ}
    (h : ∀ s ∈ steps, apply s = apply' s) (a : α) :
    build apply steps a = build apply' steps a := by
  induction steps generalizing a with
  | nil => rfl
  | cons s rest ih =>
    have hrest := ih fun s' hs' => h s' (List.mem_cons_of_mem _ hs')
    rw [build, build, h s List.mem_cons_self]
    split
    · exact hrest _
    · rfl

theorem SameOrigin.ownedMeta (h : SameOrigin gs gs') : ownedMeta gs = ownedMeta gs' := by
  simp only [Manifest.ownedMeta, GameServer.standardLabels, GameServer.selectorLabels,
    GameServer.ownerReference, h.name, h.ns, h.uid]

theorem SameOrigin.modeHosts (h : SameOrigin gs gs')
    (hhosts :
      gs.annotationValue? mode.hostsAnnotation = gs'.annotationValue? mode.hostsAnnotation) :
    modeHosts gs mode = modeHosts gs' mode := by
  simp only [Manifest.modeHosts, hhosts, GameServer.ns, ObjectMeta.nsOrEmpty, h.ns, h.name]

theorem SameOrigin.ruleHost (h : SameOrigin gs gs') : ruleHost gs = ruleHost gs' := by
  funext mode entry
  cases mode <;> simp only [Manifest.ruleHost, h.name]

namespace SameForIngress

variable (h : SameForIngress gs gs')
include h

theorem routingMode : gs.routingMode = gs'.routingMode := by
  have hmode := h.routing Annotations.ingressMode (by simp [routingKeys])
  rw [GameServer.routingMode, GameServer.routingMode, hmode]

theorem ingressClass : gs.ingressClass = gs'.ingressClass := by
  have hclass := h.routing Annotations.className (by simp [routingKeys])
  have hlegacy := h.customs "kubernetes.io/ingress.class"
  have hkey : Annotations.ingressCustom ++ "kubernetes.io/ingress.class" =
      Annotations.classNameLegacy := by decide
  rw [hkey] at hlegacy
  rw [GameServer.ingressClass, GameServer.ingressClass, hclass, hlegacy]

theorem tlsIssuer : gs.tlsIssuer = gs'.tlsIssuer := by
  have hissuer := h.routing Annotations.issuerName (by simp [routingKeys])
  rw [GameServer.tlsIssuer, GameServer.tlsIssuer, hissuer]

theorem modeHosts : modeHosts gs gs.routingMode = Manifest.modeHosts gs' gs.routingMode :=
  h.toSameOrigin.modeHosts (h.routing _ (by simp [routingKeys]))

theorem applyRules (rewrite : Bool) (i : Ingress) :
    applyRules gs gs.routingMode rewrite i = Manifest.applyRules gs' gs.routingMode rewrite i := by
  have hrule : rule gs = rule gs' := by
    funext host m
    rw [rule, rule, h.name, h.port]
  unfold Manifest.applyRules
  rw [h.modeHosts, hrule, h.ruleHost, h.name]

theorem applyTls (i : Ingress) :
    applyTls gs gs.routingMode i = Manifest.applyTls gs' gs.routingMode i := by
  have hsecret := h.routing Annotations.tlsSecretName (by simp [routingKeys])
  have hns : gs.ns = gs'.ns := by
    simp only [GameServer.ns, ObjectMeta.nsOrEmpty, h.ns]
  rw [Manifest.applyTls, Manifest.applyTls, h.modeHosts, hsecret, h.ruleHost, hns, h.name]

theorem applyIssuer (issuer : String) (i : Ingress) :
    applyIssuer gs issuer i = Manifest.applyIssuer gs' issuer i := by
  have hterminate := h.routing Annotations.terminateTls (by simp [routingKeys])
  rw [Manifest.applyIssuer, Manifest.applyIssuer, hterminate, h.name]

theorem apply {step : IngressStep} (hstep : step ∈ ingressSteps gs rewrite) :
    IngressStep.apply gs step = IngressStep.apply gs' step := by
  funext i
  simp only [ingressSteps, List.mem_cons, List.not_mem_nil, or_false] at hstep
  rcases hstep with rfl | rfl | rfl | rfl | rfl | rfl
  · simp only [IngressStep.apply, h.customs.literalStep]
  · simp only [IngressStep.apply, h.customs.templateStep h.toSameOrigin]
  · simp only [IngressStep.apply, h.ingressClass]
  · exact h.applyRules rewrite i
  · exact h.applyTls i
  · exact h.applyIssuer _ i

theorem buildIngress (rewrite : Bool) :
    buildIngress gs rewrite = Manifest.buildIngress gs' rewrite := by
  have hsteps : ingressSteps gs rewrite = ingressSteps gs' rewrite := by
    rw [ingressSteps, ingressSteps, h.routingMode, h.tlsIssuer]
  have hbare : bareIngress gs = bareIngress gs' := by
    rw [bareIngress, bareIngress, h.ownedMeta]
  rw [Manifest.buildIngress, Manifest.buildIngress, ← hsteps, ← hbare]
  exact build_congr (fun step hstep => h.apply hstep) _

end SameForIngress

theorem SameForService.buildService (h : SameForService gs gs') :
    buildService gs = Manifest.buildService gs' := by
  have happly : ServiceStep.apply gs = ServiceStep.apply gs' := by
    funext step s
    cases step with
    | literals => simp only [ServiceStep.apply, h.customs.literalStep]
    | templates => simp only [ServiceStep.apply, h.customs.templateStep h.toSameOrigin]
  have hbare : bareService gs = bareService gs' := by
    simp only [bareService, GameServer.selectorLabels, h.ownedMeta, h.name, h.port, h.containerPort]
  rw [Manifest.buildService, Manifest.buildService, happly, hbare]

/-- Game servers that agree on what is declared to be read get the same object or the same
objection, whatever else they carry. -/
theorem built_from_declared (gs gs' : GameServer) :
    (SameForIngress gs gs' → ∀ rewrite, buildIngress gs rewrite = buildIngress gs' rewrite) ∧
    (SameForService gs gs' → buildService gs = buildService gs') :=
  ⟨fun h => h.buildIngress, fun h => h.buildService⟩

def annotatedElsewhere : ObjectMeta :=
  ((adorned.metadata.annotate Annotations.ingressReady "yes").annotate
    Annotations.ingressDomain "elsewhere.org").annotate (Annotations.serviceCustom ++ "plain") "z"

/-- All that an Ingress does not depend on is another. -/
def adornedElsewhere : GameServer where
  metadata := { annotatedElsewhere with
    generateName := some "b-"
    labels := some (TextMap.empty.insert "fleet" "b")
    resourceVersion := some "7" }
  ports := [{ containerPort := 9 }]
  status := some { state := .shutdown, ports := [{ port := 7000 }, { port := 7001 }] }

/-- All that a Service does not depend on is another. -/
def adornedOtherwise : GameServer where
  metadata := (adorned.metadata.annotate Annotations.ingressMode "domain").annotate
    (Annotations.ingressCustom ++ "plain") "z"
  ports := [{ containerPort := 0 }, { containerPort := 9 }]
  status := some { state := .ready, ports := [{ port := 7000 }] }

theorem sameForIngress_adorned : SameForIngress adorned adornedElsewhere := by
  have hmarked : Annotations.ingressReady = "octops.io/" ++ "ingress-ready" := by decide
  have hdomain : Annotations.ingressDomain = "octops.io/" ++ "gameserver-ingress-domain" := by
    decide
  have horigin : SameOrigin adorned adornedElsewhere := by constructor <;> decide +kernel
  refine ⟨horigin, fun suffix => ?_, by decide +kernel⟩
  have hsame : adornedElsewhere.metadata.annotations = annotatedElsewhere.annotations := rfl
  rw [GameServer.annotationValue?, GameServer.annotationValue?,
    ObjectMeta.annotationValue?_congr hsame, annotatedElsewhere,
    ObjectMeta.annotationValue?_annotate, if_neg (prefixes_apart.1 "plain" suffix).symm,
    ObjectMeta.annotationValue?_annotate, hdomain, if_neg (prefixes_apart.2.2 _ suffix).symm,
    ObjectMeta.annotationValue?_annotate, hmarked, if_neg (prefixes_apart.2.2 _ suffix).symm]

theorem sameForService_adorned : SameForService adorned adornedOtherwise := by
  have hmode : Annotations.ingressMode = "octops.io/" ++ "gameserver-ingress-mode" := by decide
  have horigin : SameOrigin adorned adornedOtherwise := by constructor <;> decide +kernel
  refine ⟨horigin, by decide +kernel, fun suffix => ?_⟩
  rw [GameServer.annotationValue?, GameServer.annotationValue?, adornedOtherwise,
    ObjectMeta.annotationValue?_annotate, if_neg (prefixes_apart.1 suffix "plain"),
    ObjectMeta.annotationValue?_annotate, hmode, if_neg (prefixes_apart.2.1 _ suffix).symm]

theorem built_from_declared_adorned :
    (SameForIngress adorned adornedElsewhere ∧ ∃ i, buildIngress adorned true = .ok i ∧
      buildIngress adornedElsewhere true = .ok i) ∧
    (SameForService adorned adornedOtherwise ∧ ∃ s, buildService adorned = .ok s ∧
      buildService adornedOtherwise = .ok s) := by
  obtain ⟨i, hi, -⟩ : ∃ i, buildIngress adorned true = .ok i ∧ i.metadata.name = some "a" :=
    exists_built (by decide +kernel)
  obtain ⟨s, hs, -⟩ : ∃ s, buildService adorned = .ok s ∧ s.metadata.name = some "a" :=
    exists_built (by decide +kernel)
  have hsame := (built_from_declared adorned adornedElsewhere).1 sameForIngress_adorned true
  have hsame' := (built_from_declared adorned adornedOtherwise).2 sameForService_adorned
  exact ⟨⟨sameForIngress_adorned, i, hi, hsame.symm.trans hi⟩, sameForService_adorned, s, hs,
    hsame'.symm.trans hs⟩

end GameIngress.Manifest
