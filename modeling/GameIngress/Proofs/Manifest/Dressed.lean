import GameIngress.Manifest.Ingress
import GameIngress.Manifest.Service
import GameIngress.Proofs.Manifest.Custom
import GameIngress.Proofs.Routing

/-!
# What the build steps make of an object

For a game server without defects no step objects, whatever object the steps are applied to. What
they make of it is written down here as a whole.
-/
namespace GameIngress.Manifest

variable {gs : GameServer} {rewrite : Bool} {i : Ingress} {m : TextMap} {hosts : List String}

section Build

variable {σ α : Type} {apply : σ → α → Stepped α} {s : σ} {rest : List σ} {a b : α}

theorem build_cons_of_eq (h : apply s a = (b, none)) :
    build apply (s :: rest) a = build apply rest b := by
  rw [build, h]

theorem build_cons_of_objection {e : ValidationError} (h : (apply s a).2 = some e) :
    build apply (s :: rest) a = .error e := by
  rw [build]
  split
  · next hok =>
    rw [hok] at h
    cases h
  · next herror =>
    rw [herror] at h
    cases h
    rfl

end Build

/-- The truth value, if there is one, and the issuer go together. -/
def IssuerSound (gs : GameServer) : Prop :=
  ∀ value, gs.annotationValue? Annotations.terminateTls = some value →
    value = "" ∨ readBool value = some false ∨
      (readBool value = some true ∧
        ∃ issuer, gs.annotationValue? Annotations.issuerName = some issuer ∧ issuer ≠ "")

/-- Hosts are listed for the routing mode. -/
def HostsSound (gs : GameServer) : Prop :=
  ∃ value, gs.annotationValue? gs.routingMode.hostsAnnotation = some value ∧ ListsHost value

structure IngressSound (gs : GameServer) : Prop where
  customs : CustomsSound gs Annotations.ingressCustom
  hosts : HostsSound gs
  secret : gs.annotationValue? Annotations.tlsSecretName ≠ some ""
  issuer : IssuerSound gs

def listedHosts (gs : GameServer) : List String :=
  splitHosts ((gs.annotationValue? gs.routingMode.hostsAnnotation).getD "")

theorem HostsSound.modeHosts (h : HostsSound gs) :
    modeHosts gs gs.routingMode = .ok (listedHosts gs) := by
  obtain ⟨value, hvalue, hlists⟩ := h
  have hne : splitHosts value ≠ [] := fun h => (splitHosts_eq_nil_iff value).mp h hlists
  simp only [Manifest.modeHosts, listedHosts, hvalue, Option.getD_some]

theorem HostsSound.listedHosts_ne_nil (h : HostsSound gs) : listedHosts gs ≠ [] := by
  obtain ⟨value, hvalue, hlists⟩ := h
  rw [listedHosts, hvalue]
  exact fun h => (splitHosts_eq_nil_iff value).mp h hlists

/-- What the game server says about how paths are rewritten. -/
def givenTarget? (gs : GameServer) : Option String :=
  gs.annotationValue? <| Annotations.ingressCustom ++ Annotations.rewriteTarget

/-- The rules are to rewrite paths, and nobody has said how. -/
def captures (gs : GameServer) (rewrite : Bool) (m : TextMap) : Bool :=
  gs.routingMode = .path && rewrite && !m.contains Annotations.rewriteTarget

def routed (gs : GameServer) (rewrite : Bool) (m : TextMap) : TextMap :=
  if captures gs rewrite m then m.insert Annotations.rewriteTarget defaultRewrite else m

def pathMatch (gs : GameServer) (rewrite : Bool) (m : TextMap) : PathMatch :=
  match gs.routingMode with
  | .domain => .everything
  | .path => if captures gs rewrite m then .capturing gs.name else .below gs.name

def rulesFor (gs : GameServer) (path : PathMatch) : List IngressRule :=
  (listedHosts gs).map fun entry => rule gs (ruleHost gs gs.routingMode entry) path

def certificates (gs : GameServer) : List IngressTls :=
  (listedHosts gs).map fun entry =>
    { hosts := some [ruleHost gs gs.routingMode entry],
      secretName := some ((gs.annotationValue? Annotations.tlsSecretName).getD
        (tlsSecretName entry gs.name)) }

def terminates (gs : GameServer) : Bool :=
  (gs.annotationValue? Annotations.terminateTls).bind readBool = some true

def certified (gs : GameServer) (m : TextMap) : TextMap :=
  if terminates gs then m.insert Annotations.clusterIssuer gs.tlsIssuer else m

theorem get?_certified (gs : GameServer) (m : TextMap) (k : String) :
    (certified gs m).get? k =
      if terminates gs = true ∧ k = Annotations.clusterIssuer then some gs.tlsIssuer
      else m.get? k := by
  unfold certified
  by_cases ht : terminates gs = true
  · simp [ht, TextMap.get?_insert]
  · simp [ht]

theorem get?_routed (gs : GameServer) (rewrite : Bool) (m : TextMap) (k : String) :
    (routed gs rewrite m).get? k =
      if captures gs rewrite m = true ∧ k = Annotations.rewriteTarget then some defaultRewrite
      else m.get? k := by
  unfold routed
  by_cases hc : captures gs rewrite m = true
  · simp [hc, TextMap.get?_insert]
  · simp [hc]

/-- The annotations that the steps leave on an object. -/
def finished (gs : GameServer) (rewrite : Bool) (m : TextMap) : TextMap :=
  certified gs (routed gs rewrite (customized gs Annotations.ingressCustom m))

theorem get?_finished_rewriteTarget (gs : GameServer) (rewrite : Bool) (m : TextMap) :
    (finished gs rewrite m).get? Annotations.rewriteTarget =
      if captures gs rewrite (customized gs Annotations.ingressCustom m) = true then
        some defaultRewrite
      else (customized gs Annotations.ingressCustom m).get? Annotations.rewriteTarget := by
  have hne : Annotations.rewriteTarget ≠ Annotations.clusterIssuer := by decide
  rw [finished, get?_certified, if_neg fun h => hne h.2, get?_routed]
  simp

def className? (gs : GameServer) (old : Option String) : Option String :=
  if gs.ingressClass = "" then old else some gs.ingressClass

def withAnnotationMap (i : Ingress) (m : TextMap) : Ingress :=
  { i with metadata := { i.metadata with annotations := some m } }

/-- The annotations with those of the game server, before the rules are written. -/
def ingressCustoms (gs : GameServer) (i : Ingress) : TextMap :=
  customized gs Annotations.ingressCustom i.metadata.annotationMap

def dressed (gs : GameServer) (rewrite : Bool) (i : Ingress) : Ingress :=
  let spec := i.spec.getD {}
  { i with
    metadata := { i.metadata with
      annotations := some (finished gs rewrite i.metadata.annotationMap) }
    spec := some { spec with
      className := className? gs spec.className
      rules := some (rulesFor gs (pathMatch gs rewrite (ingressCustoms gs i)))
      tls := some (certificates gs) } }

def dressedService (gs : GameServer) (s : Service) : Service :=
  { s with metadata := { s.metadata with
      annotations := some (customized gs Annotations.serviceCustom s.metadata.annotationMap) } }

theorem apply_literals (h : CustomsSound gs Annotations.ingressCustom) (i : Ingress) :
    IngressStep.literals.apply gs i = (withAnnotationMap i
      (copyLiterals (handedOn gs Annotations.ingressCustom) i.metadata.annotationMap), none) := by
  rw [IngressStep.apply, onAnnotations, literalStep_of_sound h]
  rfl

theorem apply_templates (h : CustomsSound gs Annotations.ingressCustom) (i : Ingress)
    (m : TextMap) :
    IngressStep.templates.apply gs
      (withAnnotationMap i (copyLiterals (handedOn gs Annotations.ingressCustom) m)) =
      (withAnnotationMap i (customized gs Annotations.ingressCustom m), none) := by
  rw [IngressStep.apply, onAnnotations, ObjectMeta.annotationMap, withAnnotationMap,
    Option.getD_some, templateStep_of_sound h]
  rfl

def classed (gs : GameServer) (i : Ingress) : Ingress :=
  if gs.ingressClass = "" then i
  else onSpec (fun s => { s with className := some gs.ingressClass }) i

theorem apply_className (i : Ingress) (m : TextMap) :
    IngressStep.className.apply gs (withAnnotationMap i m) =
      (withAnnotationMap (classed gs i) m, none) := by
  rw [IngressStep.apply, classed]
  split <;> rfl

theorem apply_rules (h : HostsSound gs) (i : Ingress) (m : TextMap) :
    (IngressStep.rules gs.routingMode rewrite).apply gs (withAnnotationMap i m) =
      (onSpec (fun s => { s with rules := some (rulesFor gs (pathMatch gs rewrite m)) })
        (withAnnotationMap i (routed gs rewrite m)), none) := by
  change applyRules gs gs.routingMode rewrite (withAnnotationMap i m) = _
  unfold applyRules
  rw [h.modeHosts]
  have hm : (withAnnotationMap i m).metadata.annotationMap = m := rfl
  cases hmode : gs.routingMode with
  | domain => simp [rulesFor, pathMatch, routed, captures, hmode, withAnnotationMap]
  | path =>
    by_cases hcaptures : (rewrite && !m.contains Annotations.rewriteTarget) = true
    · simp [rulesFor, pathMatch, routed, captures, hmode, hm, hcaptures]
      rfl
    · simp [rulesFor, pathMatch, routed, captures, hmode, hm, hcaptures]
      rfl

theorem apply_tls (h : HostsSound gs)
    (hsecret : gs.annotationValue? Annotations.tlsSecretName ≠ some "") (i : Ingress) :
    (IngressStep.tls gs.routingMode).apply gs i =
      (onSpec (fun s => { s with tls := some (certificates gs) }) i, none) := by
  simp only [IngressStep.apply, applyTls, if_neg hsecret, h.modeHosts, certificates]

theorem apply_issuer (h : IssuerSound gs) (hi : i.metadata.annotations = some m) :
    (IngressStep.issuer gs.tlsIssuer).apply gs i =
      (withAnnotationMap i (certified gs m), none) := by
  have hsame : withAnnotationMap i m = i := by
    rw [withAnnotationMap, ← hi]
  rw [IngressStep.apply, applyIssuer, certified, terminates]
  cases hvalue : gs.annotationValue? Annotations.terminateTls with
  | none => simp [hsame]
  | some value =>
    by_cases hempty : value = ""
    · subst hempty
      simp [hsame, readBool]
    · have hbool := (h value hvalue).resolve_left hempty
      rcases hbool with hfalse | ⟨htrue, issuer, hissuer, hne⟩
      · simp [hfalse, hsame]
      · have htls : gs.tlsIssuer = issuer := by simp [GameServer.tlsIssuer, hissuer]
        have hm : i.metadata.annotationMap = m := by rw [ObjectMeta.annotationMap, hi]; rfl
        simp [htrue, htls, hne, hm, ObjectMeta.annotate, withAnnotationMap]

theorem build_of_ingressSound (h : IngressSound gs) (rewrite : Bool) (i : Ingress) :
    build (IngressStep.apply gs) (ingressSteps gs rewrite) i = .ok (dressed gs rewrite i) := by
  rw [ingressSteps, build_cons_of_eq (apply_literals h.customs i),
    build_cons_of_eq (apply_templates h.customs i _), build_cons_of_eq (apply_className i _),
    build_cons_of_eq (apply_rules h.hosts _ _), build_cons_of_eq (apply_tls h.hosts h.secret _),
    build_cons_of_eq (apply_issuer h.issuer rfl), build, dressed, classed, className?]
  split <;> rfl

theorem build_of_customsSound (h : CustomsSound gs Annotations.serviceCustom) (s : Service) :
    build (ServiceStep.apply gs) serviceSteps s = .ok (dressedService gs s) := by
  have hliterals : ServiceStep.literals.apply gs s = ({ s with
      metadata := { s.metadata with annotations := some (copyLiterals
        (handedOn gs Annotations.serviceCustom) s.metadata.annotationMap) } }, none) := by
    rw [ServiceStep.apply, onAnnotations, literalStep_of_sound h]
  have htemplates (m : TextMap) : ServiceStep.templates.apply gs { s with
      metadata := { s.metadata with annotations := some (copyLiterals
        (handedOn gs Annotations.serviceCustom) m) } } = ({ s with
      metadata := { s.metadata with
        annotations := some (customized gs Annotations.serviceCustom m) } }, none) := by
    rw [ServiceStep.apply, onAnnotations, ObjectMeta.annotationMap, Option.getD_some,
      templateStep_of_sound h]
  rw [serviceSteps, build_cons_of_eq hliterals, build_cons_of_eq (htemplates _), build,
    dressedService]

end GameIngress.Manifest
