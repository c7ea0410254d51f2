import GameIngress.Proofs.Manifest.Defect
import GameIngress.Proofs.Manifest.Owned

/-!
# Rules, certificates and the Service behind them

The rules and the certificates of an Ingress are written by different steps, and the Service is
built apart from both. They agree all the same: entry by entry, rules and certificates are for the
same host, and every rule leads to the port that the Service opens.
-/
namespace GameIngress.Manifest

variable {gs : GameServer} {rewrite : Bool} {s : Service} {i : Ingress}

/-- The game server says how paths are rewritten, by a text or by a template that comes to one. -/
def SuppliesTarget (gs : GameServer) : Prop :=
  ∃ value, givenTarget? gs = some value ∧
    (isTemplate value = true → ∃ text, rendering (fields gs) value = some text)

/-- The path under which a game server is reached on its hosts. -/
inductive PathFor (gs : GameServer) (rewrite : Bool) : PathMatch → Prop
  | everything (mode : gs.routingMode = .domain) : PathFor gs rewrite ⟨"/", "Prefix"⟩
  | capturing (mode : gs.routingMode = .path) (asked : rewrite = true)
      (unsaid : ¬ SuppliesTarget gs) :
      PathFor gs rewrite ⟨"/" ++ gs.name ++ "(/|$)(.*)", "ImplementationSpecific"⟩
  | below (mode : gs.routingMode = .path) (kept : rewrite = false ∨ SuppliesTarget gs) :
      PathFor gs rewrite ⟨"/" ++ gs.name, "Prefix"⟩

/-- A rule and a certificate serve a listed host: they are for the same host, and the rule leads to
the port of the Service. -/
structure Serves (gs : GameServer) (rewrite : Bool) (s : Service) (entry : String) (r : IngressRule)
    (t : IngressTls) : Prop where
  host : r.host = some (match gs.routingMode with
    | .domain => gs.name ++ "." ++ entry
    | .path => entry)
  certified : t.hosts = some r.host.toList
  secret : t.secretName = some ((gs.annotationValue? Annotations.tlsSecretName).getD
    (tlsSecretName entry gs.name))
  leads : ∃ p m name port, r.http = some [p] ∧ PathFor gs rewrite m ∧ p.path = some m.path ∧
    p.pathType = m.pathType ∧ s.metadata.name = some name ∧ s.spec.bind (·.ports) = some [port] ∧
    p.backend.service = some { name, port := some { number := some port.port } }

/-- The object bears the name of the game server and is controlled by it alone. -/
structure BelongsTo (gs : GameServer) (m : ObjectMeta) : Prop where
  name : m.name = some gs.name
  ns : m.ns = gs.metadata.ns
  label : (m.labels.getD .empty).get? Label.gameServer = some gs.name
  owner : ∃ r, m.ownerReferences = some [r] ∧ r.controller = some true ∧
    r.apiVersion = "agones.dev/v1" ∧ r.kind = "GameServer" ∧ r.name = gs.name ∧
    r.uid = gs.metadata.uid.getD ""

theorem Owned.belongsTo {m : ObjectMeta} (h : Owned gs m) : BelongsTo gs m := by
  obtain ⟨_, rfl⟩ := h
  refine ⟨rfl, rfl, ?_, _, rfl, rfl, rfl, rfl, rfl, rfl⟩
  have hne : Label.gameServer ≠ Label.managedBy := by decide
  have hone : gs.selectorLabels = TextMap.empty.insert Label.gameServer gs.name := rfl
  simp only [ownedMeta, Option.getD_some, GameServer.standardLabels]
  rw [TextMap.get?_insert, if_neg hne, hone, TextMap.get?_insert, if_pos rfl]

/-- Before the rules are written, the annotation is there only if the game server supplies it. -/
theorem contains_rewriteTarget (h : CustomsSound gs Annotations.ingressCustom) :
    (ingressCustoms gs (bareIngress gs)).contains Annotations.rewriteTarget = true ↔
      SuppliesTarget gs := by
  have hempty : (bareIngress gs).metadata.annotationMap.get? Annotations.rewriteTarget = none := rfl
  rw [TextMap.contains, ingressCustoms, get?_customized h, hempty, prescribed, ← givenTarget?,
    SuppliesTarget]
  cases givenTarget? gs with
  | none => simp
  | some value =>
    by_cases ht : isTemplate value = true
    · simp [ht, Option.isSome_iff_exists]
    · simp [ht]

theorem captures_iff (h : CustomsSound gs Annotations.ingressCustom) (rewrite : Bool) :
    captures gs rewrite (ingressCustoms gs (bareIngress gs)) = true ↔
      gs.routingMode = .path ∧ rewrite = true ∧ ¬ SuppliesTarget gs := by
  rw [← contains_rewriteTarget h, captures]
  simp [and_assoc]

theorem pathFor_pathMatch (h : CustomsSound gs Annotations.ingressCustom) (rewrite : Bool) :
    PathFor gs rewrite (pathMatch gs rewrite (ingressCustoms gs (bareIngress gs))) := by
  have hiff := captures_iff h rewrite
  rw [pathMatch]
  cases hmode : gs.routingMode with
  | domain => exact .everything hmode
  | path =>
    by_cases hc : captures gs rewrite (ingressCustoms gs (bareIngress gs)) = true
    · obtain ⟨-, hasked, hunsaid⟩ := hiff.mp hc
      simp only [hc, if_true]
      exact .capturing hmode hasked hunsaid
    · have hkept : rewrite = false ∨ SuppliesTarget gs := by
        by_contra hno
        rw [not_or, Bool.not_eq_false] at hno
        exact hc (hiff.mpr ⟨hmode, hno.1, hno.2⟩)
      simp only [hc]
      exact .below hmode hkept

/-- Every listed host has its rule and its certificate, which agree with each other and with the
Service. -/
theorem built_objects_match (hs : buildService gs = .ok s) (hi : buildIngress gs rewrite = .ok i) :
    ∃ value rules certificates,
      gs.annotationValue? gs.routingMode.hostsAnnotation = some value ∧ splitHosts value ≠ [] ∧
      i.spec.bind (·.rules) = some rules ∧ rules.length = (splitHosts value).length ∧
      i.spec.bind (·.tls) = some certificates ∧ certificates.length = (splitHosts value).length ∧
      (∀ (n : Nat) entry r t, (splitHosts value)[n]? = some entry → rules[n]? = some r →
        certificates[n]? = some t → Serves gs rewrite s entry r t) ∧
      (gs.routingMode = .path → rewrite = true → ¬ SuppliesTarget gs →
        i.metadata.annotationValue? Annotations.rewriteTarget = some "/$2") ∧
      BelongsTo gs s.metadata ∧ BelongsTo gs i.metadata := by
  have hservice := (owned_of_buildService hs).belongsTo
  have hingress := (owned_of_buildIngress hi).belongsTo
  obtain ⟨-, rfl⟩ := service_of_ok hs
  obtain ⟨hsound, rfl⟩ := ingress_of_ok hi
  obtain ⟨value, hvalue, -⟩ := hsound.hosts
  have hlisted : listedHosts gs = splitHosts value := by rw [listedHosts, hvalue, Option.getD_some]
  refine ⟨value, _, _, hvalue, ?_, rfl, ?_, rfl, ?_, ?_, ?_, hservice, hingress⟩
  · rw [← hlisted]
    exact hsound.hosts.listedHosts_ne_nil
  · rw [rulesFor, List.length_map, hlisted]
  · rw [certificates, List.length_map, hlisted]
  · intro n entry r t hentry hr ht
    rw [← hlisted] at hentry
    rw [rulesFor, List.getElem?_map, hentry, Option.map_some, Option.some_inj] at hr
    rw [certificates, List.getElem?_map, hentry, Option.map_some, Option.some_inj] at ht
    subst hr ht
    have hpath := pathFor_pathMatch hsound.customs rewrite
    exact ⟨rfl, rfl, rfl, _, _, _, _, rfl, hpath, rfl, rfl, rfl, rfl, rfl⟩
  · intro hmode hasked hunsaid
    have hcaptures := (captures_iff hsound.customs rewrite).mpr ⟨hmode, hasked, hunsaid⟩
    rw [ObjectMeta.annotationValue?_eq]
    change (finished gs rewrite _).get? _ = _
    rw [get?_finished_rewriteTarget, ← ingressCustoms, if_pos hcaptures]
    rfl

/-- A game server that is reached under a path on two hosts. -/
def twofold : GameServer where
  metadata := {
    name := some "a"
    ns := some "d"
    uid := some "u"
    annotations := some ((TextMap.empty.insert Annotations.ingressMode "path").insert
      Annotations.ingressFqdn "x.org, ,y.org") }

theorem twofold_objects_match :
    ∃ s i rules certificates, buildService twofold = .ok s ∧ buildIngress twofold true = .ok i ∧
      i.spec.bind (·.rules) = some rules ∧ i.spec.bind (·.tls) = some certificates ∧
      rules.length = 2 ∧ certificates.length = 2 ∧
      (∀ (n : Nat) entry r t, ["x.org", "y.org"][n]? = some entry → rules[n]? = some r →
        certificates[n]? = some t → Serves twofold true s entry r t) ∧
      i.metadata.annotationValue? Annotations.rewriteTarget = some "/$2" := by
  have hs : buildService twofold = .ok _ := rfl
  have hi : buildIngress twofold true = .ok _ := rfl
  obtain ⟨value, rules, certificates, hvalue, -, hrules, hr, hcertificates, hc, hserves, hrewrite,
    -⟩ := built_objects_match hs hi
  have hhosts : splitHosts value = ["x.org", "y.org"] := by
    cases hvalue
    rfl
  have hunsaid : ¬ SuppliesTarget twofold := by
    rintro ⟨_, hgiven, -⟩
    cases hgiven
  rw [hhosts] at hr hc hserves
  exact ⟨_, _, rules, certificates, hs, hi, hrules, hcertificates, hr, hc, hserves,
    hrewrite rfl rfl hunsaid⟩

end GameIngress.Manifest
