import GameIngress.Proofs.Manifest.Dressed

/-!
# Which game servers are accepted

An Ingress is built exactly for game servers without defects, and otherwise the first defect is
reported, in the order in which the build steps look for them. The same is true of the Service.
-/
namespace GameIngress.Manifest

variable {gs : GameServer} {rewrite : Bool} {e : ValidationError} {mode : RoutingMode}

/-- What is wrong first with a game server that asks for an Ingress. -/
inductive IngressDefect (gs : GameServer) : ValidationError → Prop
  | customs {e : ValidationError} (h : CustomsDefect gs Annotations.ingressCustom e) :
      IngressDefect gs e
  | hostsMissing (customs : CustomsSound gs Annotations.ingressCustom)
      (h : gs.annotationValue? gs.routingMode.hostsAnnotation = none) :
      IngressDefect gs (.routingAnnotationMissing gs.routingMode gs.routingMode.hostsAnnotation
        gs.ns gs.name)
  | hostsEmpty {value : String} (customs : CustomsSound gs Annotations.ingressCustom)
      (hvalue : gs.annotationValue? gs.routingMode.hostsAnnotation = some value)
      (h : ¬ ListsHost value) :
      IngressDefect gs (.annotationEmpty gs.ns gs.name gs.routingMode.hostsAnnotation)
  | secretEmpty (customs : CustomsSound gs Annotations.ingressCustom) (hosts : HostsSound gs)
      (h : gs.annotationValue? Annotations.tlsSecretName = some "") :
      IngressDefect gs (.annotationEmpty gs.ns gs.name Annotations.tlsSecretName)
  | terminateMalformed {value : String} (customs : CustomsSound gs Annotations.ingressCustom)
      (hosts : HostsSound gs) (secret : gs.annotationValue? Annotations.tlsSecretName ≠ some "")
      (hvalue : gs.annotationValue? Annotations.terminateTls = some value) (hne : value ≠ "")
      (h : readBool value = none) :
      IngressDefect gs (.invalidBool Annotations.terminateTls gs.name)
  | issuerMissing {value : String} (customs : CustomsSound gs Annotations.ingressCustom)
      (hosts : HostsSound gs) (secret : gs.annotationValue? Annotations.tlsSecretName ≠ some "")
      (hvalue : gs.annotationValue? Annotations.terminateTls = some value)
      (htrue : readBool value = some true)
      (h : gs.annotationValue? Annotations.issuerName = none ∨
        gs.annotationValue? Annotations.issuerName = some "") :
      IngressDefect gs (.issuerMissing Annotations.issuerName gs.name)

theorem ingressSound_or_defect (gs : GameServer) :
    IngressSound gs ∨ ∃ e, IngressDefect gs e := by
  obtain hcustoms | ⟨e, he⟩ := customsSound_or_defect gs Annotations.ingressCustom
  · cases hhosts : gs.annotationValue? gs.routingMode.hostsAnnotation with
    | none => exact .inr ⟨_, .hostsMissing hcustoms hhosts⟩
    | some value =>
      by_cases hlists : ListsHost value
      · have hsound : HostsSound gs := ⟨value, hhosts, hlists⟩
        by_cases hsecret : gs.annotationValue? Annotations.tlsSecretName = some ""
        · exact .inr ⟨_, .secretEmpty hcustoms hsound hsecret⟩
        · by_cases hissuer : IssuerSound gs
          · exact .inl ⟨hcustoms, hsound, hsecret, hissuer⟩
          · simp only [IssuerSound, not_forall, not_or, not_and, not_exists] at hissuer
            obtain ⟨value, hvalue, hne, hfalse, htrue⟩ := hissuer
            cases hbool : readBool value with
            | none => exact .inr ⟨_, .terminateMalformed hcustoms hsound hsecret hvalue hne hbool⟩
            | some b =>
              cases b with
              | false => exact absurd hbool hfalse
              | true =>
                refine .inr ⟨_, .issuerMissing hcustoms hsound hsecret hvalue hbool ?_⟩
                cases hname : gs.annotationValue? Annotations.issuerName with
                | none => exact .inl rfl
                | some issuer =>
                  have hempty : ¬ issuer ≠ "" := htrue hbool issuer hname
                  exact .inr (by rw [not_not.mp hempty])
      · exact .inr ⟨_, .hostsEmpty hcustoms hhosts hlists⟩
  · exact .inr ⟨e, .customs he⟩

theorem build_of_customsDefect {σ α : Type} {apply : σ → α → Stepped α} {literals templates : σ}
    {rest : List σ} {a : α} {start : String} (h : CustomsDefect gs start e)
    (hliterals : ∀ a, ∃ m, (apply literals a).2 = (literalStep gs start m).2)
    (htemplates : ∀ a, ∃ m, (apply templates a).2 = (templateStep gs start m).2) :
    build apply (literals :: templates :: rest) a = .error e := by
  obtain ⟨m, hm⟩ := hliterals a
  cases h with
  | unnamed hvalue =>
    exact build_cons_of_objection (hm.trans (literalStep_of_unnamed hvalue m))
  | malformed named hvalue marked bad first =>
    have hnone : apply literals a = ((apply literals a).1, none) :=
      Prod.ext rfl (hm.trans (literalStep_of_named named m))
    obtain ⟨m', hm'⟩ := htemplates (apply literals a).1
    rw [build_cons_of_eq hnone]
    exact build_cons_of_objection
      (hm'.trans (templateStep_of_malformed (c := ⟨_, _⟩) named hvalue marked bad first m'))

theorem objection_rules (h : modeHosts gs mode = .error e) (i : Ingress) :
    ((IngressStep.rules mode rewrite).apply gs i).2 = some e := by
  change (applyRules gs mode rewrite i).2 = some e
  unfold applyRules
  rw [h]

theorem ne_empty_of_readBool {value : String} {b : Bool} (h : readBool value = some b) :
    value ≠ "" := by
  rintro rfl
  cases h

theorem build_of_ingressDefect (h : IngressDefect gs e) (rewrite : Bool) (i : Ingress) :
    build (IngressStep.apply gs) (ingressSteps gs rewrite) i = .error e := by
  have hrules (customs : CustomsSound gs Annotations.ingressCustom) {e : ValidationError}
      (herror : modeHosts gs gs.routingMode = .error e) :
      build (IngressStep.apply gs) (ingressSteps gs rewrite) i = .error e := by
    rw [ingressSteps, build_cons_of_eq (apply_literals customs i),
      build_cons_of_eq (apply_templates customs i _), build_cons_of_eq (apply_className i _)]
    exact build_cons_of_objection (objection_rules herror _)
  have hissuer (customs : CustomsSound gs Annotations.ingressCustom) (hosts : HostsSound gs)
      (secret : gs.annotationValue? Annotations.tlsSecretName ≠ some "") {e : ValidationError}
      (herror : ∀ i, (applyIssuer gs gs.tlsIssuer i).2 = some e) :
      build (IngressStep.apply gs) (ingressSteps gs rewrite) i = .error e := by
    rw [ingressSteps, build_cons_of_eq (apply_literals customs i),
      build_cons_of_eq (apply_templates customs i _), build_cons_of_eq (apply_className i _),
      build_cons_of_eq (apply_rules hosts _ _), build_cons_of_eq (apply_tls hosts secret _)]
    exact build_cons_of_objection (herror _)
  cases h with
  | customs h =>
    exact build_of_customsDefect h (fun i => ⟨i.metadata.annotationMap, rfl⟩)
      fun i => ⟨i.metadata.annotationMap, rfl⟩
  | hostsMissing customs h =>
    refine hrules customs ?_
    rw [modeHosts, h]
  | hostsEmpty customs hvalue h =>
    refine hrules customs ?_
    rw [modeHosts, hvalue]
    simp only [(splitHosts_eq_nil_iff _).mpr h]
  | secretEmpty customs hosts h =>
    rw [ingressSteps, build_cons_of_eq (apply_literals customs i),
      build_cons_of_eq (apply_templates customs i _), build_cons_of_eq (apply_className i _),
      build_cons_of_eq (apply_rules hosts _ _)]
    refine build_cons_of_objection ?_
    simp only [IngressStep.apply, applyTls, if_pos h]
  | terminateMalformed customs hosts secret hvalue hne h =>
    refine hissuer customs hosts secret fun i => ?_
    simp [applyIssuer, hvalue, h]
  | issuerMissing customs hosts secret hvalue htrue h =>
    refine hissuer customs hosts secret fun i => ?_
    have hne := ne_empty_of_readBool htrue
    have hempty : gs.tlsIssuer = "" := by
      rcases h with h | h <;> simp [GameServer.tlsIssuer, h]
    simp [applyIssuer, hvalue, htrue, hempty]

theorem build_of_serviceDefect (h : CustomsDefect gs Annotations.serviceCustom e) (s : Service) :
    build (ServiceStep.apply gs) serviceSteps s = .error e :=
  build_of_customsDefect h (fun s => ⟨s.metadata.annotationMap, rfl⟩)
    fun s => ⟨s.metadata.annotationMap, rfl⟩

/-- What succeeds where it is sound, and fails with each defect, does so nowhere else. -/
theorem ok_iff_and_error_iff {α : Type} {built : Except ValidationError α} {Sound : Prop}
    {Defect : ValidationError → Prop} (hor : Sound ∨ ∃ e, Defect e)
    (hok : Sound → ∃ a, built = .ok a) (herror : ∀ e, Defect e → built = .error e) :
    ((∃ a, built = .ok a) ↔ Sound) ∧ ∀ e, built = .error e ↔ Defect e := by
  refine ⟨⟨?_, hok⟩, fun e => ⟨fun he => ?_, herror e⟩⟩
  · rintro ⟨a, ha⟩
    rcases hor with hsound | ⟨e, he⟩
    · exact hsound
    · cases ha.symm.trans (herror e he)
  · rcases hor with hsound | ⟨e', he'⟩
    · obtain ⟨a, ha⟩ := hok hsound
      cases ha.symm.trans he
    · cases (herror e' he').symm.trans he
      exact he'

theorem ingress_of_ok {i : Ingress} (h : buildIngress gs rewrite = .ok i) :
    IngressSound gs ∧ i = dressed gs rewrite (bareIngress gs) := by
  rcases ingressSound_or_defect gs with hsound | ⟨e, he⟩
  · have hbuilt := build_of_ingressSound hsound rewrite (bareIngress gs)
    cases h.symm.trans hbuilt
    exact ⟨hsound, rfl⟩
  · cases h.symm.trans (build_of_ingressDefect he rewrite (bareIngress gs))

theorem service_of_ok {s : Service} (h : buildService gs = .ok s) :
    CustomsSound gs Annotations.serviceCustom ∧ s = dressedService gs (bareService gs) := by
  rcases customsSound_or_defect gs Annotations.serviceCustom with hsound | ⟨e, he⟩
  · have hbuilt := build_of_customsSound hsound (bareService gs)
    cases h.symm.trans hbuilt
    exact ⟨hsound, rfl⟩
  · cases h.symm.trans (build_of_serviceDefect he (bareService gs))

/-- An Ingress, and a Service, is built for just the sound game servers, and what is reported of any
other is its first defect. -/
theorem built_iff_sound (gs : GameServer) (rewrite : Bool) :
    (((∃ i, buildIngress gs rewrite = .ok i) ↔ IngressSound gs) ∧
      ∀ e, buildIngress gs rewrite = .error e ↔ IngressDefect gs e) ∧
    ((∃ s, buildService gs = .ok s) ↔ CustomsSound gs Annotations.serviceCustom) ∧
      ∀ e, buildService gs = .error e ↔ CustomsDefect gs Annotations.serviceCustom e := by
  constructor
  · refine ok_iff_and_error_iff (ingressSound_or_defect gs) (fun h => ?_) fun e he => ?_
    · exact ⟨_, build_of_ingressSound h rewrite _⟩
    · exact build_of_ingressDefect he rewrite _
  · refine ok_iff_and_error_iff (customsSound_or_defect gs _) (fun h => ?_) fun e he => ?_
    · exact ⟨_, build_of_customsSound h _⟩
    · exact build_of_serviceDefect he _

end GameIngress.Manifest
