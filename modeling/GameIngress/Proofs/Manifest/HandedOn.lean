import GameIngress.Proofs.Manifest.Defect

/-!
# Where the annotations of built objects come from

A Service carries what the annotations under its prefix come to and nothing else. An Ingress carries
the same of its own prefix, a default target for rewritten paths where none is left, and the issuer
of its certificates over whatever was handed on for it. The prefixes do not overlap, so that no
annotation is handed on to the wrong object, and what routes a game server is handed on to none.
-/
namespace GameIngress.Manifest

variable {gs gs' : GameServer} {rewrite : Bool} {start value k : String} {m m' custom : TextMap}
  {s s' : Service} {i i' : Ingress}

theorem contains_iff (needle cs : List Char) : Text.contains needle cs = true ↔ needle <:+: cs := by
  induction cs with
  | nil => simp [Text.contains, List.infix_nil]
  | cons c rest ih => rw [Text.contains, Bool.or_eq_true, ih, List.isPrefixOf_iff_prefix,
      List.infix_cons_iff]

/-- Both marks of a template stand somewhere in the text. -/
def Marked (value : String) : Prop := ['{', '{'] <:+: value.toList ∧ ['}', '}'] <:+: value.toList

theorem isTemplate_iff (value : String) : isTemplate value = true ↔ Marked value := by
  rw [isTemplate, Bool.and_eq_true, contains_iff, contains_iff, Marked]

/-- What an annotation, if there is one, comes to under the rest of its key. -/
inductive ComesTo (gs : GameServer) : Option String → Option String → Prop
  | missing : ComesTo gs none none
  | literal {value : String} (plain : ¬ Marked value) : ComesTo gs (some value) (some value)
  | rendered {value text : String} (marked : Marked value)
      (render : Template.render value (fields gs) = .ok text) (ne : text ≠ "") :
      ComesTo gs (some value) (some text)
  | blank {value : String} (marked : Marked value)
      (render : Template.render value (fields gs) = .ok "") : ComesTo gs (some value) none

/-- The map holds what the annotations under the prefix come to, and nothing beside. -/
def HandsOn (gs : GameServer) (start : String) (m : TextMap) : Prop :=
  ∀ k, ComesTo gs (gs.annotationValue? (start ++ k)) (m.get? k)

theorem ComesTo.unique {given v v' : Option String} (h : ComesTo gs given v)
    (h' : ComesTo gs given v') : v = v' := by
  cases h with
  | missing => cases h'; rfl
  | literal plain =>
    cases h' with
    | literal => rfl
    | rendered marked => exact absurd marked plain
    | blank marked => exact absurd marked plain
  | rendered marked render ne =>
    cases h' with
    | literal plain => exact absurd marked plain
    | rendered _ render' => rw [Except.ok.inj (render.symm.trans render')]
    | blank _ render' => exact absurd (Except.ok.inj (render.symm.trans render')) ne
  | blank marked render =>
    cases h' with
    | literal plain => exact absurd marked plain
    | rendered _ render' ne => exact absurd (Except.ok.inj (render'.symm.trans render)) ne
    | blank => rfl

theorem HandsOn.unique (h : HandsOn gs start m) (h' : HandsOn gs start m') : m = m' :=
  TextMap.ext_get? fun k => (h k).unique (h' k)

theorem HandsOn.exists_given {v : String} (h : HandsOn gs start m) (hv : m.get? k = some v) :
    ∃ value, gs.annotationValue? (start ++ k) = some value := by
  have hk := h k
  rw [hv] at hk
  generalize gs.annotationValue? (start ++ k) = given at hk ⊢
  cases hk with
  | literal => exact ⟨_, rfl⟩
  | rendered => exact ⟨_, rfl⟩

theorem comesTo_of_compiles (h : isTemplate value = true → Compiles value) :
    ComesTo gs (some value)
      (if isTemplate value then rendering (fields gs) value else some value) := by
  by_cases ht : isTemplate value = true
  · obtain ⟨text, hrender⟩ := render_of_compiles (h ht) (fields gs)
    have hmarked := (isTemplate_iff value).mp ht
    rw [if_pos ht, rendering, hrender]
    by_cases hempty : text = ""
    · subst hempty
      exact .blank hmarked hrender
    · simp only [if_neg hempty]
      exact .rendered hmarked hrender hempty
  · rw [if_neg ht]
    exact .literal (mt (isTemplate_iff value).mpr ht)

theorem handsOn_customized (h : CustomsSound gs start) :
    HandsOn gs start (customized gs start .empty) := by
  intro k
  rw [get?_customized h, prescribed]
  cases hgiven : gs.annotationValue? (start ++ k) with
  | none => exact .missing
  | some value => exact comesTo_of_compiles (h.compiled k value hgiven)

/-- Certificates are asked for, by one of the words for yes. -/
def Terminates (gs : GameServer) : Prop :=
  ∃ value, gs.annotationValue? Annotations.terminateTls = some value ∧ readBool value = some true

theorem terminates_iff : terminates gs = true ↔ Terminates gs := by
  rw [terminates, decide_eq_true_iff, Option.bind_eq_some_iff, Terminates]

/-- Paths are to be rewritten, and the custom annotations do not say how. -/
def LacksTarget (gs : GameServer) (rewrite : Bool) (custom : TextMap) : Prop :=
  gs.routingMode = .path ∧ rewrite = true ∧ custom.get? Annotations.rewriteTarget = none

theorem captures_iff_lacksTarget :
    captures gs rewrite custom = true ↔ LacksTarget gs rewrite custom := by
  simp [captures, LacksTarget, TextMap.contains, and_assoc]

/-- The annotations of an Ingress with these custom ones. -/
structure Completes (gs : GameServer) (rewrite : Bool) (custom m : TextMap) : Prop where
  issuer : Terminates gs → ∃ issuer, gs.annotationValue? Annotations.issuerName = some issuer ∧
    issuer ≠ "" ∧ m.get? Annotations.clusterIssuer = some issuer
  target : LacksTarget gs rewrite custom → m.get? Annotations.rewriteTarget = some "/$2"
  rest : ∀ k, (k = Annotations.clusterIssuer → ¬ Terminates gs) →
    (k = Annotations.rewriteTarget → ¬ LacksTarget gs rewrite custom) → m.get? k = custom.get? k

theorem completes_of_sound (h : IssuerSound gs) (rewrite : Bool) (custom : TextMap) :
    Completes gs rewrite custom (certified gs (routed gs rewrite custom)) := by
  have hne : Annotations.rewriteTarget ≠ Annotations.clusterIssuer := by decide
  refine ⟨fun hterminates => ?_, fun hlacks => ?_, fun k hissuer htarget => ?_⟩
  · obtain ⟨value, hvalue, htrue⟩ := hterminates
    have hbool : value ≠ "" := by
      rintro rfl
      cases htrue
    obtain ⟨-, issuer, hissuer, hnonempty⟩ :=
      ((h value hvalue).resolve_left hbool).resolve_left fun hfalse => by
        cases htrue.symm.trans hfalse
    refine ⟨issuer, hissuer, hnonempty, ?_⟩
    rw [get?_certified, if_pos ⟨terminates_iff.mpr ⟨value, hvalue, htrue⟩, rfl⟩,
      GameServer.tlsIssuer, hissuer, Option.getD_some]
  · rw [get?_certified, if_neg fun h => hne h.2, get?_routed,
      if_pos ⟨captures_iff_lacksTarget.mpr hlacks, rfl⟩]
    rfl
  · have hcertified : ¬ (terminates gs = true ∧ k = Annotations.clusterIssuer) :=
      fun h => hissuer h.2 (terminates_iff.mp h.1)
    have hrouted : ¬ (captures gs rewrite custom = true ∧ k = Annotations.rewriteTarget) :=
      fun h => htarget h.2 (captures_iff_lacksTarget.mp h.1)
    rw [get?_certified, if_neg hcertified, get?_routed, if_neg hrouted]

theorem Completes.unique (h : Completes gs rewrite custom m) (h' : Completes gs rewrite custom m') :
    m = m' := by
  refine TextMap.ext_get? fun k => ?_
  by_cases hissuer : k = Annotations.clusterIssuer ∧ Terminates gs
  · obtain ⟨rfl, hterminates⟩ := hissuer
    obtain ⟨issuer, hname, -, hm⟩ := h.issuer hterminates
    obtain ⟨issuer', hname', -, hm'⟩ := h'.issuer hterminates
    rw [hm, hm', ← hname, hname']
  · by_cases htarget : k = Annotations.rewriteTarget ∧ LacksTarget gs rewrite custom
    · obtain ⟨rfl, hlacks⟩ := htarget
      rw [h.target hlacks, h'.target hlacks]
    · rw [not_and] at hissuer htarget
      rw [h.rest k hissuer htarget, h'.rest k hissuer htarget]

def Apart (start start' : String) : Prop := ∀ k k', start ++ k ≠ start' ++ k'

theorem apart_of_not_prefix (h : ¬ start.toList <+: start'.toList)
    (h' : ¬ start'.toList <+: start.toList) : Apart start start' := by
  intro k k' heq
  have hlists : start.toList ++ k.toList = start'.toList ++ k'.toList := by
    rw [← String.toList_append, ← String.toList_append, heq]
  have hprefix : start.toList <+: start'.toList ++ k'.toList := ⟨_, hlists⟩
  have hprefix' : start'.toList <+: start'.toList ++ k'.toList := List.prefix_append _ _
  exact (List.prefix_or_prefix_of_prefix hprefix hprefix').elim h h'

theorem prefixes_apart : Apart Annotations.serviceCustom Annotations.ingressCustom ∧
    Apart "octops.io/" Annotations.serviceCustom ∧
      Apart "octops.io/" Annotations.ingressCustom := by
  refine ⟨?_, ?_, ?_⟩ <;> exact apart_of_not_prefix (by decide) (by decide)

/-- Under the prefix the game servers have the same annotations, and templates see no difference
between the two. -/
structure AgreeUnder (start : String) (gs gs' : GameServer) : Prop where
  fields : fields gs = fields gs'
  values : ∀ k, gs.annotationValue? (start ++ k) = gs'.annotationValue? (start ++ k)

theorem HandsOn.of_agreeUnder (h : HandsOn gs start m) (ha : AgreeUnder start gs gs') :
    HandsOn gs' start m := by
  intro k
  have hk := h k
  rw [ha.values k] at hk
  generalize gs'.annotationValue? (start ++ k) = given, m.get? k = v at hk ⊢
  cases hk with
  | missing => exact .missing
  | literal plain => exact .literal plain
  | rendered marked render ne => exact .rendered marked (ha.fields ▸ render) ne
  | blank marked render => exact .blank marked (ha.fields ▸ render)

/-- Of the annotations that are not handed on, an Ingress depends on these. -/
structure AgreeOnRouting (gs gs' : GameServer) : Prop where
  mode : gs.routingMode = gs'.routingMode
  terminate : gs.annotationValue? Annotations.terminateTls =
    gs'.annotationValue? Annotations.terminateTls
  issuer : gs.annotationValue? Annotations.issuerName = gs'.annotationValue? Annotations.issuerName

theorem Completes.of_agreeOnRouting (h : Completes gs rewrite custom m)
    (ha : AgreeOnRouting gs gs') : Completes gs' rewrite custom m := by
  have hterminates : Terminates gs' ↔ Terminates gs := by rw [Terminates, Terminates, ha.terminate]
  have hlacks : LacksTarget gs' rewrite custom ↔ LacksTarget gs rewrite custom := by
    rw [LacksTarget, LacksTarget, ha.mode]
  refine ⟨fun ht => ?_, fun hl => h.target (hlacks.mp hl), fun k hissuer htarget => ?_⟩
  · rw [← ha.issuer]
    exact h.issuer (hterminates.mp ht)
  · exact h.rest k (fun hk => mt hterminates.mpr (hissuer hk))
      fun hk => mt hlacks.mpr (htarget hk)

theorem handsOn_of_buildService (h : buildService gs = .ok s) :
    ∃ m, s.metadata.annotations = some m ∧ HandsOn gs Annotations.serviceCustom m := by
  obtain ⟨hsound, rfl⟩ := service_of_ok h
  exact ⟨_, rfl, handsOn_customized hsound⟩

theorem completes_of_buildIngress (h : buildIngress gs rewrite = .ok i) :
    ∃ m custom, i.metadata.annotations = some m ∧ HandsOn gs Annotations.ingressCustom custom ∧
      Completes gs rewrite custom m := by
  obtain ⟨hsound, rfl⟩ := ingress_of_ok h
  exact ⟨_, _, rfl, handsOn_customized hsound.customs, completes_of_sound hsound.issuer rewrite _⟩

theorem annotations_eq_of_agreeUnder (ha : AgreeUnder Annotations.serviceCustom gs gs')
    (h : buildService gs = .ok s) (h' : buildService gs' = .ok s') :
    s.metadata.annotations = s'.metadata.annotations := by
  obtain ⟨m, hm, hhands⟩ := handsOn_of_buildService h
  obtain ⟨m', hm', hhands'⟩ := handsOn_of_buildService h'
  rw [hm, hm', (hhands.of_agreeUnder ha).unique hhands']

theorem annotations_eq_of_agreeOnRouting (ha : AgreeUnder Annotations.ingressCustom gs gs')
    (hr : AgreeOnRouting gs gs') (h : buildIngress gs rewrite = .ok i)
    (h' : buildIngress gs' rewrite = .ok i') :
    i.metadata.annotations = i'.metadata.annotations := by
  obtain ⟨m, custom, hm, hhands, hcompletes⟩ := completes_of_buildIngress h
  obtain ⟨m', custom', hm', hhands', hcompletes'⟩ := completes_of_buildIngress h'
  obtain rfl := (hhands.of_agreeUnder ha).unique hhands'
  rw [hm, hm', (hcompletes.of_agreeOnRouting hr).unique hcompletes']

theorem Completes.source {v : String} (h : Completes gs rewrite custom m)
    (hc : HandsOn gs Annotations.ingressCustom custom) (hv : m.get? k = some v) :
    (∃ value, gs.annotationValue? (Annotations.ingressCustom ++ k) = some value) ∨
      (k = Annotations.rewriteTarget ∧ v = "/$2") ∨
      (k = Annotations.clusterIssuer ∧ gs.annotationValue? Annotations.issuerName = some v) := by
  by_cases hissuer : k = Annotations.clusterIssuer ∧ Terminates gs
  · obtain ⟨rfl, hterminates⟩ := hissuer
    obtain ⟨issuer, hname, -, hm⟩ := h.issuer hterminates
    rw [hm] at hv
    exact .inr (.inr ⟨rfl, hname.trans hv⟩)
  · by_cases htarget : k = Annotations.rewriteTarget ∧ LacksTarget gs rewrite custom
    · obtain ⟨rfl, hlacks⟩ := htarget
      rw [h.target hlacks] at hv
      exact .inr (.inl ⟨rfl, (Option.some_inj.mp hv).symm⟩)
    · rw [not_and] at hissuer htarget
      rw [h.rest k hissuer htarget] at hv
      exact .inl (hc.exists_given hv)

/-- The annotations of a Service are exactly what those under its prefix come to, and the
annotations of an Ingress what those under the other prefix come to, with the default target and the
issuer. Nothing else appears on either: each entry has its source under the prefix of its own
object, no two of the prefixes overlap, and game servers that agree under the prefix of an object
(and, for an Ingress, on the routing that it depends on) get the same annotations, whatever else
they carry. -/
theorem annotations_of_built (gs : GameServer) (rewrite : Bool) :
    (∀ s, buildService gs = .ok s → ∃ m, s.metadata.annotations = some m ∧
      HandsOn gs Annotations.serviceCustom m ∧
      (∀ k v, m.get? k = some v →
        ∃ value, gs.annotationValue? (Annotations.serviceCustom ++ k) = some value) ∧
      ∀ gs' s', AgreeUnder Annotations.serviceCustom gs gs' → buildService gs' = .ok s' →
        s'.metadata.annotations = some m) ∧
    (∀ i, buildIngress gs rewrite = .ok i → ∃ m custom, i.metadata.annotations = some m ∧
      HandsOn gs Annotations.ingressCustom custom ∧ Completes gs rewrite custom m ∧
      (∀ k v, m.get? k = some v →
        (∃ value, gs.annotationValue? (Annotations.ingressCustom ++ k) = some value) ∨
        (k = Annotations.rewriteTarget ∧ v = "/$2") ∨
        (k = Annotations.clusterIssuer ∧ gs.annotationValue? Annotations.issuerName = some v)) ∧
      ∀ gs' i', AgreeUnder Annotations.ingressCustom gs gs' → AgreeOnRouting gs gs' →
        buildIngress gs' rewrite = .ok i' → i'.metadata.annotations = some m) ∧
    Apart Annotations.serviceCustom Annotations.ingressCustom ∧
    Apart "octops.io/" Annotations.serviceCustom ∧
      Apart "octops.io/" Annotations.ingressCustom := by
  refine ⟨fun s hs => ?_, fun i hi => ?_, ?_, ?_, ?_⟩
  · obtain ⟨m, hm, hhands⟩ := handsOn_of_buildService hs
    refine ⟨m, hm, hhands, fun k v hv => hhands.exists_given hv, fun gs' s' ha hs' => ?_⟩
    rw [← hm, annotations_eq_of_agreeUnder ha hs hs']
  · obtain ⟨m, custom, hm, hhands, hcompletes⟩ := completes_of_buildIngress hi
    refine ⟨m, custom, hm, hhands, hcompletes, fun k v hv => hcompletes.source hhands hv,
      fun gs' i' ha hr hi' => ?_⟩
    rw [← hm, annotations_eq_of_agreeOnRouting ha hr hi hi']
  all_goals exact apart_of_not_prefix (by decide) (by decide)

/-- A game server with annotations of every kind for both of its objects. -/
def adorned : GameServer where
  metadata := {
    name := some "a"
    ns := some "d"
    annotations := some <| .ofList [
      (Annotations.ingressMode, "path"),
      (Annotations.ingressFqdn, "example.com"),
      (Annotations.terminateTls, "true"),
      (Annotations.issuerName, "ca"),
      ("octops-plain", "x"),
      ("octops-named", Text.braced (Text.braced " .Name ")),
      ("octops-blank", Text.braced (Text.braced " .Nope ")),
      ("octops-cert-manager.io/cluster-issuer", "other"),
      ("octops.service-plain", "y"),
      ("octops.service-named",
        Text.braced (Text.braced " .Name ") ++ ":" ++ Text.braced (Text.braced " .Port ")),
      ("octops.service-blank", Text.braced (Text.braced " .Nope "))] }
  status := some { ports := [{ port := 7000 }] }

/-- The same game server after it was marked. -/
def adornedAndMarked : GameServer :=
  { adorned with metadata := adorned.metadata.annotate Annotations.ingressReady "true" }

theorem annotationValue?_adornedAndMarked (hk : k ≠ Annotations.ingressReady) :
    adorned.annotationValue? k = adornedAndMarked.annotationValue? k := by
  rw [GameServer.annotationValue?, GameServer.annotationValue?, adornedAndMarked,
    ObjectMeta.annotationValue?_annotate, if_neg hk]

theorem agreeUnder_adorned (h : Apart "octops.io/" start) :
    AgreeUnder start adorned adornedAndMarked := by
  have hmarked : Annotations.ingressReady = "octops.io/" ++ "ingress-ready" := by decide
  refine ⟨by decide +kernel, fun k => annotationValue?_adornedAndMarked ?_⟩
  rw [hmarked]
  exact (h "ingress-ready" k).symm

theorem exists_built {ε α β : Type} {r : Except ε α} {f : α → Option β} {b : β}
    (h : r.toOption.bind f = some b) : ∃ a, r = .ok a ∧ f a = some b := by
  cases r with
  | ok a => exact ⟨a, rfl, h⟩
  | error e => cases h

theorem annotations_of_adorned :
    (∃ s s' m, buildService adorned = .ok s ∧ buildService adornedAndMarked = .ok s' ∧
      s.metadata.annotations = some m ∧ s'.metadata.annotations = some m ∧
      HandsOn adorned Annotations.serviceCustom m ∧
      m = .ofList [("named", "a:7000"), ("plain", "y")]) ∧
    ∃ i i' m custom, buildIngress adorned true = .ok i ∧
      buildIngress adornedAndMarked true = .ok i' ∧
      i.metadata.annotations = some m ∧ i'.metadata.annotations = some m ∧
      HandsOn adorned Annotations.ingressCustom custom ∧ Completes adorned true custom m ∧
      m = .ofList [(Annotations.clusterIssuer, "ca"), ("named", "a"),
        (Annotations.rewriteTarget, "/$2"), ("plain", "x")] := by
  obtain ⟨hservice, hingress, -, hown, hown'⟩ := annotations_of_built adorned true
  have hroute : AgreeOnRouting adorned adornedAndMarked := by
    have hkeep := @annotationValue?_adornedAndMarked
    refine ⟨?_, hkeep (by decide), hkeep (by decide)⟩
    rw [GameServer.routingMode, hkeep (by decide)]
    rfl
  constructor
  · obtain ⟨s, hs, hm⟩ : ∃ s, buildService adorned = .ok s ∧ s.metadata.annotations =
      some (.ofList [("named", "a:7000"), ("plain", "y")]) := exists_built (by decide +kernel)
    obtain ⟨s', hs', -⟩ : ∃ s, buildService adornedAndMarked = .ok s ∧ s.metadata.name = some "a" :=
      exists_built (by decide +kernel)
    obtain ⟨m, hsm, hhands, -, hsame⟩ := hservice s hs
    have hsame' := hsame _ s' (agreeUnder_adorned hown) hs'
    exact ⟨s, s', m, hs, hs', hsm, hsame', hhands, Option.some_inj.mp (hsm.symm.trans hm)⟩
  · obtain ⟨i, hi, hm⟩ : ∃ i, buildIngress adorned true = .ok i ∧ i.metadata.annotations =
      some (.ofList [(Annotations.clusterIssuer, "ca"), ("named", "a"),
        (Annotations.rewriteTarget, "/$2"), ("plain", "x")]) := exists_built (by decide +kernel)
    obtain ⟨i', hi', -⟩ : ∃ i, buildIngress adornedAndMarked true = .ok i ∧
      i.metadata.name = some "a" := exists_built (by decide +kernel)
    obtain ⟨m, custom, him, hhands, hcompletes, -, hsame⟩ := hingress i hi
    have hsame' := hsame _ i' (agreeUnder_adorned hown') hroute hi'
    exact ⟨i, i', m, custom, hi, hi', him, hsame', hhands, hcompletes,
      Option.some_inj.mp (him.symm.trans hm)⟩

end GameIngress.Manifest
