import GameIngress.Config.File
import Mathlib.Logic.Basic

/-!
# What a configuration file says

A file that decodes is one mapping, or nothing at all. Its known fields occur once each and have
readable values, and the configuration has these values, with the defaults for what is not written.
Conversely every such file decodes.
-/
namespace GameIngress.Config

open Yaml (Event)

variable {c c' : Config} {g h : Field} {e : Event} {es rest : List Event}
  {entries : List (Field × Event)} {seen : List Field} {fuel : Nat} {text : String}

def Field.Value : Field → Type
  | ns => Option String
  | syncPeriod | requeueBaseDelay | requeueMaxDelay | cacheSyncInterval | cacheSyncTimeout =>
    Duration
  | maxConcurrentReconciles | statusRetrySteps | cacheSyncAttempts => Nat
  | healthAddress => Net.Address
  | ingressPathRewrite => Bool
  | reporter => String
  | logFormat => LogFormat

def get (c : Config) : (g : Field) → g.Value
  | .ns => c.ns
  | .syncPeriod => c.syncPeriod
  | .maxConcurrentReconciles => c.maxConcurrentReconciles
  | .statusRetrySteps => c.statusRetrySteps
  | .requeueBaseDelay => c.requeueBaseDelay
  | .requeueMaxDelay => c.requeueMaxDelay
  | .cacheSyncInterval => c.cacheSyncInterval
  | .cacheSyncAttempts => c.cacheSyncAttempts
  | .cacheSyncTimeout => c.cacheSyncTimeout
  | .healthAddress => c.healthAddress
  | .ingressPathRewrite => c.ingressPathRewrite
  | .reporter => c.reporter
  | .logFormat => c.logFormat

def set (c : Config) : (g : Field) → g.Value → Config
  | .ns, v => { c with ns := v }
  | .syncPeriod, v => { c with syncPeriod := v }
  | .maxConcurrentReconciles, v => { c with maxConcurrentReconciles := v }
  | .statusRetrySteps, v => { c with statusRetrySteps := v }
  | .requeueBaseDelay, v => { c with requeueBaseDelay := v }
  | .requeueMaxDelay, v => { c with requeueMaxDelay := v }
  | .cacheSyncInterval, v => { c with cacheSyncInterval := v }
  | .cacheSyncAttempts, v => { c with cacheSyncAttempts := v }
  | .cacheSyncTimeout, v => { c with cacheSyncTimeout := v }
  | .healthAddress, v => { c with healthAddress := v }
  | .ingressPathRewrite, v => { c with ingressPathRewrite := v }
  | .reporter, v => { c with reporter := v }
  | .logFormat, v => { c with logFormat := v }

/-- The value of a field that begins with the event. -/
def Field.read (e : Event) : (g : Field) → Except Invalid g.Value
  | ns => asOptionalText e
  | syncPeriod | requeueBaseDelay | requeueMaxDelay | cacheSyncInterval | cacheSyncTimeout =>
    asDuration e
  | maxConcurrentReconciles => asNatural (Nat.pow 2 64) e
  | statusRetrySteps | cacheSyncAttempts => asNatural (Nat.pow 2 32) e
  | healthAddress => asAddress e
  | ingressPathRewrite => asBool e
  | reporter => asText e
  | logFormat => asLogFormat e

theorem get_set (c : Config) (g : Field) (v : g.Value) : (c.set g v).get g = v := by
  cases g <;> rfl

theorem get_set_of_ne (c : Config) (v : g.Value) (hne : h ≠ g) : (c.set g v).get h = c.get h := by
  cases g <;> cases h <;> first | rfl | exact absurd rfl hne

theorem ext_get (heq : ∀ g, c.get g = c'.get g) : c = c' := by
  cases c
  cases c'
  simp only [Config.mk.injEq]
  exact ⟨heq .ns, heq .syncPeriod, heq .maxConcurrentReconciles, heq .statusRetrySteps,
    heq .requeueBaseDelay, heq .requeueMaxDelay, heq .cacheSyncInterval, heq .cacheSyncAttempts,
    heq .cacheSyncTimeout, heq .healthAddress, heq .ingressPathRewrite, heq .reporter,
    heq .logFormat⟩

theorem setField_eq (c : Config) (e : Event) (g : Field) :
    c.setField e g = (g.read e).map (c.set g) := by
  cases g <;> exact bind_pure_comp _ _

theorem setField_ok_iff : c.setField e g = .ok c' ↔ ∃ v, g.read e = .ok v ∧ c.set g v = c' := by
  rw [setField_eq]
  cases g.read e with
  | ok v => simp [Except.map]
  | error i => simp [Except.map]

abbrev Partial := (g : Field) → Option g.Value

/-- The events begin with the known fields of a mapping, up to its end. Unknown ones take one node
after their key. -/
inductive Mapping : List (Field × Event) → List Event → List Event → Prop
  | done {rest : List Event} : Mapping [] (.mappingEnd :: rest) rest
  | unknown {p : Yaml.Properties} {style : Yaml.Style} {key : String} {es es' rest : List Event}
      {entries : List (Field × Event)} (hkey : Field.ofName? key = none)
      (hskip : skipNode 0 es = some es') (more : Mapping entries es' rest) :
      Mapping entries (.scalar p style key :: es) rest
  | known {p : Yaml.Properties} {style : Yaml.Style} {key : String} {g : Field} {e : Event}
      {es rest : List Event} {entries : List (Field × Event)} (hkey : Field.ofName? key = some g)
      (more : Mapping entries es rest) :
      Mapping ((g, e) :: entries) (.scalar p style key :: e :: es) rest

/-- No field occurs twice, and each has a value that can be read. -/
structure Readable (entries : List (Field × Event)) : Prop where
  distinct : (entries.map (·.1)).Nodup
  read : ∀ g e, (g, e) ∈ entries → ∃ v, g.read e = .ok v

/-- The values of the fields that are written. -/
def said : List (Field × Event) → Partial
  | [], _ => none
  | (h, e) :: entries, g => if g = h then (g.read e).toOption else said entries g

theorem said_of_notMem (hg : g ∉ entries.map (·.1)) : said entries g = none := by
  induction entries with
  | nil => rfl
  | cons d entries ih =>
    rw [List.map_cons, List.mem_cons, not_or] at hg
    rw [said, if_neg hg.1, ih hg.2]

/-- What is written is laid over a configuration. -/
def Lays (entries : List (Field × Event)) (c c' : Config) : Prop :=
  ∀ g, c'.get g = (said entries g).getD (c.get g)

theorem lays_cons_iff {v : g.Value} (hg : g ∉ entries.map (·.1)) (hv : g.read e = .ok v) :
    Lays ((g, e) :: entries) c c' ↔ Lays entries (c.set g v) c' := by
  refine forall_congr' fun h => ?_
  by_cases hh : h = g
  · subst hh
    rw [said, if_pos rfl, hv, said_of_notMem hg, get_set]
    rfl
  · rw [said, if_neg hh, get_set_of_ne c v hh]

theorem skipNode_length {depth : Nat} {es' : List Event} (hskip : skipNode depth es = some es') :
    es'.length < es.length := by
  induction es generalizing depth with
  | nil => cases hskip
  | cons e es ih =>
    have hmore {depth : Nat} (h : skipNode depth es = some es') : es'.length < es.length + 1 :=
      Nat.lt_succ_of_lt (ih h)
    have hrest (h : some es = some es') : es'.length < es.length + 1 := by
      cases h
      exact Nat.lt_succ_self _
    cases e with
    | sequenceStart | mappingStart => exact hmore hskip
    | sequenceEnd | mappingEnd | scalar | «alias» =>
      rw [skipNode] at hskip
      split at hskip
      · exact hrest hskip
      · exact hmore hskip
    | streamEnd | documentStart | documentEnd => cases hskip

theorem lays_nil_iff : Lays [] c c' ↔ c' = c :=
  ⟨fun h => ext_get h, fun h _ => h ▸ rfl⟩

theorem readable_nil : Readable [] :=
  ⟨List.nodup_nil, fun _ _ h => absurd h List.not_mem_nil⟩

theorem readable_cons_iff : Readable ((g, e) :: entries) ↔
    g ∉ entries.map (·.1) ∧ (∃ v, g.read e = .ok v) ∧ Readable entries := by
  constructor
  · rintro ⟨hdistinct, hread⟩
    obtain ⟨hg, hrest⟩ := List.nodup_cons.mp hdistinct
    exact ⟨hg, hread g e List.mem_cons_self, hrest,
      fun h e' he => hread h e' (List.mem_cons_of_mem _ he)⟩
  · rintro ⟨hg, hv, hrest, hread⟩
    refine ⟨List.nodup_cons.mpr ⟨hg, hrest⟩, fun h e' he => ?_⟩
    obtain heq | he := List.mem_cons.mp he
    · cases heq
      exact hv
    · exact hread h e' he

theorem exists_lays (h : Readable entries) (c : Config) : ∃ c', Lays entries c c' := by
  induction entries generalizing c with
  | nil => exact ⟨c, lays_nil_iff.mpr rfl⟩
  | cons d entries ih =>
    obtain ⟨hfresh, ⟨v, hv⟩, hrest⟩ := readable_cons_iff.mp h
    obtain ⟨c', hc'⟩ := ih hrest (c.set d.1 v)
    exact ⟨c', (lays_cons_iff hfresh hv).mpr hc'⟩

theorem mapping_of_fields (hfields : fields c seen fuel es = .ok (c', rest)) :
    ∃ entries, Mapping entries es rest ∧ Readable entries ∧ (∀ g ∈ entries.map (·.1), g ∉ seen) ∧
      Lays entries c c' := by
  induction fuel generalizing c seen es with
  | zero => cases hfields
  | succ fuel ih =>
    rw [fields.eq_def] at hfields
    dsimp only at hfields
    split at hfields
    · cases hfields
      exact ⟨[], .done, readable_nil, fun _ h => absurd h List.not_mem_nil, lays_nil_iff.mpr rfl⟩
    · split at hfields
      · next hkey =>
        split at hfields
        · next hskip =>
          obtain ⟨entries, hmore, hrest⟩ := ih hfields
          exact ⟨entries, .unknown hkey hskip hmore, hrest⟩
        · cases hfields
      · next g hkey =>
        split at hfields
        · cases hfields
        · next hg =>
          split at hfields
          · next e es =>
            cases hset : c.setField e g with
            | error i =>
              rw [hset] at hfields
              cases hfields
            | ok d =>
              rw [hset] at hfields
              obtain ⟨v, hv, rfl⟩ := setField_ok_iff.mp hset
              obtain ⟨entries, hmore, hreadable, hseen, hlays⟩ := ih hfields
              have hfresh : g ∉ entries.map (·.1) := fun hmem => hseen g hmem List.mem_cons_self
              refine ⟨(g, e) :: entries, .known hkey hmore,
                readable_cons_iff.mpr ⟨hfresh, ⟨v, hv⟩, hreadable⟩, fun h hh => ?_,
                (lays_cons_iff hfresh hv).mpr hlays⟩
              obtain rfl | hh := List.mem_cons.mp hh
              · exact hg
              · exact fun hmem => hseen h hh (List.mem_cons_of_mem _ hmem)
          · cases hfields
    · cases hfields

theorem fields_of_mapping (hmapping : Mapping entries es rest) (hreadable : Readable entries)
    (hseen : ∀ g ∈ entries.map (·.1), g ∉ seen) (hlays : Lays entries c c')
    (hfuel : es.length < fuel) : fields c seen fuel es = .ok (c', rest) := by
  induction hmapping generalizing c seen fuel with
  | done =>
    obtain _ | fuel := fuel
    · cases hfuel
    · rw [lays_nil_iff.mp hlays]
      rfl
  | unknown hkey hskip hmore ih =>
    obtain _ | fuel := fuel
    · cases hfuel
    · have hshorter := skipNode_length hskip
      rw [List.length_cons] at hfuel
      simp only [fields, hkey, hskip]
      exact ih hreadable hseen hlays (by omega)
  | @known p style key g e es rest entries hkey hmore ih =>
    obtain _ | fuel := fuel
    · cases hfuel
    · obtain ⟨hfresh, ⟨v, hv⟩, hrest⟩ := readable_cons_iff.mp hreadable
      have hset : c.setField e g = .ok (c.set g v) := setField_ok_iff.mpr ⟨v, hv, rfl⟩
      have hg : g ∉ seen := hseen g List.mem_cons_self
      rw [List.length_cons, List.length_cons] at hfuel
      simp only [fields, hkey, if_neg hg, hset]
      refine ih hrest (fun h hh => ?_) ((lays_cons_iff hfresh hv).mp hlays) (by omega)
      rw [List.mem_cons, not_or]
      exact ⟨fun heq => hfresh (heq ▸ hh), hseen h (List.mem_cons_of_mem _ hh)⟩

/-- The events of a file with these known fields. -/
inductive Holds : List (Field × Event) → List Event → Prop
  | empty : Holds [] [.streamEnd]
  | blank {p : Yaml.Properties} :
      Holds [] [.documentStart, .scalar p .plain "", .documentEnd, .streamEnd]
  | mapping {p : Yaml.Properties} {entries : List (Field × Event)} {es : List Event}
      (fields : Mapping entries es [.documentEnd, .streamEnd]) :
      Holds entries (.documentStart :: .mappingStart p :: es)

/-- The text is a well formed file in which these fields are written, each of them readable. -/
structure Writes (text : String) (entries : List (Field × Event)) : Prop where
  wellFormed : (Yaml.events text).2 = none
  holds : Holds entries (resolve [] (Yaml.events text).1)
  readable : Readable entries

theorem document_ok_iff : document es = .ok (c, [.documentEnd, .streamEnd]) ↔
    ∃ entries, Holds entries es ∧ Readable entries ∧ Lays entries {} c := by
  constructor
  · intro h
    rw [document.eq_def] at h
    split at h
    · cases h
      exact ⟨[], .empty, readable_nil, lays_nil_iff.mpr rfl⟩
    · cases h
      exact ⟨[], .blank, readable_nil, lays_nil_iff.mpr rfl⟩
    · obtain ⟨entries, hmapping, hreadable, -, hlays⟩ := mapping_of_fields h
      exact ⟨entries, .mapping hmapping, hreadable, hlays⟩
    · cases h
  · rintro ⟨entries, hholds, hreadable, hlays⟩
    cases hholds with
    | empty | blank =>
      rw [lays_nil_iff.mp hlays]
      rfl
    | mapping hmapping =>
      exact fields_of_mapping hmapping hreadable (fun _ _ => List.not_mem_nil) hlays
        (Nat.lt_succ_self _)

/-- A text decodes exactly if it is a well formed file with readable fields, and it decodes to these
fields laid over the defaults. -/
theorem decode_ok_iff :
    decode text = .ok c ↔ ∃ entries, Writes text entries ∧ Lays entries {} c := by
  have hdecode : decode text = .ok c ↔ (Yaml.events text).2 = none ∧
      document (resolve [] (Yaml.events text).1) = .ok (c, [.documentEnd, .streamEnd]) := by
    rw [decode]
    generalize Yaml.events text = found
    obtain ⟨events, problem⟩ := found
    cases hdocument : document (resolve [] events) with
    | error i => simp [hdocument]
    | ok d =>
      obtain ⟨d, rest⟩ := d
      simp only [hdocument, Option.isNone_iff_eq_none, Except.ok.injEq, Prod.mk.injEq]
      split
      · next hend => simp [hend]
      · next hend =>
        simp only [reduceCtorEq, false_iff]
        exact fun h => hend ⟨h.1, h.2.2⟩
  rw [hdecode, document_ok_iff]
  constructor
  · rintro ⟨hnone, entries, hholds, hreadable, hlays⟩
    exact ⟨entries, ⟨hnone, hholds, hreadable⟩, hlays⟩
  · rintro ⟨entries, ⟨hnone, hholds, hreadable⟩, hlays⟩
    exact ⟨hnone, entries, hholds, hreadable, hlays⟩

theorem Writes.exists_decode (h : Writes text entries) :
    ∃ c, decode text = .ok c ∧ Lays entries {} c := by
  obtain ⟨c, hlays⟩ := exists_lays h.readable {}
  exact ⟨c, decode_ok_iff.mpr ⟨entries, h, hlays⟩, hlays⟩

end GameIngress.Config
