import GameIngress.Manifest.Custom
import GameIngress.Proofs.TextMap
import Mathlib.Tactic.ByContra

/-!
# What custom annotations come to

The annotations under a prefix are read one after the other, literals before templates. What comes
of it is said here for each key by itself: the annotation of the game server under the prefix and
the key decides, and without one the key stays as it was. Whether the annotations are refused
depends on the game server alone.
-/
namespace GameIngress.Manifest

variable {gs : GameServer} {start key suffix value k : String} {found : List Custom} {m : TextMap}
  {f : Template.Fields}

theorem suffixAfter?_eq_some_iff :
    suffixAfter? start key = some suffix ↔ key = start ++ suffix := by
  unfold suffixAfter?
  constructor
  · intro h
    split at h
    · next hprefix =>
      cases h
      rw [List.isPrefixOf_iff_prefix, List.prefix_iff_eq_append, String.length_toList] at hprefix
      rw [← String.toList_inj, String.toList_append, String.toList_ofList, hprefix]
    · cases h
  · rintro rfl
    have hprefix : start.toList.isPrefixOf (start ++ suffix).toList = true := by
      rw [List.isPrefixOf_iff_prefix, String.toList_append]
      exact List.prefix_append _ _
    rw [if_pos hprefix, String.toList_append, ← String.length_toList, List.drop_left,
      String.ofList_toList]

theorem append_inj_right (start : String) {a b : String} (h : start ++ a = start ++ b) : a = b := by
  rw [← String.toList_inj, String.toList_append, String.toList_append] at h
  exact String.toList_inj.mp (List.append_cancel_left h)

def handedOnIn (start : String) (es : List (String × String)) : List Custom :=
  es.filterMap fun e => (suffixAfter? start e.1).map (⟨·, e.2⟩)

/-- The annotations to be handed on, in the order of their keys. -/
def handedOn (gs : GameServer) (start : String) : List Custom :=
  handedOnIn start gs.metadata.annotationMap.entries

theorem customsIn_eq (start : String) (es : List (String × String)) :
    customsIn start es = if start ∈ es.map (·.1) then .error (.customAnnotationSuffix start)
      else .ok (handedOnIn start es) := by
  induction es with
  | nil => rfl
  | cons e rest ih =>
    obtain ⟨key, value⟩ := e
    have hempty : start = start ++ "" := String.append_empty.symm
    have hmem : start ∈ ((key, value) :: rest).map (·.1) ↔ start = key ∨ start ∈ rest.map (·.1) :=
      List.mem_cons
    simp only [hmem]
    rw [customsIn, handedOnIn, List.filterMap_cons]
    split
    · next hnone =>
      have hkey : start ≠ key := by
        rintro rfl
        cases hnone.symm.trans (suffixAfter?_eq_some_iff.mpr hempty)
      rw [ih, hnone]
      simp only [hkey, false_or]
      rfl
    · next hself =>
      have hkey : start = key := hempty.trans (suffixAfter?_eq_some_iff.mp hself).symm
      rw [if_pos (.inl hkey), hkey]
    · next suffix hne hsome =>
      have hkey : start ≠ key := by
        rintro rfl
        have hsuffix :=
          append_inj_right start ((suffixAfter?_eq_some_iff.mp hsome).symm.trans hempty)
        exact hne hsuffix
      rw [ih, hsome]
      simp only [hkey, false_or]
      split <;> rfl

theorem mem_handedOnIn {es : List (String × String)} {c : Custom} :
    c ∈ handedOnIn start es ↔ (start ++ c.key, c.value) ∈ es := by
  rw [handedOnIn, List.mem_filterMap]
  constructor
  · rintro ⟨⟨key, value⟩, he, hc⟩
    obtain ⟨suffix, hsuffix, rfl⟩ := Option.map_eq_some_iff.mp hc
    obtain rfl := suffixAfter?_eq_some_iff.mp hsuffix
    exact he
  · intro he
    refine ⟨_, he, ?_⟩
    rw [suffixAfter?_eq_some_iff.mpr rfl]
    rfl

theorem mem_handedOn {c : Custom} :
    c ∈ handedOn gs start ↔ gs.annotationValue? (start ++ c.key) = some c.value := by
  rw [handedOn, mem_handedOnIn, TextMap.mem_entries_iff, GameServer.annotationValue?,
    ObjectMeta.annotationValue?_eq]

theorem sorted_handedOn (gs : GameServer) (start : String) :
    (handedOn gs start).Pairwise fun a b => start ++ a.key < start ++ b.key := by
  refine List.Pairwise.filterMap _ ?_ gs.metadata.annotationMap.sorted
  intro e e' hlt c hc c' hc'
  obtain ⟨suffix, hsuffix, rfl⟩ := Option.map_eq_some_iff.mp hc
  obtain ⟨suffix', hsuffix', rfl⟩ := Option.map_eq_some_iff.mp hc'
  rw [suffixAfter?_eq_some_iff] at hsuffix hsuffix'
  rwa [hsuffix, hsuffix'] at hlt

theorem mem_before_iff {before after : List Custom} {c d : Custom}
    (h : handedOn gs start = before ++ c :: after) :
    d ∈ before ↔ gs.annotationValue? (start ++ d.key) = some d.value ∧
      start ++ d.key < start ++ c.key := by
  have hsorted := sorted_handedOn gs start
  rw [h] at hsorted
  obtain ⟨-, hafter, hbefore⟩ := List.pairwise_append.mp hsorted
  rw [← mem_handedOn, h, List.mem_append, List.mem_cons]
  constructor
  · intro hd
    exact ⟨.inl hd, hbefore d hd c List.mem_cons_self⟩
  · rintro ⟨hd | rfl | hd, hlt⟩
    · exact hd
    · exact absurd hlt (String.lt_irrefl _)
    · exact absurd (String.lt_trans hlt ((List.pairwise_cons.mp hafter).1 d hd))
        (String.lt_irrefl _)

theorem nodup_handedOn (gs : GameServer) (start : String) :
    ((handedOn gs start).map (·.key)).Nodup := by
  refine List.pairwise_map.mpr ((sorted_handedOn gs start).imp ?_)
  intro a b hlt heq
  rw [heq] at hlt
  exact String.lt_irrefl _ hlt

theorem customs_of_named (h : gs.annotationValue? start = none) :
    customs gs start = .ok (handedOn gs start) := by
  rw [customs, customsIn_eq, if_neg]
  · rfl
  · intro hmem
    obtain ⟨e, he, rfl⟩ := List.mem_map.mp hmem
    rw [GameServer.annotationValue?, ObjectMeta.annotationValue?_eq, TextMap.get?_of_mem he] at h
    cases h

theorem customs_of_unnamed (h : gs.annotationValue? start = some value) :
    customs gs start = .error (.customAnnotationSuffix start) := by
  rw [customs, customsIn_eq, if_pos]
  rw [GameServer.annotationValue?, ObjectMeta.annotationValue?_eq] at h
  exact List.mem_map_of_mem (TextMap.mem_of_get? h)

/-- The value that a list of custom annotations has for a key. -/
def valueIn (found : List Custom) (k : String) : Option String :=
  (found.find? (·.key = k)).map (·.value)

theorem valueIn_cons (c : Custom) (rest : List Custom) (k : String) :
    valueIn (c :: rest) k = if k = c.key then some c.value else valueIn rest k := by
  rw [valueIn, List.find?_cons]
  by_cases hk : k = c.key
  · simp [hk]
  · have hk' : c.key ≠ k := fun h => hk h.symm
    simp [hk, hk', valueIn]

theorem valueIn_of_notMem (h : k ∉ found.map (·.key)) : valueIn found k = none := by
  rw [valueIn, Option.map_eq_none_iff, List.find?_eq_none]
  intro c hc hk
  exact h (List.mem_map.mpr ⟨c, hc, of_decide_eq_true hk⟩)

theorem valueIn_eq_some_iff (hd : (found.map (·.key)).Nodup) :
    valueIn found k = some value ↔ ⟨k, value⟩ ∈ found := by
  induction found with
  | nil => simp [valueIn]
  | cons c rest ih =>
    obtain ⟨hnot, hrest⟩ := List.nodup_cons.mp hd
    rw [valueIn_cons, List.mem_cons]
    by_cases hk : k = c.key
    · subst hk
      have hrest' : ⟨c.key, value⟩ ∉ rest := fun hmem => hnot (List.mem_map.mpr ⟨_, hmem, rfl⟩)
      rw [if_pos rfl, or_iff_left hrest', Option.some_inj, Custom.mk.injEq]
      exact ⟨fun h => ⟨rfl, h.symm⟩, fun h => h.2.symm⟩
    · have hne : (⟨k, value⟩ : Custom) ≠ c := fun h => hk (congrArg Custom.key h)
      rw [if_neg hk, ih hrest, or_iff_right hne]

theorem valueIn_handedOn (gs : GameServer) (start k : String) :
    valueIn (handedOn gs start) k = gs.annotationValue? (start ++ k) := by
  refine Option.ext fun value => ?_
  rw [valueIn_eq_some_iff (nodup_handedOn gs start), mem_handedOn]

/-- What a template comes to; nothing, if it comes to the empty text. -/
def rendering (f : Template.Fields) (value : String) : Option String :=
  match Template.render value f with
  | .ok rendered => if rendered = "" then none else some rendered
  | .error _ => none

def Compiles (value : String) : Prop := ∃ program, Template.compile value = .ok program

theorem render_of_compiles (h : Compiles value) (f : Template.Fields) :
    ∃ rendered, Template.render value f = .ok rendered := by
  obtain ⟨program, h⟩ := h
  rw [Template.render, h]
  exact ⟨_, rfl⟩

theorem render_of_not_compiles (h : ¬ Compiles value) (f : Template.Fields) :
    ∃ e, Template.render value f = .error e := by
  rw [Template.render]
  cases hcompile : Template.compile value with
  | ok program => exact absurd ⟨program, hcompile⟩ h
  | error e => exact ⟨e, rfl⟩

theorem get?_copyLiterals (hd : (found.map (·.key)).Nodup) (m : TextMap) (k : String) :
    (copyLiterals found m).get? k = match valueIn found k with
      | some value => if isTemplate value then m.get? k else some value
      | none => m.get? k := by
  induction found generalizing m with
  | nil => rfl
  | cons c rest ih =>
    obtain ⟨hnot, hrest⟩ := List.nodup_cons.mp hd
    rw [copyLiterals, List.foldl_cons, ← copyLiterals, ih hrest, valueIn_cons]
    by_cases hk : k = c.key
    · subst hk
      rw [valueIn_of_notMem hnot, if_pos rfl]
      by_cases ht : isTemplate c.value = true
      · simp [ht]
      · simp [ht, TextMap.get?_insert]
    · rw [if_neg hk]
      have hstep : (if isTemplate c.value = true then m else m.insert c.key c.value).get? k =
          m.get? k := by
        split
        · rfl
        · rw [TextMap.get?_insert, if_neg hk]
      rw [hstep]

theorem get?_putRendered (m : TextMap) (key rendered k : String) :
    (putRendered m key rendered).get? k =
      if k = key then (if rendered = "" then none else some rendered) else m.get? k := by
  unfold putRendered
  split
  · rw [TextMap.get?_erase]
  · rw [TextMap.get?_insert]

def AllCompile (found : List Custom) : Prop :=
  ∀ c ∈ found, isTemplate c.value = true → Compiles c.value

theorem get?_renderTemplates (hd : (found.map (·.key)).Nodup) (hc : AllCompile found)
    (m : TextMap) (k : String) :
    (renderTemplates f found m).1.get? k = match valueIn found k with
      | some value => if isTemplate value then rendering f value else m.get? k
      | none => m.get? k := by
  induction found generalizing m with
  | nil => rfl
  | cons c rest ih =>
    obtain ⟨hnot, hrest⟩ := List.nodup_cons.mp hd
    have hcompile : AllCompile rest := fun d hd => hc d (List.mem_cons_of_mem _ hd)
    rw [renderTemplates, valueIn_cons]
    by_cases ht : isTemplate c.value = true
    · obtain ⟨rendered, hrender⟩ := render_of_compiles (hc c List.mem_cons_self ht) f
      rw [if_pos ht, hrender]
      dsimp only
      rw [ih hrest hcompile]
      by_cases hk : k = c.key
      · subst hk
        rw [valueIn_of_notMem hnot, if_pos rfl]
        dsimp only
        rw [get?_putRendered, if_pos rfl, if_pos ht, rendering, hrender]
      · rw [if_neg hk, get?_putRendered, if_neg hk]
    · rw [if_neg ht, ih hrest hcompile]
      by_cases hk : k = c.key
      · subst hk
        rw [valueIn_of_notMem hnot, if_pos rfl]
        simp [ht]
      · rw [if_neg hk]

theorem renderTemplates_of_allCompile (h : AllCompile found) (m : TextMap) :
    (renderTemplates f found m).2 = none := by
  induction found generalizing m with
  | nil => rfl
  | cons c rest ih =>
    have hrest : AllCompile rest := fun d hd => h d (List.mem_cons_of_mem _ hd)
    rw [renderTemplates]
    by_cases ht : isTemplate c.value = true
    · obtain ⟨rendered, hrender⟩ := render_of_compiles (h c List.mem_cons_self ht) f
      rw [if_pos ht, hrender]
      exact ih hrest _
    · rw [if_neg ht]
      exact ih hrest m

/-- The first template that is not well formed is reported, and only those before it are rendered.
-/
theorem renderTemplates_of_bad {before after : List Custom} {c : Custom} (hb : AllCompile before)
    (ht : isTemplate c.value = true) (hc : ¬ Compiles c.value) (m : TextMap) :
    renderTemplates f (before ++ c :: after) m =
      ((renderTemplates f before m).1, some (.invalidTemplate c.key c.value)) := by
  induction before generalizing m with
  | nil =>
    obtain ⟨e, hrender⟩ := render_of_not_compiles hc f
    simp only [List.nil_append, renderTemplates, if_pos ht, hrender]
  | cons d rest ih =>
    have hrest : AllCompile rest := fun d hd => hb d (List.mem_cons_of_mem _ hd)
    rw [List.cons_append, renderTemplates, renderTemplates]
    by_cases hd : isTemplate d.value = true
    · obtain ⟨rendered, hrender⟩ := render_of_compiles (hb d List.mem_cons_self hd) f
      rw [if_pos hd, if_pos hd, hrender]
      exact ih hrest _
    · rw [if_neg hd, if_neg hd]
      exact ih hrest m

/-- The annotations under the prefix have names, and their templates are well formed. -/
structure CustomsSound (gs : GameServer) (start : String) : Prop where
  named : gs.annotationValue? start = none
  compiled : ∀ suffix value, gs.annotationValue? (start ++ suffix) = some value →
    isTemplate value = true → Compiles value

/-- What is wrong first with the annotations under the prefix. -/
inductive CustomsDefect (gs : GameServer) (start : String) : ValidationError → Prop
  | unnamed {value : String} (hvalue : gs.annotationValue? start = some value) :
      CustomsDefect gs start (.customAnnotationSuffix start)
  | malformed {suffix value : String} (named : gs.annotationValue? start = none)
      (hvalue : gs.annotationValue? (start ++ suffix) = some value)
      (marked : isTemplate value = true) (bad : ¬ Compiles value)
      (first : ∀ suffix' value', start ++ suffix' < start ++ suffix →
        gs.annotationValue? (start ++ suffix') = some value' → isTemplate value' = true →
        Compiles value') :
      CustomsDefect gs start (.invalidTemplate suffix value)

theorem CustomsSound.allCompile (h : CustomsSound gs start) : AllCompile (handedOn gs start) :=
  fun c hc => h.compiled c.key c.value (mem_handedOn.mp hc)

theorem exists_first_bad (h : ¬ AllCompile found) : ∃ before c after,
    found = before ++ c :: after ∧ AllCompile before ∧ isTemplate c.value = true ∧
      ¬ Compiles c.value := by
  classical
  let bad (c : Custom) : Bool := decide (isTemplate c.value = true ∧ ¬ Compiles c.value)
  cases hfind : found.find? bad with
  | none =>
    refine absurd (fun c hc ht => ?_) h
    by_contra hbad
    exact List.find?_eq_none.mp hfind c hc (decide_eq_true ⟨ht, hbad⟩)
  | some c =>
    obtain ⟨hc, before, after, rfl, hbefore⟩ := List.find?_eq_some_iff_append.mp hfind
    obtain ⟨ht, hbad⟩ := of_decide_eq_true hc
    refine ⟨before, c, after, rfl, fun d hd htd => ?_, ht, hbad⟩
    by_contra hbad'
    have hd' : bad d = true := decide_eq_true ⟨htd, hbad'⟩
    simpa [hd'] using hbefore d hd

theorem customsSound_or_defect (gs : GameServer) (start : String) :
    CustomsSound gs start ∨ ∃ e, CustomsDefect gs start e := by
  cases hnamed : gs.annotationValue? start with
  | some value => exact .inr ⟨_, .unnamed hnamed⟩
  | none =>
    by_cases hall : AllCompile (handedOn gs start)
    · exact .inl ⟨hnamed, fun suffix value hvalue => hall ⟨suffix, value⟩ (mem_handedOn.mpr hvalue)⟩
    · obtain ⟨before, c, after, hsplit, hbefore, ht, hbad⟩ := exists_first_bad hall
      have hmem : c ∈ handedOn gs start := by simp [hsplit]
      refine .inr ⟨_, .malformed hnamed (mem_handedOn.mp hmem) ht hbad ?_⟩
      intro suffix' value' hlt hvalue'
      have hmem' : ⟨suffix', value'⟩ ∈ before := (mem_before_iff hsplit).mpr ⟨hvalue', hlt⟩
      exact hbefore _ hmem'

/-- The annotations with the custom ones laid over them. -/
def customized (gs : GameServer) (start : String) (m : TextMap) : TextMap :=
  (renderTemplates (fields gs) (handedOn gs start) (copyLiterals (handedOn gs start) m)).1

theorem literalStep_of_sound (h : CustomsSound gs start) (m : TextMap) :
    literalStep gs start m = (copyLiterals (handedOn gs start) m, none) := by
  rw [literalStep, customs_of_named h.named]

theorem templateStep_of_sound (h : CustomsSound gs start) (m : TextMap) :
    templateStep gs start (copyLiterals (handedOn gs start) m) = (customized gs start m, none) := by
  rw [templateStep, customs_of_named h.named]
  exact Prod.ext rfl (renderTemplates_of_allCompile h.allCompile _)

theorem literalStep_of_unnamed (h : gs.annotationValue? start = some value) (m : TextMap) :
    (literalStep gs start m).2 = some (.customAnnotationSuffix start) := by
  rw [literalStep, customs_of_unnamed h]

theorem literalStep_of_named (h : gs.annotationValue? start = none) (m : TextMap) :
    (literalStep gs start m).2 = none := by
  rw [literalStep, customs_of_named h]

theorem templateStep_of_malformed {c : Custom} (hnamed : gs.annotationValue? start = none)
    (hvalue : gs.annotationValue? (start ++ c.key) = some c.value)
    (ht : isTemplate c.value = true) (hbad : ¬ Compiles c.value)
    (hfirst : ∀ suffix value, start ++ suffix < start ++ c.key →
      gs.annotationValue? (start ++ suffix) = some value → isTemplate value = true →
      Compiles value) (m : TextMap) :
    (templateStep gs start m).2 = some (.invalidTemplate c.key c.value) := by
  rw [templateStep, customs_of_named hnamed]
  dsimp only
  obtain ⟨before, after, hsplit⟩ := List.append_of_mem (mem_handedOn.mpr hvalue)
  have hbefore : AllCompile before := by
    intro d hd
    obtain ⟨hvalue', hlt⟩ := (mem_before_iff hsplit).mp hd
    exact hfirst d.key d.value hlt hvalue'
  rw [hsplit, renderTemplates_of_bad hbefore ht hbad]

/-- What the game server prescribes for a key: nothing at all, that it be absent, or a value. -/
def prescribed (gs : GameServer) (start k : String) : Option (Option String) :=
  (gs.annotationValue? (start ++ k)).map fun value =>
    if isTemplate value then rendering (fields gs) value else some value

theorem get?_customized (h : CustomsSound gs start) (m : TextMap) (k : String) :
    (customized gs start m).get? k = (prescribed gs start k).getD (m.get? k) := by
  have hnodup := nodup_handedOn gs start
  rw [customized, get?_renderTemplates hnodup h.allCompile, get?_copyLiterals hnodup,
    valueIn_handedOn, prescribed]
  cases gs.annotationValue? (start ++ k) with
  | none => rfl
  | some value =>
    by_cases ht : isTemplate value = true
    · simp [ht]
    · simp [ht]

end GameIngress.Manifest
