import GameIngress.Proofs.Template.FieldDot
import Mathlib.Data.List.Nodup
import Mathlib.Order.Bounds.Basic

/-!
# Blocks and the dots in them

A block is opened by the first double brace outside of blocks and closed by the next one inside of
it, or not at all. The dots that are dropped are found by their place in the source: they are in a
block, behind a boundary and before the start of an identifier. Nothing else is dropped, and what is
left has no such dots.
-/
namespace GameIngress.Template

variable {source : List Char} {p q i j k s e : Nat} {c d : Char} {out : List Char}

/-- Two of the character stand at the place, one after the other. -/
def DoubleAt (source : List Char) (c : Char) (i : Nat) : Prop :=
  source[i]? = some c ∧ source[i + 1]? = some c

/-- The first two of the character from place `p` on stand at place `i`. -/
def NextDouble (source : List Char) (c : Char) (p i : Nat) : Prop :=
  IsLeast {i | p ≤ i ∧ DoubleAt source c i} i

/-- From place `p` on there is one block up to place `q`. -/
def PassesBlock (source : List Char) (p q : Nat) : Prop :=
  ∃ s e, NextDouble source '{' p s ∧ NextDouble source '}' (s + 2) e ∧ q = e + 2

/-- Text outside of blocks begins at the start, and anew behind every block. -/
def Outset (source : List Char) : Nat → Prop := Relation.ReflTransGen (PassesBlock source) 0

/-- The place is in a block: behind the braces that open it and before those that close it, if there
are any. -/
def Inside (source : List Char) (i : Nat) : Prop :=
  ∃ p s, Outset source p ∧ NextDouble source '{' p s ∧ s + 2 ≤ i ∧
    ∀ e, NextDouble source '}' (s + 2) e → i < e

/-- At the place is a dot that marks a field. -/
structure FieldDotAt (source : List Char) (i : Nat) : Prop where
  dot : source[i]? = some '.'
  inside : Inside source i
  follows : ∃ c, source[i - 1]? = some c ∧ (Text.isBlank c = true ∨ c = '{' ∨ c = '(')
  precedes : ∃ d, source[i + 1]? = some d ∧
    ('a' ≤ d ∧ d ≤ 'z' ∨ 'A' ≤ d ∧ d ≤ 'Z' ∨ d = '_')

theorem isFieldBoundary_iff :
    isFieldBoundary c = true ↔ Text.isBlank c = true ∨ c = '{' ∨ c = '(' := by
  simp [isFieldBoundary, or_assoc]

theorem startsField_iff :
    startsField d = true ↔ 'a' ≤ d ∧ d ≤ 'z' ∨ 'A' ≤ d ∧ d ≤ 'Z' ∨ d = '_' := by
  have hlower : d.isLower = true ↔ 'a' ≤ d ∧ d ≤ 'z' :=
    Bool.and_eq_true_iff.trans (and_congr decide_eq_true_iff decide_eq_true_iff)
  have hupper : d.isUpper = true ↔ 'A' ≤ d ∧ d ≤ 'Z' := decide_eq_true_iff
  have halpha : d.isAlpha = true ↔ d.isUpper = true ∨ d.isLower = true := Bool.or_eq_true_iff
  rw [startsField, Bool.or_eq_true, halpha, hlower, hupper, decide_eq_true_iff]
  tauto

/-- From place `p` on, two of the character do not stand before place `k`. -/
def Free (source : List Char) (c : Char) (p k : Nat) : Prop :=
  ∀ j, p ≤ j → j < k → ¬ DoubleAt source c j

/-- Up to place `k` the block was not closed, or outside of blocks none was opened. -/
def Stands (source : List Char) : Bool → Nat → Prop
  | false, k => ∃ p, Outset source p ∧ p ≤ k ∧ Free source '{' p k
  | true, k => ∃ p s, Outset source p ∧ NextDouble source '{' p s ∧ s + 2 ≤ k ∧
      Free source '}' (s + 2) k

namespace Free

theorem refl (source : List Char) (c : Char) (p : Nat) : Free source c p p :=
  fun _ hj hjp => absurd hj (Nat.not_le_of_lt hjp)

theorem succ (h : Free source c p k) (hk : ¬ DoubleAt source c k) : Free source c p (k + 1) := by
  intro j hj hjk
  rcases Nat.lt_succ_iff_lt_or_eq.mp hjk with hlt | rfl
  · exact h j hj hlt
  · exact hk

theorem next (h : Free source c p k) (hp : p ≤ k) (hk : DoubleAt source c k) :
    NextDouble source c p k :=
  ⟨⟨hp, hk⟩, fun j ⟨hj, hdouble⟩ => Nat.le_of_not_lt fun hlt => h j hj hlt hdouble⟩

theorem le_of_next (h : Free source c p k) (hs : NextDouble source c p s) : k ≤ s :=
  Nat.le_of_not_lt fun hlt => h s hs.1.1 hlt hs.1.2

end Free

theorem PassesBlock.le (h : PassesBlock source p q) : p ≤ q := by
  obtain ⟨s, e, hs, he, rfl⟩ := h
  have hps : p ≤ s := hs.1.1
  have hse : s + 2 ≤ e := he.1.1
  omega

theorem passesBlock_rightUnique : Relator.RightUnique (PassesBlock source) := by
  rintro p q q' ⟨s, e, hs, he, rfl⟩ ⟨s', e', hs', he', rfl⟩
  cases hs.unique hs'
  rw [he.unique he']

theorem le_of_passesBlocks (h : Relation.ReflTransGen (PassesBlock source) p q) : p ≤ q := by
  induction h with
  | refl => exact Nat.le_refl p
  | tail _ hstep ih => exact ih.trans hstep.le

namespace Stands

theorem start : Stands source false 0 := ⟨0, .refl, Nat.le_refl 0, .refl source '{' 0⟩

theorem opens (h : Stands source false k) (hk : DoubleAt source '{' k) :
    Stands source true (k + 2) := by
  obtain ⟨p, hp, hpk, hfree⟩ := h
  exact ⟨p, k, hp, hfree.next hpk hk, Nat.le_refl _, .refl source '}' _⟩

theorem closes (h : Stands source true k) (hk : DoubleAt source '}' k) :
    Stands source false (k + 2) := by
  obtain ⟨p, s, hp, hs, hsk, hfree⟩ := h
  exact ⟨k + 2, hp.tail ⟨s, k, hs, hfree.next hsk hk, rfl⟩, Nat.le_refl _, .refl source '{' _⟩

theorem next_outside (h : Stands source false k) (hk : ¬ DoubleAt source '{' k) :
    Stands source false (k + 1) := by
  obtain ⟨p, hp, hpk, hfree⟩ := h
  exact ⟨p, hp, Nat.le_succ_of_le hpk, hfree.succ hk⟩

theorem next_inside (h : Stands source true k) (hk : ¬ DoubleAt source '}' k) :
    Stands source true (k + 1) := by
  obtain ⟨p, s, hp, hs, hsk, hfree⟩ := h
  exact ⟨p, s, hp, hs, Nat.le_succ_of_le hsk, hfree.succ hk⟩

theorem inside (h : Stands source true k) (hk : ¬ DoubleAt source '}' k) : Inside source k := by
  obtain ⟨p, s, hp, hs, hsk, hfree⟩ := h
  refine ⟨p, s, hp, hs, hsk, fun e he => Nat.lt_of_le_of_ne (hfree.le_of_next he) ?_⟩
  rintro rfl
  exact hk he.1.2

/-- Of two outsets, one is reached from the other. If the block begins behind the outset of this
place it would have been met, and if before, it is closed before this place. -/
theorem not_inside (h : Stands source false k) : ¬ Inside source k := by
  obtain ⟨p, hp, hpk, hfree⟩ := h
  rintro ⟨p', s, hp', hs, hsk, hopen⟩
  have hlate : ¬ p ≤ s := fun hps => hfree s hps (by omega) hs.1.2
  rcases Relation.ReflTransGen.total_of_right_unique passesBlock_rightUnique hp hp' with h | h
  · exact hlate ((le_of_passesBlocks h).trans hs.1.1)
  · rcases h.cases_head with rfl | ⟨q, ⟨s', e, hs', he, rfl⟩, hrest⟩
    · exact hlate hs.1.1
    · cases hs.unique hs'
      have hke := hopen e he
      have hep := le_of_passesBlocks hrest
      omega

end Stands

theorem getElem?_of_drop {cs : List Char} (h : source.drop k = c :: cs) :
    source[k]? = some c ∧ source.drop (k + 1) = cs := by
  constructor
  · rw [← List.head?_drop, h, List.head?_cons]
  · rw [← List.tail_drop, h, List.tail_cons]

/-- The characters are those of the source from place `k` on that are at no field dot, in order. -/
def Keeps (source : List Char) (k : Nat) (out : List Char) : Prop :=
  ∃ kept : List Nat, kept.Pairwise (· < ·) ∧
    (∀ i, i ∈ kept ↔ k ≤ i ∧ i < source.length ∧ ¬ FieldDotAt source i) ∧
    out = kept.filterMap (source[·]?)

namespace Keeps

theorem nil (h : source.length ≤ k) : Keeps source k [] :=
  ⟨[], .nil, fun i => ⟨fun hi => absurd hi List.not_mem_nil, fun hi => by omega⟩, rfl⟩

theorem skip (h : Keeps source (k + 1) out) (hk : FieldDotAt source k) : Keeps source k out := by
  obtain ⟨kept, hsorted, hmem, hout⟩ := h
  refine ⟨kept, hsorted, fun i => ?_, hout⟩
  rw [hmem]
  constructor
  · rintro ⟨hki, hrest⟩
    exact ⟨by omega, hrest⟩
  · rintro ⟨hki, hlen, hnot⟩
    have hne : k ≠ i := by
      rintro rfl
      exact hnot hk
    exact ⟨by omega, hlen, hnot⟩

theorem cons (h : Keeps source (k + 1) out) (hc : source[k]? = some c)
    (hk : ¬ FieldDotAt source k) : Keeps source k (c :: out) := by
  obtain ⟨kept, hsorted, hmem, rfl⟩ := h
  have hlen : k < source.length := (List.getElem?_eq_some_iff.mp hc).1
  refine ⟨k :: kept, List.pairwise_cons.mpr ⟨fun i hi => ?_, hsorted⟩, fun i => ?_, ?_⟩
  · exact ((hmem i).mp hi).1
  · rw [List.mem_cons, hmem]
    constructor
    · rintro (rfl | ⟨hki, hrest⟩)
      · exact ⟨Nat.le_refl i, hlen, hk⟩
      · exact ⟨by omega, hrest⟩
    · rintro ⟨hki, hrest⟩
      rcases Nat.lt_or_eq_of_le hki with hlt | rfl
      · exact .inr ⟨hlt, hrest⟩
      · exact .inl rfl
  · rw [List.filterMap_cons, hc]

theorem cons_of_ne (h : Keeps source (k + 1) out) (hc : source[k]? = some c) (hne : c ≠ '.') :
    Keeps source k (c :: out) :=
  h.cons hc fun hdot => hne (Option.some.inj (hc.symm.trans hdot.dot))

theorem unique {out' : List Char} (h : Keeps source k out) (h' : Keeps source k out') :
    out = out' := by
  obtain ⟨kept, hsorted, hmem, rfl⟩ := h
  obtain ⟨kept', hsorted', hmem', rfl⟩ := h'
  have hperm : kept.Perm kept' :=
    (List.perm_ext_iff_of_nodup hsorted.nodup hsorted'.nodup).mpr fun i => by rw [hmem, hmem']
  rw [hperm.eq_of_pairwise (fun a b _ _ hab hba => by omega) hsorted hsorted']

theorem all (hnone : ∀ i, ¬ FieldDotAt source i) (k : Nat) :
    Keeps source k (source.drop k) := by
  generalize hcs : source.drop k = cs
  induction cs generalizing k with
  | nil => exact nil (List.drop_eq_nil_iff.mp hcs)
  | cons c cs ih =>
    obtain ⟨hc, hrest⟩ := getElem?_of_drop hcs
    exact (ih (k + 1) hrest).cons hc (hnone k)

end Keeps

section Scan
variable {inBlock : Bool} {before : Option Char} {cs : List Char}

theorem doubleAt_iff {x : Char} (hc : source[k]? = some c) (hd : source[k + 1]? = some d) :
    DoubleAt source x k ↔ c = x ∧ d = x := by
  rw [DoubleAt, hc, hd, Option.some_inj, Option.some_inj]

theorem fieldDotAt_iff (hc : source[k]? = some c) (hd : source[k + 1]? = some d)
    (hstands : Stands source inBlock k) (hbefore : inBlock = true → before = source[k - 1]?) :
    FieldDotAt source k ↔
      (inBlock && c = '.' && startsField d && before.any isFieldBoundary) = true := by
  simp only [Bool.and_eq_true, decide_eq_true_eq, and_assoc]
  constructor
  · intro h
    have hin : inBlock = true := by
      by_contra hout
      rw [Bool.not_eq_true] at hout
      subst hout
      exact hstands.not_inside h.inside
    obtain ⟨b, hb, hboundary⟩ := h.follows
    obtain ⟨d', hd', hstart⟩ := h.precedes
    cases hd.symm.trans hd'
    refine ⟨hin, Option.some.inj (hc.symm.trans h.dot), startsField_iff.mpr hstart, ?_⟩
    rw [hbefore hin, hb, Option.any_some]
    exact isFieldBoundary_iff.mpr hboundary
  · rintro ⟨rfl, rfl, hstart, hany⟩
    have hopen : ¬ DoubleAt source '}' k := by
      rw [doubleAt_iff hc hd]
      exact fun h => absurd h.1 (by decide)
    obtain ⟨b, hb, hboundary⟩ := (Option.any_eq_true _ _).mp hany
    exact ⟨hc, hstands.inside hopen,
      ⟨b, (hbefore rfl).symm.trans hb, isFieldBoundary_iff.mp hboundary⟩,
      d, hd, startsField_iff.mp hstart⟩

theorem Stands.next (h : Stands source inBlock k) (hc : source[k]? = some c)
    (hd : source[k + 1]? = some d) (hopen : ¬ (!inBlock && c = '{' && d = '{') = true)
    (hclose : ¬ (inBlock && c = '}' && d = '}') = true) : Stands source inBlock (k + 1) := by
  cases inBlock with
  | false =>
    refine h.next_outside fun hdouble => hopen ?_
    obtain ⟨rfl, rfl⟩ := (doubleAt_iff hc hd).mp hdouble
    rfl
  | true =>
    refine h.next_inside fun hdouble => hclose ?_
    obtain ⟨rfl, rfl⟩ := (doubleAt_iff hc hd).mp hdouble
    rfl

/-- From a place where it stands right, the scan keeps what is at no field dot. By induction along
the scan, which knows what is before the place while it is in a block. -/
theorem keeps_dropFieldDotsFrom (hcs : source.drop k = cs) (hstands : Stands source inBlock k)
    (hbefore : inBlock = true → before = source[k - 1]?) :
    Keeps source k (dropFieldDotsFrom inBlock before cs) := by
  fun_induction dropFieldDotsFrom inBlock before cs generalizing k with
  | case1 => exact .nil (List.drop_eq_nil_iff.mp hcs)
  | case2 inBlock before c =>
    obtain ⟨hc, hrest⟩ := getElem?_of_drop hcs
    have hend : source.length ≤ k + 1 := List.drop_eq_nil_iff.mp hrest
    refine (Keeps.nil hend).cons hc fun hdot => ?_
    obtain ⟨d, hd, -⟩ := hdot.precedes
    rw [List.getElem?_eq_none hend] at hd
    cases hd
  | case3 inBlock before c d rest hopen ih =>
    obtain ⟨hc, hnext⟩ := getElem?_of_drop hcs
    obtain ⟨hd, hrest⟩ := getElem?_of_drop hnext
    simp only [Bool.and_eq_true, Bool.not_eq_true', decide_eq_true_eq] at hopen
    obtain ⟨⟨rfl, rfl⟩, rfl⟩ := hopen
    have hkept := ih hrest (hstands.opens ⟨hc, hd⟩) fun _ => hd.symm
    exact (hkept.cons_of_ne hd (by decide)).cons_of_ne hc (by decide)
  | case4 inBlock before c d rest hno hclose ih =>
    obtain ⟨hc, hnext⟩ := getElem?_of_drop hcs
    obtain ⟨hd, hrest⟩ := getElem?_of_drop hnext
    simp only [Bool.and_eq_true, decide_eq_true_eq] at hclose
    obtain ⟨⟨rfl, rfl⟩, rfl⟩ := hclose
    have hkept := ih hrest (hstands.closes ⟨hc, hd⟩) nofun
    exact (hkept.cons_of_ne hd (by decide)).cons_of_ne hc (by decide)
  | case5 inBlock before c d rest hopen hclose hdrop ih =>
    obtain ⟨hc, hrest⟩ := getElem?_of_drop hcs
    obtain ⟨hd, -⟩ := getElem?_of_drop hrest
    have hkept := ih hrest (hstands.next hc hd hopen hclose) fun _ => hc.symm
    exact hkept.skip ((fieldDotAt_iff hc hd hstands hbefore).mpr hdrop)
  | case6 inBlock before c d rest hopen hclose hkeep ih =>
    obtain ⟨hc, hrest⟩ := getElem?_of_drop hcs
    obtain ⟨hd, -⟩ := getElem?_of_drop hrest
    have hkept := ih hrest (hstands.next hc hd hopen hclose) fun _ => hc.symm
    exact hkept.cons hc fun hdot => hkeep ((fieldDotAt_iff hc hd hstands hbefore).mp hdot)

theorem ne_of_startsField (h : startsField d = true) : d ≠ '}' ∧ d ≠ '.' := by
  constructor <;> rintro rfl <;> exact absurd h (by decide)

/-- The first character is kept, or it is a dot whose identifier moves up to the boundary. -/
theorem dropFieldDotsFrom_head (inBlock : Bool) (before : Option Char) (c : Char)
    (rest : List Char) : ∃ c' rest', dropFieldDotsFrom inBlock before (c :: rest) = c' :: rest' ∧
      (c' = c ∨ inBlock = true ∧ before.any isFieldBoundary = true ∧ startsField c' = true) := by
  cases rest with
  | nil => exact ⟨c, [], rfl, .inl rfl⟩
  | cons d rest =>
    rw [dropFieldDotsFrom]
    split
    · next hopen =>
      simp only [Bool.and_eq_true, decide_eq_true_eq] at hopen
      exact ⟨_, _, rfl, .inl hopen.1.2.symm⟩
    split
    · next hclose =>
      simp only [Bool.and_eq_true, decide_eq_true_eq] at hclose
      exact ⟨_, _, rfl, .inl hclose.1.2.symm⟩
    split
    · next hdrop =>
      simp only [Bool.and_eq_true, decide_eq_true_eq] at hdrop
      obtain ⟨⟨⟨rfl, -⟩, hstart⟩, hany⟩ := hdrop
      have hne := ne_of_startsField hstart
      exact ⟨d, _, dropFieldDotsFrom_inside hne.1 hne.2, .inr ⟨rfl, hany, hstart⟩⟩
    · exact ⟨_, _, rfl, .inl rfl⟩

/-- What was kept is kept again: no dot comes to stand behind a boundary, and no brace beside
another. -/
theorem dropFieldDotsFrom_twice (inBlock : Bool) (before : Option Char) (cs : List Char) :
    dropFieldDotsFrom inBlock before (dropFieldDotsFrom inBlock before cs) =
      dropFieldDotsFrom inBlock before cs := by
  fun_induction dropFieldDotsFrom inBlock before cs with
  | case1 => rfl
  | case2 => rfl
  | case3 inBlock before c d rest hopen ih =>
    simp only [Bool.and_eq_true, Bool.not_eq_true', decide_eq_true_eq] at hopen
    obtain ⟨⟨rfl, rfl⟩, rfl⟩ := hopen
    rw [dropFieldDotsFrom_open, ih]
  | case4 inBlock before c d rest hno hclose ih =>
    simp only [Bool.and_eq_true, decide_eq_true_eq] at hclose
    obtain ⟨⟨rfl, rfl⟩, rfl⟩ := hclose
    rw [dropFieldDotsFrom_close, ih]
  | case5 inBlock before c d rest hopen hclose hdrop ih =>
    simp only [Bool.and_eq_true, decide_eq_true_eq] at hdrop
    obtain ⟨⟨⟨rfl, -⟩, hstart⟩, -⟩ := hdrop
    obtain ⟨hd, hdot⟩ := ne_of_startsField hstart
    rw [dropFieldDotsFrom_inside hd hdot] at ih ⊢
    rw [dropFieldDotsFrom_inside hd hdot] at ih ⊢
    exact ih
  | case6 inBlock before c d rest hopen hclose hkeep ih =>
    obtain ⟨d', rest', hhead, hd'⟩ := dropFieldDotsFrom_head inBlock (some c) d rest
    rw [hhead] at ih ⊢
    rcases hd' with rfl | ⟨rfl, hany, hstart⟩
    · rw [dropFieldDotsFrom, if_neg hopen, if_neg hclose, if_neg hkeep, ih]
    · have hc : c ≠ '.' := by
        rintro rfl
        exact absurd hany (by decide)
      have hd := (ne_of_startsField hstart).1
      rw [dropFieldDotsFrom, if_neg (by simp), if_neg (by simp [hd]), if_neg (by simp [hc]), ih]

end Scan

/-- The characters that are dropped are the field dots of the source: all others are kept in their
order, so a source without field dots stays as it is, as one without double braces does, and what
is left stays as it is a second time. -/
theorem dropFieldDots_keeps_rest (source : List Char) :
    (∃ kept : List Nat, kept.Pairwise (· < ·) ∧
      (∀ i, i ∈ kept ↔ i < source.length ∧ ¬ FieldDotAt source i) ∧
      dropFieldDots source = kept.filterMap (source[·]?)) ∧
    ((∀ i, ¬ FieldDotAt source i) → dropFieldDots source = source) ∧
    ((∀ i, ¬ DoubleAt source '{' i) → dropFieldDots source = source) ∧
    dropFieldDots (dropFieldDots source) = dropFieldDots source := by
  have hkeeps : Keeps source 0 (dropFieldDots source) :=
    keeps_dropFieldDotsFrom List.drop_zero .start nofun
  have hsame (hnone : ∀ i, ¬ FieldDotAt source i) : dropFieldDots source = source := by
    have hall := Keeps.all hnone 0
    rw [List.drop_zero] at hall
    exact hkeeps.unique hall
  refine ⟨?_, hsame, fun hnone => hsame fun i hdot => ?_, dropFieldDotsFrom_twice false none source⟩
  · obtain ⟨kept, hsorted, hmem, hout⟩ := hkeeps
    refine ⟨kept, hsorted, fun i => ?_, hout⟩
    rw [hmem, and_iff_right (Nat.zero_le i)]
  · obtain ⟨p, s, -, hs, -⟩ := hdot.inside
    exact hnone s hs.1.2

/-- One dot is outside of the block, and the other one behind a slash. -/
def unmarked : List Char :=
  "a.b ".toList ++ '{' :: '{' :: " /.Name".toList ++ ['}', '}']

/-- A dot that would mark a field in a block. -/
def singleBraces : List Char :=
  "a ".toList ++ '}' :: ' ' :: '{' :: " .Name ".toList ++ ['}']

theorem dropFieldDots_of_plain :
    (∀ i, ¬ FieldDotAt unmarked i) ∧ dropFieldDots unmarked = unmarked ∧
    (∀ i, ¬ DoubleAt singleBraces '{' i) ∧ dropFieldDots singleBraces = singleBraces := by
  have hnone : ∀ i, ¬ FieldDotAt unmarked i := by
    intro i hdot
    have hplaces : ∀ i < 15, unmarked[i]? = some '.' →
        unmarked[i - 1]?.any isFieldBoundary = false := by decide +kernel
    obtain ⟨c, hc, hboundary⟩ := hdot.follows
    have hany := hplaces i (List.getElem?_eq_some_iff.mp hdot.dot).1 hdot.dot
    rw [hc, Option.any_some, isFieldBoundary_iff.mpr hboundary] at hany
    cases hany
  have hsingle : ∀ i, ¬ DoubleAt singleBraces '{' i := by
    intro i hdouble
    have hplaces : ∀ i < 13, singleBraces[i]? = some '{' → singleBraces[i + 1]? ≠ some '{' := by
      decide +kernel
    exact hplaces i (List.getElem?_eq_some_iff.mp hdouble.1).1 hdouble.1 hdouble.2
  exact ⟨hnone, (dropFieldDots_keeps_rest _).2.1 hnone, hsingle,
    (dropFieldDots_keeps_rest _).2.2.1 hsingle⟩

end GameIngress.Template
