import GameIngress.Duration.Reader
import GameIngress.Proofs.Text.Cut
import Mathlib.Data.Char
import Mathlib.Data.List.Induction
import Mathlib.Data.List.TakeWhile
import Mathlib.Data.Nat.Digits.Defs

/-!
# Written durations and what they come to

A text is read as a duration exactly if, but for blanks around it, it is `0` or a sequence of items,
each of them a count and a unit. The duration is the sum of the items as long as there is a duration
of that length, and otherwise one of the longest there are.
-/
namespace GameIngress.Duration

inductive TimeUnit where
  | millis
  | secs
  | mins
  | hours
  deriving DecidableEq

namespace TimeUnit

def symbol : TimeUnit → List Char
  | millis => ['m', 's']
  | secs => ['s']
  | mins => ['m']
  | hours => ['h']

def nanos : TimeUnit → Nat
  | millis => 1000000
  | secs => 1000000000
  | mins => 60 * 1000000000
  | hours => 3600 * 1000000000

end TimeUnit

/-- The number that decimal digits stand for, the first of them being the highest. -/
def decimal (ds : List Char) : Nat := Nat.ofDigits 10 (ds.reverse.map fun d => d.toNat - '0'.toNat)

/-- A count in a unit. -/
structure Item where
  digits : List Char
  unit : TimeUnit
  nonempty : digits ≠ []
  decimals : ∀ c ∈ digits, c.isDigit = true
  bounded : decimal digits < 2 ^ 64

def Item.text (i : Item) : List Char := i.digits ++ i.unit.symbol

def Item.nanos (i : Item) : Nat := decimal i.digits * i.unit.nanos

def span (items : List Item) : Nat := (items.map Item.nanos).sum

def Spells (t : List Char) (items : List Item) : Prop := items ≠ [] ∧ t = items.flatMap Item.text

/-- The duration of `n` nanoseconds if there is one; otherwise it is at most a second short of all
durations that there are. -/
structure Reckons (n : Nat) (d : Duration) : Prop where
  exact : n < 2 ^ 64 * 10 ^ 9 → d.nanos = n
  saturated : 2 ^ 64 * 10 ^ 9 ≤ n → (2 ^ 64 - 1) * 10 ^ 9 ≤ d.nanos

namespace Reckons

variable {a b : Duration} {m n : Nat}

theorem ofNanos (n : Nat) : Reckons n (.ofNanos n) := by
  constructor <;> intro h <;> rw [nanos_ofNanos] <;> simp only [limit] <;> omega

theorem add (ha : Reckons m a) (hb : Reckons n b) : Reckons (m + n) (a + b) := by
  have hsum : (a + b).nanos = min (a.nanos + b.nanos) (limit - 1) := rfl
  constructor <;> intro h <;> rw [hsum] <;> simp only [limit]
  · rw [ha.exact (by omega), hb.exact (by omega)]
    omega
  · by_cases hm : m < 2 ^ 64 * 10 ^ 9
    · by_cases hn : n < 2 ^ 64 * 10 ^ 9
      · rw [ha.exact hm, hb.exact hn]
        omega
      · have := hb.saturated (by omega)
        omega
    · have := ha.saturated (by omega)
      omega

end Reckons

theorem count_eq_decimal (ds : List Char) : count ds = decimal ds := by
  induction ds using List.reverseRecOn with
  | nil => rfl
  | append_singleton ds d ih =>
    rw [count, List.foldl_append, List.foldl_cons, List.foldl_nil, ← count, ih, decimal, decimal,
      List.reverse_append, List.reverse_singleton, List.singleton_append, List.map_cons,
      Nat.ofDigits_cons, Nat.add_comm]
    rfl

/-- The seconds of an item stop below the bound, which is where the durations end. -/
theorem Reckons.ofSecs_min (n : Nat) :
    Reckons (n * 1000000000) (ofSecs (min n (countLimit - 1))) := by
  constructor <;> intro h <;> rw [ofSecs, nanos_ofNanos] <;> simp only [limit, countLimit] <;> omega

theorem ofUnit?_symbol (u : TimeUnit) (n : Nat) :
    ∃ d, ofUnit? u.symbol n = some d ∧ Reckons (n * u.nanos) d := by
  cases u with
  | millis => exact ⟨_, rfl, .ofNanos _⟩
  | secs => exact ⟨_, rfl, .ofNanos _⟩
  | mins =>
    refine ⟨_, rfl, ?_⟩
    rw [TimeUnit.nanos, ← Nat.mul_assoc]
    exact .ofSecs_min _
  | hours =>
    refine ⟨_, rfl, ?_⟩
    rw [TimeUnit.nanos, ← Nat.mul_assoc]
    exact .ofSecs_min _

theorem eq_symbol_of_ofUnit? {unit : List Char} {n : Nat} {d : Duration}
    (h : ofUnit? unit n = some d) : ∃ u : TimeUnit, unit = u.symbol := by
  unfold ofUnit? at h
  split at h
  · exact ⟨.millis, rfl⟩
  · exact ⟨.secs, rfl⟩
  · exact ⟨.mins, rfl⟩
  · exact ⟨.hours, rfl⟩
  · cases h

variable {whole : String} {total d : Duration} {t rest : List Char} {items : List Item}

theorem isDigit_symbol (u : TimeUnit) : ∀ c ∈ u.symbol, isDigit c = false := by
  cases u <;> simp [TimeUnit.symbol, isDigit]

theorem symbol_ne_nil (u : TimeUnit) : u.symbol ≠ [] := by
  cases u <;> exact List.cons_ne_nil _ _

theorem isDigit_head?_append {us : List Char} (hne : us ≠ []) (hus : ∀ c ∈ us, isDigit c = false)
    (rest : List Char) : ∀ c ∈ (us ++ rest).head?, isDigit c = false := by
  obtain ⟨u, us, rfl⟩ := List.exists_cons_of_ne_nil hne
  intro c hc
  cases hc
  exact hus u List.mem_cons_self

theorem isDigit_of_mem_head? {c : Char} (h : c ∈ (items.flatMap Item.text).head?) :
    isDigit c = true := by
  cases items with
  | nil => simp at h
  | cons i items =>
    obtain ⟨d, ds, hds⟩ := List.exists_cons_of_ne_nil i.nonempty
    rw [List.flatMap_cons, Item.text, hds, List.cons_append, List.cons_append, List.head?_cons,
      Option.mem_some_iff] at h
    exact i.decimals c (hds ▸ h ▸ List.mem_cons_self)

theorem readItems_append {ds us : List Char} (hne : ds ≠ []) (hds : ∀ c ∈ ds, isDigit c = true)
    (hus : us ≠ []) (hsymbol : ∀ c ∈ us, isDigit c = false)
    (hrest : ∀ c ∈ rest.head?, isDigit c = true) (hbounded : ¬ countLimit ≤ count ds)
    (hunit : ofUnit? us (count ds) = some d) :
    readItems whole total (ds ++ (us ++ rest)) = readItems whole (total + d) rest := by
  have hstop := isDigit_head?_append hus hsymbol rest
  have hunits : ∀ c ∈ us, (!isDigit c) = true := by simpa using hsymbol
  have hnext : ∀ c ∈ rest.head?, (!isDigit c) = false := by simpa using hrest
  have htake := Text.takeWhile_append_of_stop hds hstop
  have hdrop := Text.dropWhile_append_of_stop hds hstop
  obtain ⟨c, cs, rfl⟩ := List.exists_cons_of_ne_nil hne
  rw [List.cons_append] at htake hdrop ⊢
  have hafter : (us ++ rest).isEmpty = false := by simp [hus]
  rw [readItems]
  simp only [htake, hdrop, hafter, hds c List.mem_cons_self, Bool.false_eq_true, if_false, dif_pos,
    Text.takeWhile_append_of_stop hunits hnext, Text.dropWhile_append_of_stop hunits hnext,
    if_neg hbounded, hunit]

theorem readItems_cons (whole : String) (total : Duration) (i : Item) (items : List Item) :
    ∃ d, Reckons i.nanos d ∧
      readItems whole total ((i :: items).flatMap Item.text) =
        readItems whole (total + d) (items.flatMap Item.text) := by
  obtain ⟨d, hunit, hreckons⟩ := ofUnit?_symbol i.unit (decimal i.digits)
  have hbounded : ¬ countLimit ≤ decimal i.digits := Nat.not_le.mpr i.bounded
  rw [← count_eq_decimal] at hunit hbounded
  refine ⟨d, hreckons, ?_⟩
  rw [List.flatMap_cons, Item.text, List.append_assoc]
  exact readItems_append i.nonempty i.decimals (symbol_ne_nil i.unit) (isDigit_symbol i.unit)
    (fun c => isDigit_of_mem_head?) hbounded hunit

theorem readItems_flatMap (whole : String) {n : Nat} (htotal : Reckons n total)
    (items : List Item) :
    ∃ d, readItems whole total (items.flatMap Item.text) = .ok d ∧ Reckons (n + span items) d := by
  induction items generalizing n total with
  | nil => exact ⟨total, by rw [List.flatMap_nil, readItems], htotal⟩
  | cons i items ih =>
    obtain ⟨d, hreckons, hread⟩ := readItems_cons whole total i items
    obtain ⟨sum, hsum, hspan⟩ := ih (htotal.add hreckons)
    rw [span, List.map_cons, List.sum_cons, ← Nat.add_assoc]
    exact ⟨sum, hread.trans hsum, hspan⟩

/-- By induction along the reader, which cuts the text into digits, the unit and the rest. -/
theorem exists_items_of_readItems (h : readItems whole total t = .ok d) :
    ∃ items : List Item, t = items.flatMap Item.text := by
  fun_induction readItems whole total t with
  | case1 total => exact ⟨[], rfl⟩
  | case2 => cases h
  | case3 => cases h
  | case4 => cases h
  | case5 total c cs digits afterDigits hempty hdigit n hcount unit d hunit ih =>
    obtain ⟨items, hitems⟩ := ih h
    obtain ⟨u, hu⟩ := eq_symbol_of_ofUnit? hunit
    have hne : digits ≠ [] := by
      simp only [digits, List.takeWhile_cons_of_pos hdigit]
      exact List.cons_ne_nil _ _
    have hbounded : decimal digits < 2 ^ 64 := count_eq_decimal digits ▸ Nat.not_le.mp hcount
    refine ⟨⟨digits, u, hne, fun c => List.mem_takeWhile_imp, hbounded⟩ :: items, ?_⟩
    rw [List.flatMap_cons, ← hitems, Item.text, ← hu, List.append_assoc,
      List.takeWhile_append_dropWhile, List.takeWhile_append_dropWhile]
  | case6 => cases h

theorem symbol_injective {u v : TimeUnit} (h : u.symbol = v.symbol) : u = v := by
  cases u <;> cases v <;> first | rfl | cases h

theorem flatMap_cons_ne_nil (i : Item) (items : List Item) :
    (i :: items).flatMap Item.text ≠ [] := by
  simp [Item.text, i.nonempty]

theorem cut_flatMap_cons (i : Item) (items : List Item) :
    let t := (i :: items).flatMap Item.text
    t.takeWhile isDigit = i.digits ∧
      (t.dropWhile isDigit).takeWhile (!isDigit ·) = i.unit.symbol ∧
      (t.dropWhile isDigit).dropWhile (!isDigit ·) = items.flatMap Item.text := by
  intro t
  have ht : t = i.digits ++ (i.unit.symbol ++ items.flatMap Item.text) := by
    simp only [t, List.flatMap_cons, Item.text, List.append_assoc]
  have hstop := isDigit_head?_append (symbol_ne_nil i.unit) (isDigit_symbol i.unit)
    (items.flatMap Item.text)
  have hunits : ∀ c ∈ i.unit.symbol, (!isDigit c) = true := by
    simpa using isDigit_symbol i.unit
  have hnext : ∀ c ∈ (items.flatMap Item.text).head?, (!isDigit c) = false := by
    simpa using fun c (hc : c ∈ (items.flatMap Item.text).head?) => isDigit_of_mem_head? hc
  have hdigits : ∀ c ∈ i.digits, isDigit c = true := i.decimals
  rw [ht, Text.takeWhile_append_of_stop hdigits hstop, Text.dropWhile_append_of_stop hdigits hstop,
    Text.takeWhile_append_of_stop hunits hnext, Text.dropWhile_append_of_stop hunits hnext]
  exact ⟨rfl, rfl, rfl⟩

theorem flatMap_text_injective {items' : List Item}
    (h : items.flatMap Item.text = items'.flatMap Item.text) : items = items' := by
  induction items generalizing items' with
  | nil =>
    cases items' with
    | nil => rfl
    | cons i items' => exact absurd h.symm (flatMap_cons_ne_nil i items')
  | cons i items ih =>
    cases items' with
    | nil => exact absurd h (flatMap_cons_ne_nil i items)
    | cons i' items' =>
      obtain ⟨hdigits, hsymbol, hrest⟩ := cut_flatMap_cons i items
      obtain ⟨hdigits', hsymbol', hrest'⟩ := cut_flatMap_cons i' items'
      rw [h] at hdigits hsymbol hrest
      have hi : i = i' := by
        cases i
        cases i'
        cases hdigits.symm.trans hdigits'
        cases symbol_injective (hsymbol.symm.trans hsymbol')
        rfl
      rw [hi, ih (hrest.symm.trans hrest')]

theorem Spells.exists_letter (h : Spells t items) : ∃ c ∈ t, isDigit c = false := by
  obtain ⟨hne, rfl⟩ := h
  obtain ⟨i, items, rfl⟩ := List.exists_cons_of_ne_nil hne
  obtain ⟨c, hc⟩ := List.exists_mem_of_ne_nil _ (symbol_ne_nil i.unit)
  exact ⟨c, by simp [Item.text, hc], isDigit_symbol i.unit c hc⟩

theorem Spells.ne_nil (h : Spells t items) : t ≠ [] := by
  obtain ⟨hne, rfl⟩ := h
  obtain ⟨i, items, rfl⟩ := List.exists_cons_of_ne_nil hne
  exact flatMap_cons_ne_nil i items

theorem exists_reckons_of_spells {s : String} (ht : Text.Trims s.toList t) (h : Spells t items) :
    ∃ d, read s = .ok d ∧ Reckons (span items) d := by
  obtain ⟨c, hc, hletter⟩ := h.exists_letter
  have hzero : t ≠ ['0'] := by
    rintro rfl
    cases List.mem_singleton.mp hc
    cases hletter
  obtain ⟨d, hread, hreckons⟩ :=
    readItems_flatMap (String.ofList t) (Reckons.ofNanos 0) items
  rw [Nat.zero_add] at hreckons
  refine ⟨d, ?_, hreckons⟩
  rw [read, ht.trim_eq, if_neg hzero, if_neg h.ne_nil, ← hread, ← h.2]
  rfl

theorem exists_spells_of_read {s : String} (ht : Text.Trims s.toList t) (h : read s = .ok d) :
    t = ['0'] ∨ ∃ items, Spells t items := by
  rw [read, ht.trim_eq] at h
  split at h
  · next hzero => exact .inl hzero
  split at h
  · cases h
  · next hempty =>
    obtain ⟨items, hitems⟩ := exists_items_of_readItems h
    refine .inr ⟨items, ?_, hitems⟩
    rintro rfl
    exact hempty hitems

theorem Spells.append {a b : List Char} {items' : List Item} (ha : Spells a items)
    (hb : Spells b items') : Spells (a ++ b) (items ++ items') := by
  obtain ⟨hne, rfl⟩ := ha
  obtain ⟨-, rfl⟩ := hb
  exact ⟨by simp [hne], List.flatMap_append.symm⟩

theorem Spells.of_bare {a : String} {da : Duration} (hbare : Text.Bare a.toList) (hzero : a ≠ "0")
    (ha : read a = .ok da) : ∃ items, Spells a.toList items ∧ Reckons (span items) da := by
  rcases exists_spells_of_read (.of_bare hbare) ha with h | ⟨items, hitems⟩
  · exact absurd (String.toList_inj.mp h) hzero
  · obtain ⟨d, hd, hreckons⟩ := exists_reckons_of_spells (.of_bare hbare) hitems
    cases ha.symm.trans hd
    exact ⟨items, hitems, hreckons⟩

/-- Two durations, one written after the other, are one that is their sum, unless it is too long. -/
theorem read_append {a b : String} {da db : Duration} (hbare : Text.Bare a.toList)
    (hbare' : Text.Bare b.toList) (hzero : a ≠ "0") (hzero' : b ≠ "0") (ha : read a = .ok da)
    (hb : read b = .ok db) :
    ∃ d, read (a ++ b) = .ok d ∧ ∃ items, Spells (a ++ b).toList items ∧
      (span items < 2 ^ 64 * 10 ^ 9 → d.nanos = da.nanos + db.nanos) := by
  obtain ⟨as, has, hda⟩ := Spells.of_bare hbare hzero ha
  obtain ⟨bs, hbs, hdb⟩ := Spells.of_bare hbare' hzero' hb
  have hboth : Text.Trims (a ++ b).toList (a.toList ++ b.toList) := by
    rw [String.toList_append]
    exact .of_bare (hbare.append hbare' has.ne_nil hbs.ne_nil)
  have hspells := has.append hbs
  obtain ⟨d, hd, hreckons⟩ := exists_reckons_of_spells hboth hspells
  have hspan : span (as ++ bs) = span as + span bs := by
    rw [span, List.map_append, List.sum_append]
    rfl
  refine ⟨d, hd, as ++ bs, String.toList_append ▸ hspells, fun hlt => ?_⟩
  rw [hreckons.exact hlt, hspan, hda.exact (by omega), hdb.exact (by omega)]

/-- A text is a duration exactly if, trimmed, it is `0` or spells items, and there is only one way
to spell. The duration is then the sum of the items as long as there is such a duration. So texts of
durations can be written one after the other. -/
theorem read_iff_spells :
    (∀ s : String, ∃ t, Text.Trims s.toList t ∧
      ((∃ d, read s = .ok d) ↔ t = ['0'] ∨ ∃ items, Spells t items) ∧
      (t = ['0'] → read s = .ok zero) ∧
      ∀ items, Spells t items →
        (∀ items', Spells t items' → items' = items) ∧
        ∃ d, read s = .ok d ∧
          (span items < 2 ^ 64 * 10 ^ 9 → d.nanos = span items) ∧
          (2 ^ 64 * 10 ^ 9 ≤ span items → (2 ^ 64 - 1) * 10 ^ 9 ≤ d.nanos)) ∧
    ∀ a b : String, ∀ da db : Duration, Text.Bare a.toList → Text.Bare b.toList →
      a ≠ "0" → b ≠ "0" → read a = .ok da → read b = .ok db →
      ∃ d, read (a ++ b) = .ok d ∧ ∃ items, Spells (a ++ b).toList items ∧
        (span items < 2 ^ 64 * 10 ^ 9 → d.nanos = da.nanos + db.nanos) := by
  refine ⟨fun s => ?_, fun a b da db => read_append⟩
  have ht := Text.trims_trim s.toList
  have hzero (h : Text.trim s.toList = ['0']) : read s = .ok zero := by
    rw [read, h]
    rfl
  refine ⟨_, ht, ⟨fun ⟨d, hd⟩ => exists_spells_of_read ht hd, ?_⟩, hzero, fun items hitems => ?_⟩
  · rintro (h | ⟨items, hitems⟩)
    · exact ⟨zero, hzero h⟩
    · obtain ⟨d, hd, -⟩ := exists_reckons_of_spells ht hitems
      exact ⟨d, hd⟩
  · obtain ⟨d, hd, hreckons⟩ := exists_reckons_of_spells ht hitems
    exact ⟨fun items' h => flatMap_text_injective (h.2.symm.trans hitems.2), d, hd, hreckons.exact,
      hreckons.saturated⟩

theorem read_iff_spells_of_parts :
    read "1m30s" = .ok (.ofSecs 90) ∧ read "2h" = .ok (.ofSecs 7200) ∧
      ∃ d, read "1m30s2h" = .ok d ∧ ∃ items, Spells "1m30s2h".toList items ∧
        (span items < 2 ^ 64 * 10 ^ 9 → d.nanos = 7290 * 10 ^ 9) := by
  have hfirst : read "1m30s" = .ok (.ofSecs 90) := by decide +kernel
  have hsecond : read "2h" = .ok (.ofSecs 7200) := by decide +kernel
  have hbare : Text.Bare "1m30s".toList := by
    constructor <;> rintro c ⟨⟩ <;> decide
  have hbare' : Text.Bare "2h".toList := by
    constructor <;> rintro c ⟨⟩ <;> decide
  exact ⟨hfirst, hsecond, read_iff_spells.2 "1m30s" "2h" _ _ hbare hbare' (by decide) (by decide)
    hfirst hsecond⟩

end GameIngress.Duration
