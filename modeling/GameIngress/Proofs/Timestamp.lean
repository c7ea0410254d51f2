import GameIngress.Proofs.Text.Cut
import GameIngress.Timestamp
import Mathlib.Algebra.Order.Ring.Nat

/-!
# Timestamps that were read are read again

Each number of days has one date, and that date exists. So an instant that was read is written as a
date and a time that exist, and these are read as the same instant.
-/
namespace GameIngress.Timestamp

section Dates
variable {e d : Int}

/-- A day that is given by its century `q`, the four years `p` of it and its place `s` in these. -/
theorem yearOfDay_of_parts {q p s : Int} (he : e = 36524 * q + (1461 * p + s))
    (hq : 0 ≤ q ∧ q ≤ 3) (hp : 0 ≤ p) (hs : 0 ≤ s ∧ s < 1461) (hcentury : 1461 * p + s < 36524)
    (hlast : e < 146096) :
    ∃ u, yearOfDay e = 100 * q + 4 * p + u ∧ 0 ≤ u ∧ u ≤ 3 ∧ 365 * u ≤ s ∧
      (s < 365 * u + 365 ∨ u = 3) := by
  obtain ⟨w, hw⟩ : ∃ w, w = (24 * q + p + s) / 1460 := ⟨_, rfl⟩
  have hahead : w = 0 ∧ s < 1460 ∨ w = 1 ∧ 1364 ≤ s := by omega
  have hquad : e / 1460 = 25 * q + p + w := by omega
  have hcentury : e / 36524 = q := by omega
  have hera : e / 146096 = 0 := by omega
  refine ⟨(s - w) / 365, ?_, ?_⟩
  · rw [yearOfDay, hquad, hcentury, hera]
    omega
  · clear hw hquad hcentury hera
    omega

/-- The year of a day is the one in which it lies, and only leap years have a 366th day. -/
theorem yearOfDay_spec (h : 0 ≤ e ∧ e < 146097) :
    ∃ y d, yearOfDay e = y ∧ e = daysBeforeYear y + d ∧ 0 ≤ y ∧ y < 400 ∧ 0 ≤ d ∧ d ≤ 365 ∧
      (d = 365 → isLeapYear (y + 1) = true) := by
  by_cases hlast : e = 146096
  · subst hlast
    exact ⟨399, 365, by decide⟩
  obtain ⟨q, r, he, hr⟩ : ∃ q r, e = 36524 * q + r ∧ 0 ≤ r ∧ r < 36524 :=
    ⟨e / 36524, e % 36524, by omega⟩
  obtain ⟨p, s, rfl, hs⟩ : ∃ p s, r = 1461 * p + s ∧ 0 ≤ s ∧ s < 1461 :=
    ⟨r / 1461, r % 1461, by omega⟩
  have hq : 0 ≤ q ∧ q ≤ 3 := by omega
  have hp : 0 ≤ p ∧ p ≤ 24 := by omega
  obtain ⟨u, hyear, hu⟩ := yearOfDay_of_parts he hq hp.1 hs hr.2 (by omega)
  have hbefore : daysBeforeYear (100 * q + 4 * p + u) = 36524 * q + 1461 * p + 365 * u := by
    rw [daysBeforeYear]
    omega
  refine ⟨_, s - 365 * u, hyear, by omega, by omega, by omega, by omega, by omega, fun hlong => ?_⟩
  have hu3 : u = 3 := by omega
  simp only [isLeapYear, Bool.and_eq_true, Bool.or_eq_true, decide_eq_true_eq]
  omega

/-- The month of a day is the one in which it lies. The last month is cut off by the year. -/
theorem monthOfDay_spec (h : 0 ≤ d ∧ d ≤ 365) :
    ∃ m n, monthOfDay d = m ∧ d = daysBeforeMonth m + n ∧ 0 ≤ m ∧ m ≤ 11 ∧ 0 ≤ n ∧ n < 31 ∧
      (m = 1 ∨ m = 3 ∨ m = 6 ∨ m = 8 → n < 30) ∧ (m = 11 → n < 28 ∨ n = 28 ∧ d = 365) := by
  refine ⟨_, d - daysBeforeMonth (monthOfDay d), rfl, by omega, ?_⟩
  simp only [monthOfDay, daysBeforeMonth]
  omega

theorem dateOfDays_spec (days : Int) :
    ∃ year month day, dateOfDays days = (year, month, day) ∧ 1 ≤ month ∧ month ≤ 12 ∧ 1 ≤ day ∧
      day ≤ daysInMonth year month ∧ daysOfDate year month day = days := by
  obtain ⟨era, hera⟩ : ∃ era, (days + 719468) / 146097 = era := ⟨_, rfl⟩
  obtain ⟨e, he⟩ : ∃ e, (days + 719468) % 146097 = e := ⟨_, rfl⟩
  obtain ⟨y, d, hy, hd, hy0, hy400, hd0, hd365, hleap⟩ := yearOfDay_spec (e := e) (by omega)
  obtain ⟨m, n, hm, hn, hm0, hm11, hn0, hn31, hshort, hlast⟩ := monthOfDay_spec ⟨hd0, hd365⟩
  have hdate : dateOfDays days =
      if m < 10 then (y + era * 400, m + 3, n + 1) else (y + era * 400 + 1, m - 9, n + 1) := by
    have hd' : e - daysBeforeYear y = d := by omega
    have hn' : d - daysBeforeMonth m = n := by omega
    simp only [dateOfDays, hera, he, hy, hd', hm, hn']
  have hera' : (y + era * 400) / 400 = era := by omega
  have hy' : (y + era * 400) % 400 = y := by omega
  by_cases hmonth : m < 10
  · refine ⟨_, _, _, hdate.trans (if_pos hmonth), by omega, by omega, by omega, ?_, ?_⟩
    · simp only [daysInMonth]
      split_ifs <;> omega
    · rw [daysOfDate, if_pos (by omega), if_pos (by omega), hera', hy', Int.add_sub_cancel]
      omega
  · refine ⟨_, _, _, hdate.trans (if_neg hmonth), by omega, by omega, by omega, ?_, ?_⟩
    · have hleap' : d = 365 → isLeapYear (y + era * 400 + 1) = true := by
        intro hlong
        have h := hleap hlong
        simp only [isLeapYear, Bool.and_eq_true, Bool.or_eq_true, decide_eq_true_eq] at h ⊢
        omega
      simp only [daysInMonth]
      split_ifs with hfebruary hlong
      · omega
      · have hshorter : d ≠ 365 := fun h => hlong (hleap' h)
        omega
      · omega
      · omega
    · rw [daysOfDate, if_neg (by omega), if_neg (by omega), Int.add_sub_cancel, hera', hy',
        Int.sub_add_cancel]
      omega

end Dates

/-- An instant of a year that there is. An inserted second is the last one of its minute. -/
structure Proper (t : Timestamp) : Prop where
  year : hasYear (dateOfDays (t.seconds / 86400)).1 = true
  inserted : t.inserted = true → t.seconds % 60 = 59

theorem Parts.proper_of_instant? {p : Parts} {t : Timestamp} (h : p.instant? = some t)
    (hshift : p.shift % 60 = 0) : t.Proper := by
  unfold instant? at h
  simp only [Option.ite_none_left_eq_some, Bool.or_eq_true, Bool.not_eq_true', not_or,
    Bool.not_eq_false] at h
  obtain ⟨-, -, ⟨-, hyear⟩, heq⟩ := h
  cases heq
  refine ⟨hyear, fun hinserted => ?_⟩
  have hsecond : p.second = 60 := of_decide_eq_true hinserted
  simp only [hsecond]
  omega

theorem Parts.two_digits_of_instant? {p : Parts} {t : Timestamp} (h : p.instant? = some t) :
    p.month < 100 ∧ p.day < 100 ∧ p.hour < 100 ∧ p.minute < 100 ∧ p.second < 100 := by
  have hlength : daysInMonth p.year p.month ≤ 31 := by
    unfold daysInMonth
    split_ifs <;> decide
  unfold instant? at h
  simp only [Option.ite_none_left_eq_some] at h
  obtain ⟨hdate, htime, -⟩ := h
  omega

theorem Proper.instant?_parts {t : Timestamp} (h : t.Proper) : t.parts.instant? = some t := by
  obtain ⟨seconds, inserted⟩ := t
  obtain ⟨hyear, hinserted⟩ := h
  obtain ⟨year, month, day, hdate, hmonth1, hmonth12, hday1, hlength, hdays⟩ :=
    dateOfDays_spec (seconds / 86400)
  obtain ⟨month, rfl⟩ := Int.eq_ofNat_of_zero_le (by omega : 0 ≤ month)
  obtain ⟨day, rfl⟩ := Int.eq_ofNat_of_zero_le (by omega : 0 ≤ day)
  obtain ⟨rest, hrest⟩ := Int.eq_ofNat_of_zero_le (by omega : 0 ≤ seconds % 86400)
  obtain ⟨second, hsecond⟩ : ∃ n, n = rest % 60 + (if inserted then 1 else 0) := ⟨_, rfl⟩
  have hparts : parts ⟨seconds, inserted⟩ =
      { year, month, day, hour := rest / 3600, minute := rest / 60 % 60, second } := by
    simp only [parts, hdate, hrest, Int.toNat_natCast, hsecond]
  have hmarked : min second 59 = rest % 60 ∧ second ≤ 60 ∧ decide (second = 60) = inserted := by
    cases inserted with
    | false =>
      rw [if_neg Bool.false_ne_true] at hsecond
      exact ⟨by omega, by omega, decide_eq_false (by omega)⟩
    | true =>
      have hlast : seconds % 60 = 59 := hinserted rfl
      rw [if_pos rfl] at hsecond
      exact ⟨by omega, by omega, decide_eq_true (by omega)⟩
  obtain ⟨hmin, hle, hmark⟩ := hmarked
  have hseconds : daysOfDate year month day * 86400 +
      ((rest / 3600 * 3600 + rest / 60 % 60 * 60 + min second 59 : Nat) : Int) - 0 = seconds := by
    rw [hmin, hdays]
    omega
  have hhas : hasYear year = true := by
    rw [hdate] at hyear
    exact hyear
  rw [hparts, Parts.instant?]
  simp only [hseconds, hyear, hhas, hmark]
  rw [if_neg (by omega), if_neg (by omega), if_neg (by decide)]

section Digits
variable {width n : Nat} {ds r : List Char}

theorem padded_toList (width n : Nat) :
    (padded width n).toList =
      List.replicate (width - (Nat.toDigits 10 n).length) '0' ++ Nat.toDigits 10 n := by
  simp only [padded, Nat.toString_eq_ofList_toDigits, String.toList_ofList]

theorem isDigit_padded : ∀ c ∈ (padded width n).toList, c.isDigit = true := by
  intro c hc
  rw [padded_toList, List.mem_append] at hc
  rcases hc with hc | hc
  · rw [List.eq_of_mem_replicate hc]
    decide
  · exact Nat.isDigit_of_mem_toDigits (by decide) (by decide) hc

theorem padded_ne_nil : (padded width n).toList ≠ [] := by
  rw [padded_toList]
  exact List.append_ne_nil_of_right_ne_nil _ Nat.toDigits_ne_nil

theorem length_padded (hwidth : 0 < width) (h : n < 10 ^ width) :
    (padded width n).toList.length = width := by
  have hdigits := (Nat.length_toDigits_le_iff (by decide) hwidth).mpr h
  rw [padded_toList, List.length_append, List.length_replicate]
  omega

theorem digitsValue_padded (width n : Nat) : digitsValue (padded width n).toList = n := by
  rw [padded_toList]
  change Nat.ofDigitChars 10 _ 0 = n
  rw [Nat.ofDigitChars_append, Nat.ofDigitChars_replicate_zero, Nat.mul_zero,
    Nat.ofDigitChars_ten_toDigits]

theorem number_append (hds : ∀ c ∈ ds, c.isDigit = true) (hne : ds ≠ [])
    (hend : ds.length = width ∨ ds.length ≤ width ∧ ∀ c ∈ r.head?, c.isDigit = false) :
    number width (ds ++ r) = some (digitsValue ds, r) := by
  have htake : (ds ++ r).take width = ds ++ r.take (width - ds.length) := by
    rw [List.take_append, List.take_of_length_le (by omega)]
  have hstop : ∀ c ∈ (r.take (width - ds.length)).head?, c.isDigit = false := by
    rcases hend with hfull | ⟨-, hstop⟩
    · rw [hfull, Nat.sub_self, List.take_zero]
      nofun
    · rw [List.head?_take]
      split
      · nofun
      · exact hstop
  rw [number]
  simp only [htake, Text.takeWhile_append_of_stop hds hstop, List.drop_left]
  rw [if_neg (by simpa using hne)]

theorem number_padded (hwidth : 0 < width) (h : n < 10 ^ width) :
    number width ((padded width n).toList ++ r) = some (n, r) := by
  rw [number_append isDigit_padded padded_ne_nil (.inl (length_padded hwidth h)),
    digitsValue_padded]

theorem exists_padded_eq (width n : Nat) :
    ∃ c cs, (padded width n).toList = c :: cs ∧ c.isDigit = true := by
  have hne : (padded width n).toList ≠ [] := padded_ne_nil
  obtain ⟨c, cs, hcs⟩ := List.exists_cons_of_ne_nil hne
  exact ⟨c, cs, hcs, isDigit_padded c (hcs ▸ List.mem_cons_self)⟩

theorem isBlank_of_isDigit {c : Char} (h : c.isDigit = true) : Text.isBlank c = false := by
  have hrange : 48 ≤ c.toNat ∧ c.toNat ≤ 57 := by
    rw [Char.isDigit, Bool.and_eq_true, decide_eq_true_eq, decide_eq_true_eq] at h
    exact h
  simp only [Text.isBlank, Bool.or_eq_false_iff, Bool.and_eq_false_iff, decide_eq_false_iff_not,
    beq_eq_false_iff_ne]
  omega

theorem trimStart_cons {c : Char} (h : Text.isBlank c = false) (r : List Char) :
    Text.trimStart (c :: r) = c :: r :=
  List.dropWhile_cons_of_neg (by simp [h])

theorem trimStart_padded (r : List Char) :
    Text.trimStart ((padded width n).toList ++ r) = (padded width n).toList ++ r := by
  obtain ⟨c, cs, hcs, hc⟩ := exists_padded_eq width n
  rw [hcs, List.cons_append, trimStart_cons (isBlank_of_isDigit hc)]

theorem twoDigits_padded (h : n < 100) :
    twoDigits ((padded 2 n).toList ++ r) = some (n, r) := by
  rw [twoDigits, trimStart_padded, number_padded (by decide) h]

theorem literal_cons {c : Char} (h : Text.isBlank c = false) (r : List Char) :
    literal c (c :: r) = some r := by
  rw [literal, trimStart_cons h]
  exact if_pos rfl

/-- A sign before the year says that there are more than four digits, or that it is negative. -/
theorem signedYear_yearText (year : Int) (hr : ∀ c ∈ r.head?, c.isDigit = false) :
    signedYear (Text.trimStart ((yearText year).toList ++ r)) = some (year, r) := by
  have hsigned (n : Nat) : number ((padded 4 n).toList ++ r).length ((padded 4 n).toList ++ r) =
      some (n, r) := by
    rw [number_append isDigit_padded padded_ne_nil (.inr ⟨by simp, hr⟩), digitsValue_padded]
  rw [yearText]
  by_cases hplain : 0 ≤ year ∧ year ≤ 9999
  · obtain ⟨c, cs, hcs, hc⟩ := exists_padded_eq 4 year.toNat
    have hnumber : number 4 ((padded 4 year.toNat).toList ++ r) = some (year.toNat, r) :=
      number_padded (by decide) (by omega)
    rw [if_pos hplain, trimStart_padded]
    rw [hcs, List.cons_append] at hnumber ⊢
    unfold signedYear
    split
    · next heq =>
      cases heq
      cases hc
    · next heq =>
      cases heq
      cases hc
    · rw [hnumber, Option.map_some]
      exact congrArg (fun y => some (y, r)) (Int.toNat_of_nonneg hplain.1)
  · rw [if_neg hplain]
    by_cases hneg : year < 0
    · have hminus : "-".toList = ['-'] := rfl
      have hyear : -(year.natAbs : Int) = year := by omega
      rw [if_pos hneg, String.toList_append, hminus, List.append_assoc, List.singleton_append,
        trimStart_cons (by decide), signedYear, hsigned, Option.map_some]
      exact congrArg (fun y => some (y, r)) hyear
    · have hplus : "+".toList = ['+'] := rfl
      have hyear : (year.natAbs : Int) = year := by omega
      rw [if_neg hneg, String.toList_append, hplus, List.append_assoc, List.singleton_append,
        trimStart_cons (by decide), signedYear, hsigned, Option.map_some]
      exact congrArg (fun y => some (y, r)) hyear

theorem date?_append {month day : Nat} (year : Int) (hmonth : month < 100) (hday : day < 100) :
    date? ((yearText year).toList ++ ('-' :: ((padded 2 month).toList ++
      ('-' :: ((padded 2 day).toList ++ r))))) = some ((year, month, day), r) := by
  rw [date?, signedYear_yearText year (by rintro c ⟨⟩; decide)]
  simp only [bind, Option.bind_some, literal_cons (c := '-') (by decide), twoDigits_padded hmonth,
    twoDigits_padded hday]

theorem time?_append {hour minute second : Nat} (hhour : hour < 100) (hminute : minute < 100)
    (hsecond : second < 100) (hr : fraction r = some r) :
    time? ((padded 2 hour).toList ++ (':' :: ((padded 2 minute).toList ++
      (':' :: ((padded 2 second).toList ++ r))))) = some ((hour, minute, second), r) := by
  rw [time?, twoDigits_padded hhour]
  simp only [bind, Option.bind_some, literal_cons (c := ':') (by decide), twoDigits_padded hminute,
    twoDigits_padded hsecond, hr]

end Digits

theorem Parts.parts?_text {p : Parts} (hmonth : p.month < 100) (hday : p.day < 100)
    (hhour : p.hour < 100) (hminute : p.minute < 100) (hsecond : p.second < 100)
    (hshift : p.shift = 0) : parts? p.text = some p := by
  have htext : p.text.toList = (yearText p.year).toList ++ ('-' :: ((padded 2 p.month).toList ++
      ('-' :: ((padded 2 p.day).toList ++ ('T' :: ((padded 2 p.hour).toList ++
      (':' :: ((padded 2 p.minute).toList ++ (':' :: ((padded 2 p.second).toList ++
        ['Z'])))))))))) := by
    have hdash : "-".toList = ['-'] := rfl
    have hcolon : ":".toList = [':'] := rfl
    have htime : "T".toList = ['T'] := rfl
    have hzulu : "Z".toList = ['Z'] := rfl
    simp only [text, String.toList_append, List.append_assoc, hdash, hcolon, htime, hzulu,
      List.cons_append, List.nil_append]
  have hmark (r : List Char) : timeMark ('T' :: r) = some r := rfl
  have hfraction : fraction ['Z'] = some ['Z'] := rfl
  have hzulu : Text.trimStart ['Z'] = ['Z'] := trimStart_cons (by decide) []
  have hoffset : offset ['Z'] = some (0, []) := rfl
  rw [parts?, htext, date?_append p.year hmonth hday]
  simp only [bind, Option.bind_some, hmark, time?_append hhour hminute hsecond hfraction, hzulu,
    hoffset]
  cases p
  cases hshift
  rfl

theorem offset_signed_mod {cs r : List Char} {shift : Int}
    (h : offset.signed cs = some (shift, r)) :
    shift % 60 = 0 := by
  unfold offset.signed at h
  split at h
  · split at h
    · split at h
      · simp only [Option.ite_none_right_eq_some] at h
        obtain ⟨-, -, heq⟩ := h
        cases heq
        split <;> omega
      · cases h
    · cases h
  · cases h

theorem offset_mod {cs r : List Char} {shift : Int} (h : offset cs = some (shift, r)) :
    shift % 60 = 0 := by
  unfold offset at h
  split at h
  · cases h
    rfl
  · cases h
    rfl
  · split at h
    · cases h
      rfl
    · exact offset_signed_mod h
  · exact offset_signed_mod h

theorem Parts.shift_mod {s : String} {p : Parts} (h : parts? s = some p) : p.shift % 60 = 0 := by
  unfold parts? at h
  simp only [bind, Option.bind_eq_some_iff, Option.ite_none_right_eq_some] at h
  obtain ⟨_, -, _, -, _, -, ⟨shift, r⟩, hoffset, -, heq⟩ := h
  cases heq
  exact offset_mod hoffset

theorem proper_of_read? {s : String} {t : Timestamp} (h : read? s = some t) : t.Proper := by
  obtain ⟨p, hp, ht⟩ := Option.bind_eq_some_iff.mp h
  exact p.proper_of_instant? ht (Parts.shift_mod hp)

theorem Proper.read?_render {t : Timestamp} (h : t.Proper) : read? t.render = some t := by
  have hinstant := h.instant?_parts
  obtain ⟨hmonth, hday, hhour, hminute, hsecond⟩ := Parts.two_digits_of_instant? hinstant
  rw [read?, render, Parts.parts?_text hmonth hday hhour hminute hsecond rfl]
  exact hinstant

end GameIngress.Timestamp
