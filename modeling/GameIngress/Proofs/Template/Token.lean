import GameIngress.Proofs.Template.Segment
import GameIngress.Proofs.Text.Cut

/-!
# Tokens of text and fields
-/
namespace GameIngress.Template

open Token

variable {lead rest : List Char} {e : Edge} {fuel : Nat}

theorem splitAtMarker_of_plain (h : '{' ∉ lead) : splitAtMarker lead = (lead, none) := by
  induction lead with
  | nil => rfl
  | cons c lead ih =>
    obtain ⟨hc, hlead⟩ := not_or.mp (List.mem_cons.not.mp h)
    cases lead with
    | nil => rfl
    | cons d lead =>
      simp [splitAtMarker, Ne.symm hc, ih hlead]

theorem splitAtMarker_append_variable (h : '{' ∉ lead) :
    splitAtMarker (lead ++ '{' :: '{' :: rest) = (lead, some (.variable, rest)) := by
  induction lead with
  | nil => rfl
  | cons c lead ih =>
    obtain ⟨hc, hlead⟩ := not_or.mp (List.mem_cons.not.mp h)
    have hstep := ih hlead
    cases lead with
    | nil => simp [splitAtMarker, Ne.symm hc]
    | cons d lead =>
      rw [List.cons_append] at hstep
      simp [splitAtMarker, Ne.symm hc, hstep]

theorem emitRaw_append (lead : List Char) (ts : List Token) :
    emitRaw lead (.ok ts) = .ok ((piecesOfText lead).flatMap Piece.tokens ++ ts) := by
  cases lead <;> rfl

theorem Field.inName_word (field : Field) : ∀ c ∈ field.word.toList, inName c = true := by
  cases field <;> simp [word, inName]

theorem next_word (field : Field) (hrest : ∀ c ∈ rest.head?, inName c = false) :
    next (field.word.toList ++ rest) = .ok (.name field.word, rest) := by
  have htake := Text.takeWhile_append_of_stop field.inName_word hrest
  have hdrop := Text.dropWhile_append_of_stop field.inName_word hrest
  have hnext : next (field.word.toList ++ rest) =
      .ok (.name (String.ofList ((field.word.toList ++ rest).takeWhile inName)),
        (field.word.toList ++ rest).dropWhile inName) := by
    cases field <;> rfl
  rw [hnext, htake, hdrop, String.ofList_toList]

theorem ofCode_word {m : Marker} {blanks : List Char} (field : Field)
    (hblanks : ∀ c ∈ blanks, isCodeBlank c = true) (hrest : ∀ c ∈ rest.head?, inName c = false) :
    ofCode (fuel + 1) m (blanks ++ (field.word.toList ++ rest)) =
      emit (.name field.word) (ofCode fuel m rest) := by
  have hnext := next_word field hrest
  obtain ⟨c, cs, hword, -⟩ := field.exists_word_eq
  have hstart : isCodeBlank c = false ∧ ∀ rest, codeEnd m (c :: rest) = none := by
    cases field <;> cases hword <;> exact ⟨by decide, fun _ => rfl⟩
  rw [hword, List.cons_append] at hnext ⊢
  rw [ofCode, List.dropWhile_append_of_pos hblanks,
    List.dropWhile_cons_of_neg (by simp [hstart.1])]
  simp only [hstart.2, hnext]

theorem ofCode_end {blanks : List Char} (hblanks : ∀ c ∈ blanks, isCodeBlank c = true) :
    ofCode (fuel + 1) .variable (blanks ++ '}' :: '}' :: rest) =
      emit .variableEnd (ofText fuel .keep rest) := by
  rw [ofCode, List.dropWhile_append_of_pos hblanks, List.dropWhile_cons_of_neg (by decide)]
  simp only [codeEnd, if_pos]

theorem edge_of_ne {c : Char} (hstrip : c ≠ '-') (hkeep : c ≠ '+') :
    edge (c :: rest) = (.keep, c :: rest) := by
  unfold edge
  split
  · next heq => exact absurd (List.cons.inj heq).1 hstrip
  · next heq => exact absurd (List.cons.inj heq).1 hkeep
  · rfl

theorem edge_word {blanks : List Char} (field : Field)
    (hblanks : ∀ c ∈ blanks, isCodeBlank c = true) :
    edge (blanks ++ (field.word.toList ++ rest)) =
      (.keep, blanks ++ (field.word.toList ++ rest)) := by
  cases blanks with
  | nil => cases field <;> rfl
  | cons c blanks =>
    have hc := hblanks c List.mem_cons_self
    refine edge_of_ne ?_ ?_ <;> rintro rfl <;> exact absurd hc (by decide)

theorem inName_blanks_append {blanks : List Char} (hblanks : ∀ c ∈ blanks, isCodeBlank c = true) :
    ∀ c ∈ (blanks ++ '}' :: rest).head?, inName c = false := by
  cases blanks with
  | nil =>
    rintro c ⟨⟩
    decide
  | cons b blanks =>
    rintro c ⟨⟩
    have hb := hblanks b List.mem_cons_self
    simp only [isCodeBlank, Bool.or_eq_true, decide_eq_true_eq] at hb
    rcases hb with (((rfl | rfl) | rfl) | rfl) | rfl <;> decide

theorem ofText_braced {before after : List Char} (field : Field) (hlead : '{' ∉ lead)
    (hbefore : ∀ c ∈ before, isCodeBlank c = true) (hafter : ∀ c ∈ after, isCodeBlank c = true) :
    ofText (fuel + 3) .keep (lead ++ (Segment.braced [] field before after ++ rest)) =
      emitRaw lead (emit .variableStart (emit (.name field.word)
        (emit .variableEnd (ofText fuel .keep rest)))) := by
  have hcode : lead ++ (Segment.braced [] field before after ++ rest) =
      lead ++ '{' :: '{' :: (before ++ (field.word.toList ++ (after ++ '}' :: '}' :: rest))) := by
    simp [Segment.braced]
  have hkeep : ¬ Edge.keep = Edge.strip := by decide
  rw [hcode, ofText]
  simp only [if_neg hkeep, splitAtMarker_append_variable hlead, edge_word field hbefore]
  rw [ofCode_word field hbefore (inName_blanks_append hafter), ofCode_end hafter]

/-- By induction on the segments, with the text that is waiting to become a piece. The fuel is
enough because a reference has more characters than tokens. -/
theorem ofText_code (segments : List Segment) (hlead : '{' ∉ lead)
    (hfuel : (lead ++ segments.flatMap Segment.code).length < fuel) :
    ofText fuel .keep (lead ++ segments.flatMap Segment.code) =
      .ok ((pieces lead segments).flatMap Piece.tokens) := by
  induction segments generalizing lead fuel with
  | nil =>
    obtain ⟨fuel, rfl⟩ := Nat.exists_eq_succ_of_ne_zero (Nat.ne_zero_of_lt hfuel)
    have hkeep : ¬ Edge.keep = Edge.strip := by decide
    rw [List.flatMap_nil, List.append_nil, ofText]
    simp only [if_neg hkeep, splitAtMarker_of_plain hlead]
    rw [emitRaw_append, List.append_nil, pieces]
  | cons s segments ih =>
    cases s with
    | literal text plain =>
      rw [List.flatMap_cons, Segment.code, ← List.append_assoc] at hfuel ⊢
      exact ih (by simp [hlead, plain]) hfuel
    | reference field before after hbefore hafter =>
      rw [List.flatMap_cons, Segment.code] at hfuel ⊢
      have hlong : 3 ≤ (Segment.braced [] field before after).length := by
        simp only [Segment.braced, List.length_append, List.length_cons]
        omega
      obtain ⟨fuel, rfl⟩ : ∃ n, fuel = n + 3 := ⟨fuel - 3, by simp at hfuel; omega⟩
      have hrest : ([] ++ segments.flatMap Segment.code).length < fuel := by
        rw [List.nil_append]
        simp only [List.length_append] at hfuel
        omega
      rw [ofText_braced field hlead hbefore hafter, ← List.nil_append (segments.flatMap _),
        ih List.not_mem_nil hrest, pieces, List.flatMap_append]
      exact emitRaw_append lead _

theorem ofSource_code (segments : List Segment)
    (hend : ∀ c ∈ (segments.flatMap Segment.source).getLast?, c ≠ '\n' ∧ c ≠ '\r') :
    ofSource (segments.flatMap Segment.code) = .ok ((pieces [] segments).flatMap Piece.tokens) := by
  have hkept : dropLastBreak (segments.flatMap Segment.code) = segments.flatMap Segment.code := by
    have hbreak : (segments.flatMap Segment.code).getLast? ≠ some '\n' := fun h =>
      (hend _ (getLast?_code segments ▸ h)).1 rfl
    have hreturn : (segments.flatMap Segment.code).getLast? ≠ some '\r' := fun h =>
      (hend _ (getLast?_code segments ▸ h)).2 rfl
    simp only [dropLastBreak, if_neg hbreak, if_neg hreturn]
  rw [ofSource, hkept]
  exact ofText_code segments List.not_mem_nil (Nat.lt_succ_self _)

end GameIngress.Template
