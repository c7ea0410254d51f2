import GameIngress.Proofs.Template.Segment
import Mathlib.Algebra.Order.Group.Nat
import Mathlib.Data.Nat.Cast.Order.Basic

/-!
# Statements of text and fields
-/
namespace GameIngress.Template
namespace Grammar

variable {α β : Type} {s s' : State} {fuel : Nat} {e : Expr} {t u : Token} {ts : List Token}

theorem bind_run {p : Parse α} {f : α → Parse β} {a : α} (h : p s = .ok (a, s')) :
    (p >>= f) s = f a s' := by
  change Except.bind (p s) _ = _
  rw [h]
  rfl

/-- The state in which these tokens are left. -/
def State.at (s : State) (ts : List Token) : State := { s with rest := ts }

theorem peek_at : peek (s.at (t :: ts)) = .ok (some t, s.at (t :: ts)) := rfl

theorem next_at : next (s.at (t :: ts)) = .ok (some t, s.at ts) := rfl

theorem skip_of_ne (h : t ≠ u) : skip u (s.at (t :: ts)) = .ok (false, s.at (t :: ts)) := by
  have hne : ¬ some t = some u := fun heq => h (Option.some.inj heq)
  rw [skip, bind_run peek_at, if_neg hne]
  rfl

theorem expect_at : expect t (s.at (t :: ts)) = .ok ((), s.at ts) := by
  rw [expect, bind_run next_at]
  dsimp only
  rw [if_pos rfl]
  rfl

section End

theorem operators_end (level : Nat) :
    operators (fuel + 1) level e (s.at (.variableEnd :: ts)) =
      .ok (e, s.at (.variableEnd :: ts)) := by
  have hnone : operatorAt level .variableEnd = none := by simp [operatorAt]
  rw [operators, bind_run peek_at, Option.bind_some, hnone]
  rfl

theorem comparisons_end :
    comparisons (fuel + 1) e (s.at (.variableEnd :: ts)) = .ok (e, s.at (.variableEnd :: ts)) := by
  rw [comparisons, skipWord, bind_run (skip_of_ne (by decide)), if_neg Bool.false_ne_true,
    bind_run peek_at]
  rfl

theorem inlineIfs_end :
    inlineIfs (fuel + 1) e (s.at (.variableEnd :: ts)) = .ok (e, s.at (.variableEnd :: ts)) := by
  rw [inlineIfs, skipWord, bind_run (skip_of_ne (by decide)), if_neg Bool.false_ne_true]
  rfl

theorem accesses_end :
    accesses (fuel + 1) e (s.at (.variableEnd :: ts)) = .ok (e, s.at (.variableEnd :: ts)) := by
  rw [accesses, skipSymbol, bind_run (skip_of_ne (by decide)), if_neg Bool.false_ne_true,
    skipSymbol, bind_run (skip_of_ne (by decide)), if_neg Bool.false_ne_true, bind_run peek_at,
    if_neg (by decide)]
  rfl

theorem filters_end :
    filters (fuel + 1) e (s.at (.variableEnd :: ts)) = .ok (e, s.at (.variableEnd :: ts)) := by
  rw [filters, skipSymbol, bind_run (skip_of_ne (by decide)), if_neg Bool.false_ne_true,
    skipWord, bind_run (skip_of_ne (by decide)), if_neg Bool.false_ne_true]
  rfl

end End

variable (field : Field)

theorem primary_word :
    primary (fuel + 1) (s.at (.name field.word :: ts)) = .ok (.var field.word, s.at ts) := by
  rw [primary, bind_run next_at]
  cases field <;> rfl

theorem nested_of_lt {p : Parse α} {a : α} (hdepth : s.depth < depthLimit)
    (h : p { s with depth := s.depth + 1 } = .ok (a, s')) :
    nested p s = .ok (a, { s' with depth := s.depth }) := by
  have hget : (get : Parse State) s = .ok (s, s) := rfl
  have hset : (set { s with depth := s.depth + 1 } : Parse Unit) s =
      .ok ((), { s with depth := s.depth + 1 }) := rfl
  rw [nested, bind_run hget, if_neg (Nat.not_le.mpr hdepth)]
  change (set { s with depth := s.depth + 1 } >>= fun _ => _ : Parse α) s = _
  rw [bind_run hset, bind_run h]
  rfl

theorem signed_word (hdepth : s.depth < depthLimit) :
    signed (fuel + 2) (s.at (.name field.word :: ts)) = .ok (.var field.word, s.at ts) := by
  rw [signed, skipSymbol, bind_run (skip_of_ne (by simp)), if_neg Bool.false_ne_true]
  let deeper : State := { s with depth := s.depth + 1 }
  have hprimary : primary (fuel + 1) (deeper.at (.name field.word :: ts)) =
      .ok (.var field.word, deeper.at ts) := primary_word field
  exact nested_of_lt (s := s.at (.name field.word :: ts)) hdepth hprimary

theorem unary_word (hdepth : s.depth < depthLimit) :
    unary (fuel + 3) (s.at (.name field.word :: .variableEnd :: ts)) =
      .ok (.var field.word, s.at (.variableEnd :: ts)) := by
  rw [unary, bind_run (signed_word field hdepth), bind_run accesses_end]
  exact filters_end

theorem operand_word (hdepth : s.depth < depthLimit) {level n : Nat} (hlevel : level + n = 8) :
    operand (fuel + n + 4) level (s.at (.name field.word :: .variableEnd :: ts)) =
      .ok (.var field.word, s.at (.variableEnd :: ts)) := by
  induction n generalizing level with
  | zero =>
    obtain rfl : level = 8 := hlevel
    exact unary_word field hdepth
  | succ n ih =>
    have htighter :
        operand (fuel + n + 4) (level + 1) (s.at (.name field.word :: .variableEnd :: ts)) =
          .ok (.var field.word, s.at (.variableEnd :: ts)) := ih (by omega)
    have hlt : ¬ 8 ≤ level := by omega
    change operand (fuel + n + 4 + 1) level _ = _
    rw [operand]
    by_cases hnot : level = 2
    · subst hnot
      have hne : Token.name field.word ≠ .name "not" := by cases field <;> decide
      rw [if_pos rfl, skipWord, bind_run (skip_of_ne hne), if_neg Bool.false_ne_true]
      exact htighter
    rw [if_neg hnot]
    by_cases hcomparison : level = 3
    · subst hcomparison
      rw [if_pos rfl, bind_run htighter]
      exact comparisons_end
    · rw [if_neg hcomparison, if_neg hlt, bind_run htighter]
      exact operators_end level

theorem expr_word (hdepth : s.depth < depthLimit) :
    expr (fuel + 13) (s.at (.name field.word :: .variableEnd :: ts)) =
      .ok (.var field.word, s.at (.variableEnd :: ts)) := by
  have hloosest : operand (fuel + 8 + 4) 0 (s.at (.name field.word :: .variableEnd :: ts)) =
      .ok (.var field.word, s.at (.variableEnd :: ts)) := operand_word field hdepth rfl
  rw [expr, bind_run hloosest]
  exact inlineIfs_end

theorem body_text (stop : List String) (acc : List Stmt) (cs : List Char) :
    body (fuel + 1) stop acc (s.at ((Piece.text cs).tokens ++ ts)) =
      body fuel stop ((Piece.text cs).stmt :: acc) (s.at ts) := by
  rw [body]
  rfl

theorem body_field (hdepth : s.depth < depthLimit) (stop : List String) (acc : List Stmt) :
    body (fuel + 14) stop acc (s.at ((Piece.field field).tokens ++ ts)) =
      body (fuel + 13) stop ((Piece.field field).stmt :: acc) (s.at ts) := by
  rw [body, Piece.tokens, List.cons_append, bind_run next_at]
  dsimp only
  rw [List.cons_append, List.cons_append, List.nil_append, bind_run (expr_word field hdepth),
    bind_run expect_at]
  rfl

/-- The fuel is enough if there are more steps than pieces and those that an expression takes. -/
theorem body_pieces (hdepth : s.depth < depthLimit) (ps : List Piece) (acc : List Stmt) :
    body (fuel + ps.length + 14) [] acc (s.at (ps.flatMap Piece.tokens)) =
      .ok (acc.reverse ++ ps.map Piece.stmt, s.at []) := by
  induction ps generalizing acc with
  | nil =>
    rw [List.map_nil, List.append_nil, body]
    rfl
  | cons p ps ih =>
    have hrest := ih (p.stmt :: acc)
    rw [List.reverse_cons, List.append_assoc] at hrest
    rw [List.flatMap_cons]
    change body (fuel + ps.length + 14 + 1) [] acc _ = _
    cases p with
    | text cs => exact (body_text [] acc cs).trans hrest
    | field fd => exact Eq.trans (body_field fd hdepth [] acc) hrest

end Grammar

theorem length_le_length_tokens (ps : List Piece) :
    ps.length ≤ (ps.flatMap Piece.tokens).length := by
  induction ps with
  | nil => exact Nat.le_refl 0
  | cons p ps ih =>
    have hpiece : 1 ≤ p.tokens.length := by
      cases p <;> simp [Piece.tokens]
    rw [List.flatMap_cons, List.length_append, List.length_cons]
    omega

theorem parse_pieces (ps : List Piece) :
    parse (ps.flatMap Piece.tokens) = .ok (ps.map Piece.stmt) := by
  let tokens := ps.flatMap Piece.tokens
  have hlength : ps.length ≤ tokens.length := length_le_length_tokens ps
  obtain ⟨fuel, hfuel⟩ : ∃ n, 20 * tokens.length + 20 = n + ps.length + 14 :=
    ⟨20 * tokens.length + 6 - ps.length, by omega⟩
  let start : Grammar.State := { rest := [] }
  have hbody : Grammar.body (fuel + ps.length + 14) [] [] (start.at tokens) =
      .ok (ps.map Piece.stmt, start.at []) := Grammar.body_pieces (by decide) ps []
  change Except.map _ (Grammar.body (20 * tokens.length + 20) [] [] _) = _
  rw [hfuel]
  exact congrArg (Except.map _) hbody

end GameIngress.Template
