import GameIngress.Proofs.Template.Grammar
import GameIngress.Proofs.Template.Token

/-!
# Templates that only put fields into text

The text stays as it is, and each reference becomes the value of its field. The value is written
once: whatever it looks like, it is not read as a template again, nor escaped.
-/
namespace GameIngress.Template

variable {f : Fields} {s : Scope} {fuel : Nat}

/-- The frame of the fields is the only one, and nothing is escaped. -/
structure Plain (f : Fields) (s : Scope) : Prop where
  frames : s.frames = [f.frame]
  escape : s.escape = .off

theorem Plain.written_lookup (h : Plain f s) (field : Field) :
    (s.lookup field.word).written = field.value f := by
  rw [Scope.lookup, h.frames]
  cases field <;> rfl

theorem Plain.exec_stmt (h : Plain f s) (p : Piece) :
    exec (fuel + 2) s p.stmt = .ok (s, p.rendered f) := by
  cases p with
  | text cs => rw [Piece.stmt, exec, Piece.rendered]
  | field field =>
    rw [Piece.stmt, exec, eval, Piece.rendered, ← h.written_lookup field, h.escape]
    rfl

theorem foldlM_stmts {step : Scope × String → Stmt → Outcome (Scope × String)}
    (hstep : ∀ out (p : Piece), step (s, out) p.stmt = .ok (s, out ++ p.rendered f))
    (ps : List Piece) (out : String) :
    (ps.map Piece.stmt).foldlM step (s, out) = .ok (s, out ++ joined (Piece.rendered f) ps) := by
  induction ps generalizing out with
  | nil => exact congrArg (fun t => Except.ok (s, t)) String.append_empty.symm
  | cons p ps ih =>
    rw [List.map_cons, List.foldlM_cons, hstep, joined_cons, ← String.append_assoc]
    exact ih (out ++ p.rendered f)

theorem Plain.execAll_stmts (h : Plain f s) (ps : List Piece) :
    execAll (fuel + 3) s (ps.map Piece.stmt) = .ok (s, joined (Piece.rendered f) ps) := by
  rw [execAll, ← String.empty_append (s := joined (Piece.rendered f) ps)]
  refine foldlM_stmts (fun out p => ?_) ps ""
  rw [h.exec_stmt]
  rfl

theorem runProgram_stmts (size : Nat) (f : Fields) (ps : List Piece) :
    runProgram size (ps.map Piece.stmt) f = .ok (joined (Piece.rendered f) ps) := by
  obtain ⟨fuel, hfuel⟩ : ∃ n, 200 * (size + 50) = n + 3 := ⟨200 * (size + 50) - 3, by omega⟩
  have hplain : Plain f { frames := [f.frame], blocks := blocksOf (ps.map Piece.stmt) } :=
    ⟨rfl, rfl⟩
  rw [runProgram, hfuel, hplain.execAll_stmts]
  rfl

/-- A template of text without opening braces and of references to fields is well formed, and it is
rendered to its text with the values in place of the references. It must not end in a line break,
because one at the end of a template is dropped. -/
theorem render_segments (segments : List Segment) (f : Fields)
    (hend : ∀ c ∈ (segments.flatMap Segment.source).getLast?, c ≠ '\n' ∧ c ≠ '\r') :
    render (String.ofList (segments.flatMap Segment.source)) f =
      .ok (String.join (segments.map (Segment.rendered f))) := by
  have hcompile : compile (String.ofList (segments.flatMap Segment.source)) =
      .ok (((pieces [] segments).flatMap Piece.tokens).length,
        (pieces [] segments).map Piece.stmt) := by
    rw [compile, String.toList_ofList, dropFieldDots_source, ofSource_code segments hend]
    change Except.bind (parse _) _ = _
    rw [parse_pieces]
    rfl
  have hrun :=
    runProgram_stmts ((pieces [] segments).flatMap Piece.tokens).length f (pieces [] segments)
  have htext := joined_pieces f [] segments
  rw [String.ofList_nil, String.empty_append] at htext
  rw [render, hcompile, Except.map]
  simp only [hrun, htext]
  rfl

/-- A name that looks like a template is not expanded, nor is its markup escaped. -/
theorem render_segments_of_braces :
    let segments : List Segment :=
      [.literal ['/'] (by decide), .reference .name [] [] (by simp) (by simp),
        .literal [':', '}', '}'] (by decide),
        .reference .port [' '] [' '] (by simp [Token.isCodeBlank]) (by simp [Token.isCodeBlank])]
    let closing := String.ofList ['}', '}']
    let f : Fields := ⟨Text.braced (Text.braced ".Port") ++ "<b>", -7⟩
    String.ofList (segments.flatMap Segment.source) =
        "/" ++ Text.braced (Text.braced ".Name") ++ ":" ++ closing ++
          Text.braced (Text.braced " .Port ") ∧
      render (String.ofList (segments.flatMap Segment.source)) f =
        .ok (String.join (segments.map (Segment.rendered f))) ∧
      String.join (segments.map (Segment.rendered f)) =
        "/" ++ Text.braced (Text.braced ".Port") ++ "<b>:" ++ closing ++ "-7" := by
  intro segments closing f
  refine ⟨rfl, render_segments segments f ?_, by decide +kernel⟩
  rintro c ⟨⟩
  decide

end GameIngress.Template
