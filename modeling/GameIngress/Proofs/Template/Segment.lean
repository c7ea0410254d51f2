import GameIngress.Proofs.Template.FieldDot
import GameIngress.Template.Render

/-!
# Templates of text and fields

A template may be put together from text without opening braces and from references to its fields,
each in double braces of its own.
-/
namespace GameIngress.Template

inductive Field where
  | name
  | port
  deriving DecidableEq

namespace Field

def word : Field → String
  | name => "Name"
  | port => "Port"

/-- The name as it is, or the port in decimal. -/
def value (f : Fields) : Field → String
  | name => f.name
  | port => toString f.port.toInt

end Field

inductive Segment where
  | literal (text : List Char) (plain : '{' ∉ text)
  | reference (field : Field) (before after : List Char)
      (before_blank : ∀ c ∈ before, Token.isCodeBlank c = true)
      (after_blank : ∀ c ∈ after, Token.isCodeBlank c = true)

namespace Segment

/-- A reference between its braces, with `dot` in front of the word. -/
def braced (dot : List Char) (field : Field) (before after : List Char) : List Char :=
  '{' :: '{' :: (before ++ dot ++ field.word.toList ++ after) ++ ['}', '}']

def source : Segment → List Char
  | literal text _ => text
  | reference field before after _ _ => braced ['.'] field before after

def code : Segment → List Char
  | literal text _ => text
  | reference field before after _ _ => braced [] field before after

def rendered (f : Fields) : Segment → String
  | literal text _ => String.ofList text
  | reference field _ _ _ _ => field.value f

end Segment

variable {c : Char} {rest : List Char}

theorem isBlank_of_isCodeBlank (h : Token.isCodeBlank c = true) : Text.isBlank c = true := by
  simp only [Token.isCodeBlank, Bool.or_eq_true, decide_eq_true_eq] at h
  rcases h with (((rfl | rfl) | rfl) | rfl) | rfl <;> decide

theorem ne_of_isCodeBlank (h : Token.isCodeBlank c = true) : c ≠ '}' ∧ c ≠ '.' := by
  constructor <;> rintro rfl <;> exact absurd h (by decide)

theorem Field.plain_word (field : Field) : ∀ c ∈ field.word.toList, c ≠ '}' ∧ c ≠ '.' := by
  cases field <;> simp [word]

theorem Field.exists_word_eq (field : Field) :
    ∃ c cs, field.word.toList = c :: cs ∧ startsField c = true := by
  cases field <;> exact ⟨_, _, rfl, by decide⟩

theorem isFieldBoundary_before {before : List Char}
    (h : ∀ c ∈ before, Token.isCodeBlank c = true) :
    (before.getLast?.or (some '{')).any isFieldBoundary = true := by
  cases hlast : before.getLast? with
  | none => decide
  | some c =>
    have hblank := isBlank_of_isCodeBlank (h c (List.mem_of_getLast? hlast))
    simp [isFieldBoundary, hblank]

theorem dropFieldDotsFrom_source (s : Segment) (rest : List Char) :
    dropFieldDotsFrom false none (s.source ++ rest) =
      s.code ++ dropFieldDotsFrom false none rest := by
  cases s with
  | literal text plain => exact dropFieldDotsFrom_outside_append plain
  | reference field before after hbefore hafter =>
    obtain ⟨c, cs, hword, hstart⟩ := field.exists_word_eq
    have hinner : ∀ d ∈ c :: cs ++ after, d ≠ '}' ∧ d ≠ '.' := by
      rw [← hword]
      intro d hd
      rcases List.mem_append.mp hd with hd | hd
      · exact field.plain_word d hd
      · exact ne_of_isCodeBlank (hafter d hd)
    calc dropFieldDotsFrom false none ((Segment.reference field before after _ _).source ++ rest)
        = dropFieldDotsFrom false none
            ('{' :: '{' :: (before ++ '.' :: (c :: cs ++ after ++ '}' :: '}' :: rest))) := by
          simp [Segment.source, Segment.braced, hword]
      _ = '{' :: '{' :: (before ++
            dropFieldDotsFrom true (some '.') (c :: cs ++ after ++ '}' :: '}' :: rest)) := by
          rw [dropFieldDotsFrom_open,
            dropFieldDotsFrom_inside_append fun d hd => ne_of_isCodeBlank (hbefore d hd),
            List.cons_append, List.cons_append,
            dropFieldDotsFrom_dot (isFieldBoundary_before hbefore) hstart]
      _ = '{' :: '{' :: (before ++ (c :: cs ++ after ++ '}' :: '}' ::
            dropFieldDotsFrom false none rest)) := by
          rw [dropFieldDotsFrom_inside_append hinner, dropFieldDotsFrom_close,
            dropFieldDotsFrom_false_congr none]
      _ = _ := by simp [Segment.code, Segment.braced, hword]

theorem dropFieldDots_source (segments : List Segment) :
    dropFieldDots (segments.flatMap Segment.source) = segments.flatMap Segment.code := by
  induction segments with
  | nil => rfl
  | cons s segments ih =>
    rw [List.flatMap_cons, dropFieldDots, dropFieldDotsFrom_source, ← dropFieldDots, ih,
      List.flatMap_cons]

theorem Segment.getLast?_code (s : Segment) : s.code.getLast? = s.source.getLast? := by
  cases s with
  | literal text plain => rfl
  | reference field before after hbefore hafter =>
    rw [code, source, braced, braced, List.getLast?_append, List.getLast?_append]
    rfl

theorem getLast?_code (segments : List Segment) :
    (segments.flatMap Segment.code).getLast? = (segments.flatMap Segment.source).getLast? := by
  induction segments with
  | nil => rfl
  | cons s segments ih =>
    rw [List.flatMap_cons, List.flatMap_cons, List.getLast?_append, List.getLast?_append, ih,
      s.getLast?_code]

/-- What a template is read as: text that is not empty, and fields. -/
inductive Piece where
  | text (cs : List Char)
  | field (field : Field)

namespace Piece

def tokens : Piece → List Token
  | text cs => [.raw (String.ofList cs)]
  | field fd => [.variableStart, .name fd.word, .variableEnd]

def stmt : Piece → Stmt
  | text cs => .raw (String.ofList cs)
  | field fd => .emit (.var fd.word)

def rendered (f : Fields) : Piece → String
  | text cs => String.ofList cs
  | field fd => fd.value f

end Piece

/-- The pieces of text: none if it is empty. -/
def piecesOfText (cs : List Char) : List Piece := if cs.isEmpty then [] else [.text cs]

/-- The pieces of segments that come after `lead`; text in a row is one piece. -/
def pieces (lead : List Char) : List Segment → List Piece
  | [] => piecesOfText lead
  | .literal text _ :: rest => pieces (lead ++ text) rest
  | .reference field _ _ _ _ :: rest => piecesOfText lead ++ .field field :: pieces [] rest

/-- What parts are rendered to, one after the other. -/
def joined {α : Type} (part : α → String) (parts : List α) : String := String.join (parts.map part)

theorem joined_cons {α : Type} (part : α → String) (a : α) (parts : List α) :
    joined part (a :: parts) = part a ++ joined part parts := String.join_cons

theorem joined_append {α : Type} (part : α → String) (as bs : List α) :
    joined part (as ++ bs) = joined part as ++ joined part bs := by
  simp [joined]

theorem joined_piecesOfText (f : Fields) (cs : List Char) :
    joined (Piece.rendered f) (piecesOfText cs) = String.ofList cs := by
  cases cs with
  | nil => rfl
  | cons c cs => exact (joined_cons _ _ _).trans String.append_empty

theorem joined_pieces (f : Fields) (lead : List Char) (segments : List Segment) :
    joined (Piece.rendered f) (pieces lead segments) =
      String.ofList lead ++ joined (Segment.rendered f) segments := by
  induction segments generalizing lead with
  | nil => exact (joined_piecesOfText f lead).trans String.append_empty.symm
  | cons s segments ih =>
    rw [joined_cons]
    cases s with
    | literal text plain =>
      rw [pieces, ih, String.ofList_append, String.append_assoc, Segment.rendered]
    | reference field before after hbefore hafter =>
      rw [pieces, joined_append, joined_cons, ih, joined_piecesOfText, String.ofList_nil,
        String.empty_append, Piece.rendered, Segment.rendered]

end GameIngress.Template
