import GameIngress.Number.Natural
import GameIngress.Text.Blank
import GameIngress.Text.Quoted

/-!
# Log filters

A filter is a list of directives between commas. A directive sets the greatest level that is written
for the targets that start with a text, for the records in a span, or for everything. The most
specific directive about a record decides, and of equal ones the last.
-/
namespace GameIngress.Log

inductive Level where
  | off
  | error
  | warn
  | info
  | debug
  | trace
  deriving DecidableEq, Repr

namespace Level

def all : List Level := [off, error, warn, info, debug, trace]

def name : Level → String
  | off => "OFF"
  | error => "ERROR"
  | warn => "WARN"
  | info => "INFO"
  | debug => "DEBUG"
  | trace => "TRACE"

/-- Greater levels let more through. -/
def rank : Level → Nat
  | off => 0
  | error => 1
  | warn => 2
  | info => 3
  | debug => 4
  | trace => 5

/-- A level is written as its name in any case, or as its rank. -/
def ofText? (s : String) : Option Level :=
  match Number.readNatural (Nat.pow 2 64) s with
  | .ok n => all.find? (·.rank = n)
  | .error _ => all.find? (·.name = s.toUpper)

end Level

/-- One entry of a filter. -/
structure Directive where
  /-- Targets that start with this are meant, all of them if it is missing. -/
  target : Option String := none
  /-- Only records in certain spans are meant. -/
  inSpan : Bool := false
  /-- Only records with this field are meant. -/
  fieldName : Option String := none
  level : Level := .trace
  deriving DecidableEq, Repr

namespace Directive

/-- A name starts with a letter, a digit, a dash, a colon or an underscore. -/
def startsName (c : Char) : Bool :=
  c.isAlphanum || c == '-' || c == ':' || c == '_' || (128 ≤ c.toNat && Text.isVisible c)

/-- The level after a target or span; without one everything is let through. -/
def withLevel? (d : Directive) : List Char → Option Directive
  | [] => some d
  | ['='] => some d
  | '=' :: cs => (Level.ofText? (String.ofList cs)).map fun l => { d with level := l }
  | _ => none

/-- The span between brackets, perhaps with a field in braces, and the level after it. -/
def span? (d : Directive) (cs : List Char) : Option Directive :=
  let name := cs.takeWhile fun c => c ≠ ']' && c ≠ '{'
  match cs.dropWhile fun c => c ≠ ']' && c ≠ '{' with
  | ']' :: rest => withLevel? { d with inSpan := true } rest
  | '{' :: rest =>
    let field := rest.takeWhile (· ≠ '}')
    match rest.dropWhile (· ≠ '}') with
    | '}' :: ']' :: rest =>
      if field.isEmpty then none
      else withLevel? { d with
        inSpan := !name.isEmpty || field.contains '='
        fieldName := some (String.ofList (field.takeWhile (· ≠ '='))) } rest
    | _ => none
  | _ => none

/-- The directive that a text denotes. Blanks belong to a name, and no level has any. -/
def ofText? (s : String) : Option Directive :=
  let cs := s.toList
  let starts : Bool := match Text.trimStart cs with
    | c :: _ => c == '[' || startsName c
    | [] => false
  let name := String.ofList (cs.takeWhile fun c => c ≠ '=' && c ≠ '[')
  let padded := Text.trim cs != cs
  if !starts then none
  else match cs.dropWhile fun c => c ≠ '=' && c ≠ '[' with
  | [] =>
    match Level.ofText? s with
    | some l => some { level := l }
    | none => some { target := some s }
  | '[' :: rest =>
    if padded then none
    else span? { target := if name = "" then none else some name } rest
  | rest => if padded then none else withLevel? { target := some name } rest

/-- Whether a record outside all spans, with a message alone, is meant. -/
def concerns (d : Directive) (target : String) : Bool :=
  !d.inSpan && d.fieldName.all (· = "message")
    && d.target.all fun t => t.toList.isPrefixOf target.toList

/-- A longer target is more specific, and so is a field for the same target. -/
def specificity (d : Directive) : Nat × Nat :=
  ((d.target.map fun t => t.utf8ByteSize + 1).getD 0, if d.fieldName.isSome then 1 else 0)

def isBelow (a b : Nat × Nat) : Bool := a.1 < b.1 || (a.1 = b.1 && a.2 ≤ b.2)

end Directive

abbrev Filter := List Directive

namespace Filter

/-- Directives that are not understood are left out; without any directive the level is `info`. -/
def ofText (s : String) : Filter :=
  let parts := (Text.splitOn ',' s.toList).filter (!·.isEmpty)
  match parts.filterMap fun p => Directive.ofText? (String.ofList p) with
  | [] => [{ level := .info }]
  | ds => ds

/-- The directive that decides about a target. -/
def deciding? (f : Filter) (target : String) : Option Directive :=
  (f.filter (·.concerns target)).foldl (fun best d =>
    match best with
    | none => some d
    | some b => if Directive.isBelow b.specificity d.specificity then some d else some b) none

def allows (f : Filter) (target : String) (level : Level) : Bool :=
  (f.deciding? target).any fun d => level.rank ≤ d.level.rank

end Filter
end GameIngress.Log
