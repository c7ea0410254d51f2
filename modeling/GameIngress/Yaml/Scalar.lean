import GameIngress.Yaml.Cursor

/-!
# Scalars

In plain and quoted scalars a line break counts as a blank, and further breaks are kept. In block
scalars lines are kept, or folded where neither line is indented further.
-/
namespace GameIngress.Yaml

/-- A scalar in the making; all parts are latest character first. -/
structure Draft where
  text : List Char := []
  /-- Blanks that are dropped if the line ends. -/
  blanks : List Char := []
  /-- The first break of a gap and those after it. -/
  lead : List Char := []
  trail : List Char := []
  /-- Whether the gap has a break. -/
  broken : Bool := false

namespace Draft

/-- The text with the gap that follows it. -/
def close (d : Draft) : Draft :=
  let text :=
    if d.broken then
      if d.lead = ['\n'] then
        if d.trail.isEmpty then ' ' :: d.text else d.trail ++ d.text
      else d.trail ++ (d.lead ++ d.text)
    else d.blanks ++ d.text
  { text }

def add (c : Char) (d : Draft) : Draft := { d with text := c :: d.text }

def result (d : Draft) : String := String.ofList d.text.reverse

end Draft

namespace Walker

/-- Collect blanks and breaks. A tab may not stand for indentation before a column. -/
def takeGap (indent : Int) : Nat → Draft → Walker Draft
  | 0, d => return d
  | fuel + 1, d => do
    match ← peek 0 with
    | some c =>
      if isBlank c then
        let column : Int := (← get).column
        if d.broken && c = '\t' && column < indent then throw .tabInIndentation
        skip
        takeGap indent fuel (if d.broken then d else { d with blanks := c :: d.blanks })
      else if isBreak c then
        let b ← takeBreak
        takeGap indent fuel
          (if d.broken then { d with trail := b ++ d.trail }
            else { d with blanks := [], lead := b, broken := true })
      else return d
    | none => return d

/-! Plain scalars -/

def isFlowIndicator (c : Char) : Bool := c = ',' || c = '[' || c = ']' || c = '{' || c = '}'

/-- Take characters up to a gap or an indicator; whether an indicator ended the run. -/
def plainRun : Nat → Draft → Walker Draft
  | 0, d => return d
  | fuel + 1, d => do
    if ← isGap 0 then return d
    let inFlow := 0 < (← get).flow
    let colon ← isChar 0 ':'
    if inFlow && colon && (← holds 1 fun c => isFlowIndicator c || c = '?') then
      throw .unexpectedIndicator
    if (colon && (← isGap 1)) || (inFlow && (← holds 0 isFlowIndicator)) then return d
    match ← peek 0 with
    | none => return d
    | some c =>
      skip
      plainRun fuel (d.close.add c)

def plainLoop (indent : Int) : Nat → Draft → Walker Draft
  | 0, d => return d
  | fuel + 1, d => do
    if (← isDocumentMark) || (← isChar 0 '#') then return d
    let d ← plainRun (fuel + 1) d
    if !(← holds 0 fun c => isBlank c || isBreak c) then return d
    let d ← takeGap indent (fuel + 1) d
    let s ← get
    if s.flow = 0 && (s.column : Int) < indent then return d
    plainLoop indent fuel d

def plainScalar : Walker Token := do
  let d ← plainLoop ((← get).indent + 1) ((← ahead) + 1) {}
  if d.broken then allowKey true
  return .scalar .plain d.result

/-! Quoted scalars -/

/-- What a letter after a backslash stands for. -/
def escapes : List (Char × Char) := [
  ('0', '\x00'), ('a', '\x07'), ('b', '\x08'), ('t', '\t'), ('\t', '\t'), ('n', '\n'),
  ('v', '\x0b'), ('f', '\x0c'), ('r', '\r'), ('e', '\x1b'), (' ', ' '), ('"', '"'), ('/', '/'),
  ('\\', '\\'), ('N', '\u0085'), ('_', '\u00a0'), ('L', '\u2028'), ('P', '\u2029')]

/-- How many hexadecimal digits follow a letter after a backslash. -/
def codeLengths : List (Char × Nat) := [('x', 2), ('u', 4), ('U', 8)]

def hexValue? (c : Char) : Option Nat :=
  if '0' ≤ c ∧ c ≤ '9' then some (c.toNat - 48)
  else if 'a' ≤ c ∧ c ≤ 'f' then some (c.toNat - 87)
  else if 'A' ≤ c ∧ c ≤ 'F' then some (c.toNat - 55)
  else none

def hexCode : Nat → Nat → Walker Nat
  | 0, n => return n
  | left + 1, n => do
    match (← peek 0).bind hexValue? with
    | some d =>
      skip
      hexCode left (n * 16 + d)
    | none => throw .badEscape

/-- The character of an escape, of which the backslash is still ahead. -/
def escape : Walker Char := do
  skip
  match ← peek 0 with
  | none => throw .badEscape
  | some c =>
    skip
    match escapes.lookup c, codeLengths.lookup c with
    | some v, _ => return v
    | none, some digits =>
      let n ← hexCode digits 0
      if n.isValidChar then return Char.ofNat n else throw .badEscape
    | none, none => throw .badEscape

/-- Take characters up to a gap or the closing quote. -/
def quotedRun (single : Bool) (quote : Char) : Nat → Draft → Walker Draft
  | 0, d => return d
  | fuel + 1, d => do
    if ← isGap 0 then return d
    if single && (← isChar 0 '\'') && (← isChar 1 '\'') then
      skip
      skip
      quotedRun single quote fuel (d.add '\'')
    else if ← isChar 0 quote then return d
    else if !single && (← isChar 0 '\\') then
      if ← holds 1 isBreak then
        skip
        let _ ← takeBreak
        return { d with broken := true }
      else
        let c ← escape
        quotedRun single quote fuel (d.add c)
    else
      match ← peek 0 with
      | none => return d
      | some c =>
        skip
        quotedRun single quote fuel (d.add c)

def quotedLoop (single : Bool) (quote : Char) : Nat → Draft → Walker Draft
  | 0, d => return d
  | fuel + 1, d => do
    if ← isDocumentMark then throw .unexpectedIndicator
    if (← peek 0).isNone then throw .unexpectedEnd
    let d ← quotedRun single quote (fuel + 1) d
    if ← isChar 0 quote then return d
    let d ← takeGap (-1) (fuel + 1) d
    quotedLoop single quote fuel d.close

def quotedScalar (single : Bool) : Walker Token := do
  let quote := if single then '\'' else '"'
  skip
  let d ← quotedLoop single quote ((← ahead) + 1) {}
  skip
  return .scalar (if single then .singleQuoted else .doubleQuoted) d.result

/-! Block scalars -/

inductive Chomping where
  | strip
  | clip
  | keep
  deriving DecidableEq

def chomping? : Walker (Option Chomping) := do
  if ← isChar 0 '+' then
    skip
    return some .keep
  else if ← isChar 0 '-' then
    skip
    return some .strip
  else return none

/-- An explicit indentation, which is not zero. -/
def increment? : Walker (Option Nat) := do
  match ← peek 0 with
  | some c =>
    if c.isDigit then
      if c = '0' then throw .badBlockHeader
      skip
      return some (c.toNat - 48)
    else return none
  | none => return none

/-- The header after the indicator: chomping and indentation in any order, then nothing but a
comment. -/
def blockHeader : Walker (Chomping × Option Nat) := do
  let c ← chomping?
  let i ← increment?
  let c ← if c.isNone then chomping? else pure c
  let fuel ← ahead
  skipWhile isBlank fuel
  if ← isChar 0 '#' then skipWhile (fun c => !isBreak c) fuel
  if !(← isLineEnd) then throw .badBlockHeader
  let _ ← takeBreak
  return (c.getD .clip, i)

/-- Skip indentation and empty lines. Where the indentation is not known (zero), the greatest
column is noted. -/
def blockGap (indent : Nat) : Nat → Nat → List Char → Walker (Nat × List Char)
  | 0, greatest, breaks => return (greatest, breaks)
  | fuel + 1, greatest, breaks => do
    let column := (← get).column
    if (indent = 0 || column < indent) && (← isChar 0 ' ') then
      skip
      blockGap indent fuel greatest breaks
    else
      let greatest := max greatest column
      if (indent = 0 || column < indent) && (← isChar 0 '\t') then throw .tabInIndentation
      if ← holds 0 isBreak then
        let b ← takeBreak
        blockGap indent fuel greatest (b ++ breaks)
      else return (greatest, breaks)

structure BlockDraft where
  text : List Char := []
  lead : List Char := []
  trail : List Char := []
  /-- Whether the last line began with a blank. -/
  blank : Bool := false

def blockLines (literal : Bool) (indent : Nat) : Nat → BlockDraft → Walker BlockDraft
  | 0, d => return d
  | fuel + 1, d => do
    if (← get).column ≠ indent || (← peek 0).isNone then return d
    let blank ← holds 0 isBlank
    let joined :=
      if !literal && d.lead.getLast? = some '\n' && !d.blank && !blank then
        if d.trail.isEmpty then ' ' :: d.text else d.trail ++ d.text
      else d.trail ++ (d.lead ++ d.text)
    let line ← takeWhile (fun c => !isBreak c) (← ahead)
    let lead ← takeBreak
    let (_, trail) ← blockGap indent ((← ahead) + 1) 0 []
    blockLines literal indent fuel { text := line.reverse ++ joined, lead, trail, blank }

def blockScalar (literal : Bool) : Walker Token := do
  skip
  let (chomping, increment) ← blockHeader
  let parent := (← get).indent
  let given : Nat := match increment with
    | some i => if 0 ≤ parent then parent.toNat + i else i
    | none => 0
  let (greatest, trail) ← blockGap given ((← ahead) + 1) 0 []
  let indent := if given ≠ 0 then given else max (max greatest (parent + 1).toNat) 1
  let d ← blockLines literal indent ((← ahead) + 1) { trail }
  let text := if chomping = .strip then d.text else d.lead ++ d.text
  let text := if chomping = .keep then d.trail ++ text else text
  return .scalar (if literal then .literal else .folded) (String.ofList text.reverse)

end Walker
end GameIngress.Yaml
