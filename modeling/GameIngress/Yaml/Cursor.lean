import GameIngress.Yaml.Token

/-!
# Walking through a YAML text

The state of a walk is the text ahead and what was found so far. A walk that fails keeps its state,
so that the tokens before the fault are not lost.
-/
namespace GameIngress.Yaml

/-- A place where a key may have begun. -/
structure KeyCandidate where
  /-- How many tokens came before. -/
  token : Nat
  index : Nat
  line : Nat
  column : Nat
  /-- Whether the block demands a key here. -/
  required : Bool

structure Walk where
  rest : List Char
  index : Nat := 0
  line : Nat := 0
  column : Nat := 0
  tokens : Array Token := #[]
  /-- How many brackets are open. -/
  flow : Nat := 0
  /-- The column of the innermost block, and those of the blocks around it. -/
  indent : Int := -1
  indents : List Int := []
  keyAllowed : Bool := true
  /-- For every open bracket, the innermost first, and for the text outside of brackets. -/
  candidates : List (Option KeyCandidate) := [none]

abbrev Walker := EStateM Problem Walk

def isBlank (c : Char) : Bool := c = ' ' || c = '\t'

def isBreak (c : Char) : Bool :=
  c = '\n' || c = '\r' || c = '\u0085' || c = '\u2028' || c = '\u2029'

/-- Characters of names: letters, digits, underscores and dashes. -/
def isName (c : Char) : Bool := c.isAlphanum || c = '_' || c = '-'

/-- Whether a text may hold a character. -/
def isAllowed (c : Char) : Bool :=
  let n := c.toNat
  n = 9 || n = 10 || n = 13 || (32 ≤ n && n ≤ 126) || n = 0x85 || (0xA0 ≤ n && n ≤ 0xD7FF)
    || (0xE000 ≤ n && n ≤ 0xFFFD && n ≠ 0xFEFF) || 0x10000 ≤ n

namespace Walker

def peek (n : Nat) : Walker (Option Char) := do return (← get).rest[n]?

def holds (n : Nat) (p : Char → Bool) : Walker Bool := do return (← peek n).any p

def isChar (n : Nat) (c : Char) : Walker Bool := holds n (· = c)

/-- Whether there is a blank, a break or the end. -/
def isGap (n : Nat) : Walker Bool := do
  return (← peek n).all fun c => isBlank c || isBreak c

/-- Whether there is a break or the end. -/
def isLineEnd : Walker Bool := do return (← peek 0).all isBreak

/-- A bound on how many characters are ahead. -/
def ahead : Walker Nat := do return (← get).rest.length

def skip : Walker Unit := modify fun s =>
  match s.rest with
  | [] => s
  | _ :: rest => { s with rest, index := s.index + 1, column := s.column + 1 }

/-- Go to the next line, and tell how the break is kept: as a line feed, unless it is one of the
two separators. -/
def takeBreak : Walker (List Char) := do
  let s ← get
  let next (n : Nat) (rest : List Char) (kept : List Char) : Walker (List Char) := do
    set { s with rest, index := s.index + n, line := s.line + 1, column := 0 }
    return kept
  match s.rest with
  | '\r' :: '\n' :: rest => next 2 rest ['\n']
  | c :: rest =>
    if c = '\u2028' || c = '\u2029' then next 1 rest [c]
    else if isBreak c then next 1 rest ['\n']
    else return []
  | [] => return []

def skipWhile (p : Char → Bool) : Nat → Walker Unit
  | 0 => return ()
  | fuel + 1 => do
    if ← holds 0 p then
      skip
      skipWhile p fuel

def takeWhile (p : Char → Bool) : Nat → Walker (List Char)
  | 0 => return []
  | fuel + 1 => do
    match ← peek 0 with
    | some c =>
      if p c then
        skip
        return c :: (← takeWhile p fuel)
      else return []
    | none => return []

/-- Whether a mark of three characters stands at the start of a line, with a gap after it. -/
def isMark (c : Char) : Walker Bool := do
  let s ← get
  return s.column = 0 && (← isChar 0 c) && (← isChar 1 c) && (← isChar 2 c) && (← isGap 3)

def isDocumentMark : Walker Bool := do return (← isMark '-') || (← isMark '.')

def push (t : Token) : Walker Unit := modify fun s => { s with tokens := s.tokens.push t }

/-- Insert a token before the one with a number. -/
def insertAt (n : Nat) (t : Token) : Walker Unit := modify fun s =>
  { s with tokens := (s.tokens.toList.take n ++ t :: s.tokens.toList.drop n).toArray }

def allowKey (b : Bool) : Walker Unit := modify fun s => { s with keyAllowed := b }

/-! Key candidates -/

def setCandidate (k : Option KeyCandidate) : Walker Unit := modify fun s =>
  { s with candidates := k :: s.candidates.drop 1 }

/-- Give up the candidate of the innermost bracket. -/
def dropCandidate : Walker Unit := do
  match (← get).candidates.head? with
  | some (some k) => if k.required then throw .missingColon else setCandidate none
  | _ => return ()

def saveCandidate : Walker Unit := do
  let s ← get
  if s.keyAllowed then
    dropCandidate
    setCandidate (some {
      token := s.tokens.size, index := s.index, line := s.line, column := s.column
      required := s.flow = 0 && s.indent = s.column })

/-- Whether a candidate is too far back: a key has one line and at most 1024 characters. -/
def isStale (k : KeyCandidate) (s : Walk) : Bool := k.line < s.line || k.index + 1024 < s.index

/-- The candidate that a colon would make a key. -/
def liveCandidate : Walker (Option KeyCandidate) := do
  let s ← get
  match s.candidates.head? with
  | some (some k) =>
    if isStale k s then
      if k.required then throw .missingColon
      else
        setCandidate none
        return none
    else return some k
  | _ => return none

/-! Blocks -/

/-- Open a block at a column, if it is deeper than the one around it; its start comes before the
token with the given number, or at the end. -/
def openBlock (column : Nat) (before : Option Nat) (start : Token) : Walker Unit := do
  let s ← get
  if s.flow = 0 && s.indent < column then
    set { s with indents := s.indent :: s.indents, indent := column }
    match before with
    | some n => insertAt n start
    | none => push start

/-- Close the blocks that are deeper than a column. -/
def closeBlocks (column : Int) : Walker Unit := do
  let s ← get
  if s.flow = 0 then go s.indents
where
  go : List Int → Walker Unit
    | [] => return ()
    | outer :: rest => do
      let s ← get
      if column < s.indent then
        push .blockEnd
        set { ← get with indent := outer, indents := rest }
        go rest

end Walker
end GameIngress.Yaml
