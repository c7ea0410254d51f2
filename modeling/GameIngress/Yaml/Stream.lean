import GameIngress.Yaml.Scalar

/-!
# The tokens of a text

Every step skips to the next token, closes the blocks that end before it, and takes it. Where the
text is faulty, the tokens before the fault are kept, except for those that may still become keys.
-/
namespace GameIngress.Yaml
namespace Walker

/-- Skip blanks, comments and breaks. Outside of brackets a tab may not come where a key may. -/
def toNextToken : Nat → Walker Unit
  | 0 => return ()
  | fuel + 1 => do
    let s ← get
    if s.index = 0 && (← isChar 0 '\uFEFF') then skip
    let tabs := 0 < s.flow || !s.keyAllowed
    let n ← ahead
    skipWhile (fun c => c = ' ' || (tabs && c = '\t')) n
    if ← isChar 0 '#' then skipWhile (fun c => !isBreak c) n
    if ← holds 0 isBreak then
      let _ ← takeBreak
      if (← get).flow = 0 then allowKey true
      toNextToken fuel

def restOfLine : Walker Unit := do
  let n ← ahead
  skipWhile isBlank n
  if ← isChar 0 '#' then skipWhile (fun c => !isBreak c) n
  if !(← isLineEnd) then throw .badDirective
  let _ ← takeBreak

/-! Tags -/

def isUriChar (c : Char) : Bool := isName c || c ∈ ";/?:@&=+$.%!~*'()".toList

def byteOf (a b : Char) : Option Nat := do return (← hexValue? a) * 16 + (← hexValue? b)

/-- The bytes of an escaped character; there are as many as its first byte tells. -/
def escapedBytes : Nat → List UInt8 → Walker (List UInt8)
  | 0, bytes => return bytes
  | left + 1, bytes => do
    match ← peek 0, ← peek 1, ← peek 2 with
    | some '%', some a, some b =>
      match byteOf a b with
      | some n =>
        skip
        skip
        skip
        escapedBytes left (bytes ++ [n.toUInt8])
      | none => throw .badTag
    | _, _, _ => throw .badTag

def escapedChar : Walker Char := do
  let first ← escapedBytes 1 []
  let lead := (first.head?.getD 0).toNat
  let more ← if lead < 0x80 then pure 0
    else if 0xC0 ≤ lead && lead < 0xE0 then pure 1
    else if 0xE0 ≤ lead && lead < 0xF0 then pure 2
    else if 0xF0 ≤ lead && lead < 0xF8 then pure 3
    else throw .badTag
  let bytes ← escapedBytes more first
  match (String.fromUTF8? ⟨bytes.toArray⟩).bind (·.toList.head?) with
  | some c => return c
  | none => throw .badTag

def uri (brackets : Bool) : Nat → Walker (List Char)
  | 0 => return []
  | fuel + 1 => do
    match ← peek 0 with
    | some c =>
      if c = '%' then
        let c ← escapedChar
        return c :: (← uri brackets fuel)
      else if isUriChar c || (brackets && (c = ',' || c = '[' || c = ']')) then
        skip
        return c :: (← uri brackets fuel)
      else return []
    | none => return []

def uriOf (brackets : Bool) : Walker (List Char) := do uri brackets (← ahead)

/-- A handle: an exclamation mark, and a name with another one if it goes on so. -/
def tagHandle : Walker (List Char) := do
  if !(← isChar 0 '!') then throw .badTag
  skip
  let name ← takeWhile isName (← ahead)
  if ← isChar 0 '!' then
    skip
    return '!' :: name ++ ['!']
  else return '!' :: name

def tag : Walker Token := do
  let t ← if ← isChar 1 '<' then do
      skip
      skip
      let u ← uriOf true
      if u.isEmpty || !(← isChar 0 '>') then throw .badTag
      skip
      pure (Token.tag "" (String.ofList u))
    else do
      let handle ← tagHandle
      if 1 < handle.length && handle.getLast? = some '!' then
        let suffix ← uriOf false
        if suffix.isEmpty then throw .badTag
        pure (Token.tag (String.ofList handle) (String.ofList suffix))
      else
        let suffix := handle.drop 1 ++ (← uriOf false)
        pure (if suffix.isEmpty then Token.tag "" "!" else Token.tag "!" (String.ofList suffix))
  let inFlow := 0 < (← get).flow
  if !(← isGap 0) && !(inFlow && (← isChar 0 ',')) then throw .badTag
  return t

/-! Directives and anchors -/

def versionNumber : Walker Nat := do
  let digits ← takeWhile (·.isDigit) (← ahead)
  if digits.isEmpty || 9 < digits.length then throw .badDirective
  return digits.foldl (fun n d => 10 * n + (d.toNat - 48)) 0

def directive : Walker Token := do
  skip
  let name ← takeWhile isName (← ahead)
  if name.isEmpty || !(← isGap 0) then throw .badDirective
  let blanks : Walker Unit := do skipWhile isBlank (← ahead)
  blanks
  let t ← if name = "YAML".toList then do
      let major ← versionNumber
      if !(← isChar 0 '.') then throw .badDirective
      skip
      pure (Token.versionDirective major (← versionNumber))
    else if name = "TAG".toList then do
      let handle ← tagHandle
      if 1 < handle.length && handle.getLast? ≠ some '!' then throw .badDirective
      if !(← holds 0 isBlank) then throw .badDirective
      blanks
      let lead ← uriOf true
      if lead.isEmpty || !(← isGap 0) then throw .badDirective
      pure (Token.tagDirective (String.ofList handle) (String.ofList lead))
    else throw .badDirective
  restOfLine
  return t

def anchorName : Walker String := do
  skip
  let name ← takeWhile isName (← ahead)
  if name.isEmpty then throw .badAnchor
  if !(← isGap 0) && !(← holds 0 (· ∈ '}' :: "?:,]%@`".toList)) then throw .badAnchor
  return String.ofList name

/-! Tokens -/

/-- A token before which a key may begin. -/
def keyed (t : Walker Token) : Walker Unit := do
  saveCandidate
  allowKey false
  push (← t)

def openBracket (t : Token) : Walker Unit := do
  saveCandidate
  modify fun s => { s with candidates := none :: s.candidates, flow := s.flow + 1 }
  allowKey true
  skip
  push t

def closeBracket (t : Token) : Walker Unit := do
  dropCandidate
  modify fun s =>
    if 0 < s.flow then { s with candidates := s.candidates.drop 1, flow := s.flow - 1 } else s
  allowKey false
  skip
  push t

def flowEntry : Walker Unit := do
  dropCandidate
  allowKey true
  skip
  push .flowEntry

def blockEntry : Walker Unit := do
  let s ← get
  if s.flow = 0 then
    if !s.keyAllowed then throw .misplacedEntry
    openBlock s.column none .blockSequenceStart
  dropCandidate
  allowKey true
  skip
  push .blockEntry

def keyMark : Walker Unit := do
  let s ← get
  if s.flow = 0 then
    if !s.keyAllowed then throw .misplacedKey
    openBlock s.column none .blockMappingStart
  dropCandidate
  allowKey (s.flow = 0)
  skip
  push .key

def valueMark : Walker Unit := do
  match ← liveCandidate with
  | some k =>
    insertAt k.token .key
    openBlock k.column (some k.token) .blockMappingStart
    setCandidate none
    allowKey false
  | none =>
    let s ← get
    if s.flow = 0 then
      if !s.keyAllowed then throw .misplacedValue
      openBlock s.column none .blockMappingStart
    allowKey (s.flow = 0)
  skip
  push .value

def atLineStart (t : Token) (width : Nat) : Walker Unit := do
  closeBlocks (-1)
  dropCandidate
  allowKey false
  for _ in [0:width] do skip
  push t

def streamEnd : Walker Unit := do
  closeBlocks (-1)
  dropCandidate
  allowKey false
  push .streamEnd

/-- Whether a plain scalar may begin. -/
def beginsPlain : Walker Bool := do
  let gap ← isGap 0
  let indicator ← holds 0 (· ∈ '{' :: '}' :: "-?:,[]#&*!|>'\"%@`".toList)
  if !gap && !indicator then return true
  if (← isChar 0 '-') && !(← holds 1 isBlank) then return true
  return (← get).flow = 0 && ((← isChar 0 '?') || (← isChar 0 ':')) && !(← isGap 1)

/-- Take the next token; whether the text goes on. -/
def next : Walker Bool := do
  toNextToken ((← ahead) + 1)
  let s ← get
  closeBlocks s.column
  let inFlow := 0 < s.flow
  match ← peek 0 with
  | none =>
    streamEnd
    return false
  | some c =>
    let gapAfter ← isGap 1
    if s.column = 0 && c = '%' then
      closeBlocks (-1)
      dropCandidate
      allowKey false
      push (← directive)
    else if ← isMark '-' then atLineStart .documentStart 3
    else if ← isMark '.' then atLineStart .documentEnd 3
    else if c = '[' then openBracket .flowSequenceStart
    else if c = '{' then openBracket .flowMappingStart
    else if c = ']' then closeBracket .flowSequenceEnd
    else if c = '}' then closeBracket .flowMappingEnd
    else if c = ',' then flowEntry
    else if c = '-' && gapAfter then blockEntry
    else if c = '?' && (inFlow || gapAfter) then keyMark
    else if c = ':' && (inFlow || gapAfter) then valueMark
    else if c = '*' then keyed (Token.alias <$> anchorName)
    else if c = '&' then keyed (Token.anchor <$> anchorName)
    else if c = '!' then keyed tag
    else if (c = '|' || c = '>') && !inFlow then
      dropCandidate
      allowKey true
      push (← blockScalar (c = '|'))
    else if c = '\'' then keyed (quotedScalar true)
    else if c = '"' then keyed (quotedScalar false)
    else if ← beginsPlain then keyed plainScalar
    else throw .unexpectedCharacter
    return true

def all : Nat → Walker Unit
  | 0 => return ()
  | fuel + 1 => do
    if ← next then all fuel

end Walker

/-- The tokens that are certain: those before the first that may still become a key. -/
def Walk.certain (w : Walk) : List Token :=
  let live := w.candidates.filterMap fun k => k.bind fun k =>
    if Walker.isStale k w then none else some k.token
  w.tokens.toList.take (live.foldl min w.tokens.size)

/-- The tokens of a text, and what is wrong after them. -/
def tokens (text : String) : List Token × Option Problem :=
  let cs := match text.toList with
    | '\uFEFF' :: rest => rest
    | cs => cs
  if cs.all isAllowed then
    match (Walker.all (2 * cs.length + 2)).run { rest := cs } with
    | .ok _ w => (w.tokens.toList, none)
    | .error e w => (w.certain, some e)
  else ([], some .controlCharacter)

end GameIngress.Yaml
