import GameIngress.Text.Blank

/-!
# Template tokens

A template is text with variable blocks in double braces, statement blocks between brace-percent
pairs, and comments. A hyphen at the edge of a block takes the blanks next to the block with it.
-/
namespace GameIngress.Template

inductive SyntaxError where
  | openComment
  | openRaw
  | openText
  | badEscape
  | badNumber
  | unexpectedCharacter (c : Char)
  | unexpectedToken
  | unexpectedEnd
  | tooDeep
  | reservedName (name : String)
  | duplicateBlock (name : String)
  | badStatement
  deriving DecidableEq, Repr

inductive Symbol where
  | plus | minus | star | slash | floorDiv | percent | power
  | dot | comma | colon | tilde | pipe | assign
  | eq | ne | gt | ge | lt | le
  | parenOpen | parenClose | bracketOpen | bracketClose | braceOpen | braceClose
  deriving DecidableEq, Repr

inductive Token where
  | raw (s : String)
  | variableStart
  | variableEnd
  | blockStart
  | blockEnd
  | name (s : String)
  | text (s : String)
  | int (n : Nat)
  /-- The number `digits * 10 ^ exponent`. -/
  | decimal (digits : Nat) (exponent : Int)
  | symbol (s : Symbol)
  deriving DecidableEq, Repr

namespace Token

inductive Marker where
  | variable
  | block
  | comment
  deriving DecidableEq

/-- The text up to the first marker, and what follows the marker. -/
def splitAtMarker : List Char → List Char × Option (Marker × List Char)
  | [] => ([], none)
  | [c] => ([c], none)
  | c :: d :: rest =>
    if c = '{' ∧ d = '{' then ([], some (.variable, rest))
    else if c = '{' ∧ d = '%' then ([], some (.block, rest))
    else if c = '{' ∧ d = '#' then ([], some (.comment, rest))
    else
      let (lead, found) := splitAtMarker (d :: rest)
      (c :: lead, found)

/-- The text before the first occurrence of `needle`, and what follows it. -/
def splitAtText (needle : List Char) : List Char → Option (List Char × List Char)
  | [] => none
  | c :: rest =>
    if needle.isPrefixOf (c :: rest) then some ([], (c :: rest).drop needle.length)
    else (splitAtText needle rest).map fun (lead, tail) => (c :: lead, tail)

/-- What the edge of a block asks for the blanks next to it. -/
inductive Edge where
  | keep
  | strip
  deriving DecidableEq

def edge : List Char → Edge × List Char
  | '-' :: rest => (.strip, rest)
  | '+' :: rest => (.keep, rest)
  | rest => (.keep, rest)

def isCodeBlank (c : Char) : Bool :=
  c = ' ' || c = '\t' || c = '\n' || c = '\x0c' || c = '\r'

/-- A statement block that holds nothing but one word. -/
def lonelyWord (word : String) (cs : List Char) : Option (Edge × List Char) :=
  let cs := cs.dropWhile isCodeBlank
  if word.toList.isPrefixOf cs then
    match edge ((cs.drop word.length).dropWhile isCodeBlank) with
    | (e, '%' :: '}' :: rest) => some (e, rest)
    | _ => none
  else none

/-- The verbatim text up to the block that ends it, trimmed as the edges of both blocks ask. -/
def rawText (fuel : Nat) (acc : List Char) (cs : List Char) :
    Option (List Char × Edge × List Char) :=
  match fuel with
  | 0 => none
  | fuel + 1 =>
    match splitAtText ['{', '%'] cs with
    | none => none
    | some (lead, rest) =>
      let (start, inner) := edge rest
      match lonelyWord "endraw" inner with
      | some (e, rest) =>
        let body := acc ++ lead
        some (if start = .strip then Text.trimEnd body else body, e, rest)
      | none => rawText fuel (acc ++ lead ++ ['{', '%']) rest

private def hexDigit? (c : Char) : Option Nat :=
  if c.isDigit then some (c.toNat - 48)
  else if 'a' ≤ c ∧ c ≤ 'f' then some (c.toNat - 87)
  else if 'A' ≤ c ∧ c ≤ 'F' then some (c.toNat - 55)
  else none

private def hexUnit (cs : List Char) : Option Nat :=
  let cs := match cs with
    | '+' :: rest => rest
    | _ => cs
  if cs.isEmpty then none
  else cs.foldlM (fun n c => (hexDigit? c).map (16 * n + ·)) 0

/-- The text that a literal between quotes stands for. `pending` is the first half of a character
that is written in two units. -/
def unescape (pending : Option Nat) : List Char → Option (List Char)
  | [] => if pending.isNone then some [] else none
  | '\\' :: 'u' :: a :: b :: c :: d :: rest => do
    let unit ← hexUnit [a, b, c, d]
    match pending, decide (0xD800 ≤ unit ∧ unit < 0xE000) with
    | none, false => (unescape none rest).map (Char.ofNat unit :: ·)
    | none, true => unescape (some unit) rest
    | some _, false => none
    | some high, true =>
      if high < 0xDC00 ∧ 0xDC00 ≤ unit then
        (unescape none rest).map
          (Char.ofNat (0x10000 + (high - 0xD800) * 0x400 + (unit - 0xDC00)) :: ·)
      else none
  | '\\' :: c :: rest =>
    if pending.isSome then none
    else
      let meaning := match c with
        | '"' => some '"'
        | '\\' => some '\\'
        | '/' => some '/'
        | '\'' => some '\''
        | 'b' => some '\x08'
        | 'f' => some '\x0c'
        | 'n' => some '\n'
        | 'r' => some '\r'
        | 't' => some '\t'
        | _ => none
      meaning.bind fun m => (unescape none rest).map (m :: ·)
  | c :: rest =>
    if pending.isSome ∨ c = '\\' then none else (unescape none rest).map (c :: ·)

/-- The characters up to an unescaped quote. -/
def quotedBody (quote : Char) : List Char → Option (List Char × List Char)
  | [] => none
  | ['\\'] => none
  | '\\' :: c :: rest => (quotedBody quote rest).map fun (b, r) => ('\\' :: c :: b, r)
  | c :: rest =>
    if c = quote then some ([], rest)
    else (quotedBody quote rest).map fun (b, r) => (c :: b, r)

/-- Where in a number the reader stands. -/
inductive NumberPart where
  | whole
  | based (base : Nat)
  | fraction
  | exponent
  | exponentDigits
  deriving DecidableEq

def NumberPart.next (part : NumberPart) (c : Char) : Option NumberPart :=
  match part, c with
  | .whole, '.' => some .fraction
  | .whole, 'e' | .whole, 'E' | .fraction, 'e' | .fraction, 'E' => some .exponent
  | .exponent, '+' | .exponent, '-' => some .exponentDigits
  | part, '_' => some part
  | part, c =>
    if c.isDigit then some (if part = .exponent then .exponentDigits else part)
    else if part = .based 16 ∧ (hexDigit? c).isSome then some part
    else none

/-- The longest start of the text that goes on with the number. -/
def numberRun (part : NumberPart) : List Char → List Char × List Char × NumberPart
  | [] => ([], [], part)
  | c :: rest =>
    match part.next c with
    | none => ([], c :: rest, part)
    | some p =>
      let (run, tail, last) := numberRun p rest
      (c :: run, tail, last)

def digitsIn (base : Nat) (ds : List Char) : Option Nat :=
  if ds.isEmpty then none
  else ds.foldlM (fun n c => (hexDigit? c).bind fun d =>
    if d < base then some (base * n + d) else none) 0

/-- A number written with a point or an exponent. -/
def decimalOf (cs : List Char) : Option Token :=
  let whole := cs.takeWhile Char.isDigit
  let (fraction, rest) := match cs.dropWhile Char.isDigit with
    | '.' :: r => (r.takeWhile Char.isDigit, r.dropWhile Char.isDigit)
    | r => ([], r)
  let exponent : Option Int := match rest with
    | [] => some 0
    | _ :: '-' :: ds => (digitsIn 10 ds).map fun n => -(n : Int)
    | _ :: '+' :: ds => (digitsIn 10 ds).map fun n => (n : Int)
    | _ :: ds => (digitsIn 10 ds).map fun n => (n : Int)
  match exponent, digitsIn 10 (whole ++ fraction) with
  | some e, some n => some (.decimal n (e - (fraction.length : Int)))
  | _, _ => none

/-- The number at the start of the text. -/
def number (cs : List Char) : Except SyntaxError (Token × List Char) :=
  let (base, body) := match cs with
    | '0' :: 'b' :: r | '0' :: 'B' :: r => (2, r)
    | '0' :: 'o' :: r | '0' :: 'O' :: r => (8, r)
    | '0' :: 'x' :: r | '0' :: 'X' :: r => (16, r)
    | r => (10, r)
  let (run, rest, part) := numberRun (if base = 10 then .whole else .based base) body
  if run.getLast? = some '_' then .error .badNumber
  else
    let run := run.filter (· ≠ '_')
    match part with
    | .whole | .based _ =>
      match digitsIn base run with
      | some n => if n < Nat.pow 2 128 then .ok (.int n, rest) else .error .badNumber
      | none => .error .badNumber
    | _ =>
      match decimalOf run with
      | some t => .ok (t, rest)
      | none => .error .badNumber

def symbol2 : Char → Char → Option Symbol
  | '/', '/' => some .floorDiv
  | '*', '*' => some .power
  | '=', '=' => some .eq
  | '!', '=' => some .ne
  | '>', '=' => some .ge
  | '<', '=' => some .le
  | _, _ => none

def symbol1 : Char → Option Symbol
  | '+' => some .plus
  | '-' => some .minus
  | '*' => some .star
  | '/' => some .slash
  | '%' => some .percent
  | '.' => some .dot
  | ',' => some .comma
  | ':' => some .colon
  | '~' => some .tilde
  | '|' => some .pipe
  | '=' => some .assign
  | '>' => some .gt
  | '<' => some .lt
  | '(' => some .parenOpen
  | ')' => some .parenClose
  | '[' => some .bracketOpen
  | ']' => some .bracketClose
  | '{' => some .braceOpen
  | '}' => some .braceClose
  | _ => none

def startsName (c : Char) : Bool := c.isAlpha || c = '_'
def inName (c : Char) : Bool := c.isAlphanum || c = '_'

/-- The token at the start of code that does not end there. -/
def next (cs : List Char) : Except SyntaxError (Token × List Char) :=
  match cs with
  | [] => .error .unexpectedEnd
  | c :: rest =>
    match rest.head?.bind (symbol2 c) with
    | some s => .ok (.symbol s, rest.drop 1)
    | none =>
      match symbol1 c with
      | some s => .ok (.symbol s, rest)
      | none =>
        if c = '"' ∨ c = '\'' then
          match quotedBody c rest with
          | none => .error .openText
          | some (body, rest) =>
            match unescape none body with
            | some s => .ok (.text (String.ofList s), rest)
            | none => .error .badEscape
        else if c.isDigit then number cs
        else if startsName c then
          .ok (.name (String.ofList (cs.takeWhile inName)), cs.dropWhile inName)
        else .error (.unexpectedCharacter c)

/-- The end of a block of code at the start of the text, if it ends there. -/
def codeEnd (m : Marker) : List Char → Option (Token × Edge × List Char)
  | '}' :: '}' :: rest => if m = .variable then some (.variableEnd, .keep, rest) else none
  | '-' :: '}' :: '}' :: rest => if m = .variable then some (.variableEnd, .strip, rest) else none
  | '%' :: '}' :: rest => if m = .variable then none else some (.blockEnd, .keep, rest)
  | '-' :: '%' :: '}' :: rest => if m = .variable then none else some (.blockEnd, .strip, rest)
  | '+' :: '%' :: '}' :: rest => if m = .variable then none else some (.blockEnd, .keep, rest)
  | _ => none

def emit (t : Token) (ts : Except SyntaxError (List Token)) : Except SyntaxError (List Token) :=
  ts.map (t :: ·)

def emitRaw (cs : List Char) (ts : Except SyntaxError (List Token)) :
    Except SyntaxError (List Token) :=
  if cs.isEmpty then ts else emit (.raw (String.ofList cs)) ts

mutual
/-- Tokens of the text outside of code; `e` is the edge that the text begins at. -/
def ofText : Nat → Edge → List Char → Except SyntaxError (List Token)
  | 0, _, _ => .error .unexpectedEnd
  | fuel + 1, e, cs =>
    let cs := if e = .strip then Text.trimStart cs else cs
    match splitAtMarker cs with
    | (lead, none) => emitRaw lead (.ok [])
    | (lead, some (marker, rest)) =>
      let (start, inner) := edge rest
      let lead := if start = .strip then Text.trimEnd lead else lead
      emitRaw lead <|
        match marker with
        | .comment =>
          match splitAtText ['#', '}'] rest with
          | none => .error .openComment
          | some (body, rest) =>
            ofText fuel (if body.getLast? = some '-' then .strip else .keep) rest
        | .variable => emit .variableStart (ofCode fuel .variable inner)
        | .block =>
          match lonelyWord "raw" inner with
          | none => emit .blockStart (ofCode fuel .block inner)
          | some (open_, rest) =>
            match rawText (rest.length + 1) [] rest with
            | none => .error .openRaw
            | some (body, close, rest) =>
              emitRaw (if open_ = .strip then Text.trimStart body else body)
                (ofText fuel close rest)
/-- Tokens of code up to its end, and of the text after it. -/
def ofCode : Nat → Marker → List Char → Except SyntaxError (List Token)
  | 0, _, _ => .error .unexpectedEnd
  | fuel + 1, m, cs =>
    match cs.dropWhile isCodeBlank with
    | [] => .ok []
    | c :: rest =>
      match codeEnd m (c :: rest) with
      | some (t, e, rest) => emit t (ofText fuel e rest)
      | none =>
        match next (c :: rest) with
        | .error e => .error e
        | .ok (t, rest) => emit t (ofCode fuel m rest)
end

/-- The source without one line break at its end. -/
def dropLastBreak (cs : List Char) : List Char :=
  let cs := if cs.getLast? = some '\n' then cs.dropLast else cs
  if cs.getLast? = some '\r' then cs.dropLast else cs

/-- The tokens of a template. -/
def ofSource (source : List Char) : Except SyntaxError (List Token) :=
  let cs := dropLastBreak source
  ofText (cs.length + 1) .keep cs

end Token
end GameIngress.Template
