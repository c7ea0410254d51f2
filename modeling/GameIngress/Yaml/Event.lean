import GameIngress.Yaml.Stream

/-!
# Events of a YAML stream

The events are what a text means: documents, collections and scalars, with their tags and anchors.
They are found by a machine with a stack of what is to come; a fault ends them.
-/
namespace GameIngress.Yaml

/-- What may stand before a node. -/
structure Properties where
  anchor : Option String := none
  tag : Option String := none
  deriving DecidableEq, Repr

inductive Event where
  | streamEnd
  | documentStart
  | documentEnd
  | alias (name : String)
  | scalar (p : Properties) (style : Style) (text : String)
  | sequenceStart (p : Properties)
  | sequenceEnd
  | mappingStart (p : Properties)
  | mappingEnd
  deriving DecidableEq, Repr

namespace Event

def empty : Event := scalar {} .plain ""

def properties? : Event → Option Properties
  | scalar p _ _ | sequenceStart p | mappingStart p => some p
  | _ => none

end Event

/-- What the machine expects. -/
inductive Expectation where
  /-- A document, which needs no mark to begin with if it is the first. -/
  | document (first : Bool)
  | documentContent
  | documentEnd
  | blockNode
  | blockSequence (first : Bool)
  | indentlessSequence
  | blockMappingKey (first : Bool)
  | blockMappingValue
  | flowSequence (first : Bool)
  | pairKey
  | pairValue
  | pairEnd
  | flowMappingKey (first : Bool)
  | flowMappingValue (empty : Bool)
  deriving DecidableEq

structure Machine where
  tokens : List Token
  stack : List Expectation := [.document true]
  /-- Handles that directives have declared. -/
  handles : List (String × String) := []
  /-- Latest first. -/
  events : List Event := []

abbrev Parse := EStateM (Option Problem) Machine

namespace Parse

/-- The next token; without one the text is over, for better or worse. -/
def peek : Parse Token := do
  match (← get).tokens with
  | t :: _ => return t
  | [] => throw none

def skip : Parse Unit := modify fun m => { m with tokens := m.tokens.drop 1 }
def emit (e : Event) : Parse Unit := modify fun m => { m with events := e :: m.events }
def expect (es : List Expectation) : Parse Unit := modify fun m => { m with stack := es ++ m.stack }
def fail {α : Type} (p : Problem) : Parse α := throw (some p)

/-! Nodes -/

def standardHandles : List (String × String) := [("!", "!"), ("!!", "tag:yaml.org,2002:")]

def resolve (handle suffix : String) : Parse String := do
  if handle.isEmpty then return suffix
  match ((← get).handles ++ standardHandles).lookup handle with
  | some lead => return lead ++ suffix
  | none => fail .badTag

def anchor? : Parse (Option String) := do
  match ← peek with
  | .anchor name =>
    skip
    return some name
  | _ => return none

def tag? : Parse (Option (String × String)) := do
  match ← peek with
  | .tag handle suffix =>
    skip
    return some (handle, suffix)
  | _ => return none

/-- An anchor and a tag in any order. -/
def properties : Parse Properties := do
  let a ← anchor?
  let t ← tag?
  let a ← match a, t with
    | none, some _ => anchor?
    | a, _ => pure a
  match t with
  | some (handle, suffix) => return { anchor := a, tag := some (← resolve handle suffix) }
  | none => return { anchor := a }

/-- A node in a block or between brackets. A sequence that is the value of a key need not be
indented. -/
def node (block indentless : Bool) : Parse Unit := do
  match ← peek with
  | .alias name =>
    skip
    emit (.alias name)
  | _ =>
    let p ← properties
    match ← peek with
    | .blockEntry =>
      if indentless then
        emit (.sequenceStart p)
        expect [.indentlessSequence]
      else empty p
    | .scalar style text =>
      skip
      emit (.scalar p style text)
    | .flowSequenceStart =>
      emit (.sequenceStart p)
      expect [.flowSequence true]
    | .flowMappingStart =>
      emit (.mappingStart p)
      expect [.flowMappingKey true]
    | .blockSequenceStart =>
      if block then
        emit (.sequenceStart p)
        expect [.blockSequence true]
      else empty p
    | .blockMappingStart =>
      if block then
        emit (.mappingStart p)
        expect [.blockMappingKey true]
      else empty p
    | _ => empty p
where
  empty (p : Properties) : Parse Unit := do
    if p.anchor.isSome || p.tag.isSome then emit (.scalar p .plain "")
    else fail .missingContent

/-! Documents -/

/-- Directives before a document; handles are declared once. -/
def directives : Nat → Bool → List (String × String) → Parse (List (String × String))
  | 0, _, handles => return handles
  | fuel + 1, version, handles => do
    match ← peek with
    | .versionDirective major minor =>
      if version then fail .badDirective
      if major ≠ 1 || (minor ≠ 1 && minor ≠ 2) then fail .unknownVersion
      skip
      directives fuel true handles
    | .tagDirective handle lead =>
      if (handles.lookup handle).isSome then fail .badDirective
      skip
      directives fuel version ((handle, lead) :: handles)
    | _ => return handles

def skipDocumentEnds : Nat → Parse Unit
  | 0 => return ()
  | fuel + 1 => do
    if (← peek) = .documentEnd then
      skip
      skipDocumentEnds fuel

def document (first : Bool) : Parse Unit := do
  let fuel := (← get).tokens.length
  if !first then skipDocumentEnds fuel
  let explicit : Bool := match ← peek with
    | .versionDirective .. | .tagDirective .. | .documentStart => true
    | _ => false
  if (← peek) = .streamEnd then
    skip
    emit .streamEnd
  else if first && !explicit then
    emit .documentStart
    expect [.blockNode, .documentEnd]
  else
    let handles ← directives fuel false []
    modify fun m => { m with handles }
    if (← peek) ≠ .documentStart then fail .missingDocumentStart
    skip
    emit .documentStart
    expect [.documentContent, .documentEnd]

/-! Steps -/

/-- A node, unless one of the given tokens comes first. -/
def nodeUnless (stops : List Token) (block indentless : Bool) : Parse Unit := do
  if (← peek) ∈ stops then emit .empty else node block indentless

def step : Expectation → Parse Unit
  | .document first => document first
  | .documentContent => do
    match ← peek with
    | .versionDirective .. | .tagDirective .. | .documentStart | .documentEnd | .streamEnd =>
      emit .empty
    | _ => node true false
  | .documentEnd => do
    if (← peek) = .documentEnd then skip
    modify fun m => { m with handles := [] }
    emit .documentEnd
    expect [.document false]
  | .blockNode => node true false
  | .blockSequence first => do
    if first then skip
    match ← peek with
    | .blockEntry =>
      skip
      expect [.blockSequence false]
      nodeUnless [.blockEntry, .blockEnd] true false
    | .blockEnd =>
      skip
      emit .sequenceEnd
    | _ => fail .missingDash
  | .indentlessSequence => do
    match ← peek with
    | .blockEntry =>
      skip
      expect [.indentlessSequence]
      nodeUnless [.blockEntry, .key, .value, .blockEnd] true false
    | _ => emit .sequenceEnd
  | .blockMappingKey first => do
    if first then skip
    match ← peek with
    | .key =>
      skip
      expect [.blockMappingValue]
      nodeUnless [.key, .value, .blockEnd] true true
    | .blockEnd =>
      skip
      emit .mappingEnd
    | _ => fail .missingKey
  | .blockMappingValue => do
    expect [.blockMappingKey false]
    match ← peek with
    | .value =>
      skip
      nodeUnless [.key, .value, .blockEnd] true true
    | _ => emit .empty
  | .flowSequence first => do
    if first then skip
    if (← peek) = .flowSequenceEnd then close .sequenceEnd
    else
      if !first then
        if (← peek) ≠ .flowEntry then fail .missingComma
        skip
      match ← peek with
      | .key =>
        skip
        emit (.mappingStart {})
        expect [.pairKey, .flowSequence false]
      | .flowSequenceEnd => close .sequenceEnd
      | _ =>
        expect [.flowSequence false]
        node false false
  | .pairKey => do
    expect [.pairValue]
    if (← peek) ∈ [.value, .flowEntry, .flowSequenceEnd] then
      skip
      emit .empty
    else node false false
  | .pairValue => do
    expect [.pairEnd]
    match ← peek with
    | .value =>
      skip
      nodeUnless [.flowEntry, .flowSequenceEnd] false false
    | _ => emit .empty
  | .pairEnd => emit .mappingEnd
  | .flowMappingKey first => do
    if first then skip
    if (← peek) = .flowMappingEnd then close .mappingEnd
    else
      if !first then
        if (← peek) ≠ .flowEntry then fail .missingComma
        skip
      match ← peek with
      | .key =>
        skip
        expect [.flowMappingValue false]
        nodeUnless [.value, .flowEntry, .flowMappingEnd] false false
      | .flowMappingEnd => close .mappingEnd
      | _ =>
        expect [.flowMappingValue true]
        node false false
  | .flowMappingValue empty => do
    expect [.flowMappingKey false]
    if empty then emit .empty
    else
      match ← peek with
      | .value =>
        skip
        nodeUnless [.flowEntry, .flowMappingEnd] false false
      | _ => emit .empty
where
  close (e : Event) : Parse Unit := do
    skip
    emit e

def all : Nat → Parse Unit
  | 0 => return ()
  | fuel + 1 => do
    match (← get).stack with
    | [] => return ()
    | x :: rest =>
      modify fun m => { m with stack := rest }
      step x
      all fuel

end Parse

/-- The events of a text, and what is wrong after them. -/
def events (text : String) : List Event × Option Problem :=
  let (tokens, problem) := tokens text
  match (Parse.all (4 * tokens.length + 8)).run { tokens } with
  | .ok _ m => (m.events.reverse, problem)
  | .error p m => (m.events.reverse, (p <|> problem) <|> some .unexpectedEnd)

end GameIngress.Yaml
