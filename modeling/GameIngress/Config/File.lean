import GameIngress.Config.Basic
import GameIngress.Duration.Reader
import GameIngress.Yaml.Event

/-!
# Configuration files

A file is one YAML mapping. Fields that are missing keep their defaults, unknown ones are ignored,
and no field may occur twice. An empty file is a mapping without fields.
-/
namespace GameIngress.Config

open Yaml (Event Style Properties)

inductive Field where
  | ns
  | syncPeriod
  | maxConcurrentReconciles
  | statusRetrySteps
  | requeueBaseDelay
  | requeueMaxDelay
  | cacheSyncInterval
  | cacheSyncAttempts
  | cacheSyncTimeout
  | healthAddress
  | ingressPathRewrite
  | reporter
  | logFormat
  deriving DecidableEq, Repr

namespace Field

def name : Field → String
  | ns => "namespace"
  | syncPeriod => "syncPeriod"
  | maxConcurrentReconciles => "maxConcurrentReconciles"
  | statusRetrySteps => "statusRetrySteps"
  | requeueBaseDelay => "requeueBaseDelay"
  | requeueMaxDelay => "requeueMaxDelay"
  | cacheSyncInterval => "cacheSyncInterval"
  | cacheSyncAttempts => "cacheSyncAttempts"
  | cacheSyncTimeout => "cacheSyncTimeout"
  | healthAddress => "healthAddr"
  | ingressPathRewrite => "ingressPathRewrite"
  | reporter => "reporter"
  | logFormat => "logFormat"

def all : List Field :=
  [ns, syncPeriod, maxConcurrentReconciles, statusRetrySteps, requeueBaseDelay, requeueMaxDelay,
    cacheSyncInterval, cacheSyncAttempts, cacheSyncTimeout, healthAddress, ingressPathRewrite,
    reporter, logFormat]

def ofName? (s : String) : Option Field := all.find? (·.name = s)

end Field

/-- Why a file is no configuration. -/
inductive Invalid where
  | duration (e : DurationError)
  | form
  deriving DecidableEq

def Invalid.message : Invalid → String
  | duration e => "invalid config file: " ++ e.message
  | form => "invalid config file"

/-! Scalars -/

def tagOf (kind : String) : String := "tag:yaml.org,2002:" ++ kind

def isNull (text : String) : Bool := text ∈ ["null", "Null", "NULL", "~"]

def asText : Event → Except Invalid String
  | .scalar _ _ text => .ok text
  | _ => .error .form

def asOptionalText : Event → Except Invalid (Option String)
  | .scalar p style text =>
    match p.tag with
    | some tag =>
      if tag = tagOf "null" then if isNull text then .ok none else .error .form else .ok (some text)
    | none =>
      if style = .plain ∧ (text.isEmpty ∨ isNull text) then .ok none else .ok (some text)
  | _ => .error .form

/-- The text of a plain scalar, or of a literal one that carries the tag of the kind. -/
def literalText? (kind : String) : Event → Option String
  | .scalar p style text =>
    if style = .plain ∨ (style = .literal ∧ p.tag = some (tagOf kind)) then some text else none
  | _ => none

def asBool (e : Event) : Except Invalid Bool :=
  match literalText? "bool" e with
  | some text =>
    if text ∈ ["true", "True", "TRUE"] then .ok true
    else if text ∈ ["false", "False", "FALSE"] then .ok false
    else .error .form
  | none => .error .form

/-- The value of digits, of which there is at least one; a sign may come first. -/
def digits? (radix : Nat) (cs : List Char) : Option Nat :=
  let cs := match cs with
    | '+' :: rest => rest
    | cs => cs
  if cs.isEmpty then none
  else cs.foldl (fun n c => do return (← n) * radix + (← Net.Address.digit? radix c)) (some 0)

/-- A number that may be hexadecimal, octal or binary; decimal ones have no leading zeros. -/
def natural? (text : String) : Option Nat :=
  let unsigned := match text.toList with
    | '+' :: rest => rest
    | cs => cs
  let signed : Bool := match unsigned with
    | '+' :: _ | '-' :: _ => true
    | _ => false
  let other : Option Nat :=
    let bare (radix : Nat) (rest : List Char) : Option Nat :=
      if rest.head? = some '+' then none else digits? radix rest
    match unsigned with
    | '0' :: 'x' :: rest => bare 16 rest
    | '0' :: 'o' :: rest => bare 8 rest
    | '0' :: 'b' :: rest => bare 2 rest
    | _ => none
  let padded : Bool := match unsigned with
    | '0' :: _ :: _ => unsigned.all (·.isDigit)
    | _ => false
  match other with
  | some n => some n
  | none => if signed || padded then none else digits? 10 unsigned

def asNatural (bound : Nat) (e : Event) : Except Invalid Nat :=
  match (literalText? "int" e).bind natural? with
  | some n => if n < bound then .ok n else .error .form
  | none => .error .form

def asDuration (e : Event) : Except Invalid Duration :=
  match asText e with
  | .ok text =>
    match Duration.read text with
    | .ok d => .ok d
    | .error e => .error (.duration e)
  | .error e => .error e

def asAddress (e : Event) : Except Invalid Net.Address :=
  match asText e with
  | .ok text =>
    match Net.Address.read? text with
    | some a => .ok a
    | none => .error .form
  | .error e => .error e

/-- A format by its name, or a null with the name as a local tag. -/
def asLogFormat : Event → Except Invalid LogFormat
  | .scalar p style text =>
    let localTag : Option String := p.tag.bind fun t => match t.toList with
      | '!' :: c :: rest => some (String.ofList (c :: rest))
      | _ => none
    let name : Option String := match localTag with
      | some t => if style = .plain ∧ (text.isEmpty ∨ isNull text) then some t else none
      | none => some text
    match name.bind LogFormat.ofName? with
    | some f => .ok f
    | none => .error .form
  | _ => .error .form

/-- Set a field to the value that begins with an event. -/
def setField (c : Config) (e : Event) : Field → Except Invalid Config
  | .ns => return { c with ns := ← asOptionalText e }
  | .syncPeriod => return { c with syncPeriod := ← asDuration e }
  | .maxConcurrentReconciles =>
    return { c with maxConcurrentReconciles := ← asNatural (Nat.pow 2 64) e }
  | .statusRetrySteps => return { c with statusRetrySteps := ← asNatural (Nat.pow 2 32) e }
  | .requeueBaseDelay => return { c with requeueBaseDelay := ← asDuration e }
  | .requeueMaxDelay => return { c with requeueMaxDelay := ← asDuration e }
  | .cacheSyncInterval => return { c with cacheSyncInterval := ← asDuration e }
  | .cacheSyncAttempts => return { c with cacheSyncAttempts := ← asNatural (Nat.pow 2 32) e }
  | .cacheSyncTimeout => return { c with cacheSyncTimeout := ← asDuration e }
  | .healthAddress => return { c with healthAddress := ← asAddress e }
  | .ingressPathRewrite => return { c with ingressPathRewrite := ← asBool e }
  | .reporter => return { c with reporter := ← asText e }
  | .logFormat => return { c with logFormat := ← asLogFormat e }

/-! Mappings -/

/-- Events with the aliases of scalars replaced; an alias of nothing ends them. -/
def resolve (anchors : List (String × Event)) : List Event → List Event
  | [] => []
  | .alias name :: rest =>
    match anchors.lookup name with
    | some (.scalar p style text) =>
      .scalar { p with anchor := none } style text :: resolve anchors rest
    | some _ => .alias name :: resolve anchors rest
    | none => []
  | e :: rest =>
    let anchors := match e.properties?.bind (·.anchor) with
      | some name => (name, e) :: anchors
      | none => anchors
    e :: resolve anchors rest

/-- The events after a node, at a depth of open collections. -/
def skipNode (depth : Nat) : List Event → Option (List Event)
  | [] => none
  | e :: rest =>
    match e with
    | .sequenceStart _ | .mappingStart _ => skipNode (depth + 1) rest
    | .sequenceEnd | .mappingEnd =>
      if depth ≤ 1 then some rest else skipNode (depth - 1) rest
    | .scalar .. | .alias _ => if depth = 0 then some rest else skipNode depth rest
    | .streamEnd | .documentStart | .documentEnd => none

/-- The fields of a mapping up to its end. -/
def fields (c : Config) (seen : List Field) :
    Nat → List Event → Except Invalid (Config × List Event)
  | 0, _ => .error .form
  | fuel + 1, es => do
    match es with
    | .mappingEnd :: rest => return (c, rest)
    | .scalar _ _ key :: rest =>
      match Field.ofName? key with
      | none =>
        match skipNode 0 rest with
        | some rest => fields c seen fuel rest
        | none => .error .form
      | some f =>
        if f ∈ seen then .error .form
        else
          match rest with
          | e :: rest => fields (← c.setField e f) (f :: seen) fuel rest
          | [] => .error .form
    | _ => .error .form

/-- The configuration of a document, and the events after it. -/
def document : List Event → Except Invalid (Config × List Event)
  | [.streamEnd] => .ok ({}, [.documentEnd, .streamEnd])
  | .documentStart :: .scalar _ .plain "" :: rest => .ok ({}, rest)
  | .documentStart :: .mappingStart _ :: rest => fields {} [] (rest.length + 1) rest
  | _ => .error .form

/-- Read the text of a file; what was read is not checked. -/
def decode (text : String) : Except Invalid Config :=
  let (events, problem) := Yaml.events text
  match document (resolve [] events) with
  | .error e => .error e
  | .ok (c, rest) =>
    if problem.isNone ∧ rest = [.documentEnd, .streamEnd] then .ok c else .error .form

/-- Read and check the text of a file. -/
def ofYaml (text : String) : Except Failure Config :=
  match decode text with
  | .ok c => c.validate
  | .error e => .error (.config e.message)

end GameIngress.Config
