import GameIngress.Failure
import GameIngress.Template.Render

/-!
# Custom annotations

A game server hands annotations on to the objects built for it. An annotation whose key starts with
the prefix of an object appears on that object under the rest of its key. A value with both
template marks is rendered first, and an empty rendering takes the annotation away.
-/
namespace GameIngress.Manifest

/-- Both template marks occur, in any order. -/
def isTemplate (s : String) : Bool :=
  Text.contains ['{', '{'] s.toList && Text.contains ['}', '}'] s.toList

/-- The rest of a text after the given start. -/
def suffixAfter? (start s : String) : Option String :=
  if start.toList.isPrefixOf s.toList then some (String.ofList (s.toList.drop start.length))
  else none

/-- An annotation to be handed on under the rest of its key. -/
structure Custom where
  key : String
  value : String
  deriving DecidableEq

/-- The annotations of `entries` under a prefix, in order. A key that is nothing but the prefix has
no name to be handed on under. -/
def customsIn (start : String) : List (String × String) → Except ValidationError (List Custom)
  | [] => .ok []
  | (key, value) :: rest =>
    match suffixAfter? start key with
    | none => customsIn start rest
    | some "" => .error (.customAnnotationSuffix key)
    | some suffix => (customsIn start rest).map (⟨suffix, value⟩ :: ·)

def customs (gs : GameServer) (start : String) : Except ValidationError (List Custom) :=
  customsIn start gs.metadata.annotationMap.entries

/-- Copy the values that are no templates. -/
def copyLiterals (found : List Custom) (m : TextMap) : TextMap :=
  found.foldl (fun m c => if isTemplate c.value then m else m.insert c.key c.value) m

/-- What templates may refer to. -/
def fields (gs : GameServer) : Template.Fields := { name := gs.name, port := gs.port }

/-- Set an annotation to a rendering, or drop it when the rendering is empty. -/
def putRendered (m : TextMap) (key rendered : String) : TextMap :=
  if rendered = "" then m.erase key else m.insert key rendered

/-- Render the values that are templates, up to the first one that is not well formed. -/
def renderTemplates (f : Template.Fields) : List Custom → TextMap →
    TextMap × Option ValidationError
  | [], m => (m, none)
  | c :: rest, m =>
    if isTemplate c.value then
      match Template.render c.value f with
      | .ok rendered => renderTemplates f rest (putRendered m c.key rendered)
      | .error _ => (m, some (.invalidTemplate c.key c.value))
    else renderTemplates f rest m

/-- An object after a build step, and what the step objected to. -/
abbrev Stepped (α : Type) := α × Option ValidationError

def literalStep (gs : GameServer) (start : String) (m : TextMap) : Stepped TextMap :=
  match customs gs start with
  | .ok found => (copyLiterals found m, none)
  | .error e => (m, some e)

def templateStep (gs : GameServer) (start : String) (m : TextMap) : Stepped TextMap :=
  match customs gs start with
  | .ok found => renderTemplates (fields gs) found m
  | .error e => (m, some e)

/-- Apply a step to the annotations of an object; there are annotations afterwards. -/
def onAnnotations (step : TextMap → Stepped TextMap) (m : ObjectMeta) : Stepped ObjectMeta :=
  let (annotations, e) := step m.annotationMap
  ({ m with annotations := some annotations }, e)

/-- Apply steps in order, up to the first objection. -/
def build {σ α : Type} (apply : σ → α → Stepped α) : List σ → α → Except ValidationError α
  | [], a => .ok a
  | s :: rest, a =>
    match apply s a with
    | (b, none) => build apply rest b
    | (_, some e) => .error e

/-- Apply all steps in order; each result is the object after the step and its objection. -/
def trace {σ α : Type} (apply : σ → α → Stepped α) : List σ → α → List (Stepped α)
  | [], _ => []
  | s :: rest, a =>
    let r := apply s a
    r :: trace apply rest r.1

end GameIngress.Manifest
