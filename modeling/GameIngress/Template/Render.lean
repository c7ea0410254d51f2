import GameIngress.Template.FieldDot
import GameIngress.Template.Filter
import GameIngress.Template.Grammar

/-!
# Rendering templates

A program runs against frames of names, innermost first. Loops, `with` blocks, blocks and macro
calls open a frame; assignments go to the innermost one. Any failure while a program runs makes the
whole rendering empty.

Left out are what shows the insides of the engine and what remembers its calls: the function
`debug`, the method `changed` of a loop, and the attributes of macros. Templates that use them
render differently here.
-/
namespace GameIngress.Template

abbrev Frame := List (String × Value)

/-- Whether written values are escaped as markup. -/
inductive Escape where
  | off
  | markup
  deriving DecidableEq

structure Scope where
  frames : List Frame
  escape : Escape := .off
  blocks : List (String × List Stmt) := []
  depth : Nat := 0

/-- How deep calls and loops may be nested while a program runs. -/
def callDepth : Nat := 500

namespace Scope

/-- The functions that every template can call, but `debug`. -/
def globals : List String := ["range", "dict", "namespace"]

def lookup (s : Scope) (name : String) : Value :=
  match s.frames.findSome? (·.lookup name) with
  | some v => v
  | none => if globals.contains name then .function name else .undefined

def setIn (name : String) (v : Value) : Frame → Frame
  | [] => [(name, v)]
  | (n, w) :: rest => if n = name then (n, v) :: rest else (n, w) :: setIn name v rest

def store (s : Scope) (name : String) (v : Value) : Scope :=
  match s.frames with
  | [] => { s with frames := [[(name, v)]] }
  | f :: rest => { s with frames := setIn name v f :: rest }

/-- Replace the value of a name in the innermost frame that has it. -/
def update (name : String) (v : Value) : List Frame → List Frame
  | [] => []
  | f :: rest =>
    if (f.lookup name).isSome then setIn name v f :: rest else f :: update name v rest

def push (s : Scope) (f : Frame) : Scope :=
  { s with frames := f :: s.frames, depth := s.depth + 1 }

/-- The scope after the innermost frame of `inner` is closed. -/
def popTo (outer inner : Scope) : Scope := { outer with frames := inner.frames.drop 1 }

/-- Bind a value to a target. -/
def bind : Nat → Scope → Target → Value → Outcome Scope
  | 0, _, _, _ => .error .tooDeep
  | _ + 1, s, .var name, v => .ok (s.store name v)
  | _ + 1, s, .attr (.var name) member, v =>
    match s.lookup name with
    | .space es => .ok { s with frames := update name (.space (setIn member v es)) s.frames }
    | _ => .error .invalidOperation
  | fuel + 1, s, .list ts, v =>
    match v.items? with
    | some vs =>
      if ts.length = vs.length then
        (ts.zip vs).foldlM (fun s tv => bind fuel s tv.1 tv.2) s
      else .error .unpackMismatch
    | none => .error .unpackMismatch
  | _ + 1, _, _, _ => .error .invalidOperation

end Scope

/-- The form in which a value is written into the text. -/
def emitted (e : Escape) (v : Value) : String :=
  match e with
  | .off => v.written
  | .markup => v.markup

def captured (e : Escape) (s : String) : Value := .text s (e ≠ .off)

def literal : Literal → Value
  | .none => .none
  | .bool b => .bool b
  | .int n => .int n
  | .decimal n e => .float (Number.ofDecimal false n e)
  | .text s => .str s

/-- At most this many numbers are made by `range`. -/
def rangeLimit : Nat := 100000

def rangeOf (args : List Value) : Outcome Value := do
  let ints ← args.mapM fun v => Value.ofCheck (v.wholeIn? (-(Nat.pow 2 63)) (Nat.pow 2 63 - 1))
  let (lo, hi, step) ← match ints with
    | [n] => .ok ((0 : Int), n, (1 : Int))
    | [a, b] => .ok (a, b, 1)
    | [a, b, s] => .ok (a, b, s)
    | [] => .error .missingArgument
    | _ => .error .tooManyArguments
  if step = 0 then .error .invalidOperation
  else
    let count := if 0 < step then ((hi - lo + step - 1) / step).toNat
      else ((lo - hi - step - 1) / -step).toNat
    if rangeLimit < count then .error .invalidOperation
    else .ok (.list ((List.range count).map fun (k : Nat) => .int (lo + k * step)))

private def memberKey (v : Value) : String := v.written

def callFunction (name : String) (a : Value.Arguments) : Outcome Value :=
  match name with
  | "range" => if a.named.isEmpty then rangeOf a.plain else .error .tooManyArguments
  | "dict" | "namespace" => do
    let base ← match a.plain with
      | [] => .ok []
      | [v] => Value.ofCheck v.dictEntries?
      | _ => .error .tooManyArguments
    let entries := base ++ a.named.map fun e => (Value.str e.1, e.2)
    if name = "dict" then .ok (Value.dictOf entries)
    else .ok (.space (entries.foldl (fun es e => Scope.setIn (memberKey e.1) e.2 es) []))
  | name => .error (.unknownFunction name)

private def blockModes (initial : Escape) (v : Value) : Outcome Escape :=
  match v with
  | .text "html" _ => .ok .markup
  | .text "none" _ => .ok .off
  | .bool true => .ok (if initial = .off then .markup else initial)
  | .bool false | .none => .ok .off
  | _ => .error .invalidOperation

/-- The values of the parameters that have an argument, and the parameters that have none. -/
def matchArguments (params : List (String × Option Expr)) (a : Value.Arguments) :
    Outcome (Frame × List (String × Option Expr)) :=
  let extra := a.named.any fun e => e.1 ≠ "caller" ∧ !(params.any fun p => p.1 = e.1)
  let twice := (params.take a.plain.length).any fun p => (a.named.lookup p.1).isSome
  if params.length < a.plain.length ∨ extra ∨ twice then .error .tooManyArguments
  else
    let byPosition := (params.map (·.1)).zip a.plain
    let later := params.drop a.plain.length
    let byName := later.filterMap fun p => (a.named.lookup p.1).map (p.1, ·)
    let caller := (a.named.lookup "caller").toList.map ("caller", ·)
    .ok (byPosition ++ byName ++ caller, later.filter fun p => (a.named.lookup p.1).isNone)

mutual
def eval : Nat → Scope → Expr → Outcome Value
  | 0, _, _ => .error .tooDeep
  | fuel + 1, s, e =>
    match e with
    | .lit l => .ok (literal l)
    | .var name => .ok (s.lookup name)
    | .list es => (es.mapM (eval fuel s)).map .list
    | .dict es => do
      let entries ← es.mapM fun (k, v) => do return (← eval fuel s k, ← eval fuel s v)
      .ok (Value.dictOf entries)
    | .attr e name => do
      match ← eval fuel s e with
      | .undefined => .error .memberOfUndefined
      | v => .ok ((v.attr? name).getD .undefined)
    | .item e sub => do
      let v ← eval fuel s e
      let k ← eval fuel s sub
      match v with
      | .undefined => .error .memberOfUndefined
      | v => .ok ((v.item? k).getD .undefined)
    | .slice e start stop step => do
      let v ← eval fuel s e
      let start ← evalOption fuel s start
      let stop ← evalOption fuel s stop
      let step ← evalOption fuel s step
      v.slice start stop step
    | .not e => return .bool !(← eval fuel s e).isTrue
    | .neg e => (eval fuel s e).bind Value.neg
    | .binary op a b => do
      let x ← eval fuel s a
      let y ← eval fuel s b
      Value.binary op x y
    | .both a b => do
      let x ← eval fuel s a
      if x.isTrue then eval fuel s b else .ok x
    | .either a b => do
      let x ← eval fuel s a
      if x.isTrue then .ok x else eval fuel s b
    | .choice condition yes no => do
      if (← eval fuel s condition).isTrue then eval fuel s yes
      else match no with
        | some e => eval fuel s e
        | none => .ok .undefined
    | .filter name e args => do
      let v ← eval fuel s e
      let a ← evalArgs fuel s args
      Value.filter name v a
    | .test name e args => do
      let v ← eval fuel s e
      let a ← evalArgs fuel s args
      if a.named.isEmpty then (Value.test Value.filterNames name v a.plain).map .bool
      else .error .tooManyArguments
    | .call callee args => do
      let a ← evalArgs fuel s args
      evalCall fuel s callee a
def evalOption : Nat → Scope → Option Expr → Outcome Value
  | 0, _, _ => .error .tooDeep
  | fuel + 1, s, e =>
    match e with
    | some e => eval fuel s e
    | none => .ok .none
def evalArgs : Nat → Scope → List Arg → Outcome Value.Arguments
  | 0, _, _ => .error .tooDeep
  | fuel + 1, s, args =>
    args.foldlM (fun acc arg =>
      match arg with
      | .plain e => (eval fuel s e).map fun v => { acc with plain := acc.plain ++ [v] }
      | .named name e =>
        (eval fuel s e).map fun v => { acc with named := Scope.setIn name v acc.named }
      | .spread e => do
        let vs ← Value.ofCheck (← eval fuel s e).items?
        .ok { acc with plain := acc.plain ++ vs }
      | .spreadNamed e => do
        let es ← Value.ofCheck (← eval fuel s e).dictEntries?
        .ok { acc with
          named := es.foldl (fun m e => Scope.setIn (memberKey e.1) e.2 m) acc.named }) {}
def evalCall : Nat → Scope → Expr → Value.Arguments → Outcome Value
  | 0, _, _, _ => .error .tooDeep
  | fuel + 1, s, callee, a =>
    match callee with
    | .var "super" => .error .invalidOperation
    | .var "loop" =>
      match s.lookup "loop", a.plain with
      | .loop _ _ depth _ _ (some code), [v] =>
        (execLoop fuel s code true (depth + 1) v).map fun r => captured s.escape r.2
      | _, _ => .error .invalidOperation
    | .var name =>
      match s.lookup name with
      | .undefined => .error (.unknownFunction name)
      | v => apply fuel s v a
    | .attr (.var "self") name =>
      match s.lookup "self", s.blocks.lookup name with
      | .undefined, some body =>
        (execAll fuel (s.push []) body).map fun r => captured s.escape r.2
      | .undefined, none => .error .invalidOperation
      | v, _ => callMethod fuel s v name a
    | .attr e name => do
      match ← eval fuel s e with
      | .undefined => .error .memberOfUndefined
      | v => callMethod fuel s v name a
    | e => do
      let v ← eval fuel s e
      apply fuel s v a
/-- Call a method; loops have no other one than `cycle` here. -/
def callMethod : Nat → Scope → Value → String → Value.Arguments → Outcome Value
  | 0, _, _, _, _ => .error .tooDeep
  | fuel + 1, s, v, name, a =>
    match v, name with
    | .loop index .., "cycle" =>
      if a.plain.isEmpty then .error .missingArgument
      else .ok ((a.plain[(index - 1) % a.plain.length]?).getD .undefined)
    | v, name =>
      match v with
      | .dict _ | .space _ =>
        match v.attr? name with
        | some f => apply fuel s f a
        | none => .error (.unknownMethod name)
      | _ => .error (.unknownMethod name)
/-- Call a value. -/
def apply : Nat → Scope → Value → Value.Arguments → Outcome Value
  | 0, _, _, _ => .error .tooDeep
  | fuel + 1, s, f, a =>
    match f with
    | .function name => callFunction name a
    | .macroDef _ params body depth =>
      runMacro fuel { s with frames := s.frames.drop (s.frames.length - depth) } params body a
    | .caller params body frames => runMacro fuel { s with frames := frames } params body a
    | _ => .error .invalidOperation
def runMacro : Nat → Scope → List (String × Option Expr) → List Stmt → Value.Arguments →
    Outcome Value
  | 0, _, _, _, _ => .error .tooDeep
  | fuel + 1, s, params, body, a => do
    if callDepth < s.depth + 4 then .error .tooDeep
    else
      let (frame, missing) ← matchArguments params a
      let s := { s with frames := frame :: s.frames, depth := s.depth + 4 }
      let s ← missing.foldlM (fun s p => do
        let v ← match p.2 with
          | some e => eval fuel s e
          | none => .ok .undefined
        return s.store p.1 v) s
      let (_, out) ← execAll fuel s body
      .ok (captured s.escape out)
def applyChain : Nat → Scope → FilterChain → Value → Outcome Value
  | 0, _, _, _ => .error .tooDeep
  | fuel + 1, s, chain, v =>
    chain.foldlM (fun v f => do Value.filter f.1 v (← evalArgs fuel s f.2)) v
/-- Run statements; the result is the scope after them and the text that they wrote. -/
def execAll : Nat → Scope → List Stmt → Outcome (Scope × String)
  | 0, _, _ => .error .tooDeep
  | fuel + 1, s, stmts =>
    stmts.foldlM (fun (acc : Scope × String) stmt => do
      let (s, out) ← exec fuel acc.1 stmt
      return (s, acc.2 ++ out)) (s, "")
def exec : Nat → Scope → Stmt → Outcome (Scope × String)
  | 0, _, _ => .error .tooDeep
  | fuel + 1, s, stmt =>
    match stmt with
    | .raw t => .ok (s, t)
    | .emit e => (eval fuel s e).map fun v => (s, emitted s.escape v)
    | .loop target iter filter recursive body orElse => do
      let v ← eval fuel s iter
      execLoop fuel s ⟨target, filter, body, orElse⟩ recursive 0 v
    | .branch condition yes no => do
      if (← eval fuel s condition).isTrue then execAll fuel s yes else execAll fuel s no
    | .scoped bindings body => do
      let inner ← bindings.foldlM (fun inner b => do
        let v ← eval fuel inner b.2
        inner.bind fuel b.1 v) (s.push [])
      let (inner, out) ← execAll fuel inner body
      return (s.popTo inner, out)
    | .assign target e => do
      let v ← eval fuel s e
      return (← s.bind fuel target v, "")
    | .capture target filters body => do
      let (s, out) ← execAll fuel s body
      let v ← applyChain fuel s filters (captured s.escape out)
      return (← s.bind fuel target v, "")
    | .escaping mode body => do
      let e ← blockModes .off (← eval fuel s mode)
      let (inner, out) ← execAll fuel { s with escape := e } body
      return ({ inner with escape := s.escape }, out)
    | .filtered filters body => do
      let (s, out) ← execAll fuel s body
      let v ← applyChain fuel s filters (captured s.escape out)
      return (s, emitted s.escape v)
    | .block _ body => do
      let (inner, out) ← execAll fuel (s.push []) body
      return (s.popTo inner, out)
    | .fetch name ignoreMissing => do
      let _ ← eval fuel s name
      if ignoreMissing then .ok (s, "") else .error .missingTemplate
    | .define name params body =>
      .ok (s.store name (.macroDef name params body s.frames.length), "")
    | .invoke callee args params body => do
      let a ← evalArgs fuel s args
      let a := { a with named := Scope.setIn "caller" (.caller params body s.frames) a.named }
      let v ← evalCall fuel s callee a
      return (s, emitted s.escape v)
    | .run callee args => do
      let a ← evalArgs fuel s args
      let _ ← evalCall fuel s callee a
      return (s, "")
def execLoop : Nat → Scope → LoopCode → Bool → Nat → Value → Outcome (Scope × String)
  | 0, _, _, _, _, _ => .error .tooDeep
  | fuel + 1, s, code, recursive, depth, v => do
    if callDepth < s.depth + 1 then .error .tooDeep
    else
      let all ← Value.ofCheck v.items?
      let items ← match code.filter with
        | none => .ok all
        | some condition => all.filterM fun x => do
          let inner ← (s.push []).bind fuel code.target x
          return (← eval fuel inner condition).isTrue
      if items.isEmpty then execAll fuel s code.orElse
      else
        let visited := items.toArray
        let again := if recursive then some code else none
        let (inner, out) ← (List.range visited.size).foldlM
          (fun (acc : Scope × String) i => do
            let x := (visited[i]?).getD .undefined
            let previous := if i = 0 then Value.undefined else (visited[i - 1]?).getD .undefined
            let following := (visited[i + 1]?).getD .undefined
            let s := acc.1.store "loop"
              (.loop (i + 1) visited.size depth previous following again)
            let s ← s.bind fuel code.target x
            let (s, out) ← execAll fuel s code.body
            return (s, acc.2 ++ out)) (s.push [], "")
        return (s.popTo inner, out)
end

mutual
/-- The named blocks among statements, nested ones included. -/
def blocksOf : List Stmt → List (String × List Stmt)
  | [] => []
  | stmt :: rest => blocksIn stmt ++ blocksOf rest
def blocksIn : Stmt → List (String × List Stmt)
  | .block name body => (name, body) :: blocksOf body
  | .loop _ _ _ _ body orElse => blocksOf body ++ blocksOf orElse
  | .branch _ yes no => blocksOf yes ++ blocksOf no
  | .scoped _ body => blocksOf body
  | .capture _ _ body => blocksOf body
  | .escaping _ body => blocksOf body
  | .filtered _ body => blocksOf body
  | _ => []
end

/-- What a template may refer to. -/
structure Fields where
  name : String
  port : Int32
  deriving DecidableEq

def Fields.frame (f : Fields) : Frame :=
  [("Name", .str f.name), ("Port", .int f.port.toInt)]

/-- The text that statements write, or why there is none. -/
def runProgram (size : Nat) (stmts : List Stmt) (f : Fields) : Outcome String :=
  (execAll (200 * (size + 50)) { frames := [f.frame], blocks := blocksOf stmts } stmts).map (·.2)

/-- The program that a template stands for, once its field dots are dropped. -/
def compile (source : String) : Except SyntaxError (Nat × List Stmt) := do
  let tokens ← Token.ofSource (dropFieldDots source.toList)
  let stmts ← parse tokens
  return (tokens.length, stmts)

/-- Render a template. Only a template that is not well formed is an error. -/
def render (source : String) (f : Fields) : Except SyntaxError String :=
  (compile source).map fun (size, stmts) =>
    match runProgram size stmts f with
    | .ok out => out
    | .error _ => ""

end GameIngress.Template
