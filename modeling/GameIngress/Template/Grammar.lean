import GameIngress.Template.Expr

/-!
# The template grammar

Recursive descent over tokens. Operators bind, from loosest to tightest: inline `if`, `or`, `and`,
`not`, comparisons, sums, `~`, products, powers, sign, and last what follows an operand. Operators
of one kind group to the left. Statements and operands may be nested to a fixed depth.
-/
namespace GameIngress.Template
namespace Grammar

structure State where
  rest : List Token
  depth : Nat := 0
  blocks : List String := []
  inMacro : Bool := false

abbrev Parse (α : Type) := StateT State (Except SyntaxError) α

/-- How deep statements and operands may be nested. -/
def depthLimit : Nat := 150

def peek : Parse (Option Token) := do return (← get).rest.head?

def next : Parse (Option Token) := do
  let s ← get
  set { s with rest := s.rest.tail }
  return s.rest.head?

/-- Take the given token if it comes next. -/
def skip (t : Token) : Parse Bool := do
  if (← peek) = some t then
    let _ ← next
    return true
  else return false

def skipSymbol (s : Symbol) : Parse Bool := skip (.symbol s)
def skipWord (w : String) : Parse Bool := skip (.name w)

def expect (t : Token) : Parse Unit := do
  match ← next with
  | some u => if u = t then return () else throw .unexpectedToken
  | none => throw .unexpectedEnd

def expectSymbol (s : Symbol) : Parse Unit := expect (.symbol s)

def expectName : Parse String := do
  match ← next with
  | some (.name s) => return s
  | some _ => throw .unexpectedToken
  | none => throw .unexpectedEnd

/-- One level deeper. -/
def nested {α : Type} (p : Parse α) : Parse α := do
  let s ← get
  if depthLimit ≤ s.depth then throw .tooDeep
  set { s with depth := s.depth + 1 }
  let a ← p
  modify fun t => { t with depth := s.depth }
  return a

def reservedNames : List String :=
  ["true", "True", "false", "False", "none", "None", "loop", "self"]

def assignName : Parse String := do
  let name ← expectName
  if reservedNames.contains name then throw (.reservedName name)
  return name

/-- Operators of one level that group to the left. -/
def operatorAt (level : Nat) (t : Token) : Option (Expr → Expr → Expr) :=
  match level, t with
  | 0, .name "or" => some .either
  | 1, .name "and" => some .both
  | 4, .symbol .plus => some (.binary .add)
  | 4, .symbol .minus => some (.binary .sub)
  | 5, .symbol .tilde => some (.binary .concat)
  | 6, .symbol .star => some (.binary .mul)
  | 6, .symbol .slash => some (.binary .div)
  | 6, .symbol .floorDiv => some (.binary .floorDiv)
  | 6, .symbol .percent => some (.binary .rem)
  | 7, .symbol .power => some (.binary .pow)
  | _, _ => none

def comparison : Token → Option BinaryOp
  | .symbol .eq => some .eq
  | .symbol .ne => some .ne
  | .symbol .lt => some .lt
  | .symbol .le => some .le
  | .symbol .gt => some .gt
  | .symbol .ge => some .ge
  | .name "in" => some .isIn
  | _ => none

/-- Whether a token after the name of a test starts its only argument. -/
def startsTestArgument : Token → Bool
  | .name w => !(["and", "or", "else", "is"].contains w)
  | .text _ | .int _ | .decimal _ _ => true
  | .symbol s => [Symbol.plus, .minus, .bracketOpen, .braceOpen].contains s
  | _ => false

mutual
def expr : Nat → Parse Expr
  | 0 => throw .tooDeep
  | fuel + 1 => do
    let e ← operand fuel 0
    inlineIfs fuel e
def inlineIfs : Nat → Expr → Parse Expr
  | 0, _ => throw .tooDeep
  | fuel + 1, e => do
    if ← skipWord "if" then
      let condition ← operand fuel 0
      if ← skipWord "else" then
        let no ← expr fuel
        inlineIfs fuel (.choice condition e (some no))
      else inlineIfs fuel (.choice condition e none)
    else return e
/-- An operand of the operators looser than `level`. -/
def operand : Nat → Nat → Parse Expr
  | 0, _ => throw .tooDeep
  | fuel + 1, level => do
    if level = 2 then
      if ← skipWord "not" then return .not (← operand fuel 2) else operand fuel 3
    else if level = 3 then
      let e ← operand fuel 4
      comparisons fuel e
    else if 8 ≤ level then unary fuel
    else
      let e ← operand fuel (level + 1)
      operators fuel level e
def operators : Nat → Nat → Expr → Parse Expr
  | 0, _, _ => throw .tooDeep
  | fuel + 1, level, e => do
    match (← peek).bind (operatorAt level) with
    | some op =>
      let _ ← next
      let right ← operand fuel (level + 1)
      operators fuel level (op e right)
    | none => return e
def comparisons : Nat → Expr → Parse Expr
  | 0, _ => throw .tooDeep
  | fuel + 1, e => do
    if ← skipWord "not" then
      expect (.name "in")
      let right ← operand fuel 4
      comparisons fuel (.not (.binary .isIn e right))
    else
      match (← peek).bind comparison with
      | some op =>
        let _ ← next
        let right ← operand fuel 4
        comparisons fuel (.binary op e right)
      | none => return e
def unary : Nat → Parse Expr
  | 0 => throw .tooDeep
  | fuel + 1 => do
    let e ← signed fuel
    let e ← accesses fuel e
    filters fuel e
def signed : Nat → Parse Expr
  | 0 => throw .tooDeep
  | fuel + 1 => do
    if ← skipSymbol .minus then return .neg (← signed fuel) else nested (primary fuel)
/-- Attributes, items, slices and calls that follow an operand. -/
def accesses : Nat → Expr → Parse Expr
  | 0, _ => throw .tooDeep
  | fuel + 1, e => do
    if ← skipSymbol .dot then
      match ← next with
      | some (.name name) => accesses fuel (.attr e name)
      | some (.int n) => accesses fuel (.item e (.lit (.int n)))
      | some _ => throw .unexpectedToken
      | none => throw .unexpectedEnd
    else if ← skipSymbol .bracketOpen then
      let start ← if (← peek) = some (.symbol .colon) then pure none
        else some <$> expr fuel
      if ← skipSymbol .colon then
        let t ← peek
        let stop ← if t = some (.symbol .colon) ∨ t = some (.symbol .bracketClose) then pure none
          else some <$> expr fuel
        let step ← if ← skipSymbol .colon then
            if (← peek) = some (.symbol .bracketClose) then pure none else some <$> expr fuel
          else pure none
        expectSymbol .bracketClose
        accesses fuel (.slice e start stop step)
      else
        expectSymbol .bracketClose
        match start with
        | some sub => accesses fuel (.item e sub)
        | none => throw .unexpectedToken
    else if (← peek) = some (.symbol .parenOpen) then
      let args ← arguments fuel
      accesses fuel (.call e args)
    else return e
/-- Filters and tests that follow an operand. -/
def filters : Nat → Expr → Parse Expr
  | 0, _ => throw .tooDeep
  | fuel + 1, e => do
    if ← skipSymbol .pipe then
      let name ← expectName
      let args ← optionalArguments fuel
      filters fuel (.filter name e args)
    else if ← skipWord "is" then
      let negated ← skipWord "not"
      let name ← expectName
      let args ← if (← peek) = some (.symbol .parenOpen) then arguments fuel
        else if (← peek).any startsTestArgument then do
          let a ← signed fuel
          let a ← accesses fuel a
          pure [.plain a]
        else pure []
      let e := Expr.test name e args
      filters fuel (if negated then .not e else e)
    else return e
def optionalArguments : Nat → Parse (List Arg)
  | 0 => throw .tooDeep
  | fuel + 1 => do
    if (← peek) = some (.symbol .parenOpen) then arguments fuel else return []
def arguments : Nat → Parse (List Arg)
  | 0 => throw .tooDeep
  | fuel + 1 => do
    expectSymbol .parenOpen
    argumentList fuel [] false
def argumentList : Nat → List Arg → Bool → Parse (List Arg)
  | 0, _, _ => throw .tooDeep
  | fuel + 1, acc, named => do
    if ← skipSymbol .parenClose then return acc.reverse
    let closed ← if acc.isEmpty then pure false
      else do
        expectSymbol .comma
        skipSymbol .parenClose
    if closed then return acc.reverse
    if ← skipSymbol .power then
      let e ← expr fuel
      argumentList fuel (.spreadNamed e :: acc) true
    else if ← skipSymbol .star then
      let e ← expr fuel
      argumentList fuel (.spread e :: acc) named
    else
      match ← expr fuel with
      | .var name =>
        if ← skipSymbol .assign then
          let e ← operand fuel 0
          argumentList fuel (.named name e :: acc) true
        else if named then throw .unexpectedToken
        else argumentList fuel (.plain (.var name) :: acc) named
      | e =>
        if named then throw .unexpectedToken
        else argumentList fuel (.plain e :: acc) named
def primary : Nat → Parse Expr
  | 0 => throw .tooDeep
  | fuel + 1 => do
    match ← next with
    | none => throw .unexpectedEnd
    | some (.name "true") | some (.name "True") => return .lit (.bool true)
    | some (.name "false") | some (.name "False") => return .lit (.bool false)
    | some (.name "none") | some (.name "None") => return .lit .none
    | some (.name s) => return .var s
    | some (.text s) => texts fuel s
    | some (.int n) => return .lit (.int n)
    | some (.decimal n e) => return .lit (.decimal n e)
    | some (.symbol .parenOpen) =>
      if ← skipSymbol .parenClose then return .list []
      let e ← expr fuel
      if ← skipSymbol .comma then tupleItems fuel [e]
      else
        expectSymbol .parenClose
        return e
    | some (.symbol .bracketOpen) => listItems fuel []
    | some (.symbol .braceOpen) => dictEntries fuel []
    | some _ => throw .unexpectedToken
/-- Text literals in a row are one text. -/
def texts : Nat → String → Parse Expr
  | 0, _ => throw .tooDeep
  | fuel + 1, s => do
    match ← peek with
    | some (.text t) =>
      let _ ← next
      texts fuel (s ++ t)
    | _ => return .lit (.text s)
def tupleItems : Nat → List Expr → Parse Expr
  | 0, _ => throw .tooDeep
  | fuel + 1, acc => do
    if ← skipSymbol .parenClose then return .list acc.reverse
    let e ← expr fuel
    if ← skipSymbol .parenClose then return .list (e :: acc).reverse
    expectSymbol .comma
    tupleItems fuel (e :: acc)
def listItems : Nat → List Expr → Parse Expr
  | 0, _ => throw .tooDeep
  | fuel + 1, acc => do
    if ← skipSymbol .bracketClose then return .list acc.reverse
    let closed ← if acc.isEmpty then pure false
      else do
        expectSymbol .comma
        skipSymbol .bracketClose
    if closed then return .list acc.reverse
    let e ← expr fuel
    listItems fuel (e :: acc)
def dictEntries : Nat → List (Expr × Expr) → Parse Expr
  | 0, _ => throw .tooDeep
  | fuel + 1, acc => do
    if ← skipSymbol .braceClose then return .dict acc.reverse
    let closed ← if acc.isEmpty then pure false
      else do
        expectSymbol .comma
        skipSymbol .braceClose
    if closed then return .dict acc.reverse
    let k ← expr fuel
    expectSymbol .colon
    let v ← expr fuel
    dictEntries fuel ((k, v) :: acc)
end

/-- One name, or a list of names and nested lists. -/
def targetList : Nat → List Target → Bool → Parse Target
  | 0, _, _ => throw .tooDeep
  | fuel + 1, acc, many => do
    let finish (acc : List Target) (many : Bool) : Target :=
      match acc, many with
      | [t], false => t
      | ts, _ => .list ts.reverse
    if !acc.isEmpty then expectSymbol .comma
    let t ← peek
    if t = some (.symbol .parenClose) ∨ t = some .variableEnd ∨ t = some .blockEnd
        ∨ t = some (.name "in") then
      return finish acc many
    let item ← if ← skipSymbol .parenOpen then do
        let inner ← targetList fuel [] false
        expectSymbol .parenClose
        pure inner
      else Expr.var <$> assignName
    if (← peek) = some (.symbol .comma) then targetList fuel (item :: acc) true
    else return finish (item :: acc) many

/-- Attribute names that follow the name of a target. -/
def dotted : Nat → Target → Parse Target
  | 0, _ => throw .tooDeep
  | fuel + 1, t => do
    if ← skipSymbol .dot then
      let name ← expectName
      dotted fuel (.attr t name)
    else return t

def filterChain : Nat → FilterChain → Parse FilterChain
  | 0, _ => throw .tooDeep
  | fuel + 1, acc => do
    if (← peek) = some .blockEnd then
      if acc.isEmpty then throw .unexpectedToken
      return acc.reverse
    if !acc.isEmpty then expectSymbol .pipe
    let name ← expectName
    let args ← optionalArguments fuel
    filterChain fuel ((name, args) :: acc)

/-- Parameters of a macro; after one with a default all have defaults. -/
def parameters : Nat → List (String × Option Expr) → Parse (List (String × Option Expr))
  | 0, _ => throw .tooDeep
  | fuel + 1, acc => do
    if ← skipSymbol .parenClose then return acc.reverse
    let closed ← if acc.isEmpty then pure false
      else do
        expectSymbol .comma
        skipSymbol .parenClose
    if closed then return acc.reverse
    let name ← assignName
    if ← skipSymbol .assign then
      let e ← expr fuel
      parameters fuel ((name, some e) :: acc)
    else if acc.any (·.2.isSome) then throw .unexpectedToken
    else parameters fuel ((name, none) :: acc)

def withBindings : Nat → List (Target × Expr) → Parse (List (Target × Expr))
  | 0, _ => throw .tooDeep
  | fuel + 1, acc => do
    if (← peek) = some .blockEnd then return acc.reverse
    if !acc.isEmpty then expectSymbol .comma
    let target ← if ← skipSymbol .parenOpen then do
        let t ← targetList fuel [] false
        expectSymbol .parenClose
        pure t
      else Expr.var <$> assignName
    expectSymbol .assign
    let e ← expr fuel
    withBindings fuel ((target, e) :: acc)

/-- The words on whether another template sees the names in scope; they change nothing. -/
def contextWords : Parse Unit := do
  let found ← do
    if ← skipWord "without" then pure true else skipWord "with"
  if found then expect (.name "context")

/-- Names that are taken from another template, each with an optional new name. -/
def importedNames : Nat → Bool → Parse Unit
  | 0, _ => throw .tooDeep
  | fuel + 1, first => do
    if (← peek) = some .blockEnd then
      if first then throw .unexpectedToken else return ()
    if !first then
      expectSymbol .comma
      if (← peek) = some .blockEnd then return ()
    let _ ← assignName
    if ← skipWord "as" then
      let _ ← assignName
    importedNames fuel false

mutual
/-- Statements up to the end, or up to a block that starts with one of the words of `stop`. -/
def body : Nat → List String → List Stmt → Parse (List Stmt)
  | 0, _, _ => throw .tooDeep
  | fuel + 1, stop, acc => do
    match ← next with
    | none => return acc.reverse
    | some (.raw s) => body fuel stop (.raw s :: acc)
    | some .variableStart =>
      let e ← expr fuel
      expect .variableEnd
      body fuel stop (.emit e :: acc)
    | some .blockStart =>
      match ← peek with
      | none => throw .unexpectedEnd
      | some t =>
        let stops := match t with
          | .name w => stop.contains w
          | _ => false
        if stops then return acc.reverse
        let s ← nested (statement fuel)
        expect .blockEnd
        body fuel stop (s :: acc)
    | some _ => throw .unexpectedToken
/-- Statements up to the block with the given word, which is taken. -/
def bodyUntil : Nat → String → Parse (List Stmt)
  | 0, _ => throw .tooDeep
  | fuel + 1, word => do
    expect .blockEnd
    let b ← body fuel [word] []
    let _ ← next
    return b
def macroBody : Nat → String → Parse (List Stmt)
  | 0, _ => throw .tooDeep
  | fuel + 1, word => do
    let outer := (← get).inMacro
    modify fun s => { s with inMacro := true }
    let b ← bodyUntil fuel word
    modify fun s => { s with inMacro := outer }
    return b
def branch : Nat → Parse Stmt
  | 0 => throw .tooDeep
  | fuel + 1 => do
    let condition ← expr fuel
    expect .blockEnd
    let yes ← body fuel ["endif", "else", "elif"] []
    match ← next with
    | some (.name "else") => return .branch condition yes (← bodyUntil fuel "endif")
    | some (.name "elif") => return .branch condition yes [← branch fuel]
    | _ => return .branch condition yes []
def statement : Nat → Parse Stmt
  | 0 => throw .tooDeep
  | fuel + 1 => do
    match ← next with
    | some (.name "for") =>
      let target ← targetList fuel [] false
      expect (.name "in")
      let iter ← operand fuel 0
      let condition ← if ← skipWord "if" then some <$> expr fuel else pure none
      let recursive ← skipWord "recursive"
      expect .blockEnd
      let b ← body fuel ["endfor", "else"] []
      if ← skipWord "else" then
        return .loop target iter condition recursive b (← bodyUntil fuel "endfor")
      let _ ← next
      return .loop target iter condition recursive b []
    | some (.name "if") => branch fuel
    | some (.name "with") =>
      let bindings ← withBindings fuel []
      return .scoped bindings (← bodyUntil fuel "endwith")
    | some (.name "set") =>
      if ← skipSymbol .parenOpen then
        let t ← targetList fuel [] false
        expectSymbol .parenClose
        expectSymbol .assign
        return .assign t (← expr fuel)
      let t ← dotted fuel (.var (← assignName))
      if (← peek) = some .blockEnd then return .capture t [] (← bodyUntil fuel "endset")
      if ← skipSymbol .pipe then
        let fs ← filterChain fuel []
        return .capture t fs (← bodyUntil fuel "endset")
      expectSymbol .assign
      return .assign t (← expr fuel)
    | some (.name "autoescape") =>
      let mode ← expr fuel
      return .escaping mode (← bodyUntil fuel "endautoescape")
    | some (.name "filter") =>
      let fs ← filterChain fuel []
      return .filtered fs (← bodyUntil fuel "endfilter")
    | some (.name "block") =>
      let s ← get
      if s.inMacro then throw .badStatement
      let name ← expectName
      if s.blocks.contains name then throw (.duplicateBlock name)
      modify fun s => { s with blocks := name :: s.blocks }
      let b ← bodyUntil fuel "endblock"
      match ← peek with
      | some (.name w) => if w = name then expect (.name w) else throw .unexpectedToken
      | _ => pure ()
      return .block name b
    | some (.name "extends") => return .fetch (← expr fuel) false
    | some (.name "include") =>
      let name ← expr fuel
      contextWords
      if ← skipWord "ignore" then
        expect (.name "missing")
        contextWords
        return .fetch name true
      return .fetch name false
    | some (.name "import") =>
      let name ← expr fuel
      expect (.name "as")
      let _ ← assignName
      contextWords
      return .fetch name false
    | some (.name "from") =>
      let name ← expr fuel
      expect (.name "import")
      importedNames fuel true
      return .fetch name false
    | some (.name "macro") =>
      let name ← expectName
      expectSymbol .parenOpen
      let params ← parameters fuel []
      return .define name params (← macroBody fuel "endmacro")
    | some (.name "call") =>
      let params ← if ← skipSymbol .parenOpen then parameters fuel [] else pure []
      match ← expr fuel with
      | .call callee args => return .invoke callee args params (← macroBody fuel "endcall")
      | _ => throw .unexpectedToken
    | some (.name "do") =>
      match ← expr fuel with
      | .call callee args => return .run callee args
      | _ => throw .unexpectedToken
    | some _ => throw .badStatement
    | none => throw .unexpectedEnd
end

end Grammar

/-- The statements that the tokens of a template form. -/
def parse (tokens : List Token) : Except SyntaxError (List Stmt) :=
  (Grammar.body (20 * tokens.length + 20) [] [] |>.run { rest := tokens }).map (·.1)

end GameIngress.Template
