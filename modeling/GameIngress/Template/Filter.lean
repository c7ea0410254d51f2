import GameIngress.Template.Predicate

/-!
# Filters on template values

The functions that may follow a pipe.
-/
namespace GameIngress.Template.Value

/-- Arguments of a filter: those by position, and those by name. -/
structure Arguments where
  plain : List Value := []
  named : List (String × Value) := []
  deriving Inhabited

def lowerText (s : String) : String := String.ofList (Text.lower s.toList)
def upperText (s : String) : String := String.ofList (Text.upper s.toList)

/-- Capital first letter, small letters after it. -/
def capitalizeText (s : String) : String :=
  match s.toList with
  | [] => ""
  | c :: rest => String.ofList (Text.upperChar c ++ Text.lower rest)

def isAsciiPunctuation (c : Char) : Bool :=
  let n := c.toNat
  (33 ≤ n && n ≤ 47) || (58 ≤ n && n ≤ 64) || (91 ≤ n && n ≤ 96) || (123 ≤ n && n ≤ 126)

/-- Capital letters where words begin, small letters elsewhere. A word begins after a blank or a
mark other than the low line. -/
def titleText (s : String) : String := String.ofList (go true s.toList)
where
  go : Bool → List Char → List Char
    | _, [] => []
    | start, c :: rest =>
      if isAsciiPunctuation c || Text.isBlank c then c :: go true rest
      else if start then Text.upperChar c ++ go false rest
      else Text.lowerChar c ++ go false rest

/-- Replace the occurrences of `old`, found from the left. An empty text occurs before every
character and at the end. -/
def replaceText (s old new : String) : String :=
  if old = "" then
    new ++ String.join (s.toList.map fun c => String.singleton c ++ new)
  else String.ofList (go old.toList new.toList 0 s.toList)
where
  go (old new : List Char) : Nat → List Char → List Char
    | _, [] => []
    | skip + 1, _ :: rest => go old new skip rest
    | 0, c :: rest =>
      if old.isPrefixOf (c :: rest) then new ++ go old new (old.length - 1) rest
      else c :: go old new 0 rest

/-- The parts of `cs` between occurrences of `sep`, at most `limit` of them. -/
def splitText (sep : List Char) : Nat → Nat → List Char → List Char → List (List Char)
  | _, _, acc, [] => [acc.reverse]
  | limit, skip + 1, acc, _ :: rest => splitText sep limit skip acc rest
  | limit, 0, acc, c :: rest =>
    if 1 < limit ∧ sep.isPrefixOf (c :: rest) then
      acc.reverse :: splitText sep (limit - 1) (sep.length - 1) [] rest
    else splitText sep limit 0 (c :: acc) rest

def words (cs : List Char) : List (List Char) :=
  (go [] cs).filter (· ≠ [])
where
  go (acc : List Char) : List Char → List (List Char)
    | [] => [acc.reverse]
    | c :: rest => if Text.isBlank c then acc.reverse :: go [] rest else go (c :: acc) rest

/-- At most `limit` parts between blanks. -/
def splitBlank : Nat → List Char → List Char → List (List Char)
  | _, acc, [] => [acc.reverse]
  | limit, acc, c :: rest =>
    if 1 < limit ∧ Text.isBlank c then acc.reverse :: splitBlank (limit - 1) [] rest
    else splitBlank limit (c :: acc) rest

def textList (parts : List (List Char)) : Value :=
  .list (parts.map fun p => str (String.ofList p))

def split (s : String) (sep : Option String) (limit : Option Int) : Value :=
  let cs := s.toList
  let parts := match limit with
    | some n => if 0 ≤ n then some (n.toNat + 1) else .none
    | .none => .none
  match sep, parts with
  | .none, .none => textList (words cs)
  | .none, some n => textList (splitBlank n [] cs)
  | some "", _ => textList ([] :: cs.map (fun c => [c]) ++ [[]])
  | some sep, n => textList (splitText sep.toList (n.getD (cs.length + 2)) 0 [] cs)

private def dropReturn (cs : List Char) : List Char :=
  if cs.getLast? = some '\r' then cs.dropLast else cs

def lines (s : String) : Value :=
  let parts := Text.splitOn '\n' s.toList
  let parts := if parts.getLast? = some [] then parts.dropLast else parts
  textList (parts.map dropReturn)

private def dropBreak (cs : List Char) : List Char :=
  let cs := if cs.getLast? = some '\n' then cs.dropLast else cs
  if cs.getLast? = some '\r' then cs.dropLast else cs

/-- Put blanks before every line, the first and the empty ones only if asked to. -/
def indentText (s : String) (width : Nat) (first blank : Bool) : String :=
  let pad := List.replicate width ' '
  let line (l : List Char) : List Char := if l.isEmpty ∧ !blank then l else pad ++ l
  let out := match Text.splitOn '\n' (dropBreak s.toList) with
    | [] => []
    | l :: rest => (if first then line l else l) ++ ['\n'] ++ rest.flatMap fun l => line l ++ ['\n']
  String.ofList (dropBreak out)

def reversed : Value → Outcome Value
  | text s _ => .ok (str (String.ofList s.toList.reverse))
  | undefined => .ok undefined
  | none => .ok none
  | list xs => .ok (.list xs.reverse)
  | dict es => .ok (.list (es.map (·.1)).reverse)
  | _ => .error .invalidOperation

def joined (v : Value) (sep : String) : Outcome Value := do
  let items ← ofCheck v.items?
  .ok (str (sep.intercalate (items.map written)))

def decimalText? (s : String) : Option Value :=
  let cs := s.toList
  let (negative, body) := match cs with
    | '-' :: r => (true, r)
    | '+' :: r => (false, r)
    | r => (false, r)
  let word := String.ofList (body.map Char.toLower)
  if word = "inf" ∨ word = "infinity" then
    some (.float (if negative then -1.0 / 0.0 else 1.0 / 0.0))
  else if word = "nan" then some (.float (0.0 / 0.0))
  else
    let whole := body.takeWhile Char.isDigit
    let (fraction, rest) := match body.dropWhile Char.isDigit with
      | '.' :: r => (r.takeWhile Char.isDigit, r.dropWhile Char.isDigit)
      | r => ([], r)
    let exponent : Option Int := match rest with
      | [] => some 0
      | e :: '-' :: ds =>
        if e.toLower = 'e' then (Token.digitsIn 10 ds).map fun n => -(n : Int) else .none
      | e :: '+' :: ds =>
        if e.toLower = 'e' then (Token.digitsIn 10 ds).map fun n => (n : Int) else .none
      | e :: ds => if e.toLower = 'e' then (Token.digitsIn 10 ds).map fun n => (n : Int) else .none
    match exponent, Token.digitsIn 10 (whole ++ fraction) with
    | some e, some n => some (.float (Number.ofDecimal negative n (e - (fraction.length : Int))))
    | _, _ => .none

def intText? (s : String) : Option Int :=
  let (negative, ds) := match s.toList with
    | '-' :: r => (true, r)
    | '+' :: r => (false, r)
    | r => (false, r)
  (Token.digitsIn 10 ds).bind fun n =>
    let i : Int := if negative then -(n : Int) else n
    if fitsWide i then some i else .none

/-- The integer part of a float, kept within 128 bits. -/
def truncated (x : Float) : Int :=
  match Number.classify x with
  | .notANumber => 0
  | .infinite negative => if negative then -(Nat.pow 2 127) else Nat.pow 2 127 - 1
  | .finite b => max (-(Nat.pow 2 127)) (min (Nat.pow 2 127 - 1) b.truncate)

def toInt : Value → Outcome Value
  | undefined | none => .ok (.int 0)
  | bool b => .ok (.int (if b then 1 else 0))
  | int i => .ok (.int i)
  | float x => .ok (.int (truncated x))
  | text s _ =>
    match intText? s with
    | some i => .ok (.int i)
    | .none =>
      match decimalText? s with
      | some (.float x) => .ok (.int (truncated x))
      | _ => .error .invalidOperation
  | _ => .error .invalidOperation

def toFloat : Value → Outcome Value
  | undefined | none => .ok (.float 0.0)
  | text s _ => ofCheck (decimalText? s)
  | v => (ofCheck (v.float? false)).map .float

def absolute : Value → Outcome Value
  | int i => .ok (.int i.natAbs)
  | float x => .ok (.float x.abs)
  | _ => .error .invalidOperation

/-- Nearest, and away from zero when halfway. -/
def roundAway (x : Float) : Float :=
  let t := if x < 0.0 then x.ceil else x.floor
  if 0.5 ≤ (x - t).abs then (if x < 0.0 then t - 1.0 else t + 1.0) else t

def rounded (v : Value) (places : Int) : Outcome Value :=
  match v with
  | int i => .ok (.int i)
  | float x =>
    let scale := Float.pow 10.0 (Number.ofInt places)
    .ok (.float (roundAway (scale * x) / scale))
  | _ => .error .invalidOperation

/-- Follow the dotted parts of a path. -/
def follow (v : Value) (path : String) : Value :=
  (Text.splitOn '.' path.toList).foldl (fun v part =>
    let part := String.ofList part
    let key := match intText? part with
      | some i => .int i
      | .none => str part
    match v.item? key with
    | some w => w
    | .none => (v.item? (str part)).getD undefined) v

private def foldCase (v : Value) : Value :=
  match v with
  | text s safe => text (String.ofList (s.toList.map Char.toLower)) safe
  | v => v

/-- Order for sorting, with the case of ASCII letters ignored unless asked for. -/
def sortOrder (caseSensitive : Bool) (a b : Value) : Ordering :=
  match a, b with
  | text .., text .. => if caseSensitive then compare a b else compare (foldCase a) (foldCase b)
  | a, b => compare a b

def Arguments.flag (a : Arguments) (name : String) : Bool :=
  ((a.named.lookup name).map isTrue).getD false

def Arguments.onlyNamed (a : Arguments) (names : List String) : Bool :=
  a.named.all fun e => names.contains e.1

private def stableSort {α : Type} (order : α → α → Ordering) (reverse : Bool) (xs : List α) :
    List α :=
  xs.mergeSort fun a b =>
    if reverse then order a b ≠ .lt else order a b ≠ .gt

def sorted (v : Value) (a : Arguments) : Outcome Value := do
  let items ← ofCheck v.items?
  let key (x : Value) : Value := match a.named.lookup "attribute" with
    | some p => x.follow p.written
    | .none => x
  .ok (.list (stableSort (fun x y => sortOrder (a.flag "case_sensitive") (key x) (key y))
    (a.flag "reverse") items))

def dictEntries? : Value → Option (List (Value × Value))
  | dict es => some es
  | space es => some (es.map fun e => (str e.1, e.2))
  | _ => .none

def dictSorted (v : Value) (a : Arguments) : Outcome Value := do
  let es ← ofCheck v.dictEntries?
  let byValue ← ofCheck (match (a.named.lookup "by").map written with
    | .none | some "key" => some false
    | some "value" => some true
    | some _ => .none)
  let key (e : Value × Value) : Value := if byValue then e.2 else e.1
  .ok (.list ((stableSort (fun x y => sortOrder (a.flag "case_sensitive") (key x) (key y))
    (a.flag "reverse") es).map fun e => .list [e.1, e.2]))

def extreme (pick : Ordering) (keepLast : Bool) (v : Value) : Outcome Value := do
  let items ← ofCheck v.items?
  match items with
  | [] => .ok undefined
  | x :: xs =>
    .ok (xs.foldl (fun best y =>
      let o := compare y best
      if o = pick ∨ (keepLast ∧ o = .eq) then y else best) x)

/-- Rows of `count` items, the last one filled up if there is something to fill with. -/
def batches (count : Nat) (fill : Option Value) : Nat → List Value → List Value
  | 0, _ => []
  | _, [] => []
  | fuel + 1, xs =>
    let row := xs.take count
    let row := match fill with
      | some f => row ++ List.replicate (count - row.length) f
      | .none => row
    .list row :: batches count fill fuel (xs.drop count)

/-- The items in `count` columns, the longer ones first. -/
def columns (count : Nat) (fill : Option Value) (xs : List Value) : List Value :=
  let each := xs.length / count
  let longer := xs.length % count
  (List.range count).map fun i =>
    let start := i * each + min i longer
    let size := each + (if i < longer then 1 else 0)
    let column := (xs.drop start).take size
    match fill with
    | some f => .list (if longer ≤ i ∧ longer ≠ 0 then column ++ [f] else column)
    | .none => .list column

def uniqueItems (key : Value → Value) : List Value → List Value → List Value
  | _, [] => []
  | seen, x :: xs =>
    let k := key x
    if seen.any (fun s => compare s k = .eq) then uniqueItems key seen xs
    else x :: uniqueItems key (k :: seen) xs

/-- Items grouped by a key, in the order of the keys. -/
def grouped (key : Value → Value) (caseSensitive : Bool) (items : List Value) : List Value :=
  let items := stableSort (fun x y => sortOrder caseSensitive (key x) (key y)) false items
  items.foldr (fun x groups =>
    match groups with
    | .list [k, .list members] :: rest =>
      if sortOrder caseSensitive k (key x) = .eq then .list [key x, .list (x :: members)] :: rest
      else .list [key x, .list [x]] :: groups
    | _ => .list [key x, .list [x]] :: groups) []

/-- One directive of a format text. -/
structure Directive where
  left : Bool := false
  sign : Bool := false
  blank : Bool := false
  zero : Bool := false
  alternate : Bool := false
  width : Nat := 0
  places : Option Nat := Option.none

private def pad (d : Directive) (numeric : Bool) (sign body : String) : String :=
  let missing := d.width - (sign.length + body.length)
  let fill (c : Char) : String := String.ofList (List.replicate missing c)
  if d.left then sign ++ body ++ fill ' '
  else if d.zero ∧ numeric then sign ++ fill '0' ++ body
  else fill ' ' ++ sign ++ body

private def signOf (d : Directive) (negative : Bool) : String :=
  if negative then "-" else if d.sign then "+" else if d.blank then " " else ""

/-- A finite float with a fixed number of decimals, halves to the even neighbour. -/
def fixedPlaces (b : Number.Binary) (places : Nat) : String :=
  let factor := if 0 ≤ b.exponent then Nat.pow 2 b.exponent.natAbs else 1
  let num := b.significand * Nat.pow 10 places * factor
  let den := if 0 ≤ b.exponent then 1 else Nat.pow 2 b.exponent.natAbs
  let q := num / den
  let r := num % den
  let q := if den < 2 * r ∨ (2 * r = den ∧ q % 2 = 1) then q + 1 else q
  Number.Decimal.positional ⟨q, -(places : Int)⟩

def formatted (d : Directive) (conversion : Char) (v : Value) : Outcome String :=
  let limit (s : String) : String := match d.places with
    | some n => String.ofList (s.toList.take n)
    | .none => s
  match conversion with
  | 's' => .ok (pad d false "" (limit v.written))
  | 'r' | 'a' => .ok (pad d false "" (limit v.listing))
  | 'c' =>
    match v with
    | text s _ => if s.length = 1 then .ok (pad d false "" s) else .error .invalidOperation
    | _ => (ofCheck (v.wholeIn? 0 0x10FFFF)).map fun i =>
      pad d false "" (String.singleton (Char.ofNat i.toNat))
  | 'd' | 'i' | 'u' =>
    match v with
    | float x => let i := truncated x
      .ok (pad d true (signOf d (i < 0)) (toString i.natAbs))
    | v => (ofCheck v.whole?).map fun i => pad d true (signOf d (i < 0)) (toString i.natAbs)
  | 'x' | 'X' | 'o' =>
    (ofCheck v.whole?).map fun i =>
      let digits := Nat.toDigits (if conversion = 'o' then 8 else 16) i.natAbs
      let digits := if conversion = 'X' then digits.map Char.toUpper else digits
      let lead := if d.alternate then String.ofList ['0', conversion] else ""
      pad d true (signOf d (i < 0) ++ lead) (String.ofList digits)
  | 'f' | 'F' =>
    (ofCheck (v.float? false)).bind fun x =>
      match Number.classify x with
      | .finite b => .ok (pad d true (signOf d b.negative) (fixedPlaces b (d.places.getD 6)))
      | _ => .ok (pad d false "" (floatText x false))
  | _ => .error .invalidOperation

private def directiveFlags (d : Directive) : List Char → Directive × List Char
  | '-' :: r => directiveFlags { d with left := true } r
  | '+' :: r => directiveFlags { d with sign := true } r
  | ' ' :: r => directiveFlags { d with blank := true } r
  | '0' :: r => directiveFlags { d with zero := true } r
  | '#' :: r => directiveFlags { d with alternate := true } r
  | r => (d, r)

/-- Write the arguments into the places that percent signs mark. -/
def formatText : Nat → List Char → List Value → Outcome (List Char)
  | 0, _, _ => .error .tooDeep
  | _, [], [] => .ok []
  | _, [], _ :: _ => .error .tooManyArguments
  | fuel + 1, '%' :: '%' :: rest, args => (formatText fuel rest args).map ('%' :: ·)
  | fuel + 1, '%' :: rest, args =>
    let (d, rest) := directiveFlags {} rest
    let width := rest.takeWhile Char.isDigit
    let rest := rest.dropWhile Char.isDigit
    let (places, rest) := match rest with
      | '.' :: r => (some ((Token.digitsIn 10 (r.takeWhile Char.isDigit)).getD 0),
          r.dropWhile Char.isDigit)
      | r => (Option.none, r)
    let d := { d with width := (Token.digitsIn 10 width).getD 0, places }
    match rest, args with
    | c :: rest, v :: args => do
      let s ← formatted d c v
      let out ← formatText fuel rest args
      .ok (s.toList ++ out)
    | _, _ => .error .missingArgument
  | fuel + 1, c :: rest, args => (formatText fuel rest args).map (c :: ·)

def filterNames : List String :=
  ["safe", "escape", "e", "lower", "upper", "title", "capitalize", "replace", "length", "count",
    "dictsort", "items", "reverse", "trim", "join", "split", "lines", "default", "d", "round",
    "abs", "int", "float", "attr", "first", "last", "min", "max", "sort", "list", "string", "bool",
    "batch", "slice", "sum", "indent", "select", "reject", "selectattr", "rejectattr", "map",
    "groupby", "unique", "chain", "zip", "pprint", "format"]

private def countOf (v : Value) : Outcome Nat :=
  (ofCheck (v.wholeIn? 1 (Nat.pow 2 63))).map Int.toNat

/-- A filter that takes its arguments by position. -/
def plainFilter (name : String) (v : Value) (args : List Value) : Outcome Value :=
  match name, args with
  | "safe", [] => .ok (.text v.written true)
  | "escape", [] | "e", [] =>
    match v with
    | text s true => .ok (.text s true)
    | v => .ok (.text v.markup true)
  | "lower", [] => .ok (str (lowerText v.written))
  | "upper", [] => .ok (str (upperText v.written))
  | "title", [] => .ok (str (titleText v.written))
  | "capitalize", [] => .ok (str (capitalizeText v.written))
  | "replace", [a, b] => .ok (str (replaceText v.written a.written b.written))
  | "replace", [] | "replace", [_] => .error .missingArgument
  | "length", [] | "count", [] => (ofCheck v.length?).map fun n => .int n
  | "items", [] => (ofCheck v.dictEntries?).map fun es => .list (es.map fun e => .list [e.1, e.2])
  | "reverse", [] => reversed v
  | "trim", [] => .ok (str (Text.trimmed v.written))
  | "trim", [chars] =>
    match chars with
    | undefined | none => .ok (str (Text.trimmed v.written))
    | chars =>
      let drop (cs : List Char) : List Char := cs.dropWhile (chars.written.toList.contains ·)
      .ok (str (String.ofList (drop (drop v.written.toList).reverse).reverse))
  | "join", [] => joined v ""
  | "join", [sep] =>
    match sep with
    | undefined | none => joined v ""
    | sep => joined v sep.written
  | "split", [] => .ok (split v.written .none .none)
  | "split", [sep] =>
    .ok (split v.written (match sep with | undefined | none => .none | s => some s.written) .none)
  | "split", [sep, limit] => do
    let n ← ofCheck (limit.wholeIn? (-(Nat.pow 2 63)) (Nat.pow 2 63 - 1))
    .ok (split v.written (match sep with | undefined | none => .none | s => some s.written)
      (some n))
  | "lines", [] => .ok (lines v.written)
  | "default", args | "d", args =>
    match args with
    | [] => .ok (match v with | undefined => str "" | v => v)
    | [w] => .ok (match v with | undefined => w | v => v)
    | [w, lax] =>
      .ok (match v with | undefined => w | v => if lax.isTrue && !v.isTrue then w else v)
    | _ => .error .tooManyArguments
  | "round", [] => rounded v 0
  | "round", [p] => (ofCheck (p.wholeIn? (-(Nat.pow 2 31)) (Nat.pow 2 31 - 1))).bind (rounded v)
  | "abs", [] => absolute v
  | "int", [] => toInt v
  | "float", [] => toFloat v
  | "attr", [k] => .ok ((v.item? k).getD undefined)
  | "first", [] =>
    match v with
    | undefined | none => .error .invalidOperation
    | v => (ofCheck v.items?).map fun xs => xs.head?.getD undefined
  | "last", [] =>
    match v with
    | text .. | list _ => (ofCheck v.items?).map fun xs => xs.getLast?.getD undefined
    | _ => .error .invalidOperation
  | "min", [] => extreme .lt false v
  | "max", [] => extreme .gt true v
  | "list", [] => (ofCheck v.items?).map .list
  | "string", [] => .ok (match v with | text s safe => text s safe | v => str v.written)
  | "bool", [] => .ok (.bool v.isTrue)
  | "batch", n :: fill =>
    if 1 < fill.length then .error .tooManyArguments
    else do
      let n ← countOf n
      let xs ← ofCheck v.items?
      .ok (.list (batches n fill.head? xs.length xs))
  | "slice", n :: fill =>
    if 1 < fill.length then .error .tooManyArguments
    else do
      let n ← countOf n
      let xs ← ofCheck v.items?
      .ok (.list (columns (min n 100000) fill.head? xs))
  | "sum", [] => (ofCheck v.items?).bind fun xs => xs.foldlM add (.int 0)
  | "indent", w :: flags =>
    if 2 < flags.length then .error .tooManyArguments
    else do
      let n ← ofCheck (w.wholeIn? 0 100000)
      .ok (str (indentText v.written n.toNat ((flags[0]?.map isTrue).getD false)
        ((flags[1]?.map isTrue).getD false)))
  | "chain", vs => do
    let parts ← (v :: vs).mapM fun w => ofCheck w.items?
    .ok (.list parts.flatten)
  | "zip", vs => do
    let parts ← (v :: vs).mapM fun w => ofCheck w.items?
    let n := (parts.map List.length).foldl min ((parts.map List.length).headD 0)
    .ok (.list ((List.range n).map fun i => .list (parts.map fun p => (p[i]?).getD undefined)))
  | "pprint", [] => .ok (str v.listing)
  | "format", args =>
    match v with
    | text s _ => (formatText (s.length + 1) s.toList args).map fun cs => str (String.ofList cs)
    | _ => .error .invalidOperation
  | name, [] =>
    if filterNames.contains name then .error .missingArgument else .error (.unknownFilter name)
  | name, _ =>
    if filterNames.contains name then .error .tooManyArguments else .error (.unknownFilter name)

/-- Keep the items for which a test, of the item or of one of its attributes, answers `keep`. -/
def selected (keep byAttr : Bool) (v : Value) (args : List Value) : Outcome Value := do
  let items ← ofCheck v.items?
  let (path, rest) ← match byAttr, args with
    | false, rest => .ok (Option.none, rest)
    | true, p :: rest => .ok (some p.written, rest)
    | true, [] => .error .missingArgument
  let subject (x : Value) : Value := match path with
    | some p => x.follow p
    | .none => x
  let kept ← items.filterM fun x =>
    match rest with
    | [] => .ok ((subject x).isTrue = keep)
    | name :: args => (test filterNames name.written (subject x) args).map fun b => b = keep
  .ok (.list kept)

/-- Apply a filter by its name. -/
def filter (name : String) (v : Value) (a : Arguments) : Outcome Value :=
  match name with
  | "dictsort" =>
    if !a.plain.isEmpty ∨ !a.onlyNamed ["by", "case_sensitive", "reverse"] then
      .error .tooManyArguments
    else dictSorted v a
  | "sort" =>
    if !a.plain.isEmpty ∨ !a.onlyNamed ["attribute", "case_sensitive", "reverse"] then
      .error .tooManyArguments
    else sorted v a
  | "select" => if a.named.isEmpty then selected true false v a.plain else .error .tooManyArguments
  | "reject" => if a.named.isEmpty then selected false false v a.plain else .error .tooManyArguments
  | "selectattr" =>
    if a.named.isEmpty then selected true true v a.plain else .error .tooManyArguments
  | "rejectattr" =>
    if a.named.isEmpty then selected false true v a.plain else .error .tooManyArguments
  | "map" =>
    match a.named.lookup "attribute" with
    | some p => do
      if !a.plain.isEmpty ∨ !a.onlyNamed ["attribute", "default"] then .error .tooManyArguments
      else
        let items ← ofCheck v.items?
        .ok (.list (items.map fun x =>
          match x.follow p.written, a.named.lookup "default" with
          | undefined, some d => d
          | w, _ => w))
    | .none =>
      match a.plain with
      | [] => .error .missingArgument
      | name :: args => do
        if !a.named.isEmpty then .error .tooManyArguments
        else
          let items ← ofCheck v.items?
          let out ← items.mapM fun x => plainFilter name.written x args
          .ok (.list out)
  | "groupby" => do
    let path ← match a.plain, a.named.lookup "attribute" with
      | [p], .none => .ok p.written
      | [], some p => .ok p.written
      | _, _ => .error .missingArgument
    let items ← ofCheck v.items?
    .ok (.list (grouped (fun x =>
      match x.follow path, a.named.lookup "default" with
      | undefined, some d => d
      | w, _ => w) (a.flag "case_sensitive") items))
  | "unique" =>
    if !a.plain.isEmpty ∨ !a.onlyNamed ["attribute", "case_sensitive"] then
      .error .tooManyArguments
    else do
      let items ← ofCheck v.items?
      let key (x : Value) : Value :=
        let k := match a.named.lookup "attribute" with
          | some p => x.follow p.written
          | .none => x
        if a.flag "case_sensitive" then k else foldCase k
      .ok (.list (uniqueItems key [] items))
  | name =>
    if a.named.isEmpty then plainFilter name v a.plain
    else if filterNames.contains name then .error .tooManyArguments
    else .error (.unknownFilter name)

end GameIngress.Template.Value
