import GameIngress.Text.CaseTable
import GameIngress.Text.Quoted

/-!
# Letter case

Capital and small forms of texts. A character may become several, and a small sigma at the end of
a word takes its final form.
-/
namespace GameIngress.Text

private def runImage (runs : Array (Nat × Nat × Nat × Int)) (n : Nat) : Option Nat :=
  go runs.size 0 runs.size
where
  go : Nat → Nat → Nat → Option Nat
  | 0, _, _ => none
  | fuel + 1, lo, hi =>
    if lo < hi then
      let mid := (lo + hi) / 2
      match runs[mid]? with
      | none => none
      | some (first, last, step, shift) =>
        if n < first then go fuel lo mid
        else if last < n then go fuel (mid + 1) hi
        else if (n - first) % step = 0 then some ((n : Int) + shift).toNat
        else go fuel (mid + 1) hi <|> go fuel lo mid
    else none

private def image (runs : Array (Nat × Nat × Nat × Int)) (expansions : List (Nat × List Nat))
    (c : Char) : List Char :=
  match runImage runs c.toNat with
  | some n => [Char.ofNat n]
  | none =>
    match expansions.lookup c.toNat with
    | some ns => ns.map Char.ofNat
    | none => [c]

/-- The capital form of a character. -/
def upperChar (c : Char) : List Char := image upperRuns upperExpansions c

/-- The small form of a character that stands alone. -/
def lowerChar (c : Char) : List Char := image lowerRuns lowerExpansions c

private def isCased (c : Char) : Bool := upperChar c != [c] || lowerChar c != [c]

private def isCaseIgnorable (c : Char) : Bool :=
  inRanges extendingRanges c.toNat
    || "'.:^`\u00a8\u00ad\u00af\u00b4\u00b7\u00b8\u2018\u2019\u2024\u2027\u200b".toList.contains c

private def wordGoesOn (cs : List Char) : Bool :=
  match cs.dropWhile isCaseIgnorable with
  | [] => false
  | c :: _ => isCased c

/-- `before` holds the characters already passed, latest first. -/
private def lowerFrom (before : List Char) : List Char → List Char
  | [] => []
  | c :: rest =>
    let out :=
      if c = 'Σ' then
        if wordGoesOn before && !wordGoesOn rest then ['ς'] else ['σ']
      else lowerChar c
    out ++ lowerFrom (c :: before) rest

/-- Capital forms throughout. -/
def upper (cs : List Char) : List Char := cs.flatMap upperChar

/-- Small forms throughout. -/
def lower (cs : List Char) : List Char := lowerFrom [] cs

end GameIngress.Text
