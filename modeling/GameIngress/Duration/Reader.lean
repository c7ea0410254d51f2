import GameIngress.Duration.Basic
import GameIngress.Text.Blank
import GameIngress.Text.Quoted

/-!
# Written durations

A duration is written as a sequence of items such as `1m30s`: a count in decimal digits followed by
one of the units `ms`, `s`, `m` and `h`. A lone `0` needs no unit.
-/
namespace GameIngress

inductive DurationError where
  | empty
  | missingUnit (text : String)
  | noCount (text : String)
  | countTooLarge (text : String)
  | unknownUnit (unit text : String)
  deriving DecidableEq, Repr

namespace DurationError

def message : DurationError → String
  | empty => "empty duration"
  | missingUnit t => "missing unit in duration " ++ Text.quoted t
  | noCount t => "invalid duration " ++ Text.quoted t
  | countTooLarge t =>
    "invalid duration " ++ Text.quoted t ++ ": number too large to fit in target type"
  | unknownUnit u t => "unknown unit " ++ Text.quoted u ++ " in duration " ++ Text.quoted t

end DurationError

namespace Duration

def isDigit (c : Char) : Bool := '0' ≤ c && c ≤ '9'

def count (ds : List Char) : Nat := ds.foldl (fun n d => 10 * n + (d.toNat - 48)) 0

/-- Counts lie below this bound, and so do the seconds of an item. -/
def countLimit : Nat := 0x10000000000000000

/-- The span of `n` units. -/
def ofUnit? (unit : List Char) (n : Nat) : Option Duration :=
  match unit with
  | ['m', 's'] => some (ofMillis n)
  | ['s'] => some (ofSecs n)
  | ['m'] => some (ofSecs (min (n * 60) (countLimit - 1)))
  | ['h'] => some (ofSecs (min (n * 3600) (countLimit - 1)))
  | _ => none

theorem length_dropWhile_le {α : Type} (p : α → Bool) (l : List α) :
    (l.dropWhile p).length ≤ l.length :=
  (List.dropWhile_sublist p).length_le

/-- Read items and add them to `total`; `whole` is the text that messages name. -/
def readItems (whole : String) (total : Duration) (rest : List Char) :
    Except DurationError Duration :=
  match rest with
  | [] => .ok total
  | c :: cs =>
    let digits := (c :: cs).takeWhile isDigit
    let afterDigits := (c :: cs).dropWhile isDigit
    if afterDigits.isEmpty then .error (.missingUnit whole)
    else if _hd : isDigit c = true then
      let n := count digits
      if countLimit ≤ n then .error (.countTooLarge whole)
      else
        let unit := afterDigits.takeWhile (!isDigit ·)
        match ofUnit? unit n with
        | none => .error (.unknownUnit (String.ofList unit) whole)
        | some d => readItems whole (total + d) (afterDigits.dropWhile (!isDigit ·))
    else .error (.noCount whole)
termination_by rest.length
decreasing_by
  have h1 := length_dropWhile_le (fun x => !isDigit x) ((c :: cs).dropWhile isDigit)
  have h2 := length_dropWhile_le isDigit cs
  simp only [List.dropWhile_cons, _hd, if_true] at h1 ⊢
  simp only [List.length_cons]
  omega

/-- The duration that a text denotes; blanks around it do not count. -/
def read (s : String) : Except DurationError Duration :=
  let cs := Text.trim s.toList
  if cs = ['0'] then .ok zero
  else if cs = [] then .error .empty
  else readItems (String.ofList cs) zero cs

end Duration
end GameIngress
