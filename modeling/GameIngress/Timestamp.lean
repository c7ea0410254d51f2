import GameIngress.Text.Blank

/-!
# Timestamps

A date, a time of day and an offset from universal time. Only the instant is kept, in whole seconds
since 1970, and it is written in universal time. The second that is inserted before some midnights
is the second of the minute before it, marked.
-/
namespace GameIngress

structure Timestamp where
  seconds : Int
  inserted : Bool := false
  deriving DecidableEq, Inhabited

namespace Timestamp

/-! Years begin in March here, so that the inserted day is the last one of its year. They are
counted from 0 in eras of 400 years, and days from 0 in the era or in the year. -/

/-- Days of an era before a year. -/
def daysBeforeYear (year : Int) : Int := year * 365 + year / 4 - year / 100

/-- Days of a year before a month. -/
def daysBeforeMonth (month : Int) : Int := (153 * month + 2) / 5

/-- The year that a day of the era is of. -/
def yearOfDay (day : Int) : Int := (day - day / 1460 + day / 36524 - day / 146096) / 365

/-- The month that a day of the year is of. -/
def monthOfDay (day : Int) : Int := (5 * day + 2) / 153

/-- Days from 1970-01-01 to a date of the Gregorian calendar. -/
def daysOfDate (year month day : Int) : Int :=
  let y := if 2 < month then year else year - 1
  let m := if 2 < month then month - 3 else month + 9
  y / 400 * 146097 + daysBeforeYear (y % 400) + daysBeforeMonth m + (day - 1) - 719468

/-- The date that lies the given number of days after 1970-01-01. -/
def dateOfDays (days : Int) : Int × Int × Int :=
  let era := (days + 719468) / 146097
  let dayOfEra := (days + 719468) % 146097
  let y := yearOfDay dayOfEra
  let dayOfYear := dayOfEra - daysBeforeYear y
  let m := monthOfDay dayOfYear
  let day := dayOfYear - daysBeforeMonth m + 1
  if m < 10 then (y + era * 400, m + 3, day) else (y + era * 400 + 1, m - 9, day)

def isLeapYear (year : Int) : Bool :=
  year % 4 = 0 && (year % 100 ≠ 0 || year % 400 = 0)

def daysInMonth (year month : Int) : Int :=
  if month = 2 then (if isLeapYear year then 29 else 28)
  else if month = 4 ∨ month = 6 ∨ month = 9 ∨ month = 11 then 30
  else 31

/-- The years that dates may be of. -/
def hasYear (year : Int) : Bool := -262143 ≤ year && year ≤ 262142

/-- The number in decimal, with zeros in front of it up to the width. -/
def padded (width : Nat) (n : Nat) : String :=
  let ds := (toString n).toList
  String.ofList (List.replicate (width - ds.length) '0' ++ ds)

def yearText (year : Int) : String :=
  if 0 ≤ year ∧ year ≤ 9999 then padded 4 year.toNat
  else (if year < 0 then "-" else "+") ++ padded 4 year.natAbs

end Timestamp

/-- A date, a time of day and an offset from universal time in seconds. The inserted second is the
sixtieth of its minute. -/
structure Timestamp.Parts where
  year : Int
  month : Nat
  day : Nat
  hour : Nat
  minute : Nat
  second : Nat
  shift : Int := 0
  deriving DecidableEq

namespace Timestamp

/-- The parts in universal time. -/
def parts (t : Timestamp) : Parts :=
  let rest := (t.seconds % 86400).toNat
  let date := dateOfDays (t.seconds / 86400)
  { year := date.1, month := date.2.1.toNat, day := date.2.2.toNat
    hour := rest / 3600, minute := rest / 60 % 60
    second := rest % 60 + (if t.inserted then 1 else 0) }

/-- The form `YYYY-MM-DDThh:mm:ssZ`. -/
def Parts.text (p : Parts) : String :=
  yearText p.year ++ "-" ++ padded 2 p.month ++ "-" ++ padded 2 p.day ++ "T"
    ++ padded 2 p.hour ++ ":" ++ padded 2 p.minute ++ ":" ++ padded 2 p.second ++ "Z"

def render (t : Timestamp) : String := t.parts.text

def digitsValue (ds : List Char) : Nat := ds.foldl (fun n d => 10 * n + (d.toNat - 48)) 0

/-- At most `width` digits, and at least one. -/
def number (width : Nat) (cs : List Char) : Option (Nat × List Char) :=
  let ds := (cs.take width).takeWhile Char.isDigit
  if ds.isEmpty then none else some (digitsValue ds, cs.drop ds.length)

def signedYear (cs : List Char) : Option (Int × List Char) :=
  match cs with
  | '-' :: r => (number r.length r).map fun (n, r) => (-(n : Int), r)
  | '+' :: r => (number r.length r).map fun (n, r) => ((n : Int), r)
  | r => (number 4 r).map fun (n, r) => ((n : Int), r)

def literal (c : Char) (cs : List Char) : Option (List Char) :=
  match Text.trimStart cs with
  | d :: r => if c = d then some r else none
  | [] => none

def twoDigits (cs : List Char) : Option (Nat × List Char) := number 2 (Text.trimStart cs)

def offset (cs : List Char) : Option (Int × List Char) :=
  match cs with
  | 'z' :: r | 'Z' :: r => some (0, r)
  | u :: t :: c :: r =>
    if [u, t, c].map Char.toUpper = ['U', 'T', 'C'] then some (0, r) else signed cs
  | _ => signed cs
where
  signed : List Char → Option (Int × List Char)
    | s :: a :: b :: r =>
      if (s = '+' || s = '-' || s = '−') && a.isDigit && b.isDigit then
        match r.dropWhile (fun c => c = ':' || Text.isBlank c) with
        | m :: n :: r =>
          if m.isDigit && n.isDigit && m.toNat ≤ '5'.toNat then
            let seconds : Int := digitsValue [a, b] * 3600 + digitsValue [m, n] * 60
            if seconds < 86400 then some (if s = '+' then seconds else -seconds, r) else none
          else none
        | _ => none
      else none
    | _ => none

/-- What follows the letter or the blank between the date and the time. -/
def timeMark : List Char → Option (List Char)
  | 't' :: r | 'T' :: r | ' ' :: r => some r
  | _ => none

/-- What follows a fraction of a second, which is dropped. -/
def fraction : List Char → Option (List Char)
  | '.' :: r =>
    let rest := r.dropWhile Char.isDigit
    if rest.length = r.length then none else some rest
  | r => some r

/-- Year, month and day. -/
def date? (cs : List Char) : Option ((Int × Nat × Nat) × List Char) := do
  let (year, cs) ← signedYear (Text.trimStart cs)
  let cs ← literal '-' cs
  let (month, cs) ← twoDigits cs
  let cs ← literal '-' cs
  let (day, cs) ← twoDigits cs
  some ((year, month, day), cs)

/-- Hour, minute and second. -/
def time? (cs : List Char) : Option ((Nat × Nat × Nat) × List Char) := do
  let (hour, cs) ← twoDigits cs
  let cs ← literal ':' cs
  let (minute, cs) ← twoDigits cs
  let cs ← literal ':' cs
  let (second, cs) ← twoDigits cs
  let cs ← fraction cs
  some ((hour, minute, second), cs)

/-- The parts of a text, in which an offset is required. -/
def parts? (s : String) : Option Parts := do
  let ((year, month, day), cs) ← date? s.toList
  let cs ← timeMark cs
  let ((hour, minute, second), cs) ← time? cs
  let (shift, cs) ← offset (Text.trimStart cs)
  if (Text.trimStart cs).isEmpty then some { year, month, day, hour, minute, second, shift }
  else none

/-- The instant of a date and a time that exist, as they are and in universal time. -/
def Parts.instant? (p : Parts) : Option Timestamp :=
  let time : Nat := p.hour * 3600 + p.minute * 60 + min p.second 59
  let seconds := daysOfDate p.year p.month p.day * 86400 + time - p.shift
  if p.month < 1 ∨ 12 < p.month ∨ p.day < 1 ∨ daysInMonth p.year p.month < p.day then none
  else if 23 < p.hour ∨ 59 < p.minute ∨ 60 < p.second then none
  else if !hasYear p.year || !hasYear (dateOfDays (seconds / 86400)).1 then none
  else some { seconds, inserted := p.second = 60 }

/-- The instant that a text denotes. -/
def read? (s : String) : Option Timestamp := (parts? s).bind Parts.instant?

end Timestamp
end GameIngress
