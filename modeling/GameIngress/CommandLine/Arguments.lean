import GameIngress.CommandLine.Flag

/-!
# Arguments

Arguments are read from left to right. A flag takes its value after `=` or from the next argument,
which must not look like a flag itself, and a value is looked at only when the argument after it is
reached. After `--` there are no flags any more.
-/
namespace GameIngress.CommandLine

/-- The form of an argument. -/
inductive Word where
  | divider
  | long (name : String) (value : Option String)
  /-- One dash and letters, of which there is at least one. -/
  | short (letters : List Char)
  | plain (text : String)
  deriving DecidableEq, Repr

namespace Word

def ofText (s : String) : Word :=
  match s.toList with
  | ['-', '-'] => divider
  | '-' :: '-' :: cs =>
    let value := match cs.dropWhile (· ≠ '=') with
      | _ :: rest => some (String.ofList rest)
      | [] => none
    long (String.ofList (cs.takeWhile (· ≠ '='))) value
  | '-' :: c :: cs => short (c :: cs)
  | _ => plain s

/-- The part of the word that is named when it is not known. -/
def shown : Word → String
  | divider => "--"
  | long name _ => "--" ++ name
  | short letters => String.ofList ('-' :: letters.take 1)
  | plain text => text

def unknown (w : Word) : UsageError := .unknownArgument w.shown

end Word

/-- What is printed in place of running anything. -/
inductive Notice where
  | help
  | version
  deriving DecidableEq, Repr

namespace Notice

def name : Notice → String
  | help => "help"
  | version => "version"

def letter : Notice → Char
  | help => 'h'
  | version => 'V'

/-- The notice that a word asks for, of those that can be asked for. -/
def ofWord? (known : List Notice) : Word → Option (Except UsageError Notice)
  | .long name value =>
    (known.find? (·.name = name)).map fun n =>
      match value with
      | some v => .error (.surplusValue ("--" ++ name) v)
      | none => .ok n
  | .short (c :: _) => (known.find? (·.letter = c)).map .ok
  | _ => none

end Notice

inductive Command where
  | run
  | version
  | help
  deriving DecidableEq, Repr

namespace Command

def name : Command → String
  | run => "run"
  | version => "version"
  | help => "help"

def all : List Command := [run, version, help]

def ofName? (s : String) : Option Command := all.find? (·.name = s)

end Command

/-- Why nothing is run. -/
inductive Stop where
  /-- A notice was asked for, about a command or about the program. -/
  | notice (about : Option Command) (n : Notice)
  | noCommand
  | usage (error : UsageError)
  deriving DecidableEq, Repr

/-- A flag whose value is not complete, or not looked at yet. -/
structure Pending where
  flag : Flag
  value : Option String := none
  deriving DecidableEq, Repr

/-- What is known of the arguments read so far. -/
structure Reading where
  flags : Flags := {}
  given : List Flag := []
  pending : Option Pending := none

namespace Reading

/-- Set a flag, which must not happen twice. -/
def put (r : Reading) (f : Flag) (value : String) : Except UsageError Reading := do
  if f ∈ r.given then .error (.repeated f)
  else return { r with flags := ← f.set value r.flags, given := f :: r.given }

/-- Look at the value of the pending flag. -/
def settle (r : Reading) : Except UsageError Reading :=
  match r.pending with
  | none => .ok r
  | some ⟨f, none⟩ => .error (.missingValue f)
  | some ⟨f, some v⟩ => { r with pending := none }.put f v

/-- Meet a flag, with the value that is attached to it. -/
def meet (r : Reading) (f : Flag) (value : Option String) : Except UsageError Reading := do
  match f.placeholder?, value with
  | none, some v => .error (.surplusValue f.display v)
  | none, none => (← r.settle).put f "true"
  | some _, some v => (← r.settle).put f v
  | some _, none => return { ← r.settle with pending := some { flag := f } }

/-- Read the arguments of the command that takes flags. -/
def arguments (r : Reading) : List String → Except Stop Reading
  | [] => .ok r
  | arg :: rest =>
    let w := Word.ofText arg
    let unknown : Except Stop Reading := .error (.usage w.unknown)
    match Notice.ofWord? [.help] w with
    | some (.error e) => .error (.usage e)
    | some (.ok n) =>
      match r.settle with
      | .ok _ => .error (.notice (some .run) n)
      | .error e => .error (.usage e)
    | none =>
      match w with
      | .divider =>
        match rest with
        | [] => .ok r
        | arg :: _ => .error (.usage (.unknownArgument arg))
      | .long name value =>
        match Flag.ofName? name with
        | none => unknown
        | some f =>
          match r.meet f value with
          | .ok r => arguments r rest
          | .error e => .error (.usage e)
      | .short _ => unknown
      | .plain text =>
        match r.pending with
        | some ⟨f, none⟩ => arguments { r with pending := some ⟨f, some text⟩ } rest
        | _ => unknown

/-- Take the flags that were not given from the environment. -/
def environment (lookup : String → Option String) (r : Reading) :
    List Flag → Except UsageError Reading
  | [] => .ok r
  | f :: fs =>
    match if f ∈ r.given then none else lookup f.envName with
    | none => environment lookup r fs
    | some v =>
      match r.put f v with
      | .ok r => environment lookup r fs
      | .error e => .error e

end Reading

/-- The flags that arguments and the environment set. -/
def readFlags (lookup : String → Option String) (args : List String) :
    Except Stop Flags := do
  let r ← Reading.arguments {} args
  match r.settle.bind fun r => r.environment lookup Flag.all with
  | .ok r => return r.flags
  | .error e => .error (.usage e)

end GameIngress.CommandLine
