import GameIngress.CommandLine.Arguments

/-!
# Tasks

The first argument names a command, and the arguments after it are the command's own.
-/
namespace GameIngress.CommandLine

/-- What the program is to do. -/
inductive Task where
  | run (flags : Flags)
  | version
  deriving DecidableEq

/-- A command that takes no arguments. -/
def readNothing (c : Command) : List String → Except Stop Unit
  | [] => .ok ()
  | arg :: rest =>
    let w := Word.ofText arg
    match Notice.ofWord? [.help] w with
    | some (.ok n) => .error (.notice (some c) n)
    | some (.error e) => .error (.usage e)
    | none =>
      match w, rest with
      | .divider, [] => .ok ()
      | .divider, arg :: _ => .error (.usage (.unknownArgument arg))
      | w, _ => .error (.usage w.unknown)

/-- The help that is asked for by naming commands; no command has commands of its own. -/
def helpAbout : List String → Stop
  | [] => .notice none .help
  | name :: rest =>
    match Command.ofName? name, rest with
    | none, _ => .usage (.unknownCommand name)
    | some c, [] => .notice (some c) .help
    | some _, name :: _ => .usage (.unknownCommand name)

def Command.read (lookup : String → Option String) (args : List String) :
    Command → Except Stop Task
  | .run => (readFlags lookup args).map .run
  | .version => (readNothing .version args).map fun () => .version
  | .help => .error (helpAbout args)

/-- The task that the arguments of the program set. -/
def readTask (lookup : String → Option String) : List String → Except Stop Task
  | [] => .error .noCommand
  | arg :: rest =>
    let w := Word.ofText arg
    match Notice.ofWord? [.help, .version] w with
    | some (.ok n) => .error (.notice none n)
    | some (.error e) => .error (.usage e)
    | none =>
      match w with
      | .plain name =>
        match Command.ofName? name with
        | some c => c.read lookup rest
        | none => .error (.usage (.unknownCommand name))
      | .divider =>
        match rest with
        | [] => .error .noCommand
        | arg :: _ =>
          .error (.usage (if (Command.ofName? arg).isSome then .unknownArgument arg
            else .unknownCommand arg))
      | w => .error (.usage w.unknown)

end GameIngress.CommandLine
