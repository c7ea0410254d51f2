import GameIngress.CommandLine.Arguments

/-!
# Help texts
-/
namespace GameIngress.CommandLine

def programName : String := "gameserver-ingress-controller"

def aboutProgram : String :=
  "Kubernetes controller exposing Agones GameServers through Services and Ingresses"

def Command.about : Command → String
  | run => "Run the controller"
  | version => "Show version and build information"
  | help => "Print this message or the help of the given subcommand(s)"

def Flag.about? : Flag → Option String
  | file => some "YAML config file providing defaults for every other flag"
  | ns => some "Namespace to watch (all namespaces when omitted)"
  | syncPeriod =>
    some "Minimum frequency at which watched GameServers are reconciled, e.g. 15s"
  | maxConcurrentReconciles => none
  | healthAddress => none
  | ingressPathRewrite => some "Add nginx rewrite annotations to path routed Ingresses"
  | logFormat => none

def Notice.about : Notice → String
  | help => "Print help"
  | version => "Print version"

def spaces (n : Nat) : String := String.ofList (List.replicate n ' ')

/-- Rows of a name and a text, the texts one below the other. -/
def rows (entries : List (String × String)) : List String :=
  let width := entries.foldl (fun w e => max w e.1.length) 0
  entries.map fun (name, text) => "  " ++ name ++ spaces (width - name.length + 2) ++ text

def Notice.entry (n : Notice) : String × String :=
  ("-" ++ String.singleton n.letter ++ ", --" ++ n.name, n.about)

/-- A flag, and below it its text, its variable with the value it has, and its choices. -/
def Flag.help (lookup : String → Option String) (f : Flag) : List String :=
  let setting := "[env: " ++ f.envName ++ "=" ++ (lookup f.envName).getD "" ++ "]"
  let choices := match f.choices with
    | [] => []
    | cs => ["[possible values: " ++ String.intercalate ", " cs ++ "]"]
  let parts := f.about?.toList ++ setting :: choices
  [spaces 6 ++ f.display, spaces 10 ++ String.intercalate " " parts]

def usage (rest : String) : List String := ["", "Usage: " ++ programName ++ " " ++ rest, ""]

/-- The help about a command, or about the program. -/
def help (lookup : String → Option String) : Option Command → List String
  | none =>
    aboutProgram :: usage "<COMMAND>" ++ "Commands:" :: rows (Command.all.map fun c =>
      (c.name, c.about)) ++ "" :: "Options:" :: rows [Notice.help.entry, Notice.version.entry]
  | some .run =>
    Command.run.about :: usage "run [OPTIONS]" ++ "Options:" :: Flag.all.flatMap (·.help lookup)
      ++ ["  " ++ Notice.help.entry.1, spaces 10 ++ Notice.help.about]
  | some .version =>
    Command.version.about :: usage "version" ++ "Options:" :: rows [Notice.help.entry]
  | some .help =>
    Command.help.about :: usage "help [COMMAND]..." ++ "Arguments:"
      :: rows [("[COMMAND]...", "Print help for the subcommand(s)")]

end GameIngress.CommandLine
