import GameIngress.Config.Flags
import GameIngress.Number.Natural

/-!
# Flags

Every flag has a name and a variable of the environment that stands in for it.
-/
namespace GameIngress.CommandLine

inductive Flag where
  | file
  | ns
  | syncPeriod
  | maxConcurrentReconciles
  | healthAddress
  | ingressPathRewrite
  | logFormat
  deriving DecidableEq, Repr

/-- What is wrong with the arguments. -/
inductive UsageError where
  | missingValue (flag : Flag)
  /-- The value is none of those to choose from. -/
  | noChoice (flag : Flag) (value : String)
  | malformed (flag : Flag) (value reason : String)
  /-- A value for something that takes none. -/
  | surplusValue (name value : String)
  | repeated (flag : Flag)
  | unknownArgument (text : String)
  | unknownCommand (text : String)
  deriving DecidableEq, Repr

namespace Flag

def all : List Flag :=
  [file, ns, syncPeriod, maxConcurrentReconciles, healthAddress, ingressPathRewrite, logFormat]

def name : Flag → String
  | file => "config"
  | ns => "namespace"
  | syncPeriod => "sync-period"
  | maxConcurrentReconciles => "max-concurrent-reconciles"
  | healthAddress => "health-addr"
  | ingressPathRewrite => "ingress-path-rewrite"
  | logFormat => "log-format"

def ofName? (s : String) : Option Flag := all.find? (·.name = s)

/-- The variable of the environment. -/
def envName : Flag → String
  | file => "CONFIG_FILE"
  | ns => "WATCH_NAMESPACE"
  | syncPeriod => "SYNC_PERIOD"
  | maxConcurrentReconciles => "MAX_CONCURRENT_RECONCILES"
  | healthAddress => "HEALTH_PROBE_BIND_ADDRESS"
  | ingressPathRewrite => "INGRESS_PATH_REWRITE"
  | logFormat => "LOG_FORMAT"

/-- What stands for the value in texts, if the flag takes one. -/
def placeholder? : Flag → Option String
  | file => some "CONFIG"
  | ns => some "NAMESPACE"
  | syncPeriod => some "SYNC_PERIOD"
  | maxConcurrentReconciles => some "MAX_CONCURRENT_RECONCILES"
  | healthAddress => some "HEALTH_ADDR"
  | ingressPathRewrite => none
  | logFormat => some "LOG_FORMAT"

/-- The flag as texts show it. -/
def display (f : Flag) : String :=
  match f.placeholder? with
  | some p => "--" ++ f.name ++ " <" ++ p ++ ">"
  | none => "--" ++ f.name

/-- The values of a flag that leaves no more than a choice. -/
def choices : Flag → List String
  | logFormat => [LogFormat.text.name, LogFormat.json.name]
  | _ => []

/-- Set a flag to a written value. -/
def set (f : Flag) (value : String) (flags : Flags) : Except UsageError Flags :=
  let malformed (reason : String) : Except UsageError Flags := .error (.malformed f value reason)
  let noChoice : Except UsageError Flags :=
    .error (if value = "" then .missingValue f else .noChoice f value)
  match f with
  | file => if value = "" then .error (.missingValue f) else .ok { flags with file := some value }
  | ns => .ok { flags with ns := some value }
  | syncPeriod =>
    match Duration.read value with
    | .ok d => .ok { flags with syncPeriod := some d }
    | .error e => malformed e.message
  | maxConcurrentReconciles =>
    match Number.readNatural (Nat.pow 2 64) value with
    | .ok n => .ok { flags with maxConcurrentReconciles := some n }
    | .error e => malformed e.message
  | healthAddress =>
    match Net.Address.read? value with
    | some a => .ok { flags with healthAddress := some a }
    | none => malformed "invalid socket address syntax"
  | ingressPathRewrite =>
    if value = "true" then .ok { flags with ingressPathRewrite := true }
    else if value = "false" then .ok { flags with ingressPathRewrite := false }
    else noChoice
  | logFormat =>
    match LogFormat.ofName? value with
    | some l => .ok { flags with logFormat := some l }
    | none => noChoice

end Flag

namespace UsageError

def message : UsageError → String
  | missingValue f => "a value is required for '" ++ f.display ++ "' but none was supplied"
  | noChoice f v => "invalid value '" ++ v ++ "' for '" ++ f.display ++ "'"
  | malformed f v reason => "invalid value '" ++ v ++ "' for '" ++ f.display ++ "': " ++ reason
  | surplusValue name v =>
    "unexpected value '" ++ v ++ "' for '" ++ name ++ "' found; no more were expected"
  | repeated f => "the argument '" ++ f.display ++ "' cannot be used multiple times"
  | unknownArgument text => "unexpected argument '" ++ text ++ "' found"
  | unknownCommand text => "unrecognized subcommand '" ++ text ++ "'"

end UsageError
end GameIngress.CommandLine
