import GameIngress.CommandLine.Help
import GameIngress.CommandLine.Task
import GameIngress.Health
import GameIngress.Log.Record
import GameIngress.Net.Uri

/-!
# A session of the program

Before the controller runs, its configuration is resolved, tracing is set up and a client for the
cluster is made. The first of these that fails ends the session with exit code 1; arguments that
are not understood end it with exit code 2.
-/
namespace GameIngress.CommandLine

/-- What is known of how the program was built. -/
structure Build where
  date : String := "unknown"
  revision : String := "unknown"
  toolchain : String := "unknown"

/-- What the program finds around it. -/
structure Host where
  lookup : String → Option String
  content : String → Except FileFault String
  /-- What running the controller comes to with the client that some files describe, if they
  describe one. -/
  cluster : List String → Option (Config → Except Failure Unit)
  build : Build := {}

structure Execution where
  exitCode : Nat := 0
  output : List String := []
  complaint : List String := []
  deriving DecidableEq, Repr

/-- Why a session of the controller ended early. -/
inductive Breakdown where
  | failure (f : Failure)
  | noClient
  deriving DecidableEq

def Breakdown.text : Breakdown → String
  | failure (.config reason) => "ConfigError(" ++ Text.quoted reason ++ ")"
  | failure (.cacheSync reason) => "CacheSyncError(" ++ Text.quoted reason ++ ")"
  | failure .cancelled => "Cancelled"
  | failure f => f.kind ++ "(" ++ Text.quoted f.message ++ ")"
  | noClient => "KubeError(" ++ Text.quoted "no usable cluster configuration" ++ ")"

namespace Target

def program : String := "gameserver_ingress_controller"
def telemetry : String := program ++ "::telemetry"
def reconciler : String := program ++ "::controller::reconciler"

end Target

def info (target message : String) : Log.Record := { level := .info, target, message }

/-- The variable that names the collector of traces. -/
def collectorVariable : String := "OTEL_EXPORTER_OTLP_ENDPOINT"

/-- The variable that lists the files which describe the cluster. -/
def clusterVariable : String := "KUBECONFIG"

/-- The variable that holds the log filter. -/
def filterVariable : String := "RUST_LOG"

/-- The variables that the program looks up. -/
def namesLookedUp : List String :=
  Flag.all.map (·.envName) ++ [collectorVariable, clusterVariable, filterVariable]

/-- Set up tracing; the collector has to be a URI. -/
def startTracing (h : Host) : Except Failure Log.Record :=
  match h.lookup collectorVariable with
  | none => .ok (info Target.telemetry
      "OpenTelemetry tracing disabled (OTEL_EXPORTER_OTLP_ENDPOINT not set)")
  | some endpoint =>
    if Net.Uri.isUri endpoint then
      .ok (info Target.telemetry "OpenTelemetry tracing initialized")
    else .error (.config "failed to initialize tracer")

/-- The files that describe the cluster. -/
def clusterFiles (h : Host) : List String :=
  (((Text.splitOn ':' ((h.lookup clusterVariable).getD "").toList).filter (!·.isEmpty)).map
    String.ofList)

/-- Run the controller; the records written on the way, and what stopped it. -/
def serve (h : Host) (c : Config) : List Log.Record × Except Breakdown Unit :=
  match startTracing h with
  | .error e => ([], .error (.failure e))
  | .ok tracing =>
    let starting :=
      [tracing, info Target.program ("Starting " ++ programName ++ " v" ++ Health.version)]
    match h.cluster (clusterFiles h) with
    | none => (starting, .error .noClient)
    | some controller =>
      (starting ++ [info Target.program "Connected to Kubernetes cluster",
        info Target.reconciler "Starting GameServer ingress controller"],
        (controller c).mapError .failure)

def run (h : Host) (flags : Flags) : Execution :=
  let ended (output : List String) : Except Breakdown Unit → Execution
    | .ok () => { output }
    | .error b => { exitCode := 1, output, complaint := ["Error: " ++ b.text] }
  match flags.resolve h.content with
  | .error e => ended [] (.error (.failure e))
  | .ok c =>
    let (records, result) := serve h c
    let filter := Log.Filter.ofText ((h.lookup filterVariable).getD "")
    ended (filter.lines c.logFormat records) result

def versionLines (b : Build) : List String :=
  [programName ++ " v" ++ Health.version, "Build Date: " ++ b.date, "Git SHA: " ++ b.revision,
    "Rust Version: " ++ b.toolchain]

/-- Run the program with its arguments. -/
def execute (h : Host) (args : List String) : Execution :=
  match readTask h.lookup args with
  | .ok (.run flags) => run h flags
  | .ok .version => { output := versionLines h.build }
  | .error (.notice about .help) => { output := help h.lookup about }
  | .error (.notice _ .version) => { output := [programName ++ " " ++ Health.version] }
  | .error .noCommand => { exitCode := 2, complaint := help h.lookup none }
  | .error (.usage e) => { exitCode := 2, complaint := ["error: " ++ e.message] }

/-- The configuration file that the arguments and the environment name. -/
def fileNamed? (lookup : String → Option String) (args : List String) : Option String :=
  match readTask lookup args with
  | .ok (.run flags) => flags.file
  | _ => none

end GameIngress.CommandLine
