import GameIngress.Metrics.Counter
import GameIngress.Number.ScaledDigits
import GameIngress.Text.Quoted
import GameIngress.TextMap

/-!
# The exposition of metrics

Metrics as text: for every metric a help line and a type line, then its samples, at last the mark of
the end.
-/
namespace GameIngress

/-- Durations of a controller's calls in seconds, latest first. -/
abbrev Durations := List (String × Float)

structure Metrics where
  tally : Tally := []
  durations : Durations := []

namespace Exposition

/-- A positional number has at most 21 digits before the point and at most five zeros after it. -/
def number (x : Float) : String :=
  match Number.classify x with
  | .notANumber => "NaN"
  | .infinite negative => if negative then "-inf" else "inf"
  | .finite b =>
    let body :=
      if b.significand = 0 then "0.0"
      else
        let d := Number.scaledDigits b.significand b.exponent
        let point : Int := (toString d.digits).length + d.exponent
        if 0 ≤ d.exponent ∧ point ≤ 21 then d.positional ++ ".0"
        else if -6 < point ∧ point ≤ 21 then d.positional
        else d.scientific
    if b.negative then "-" ++ body else body

/-- The upper bounds of the buckets, doubling from a millisecond. -/
def bounds : List Float := (List.range 16).map fun i => 0.001 * Number.ofInt (Nat.pow 2 i)

structure Sample where
  suffix : String
  labels : List (String × String)
  value : String

structure Family where
  name : String
  help : String
  type : String
  samples : List Sample

def escaped (s : String) : String :=
  String.ofList (s.toList.flatMap fun c =>
    if c = '\\' then ['\\', '\\']
    else if c = '"' then ['\\', '"']
    else if c = '\n' then ['\\', 'n']
    else [c])

def label (l : String × String) : String := l.1 ++ "=\"" ++ escaped l.2 ++ "\""

def Sample.line (name : String) (s : Sample) : String :=
  let labels :=
    if s.labels.isEmpty then ""
    else Text.braced (String.intercalate "," (s.labels.map label))
  name ++ s.suffix ++ labels ++ " " ++ s.value

def Family.lines (f : Family) : List String :=
  ["# HELP " ++ f.name ++ " " ++ f.help ++ ".", "# TYPE " ++ f.name ++ " " ++ f.type]
    ++ f.samples.map (·.line f.name)

/-- The samples of one controller's durations. -/
def histogram (controller : String) (seconds : List Float) : List Sample :=
  let own := ("controller", controller)
  let bucket (bound : String) (n : Nat) : Sample :=
    ⟨"_bucket", [("le", bound), own], toString n⟩
  let within (bound : Float) : Nat := (seconds.filter (· <= bound)).length
  [⟨"_sum", [own], number (seconds.foldl (· + ·) 0)⟩,
    ⟨"_count", [own], toString seconds.length⟩]
    ++ bounds.map (fun b => bucket (number b) (within b))
    ++ [bucket "+Inf" seconds.length]

/-- Values in the order of their first key, keys in order. -/
def grouped (ds : Durations) : List (String × List Float) :=
  let names := (TextMap.ofList (ds.map fun d => (d.1, d.1))).entries.map (·.1)
  names.map fun n => (n, (ds.filter (·.1 = n)).map (·.2))

def samplesOf (t : Tally) (f : Counter → Option (List (String × String))) : List Sample :=
  let samples : List Sample := t.filterMap fun (c, n) =>
    (f c).map fun labels => ⟨"_total", labels, toString n⟩
  samples.mergeSort fun a b =>
    decide ((a.labels.map (·.2)).lex (b.labels.map (·.2)) (· < ·)) || a.labels = b.labels

end Exposition

open Exposition in
/-- The metrics in the order of their registration. -/
def Metrics.families (m : Metrics) : List Family :=
  [{ name := "gameserver_ingress_reconcile_duration_seconds"
     help := "Duration of GameServer reconciles in seconds"
     type := "histogram"
     samples := (grouped m.durations.reverse).flatMap fun (c, ss) => histogram c ss },
   { name := "gameserver_ingress_reconcile_errors"
     help := "Total number of reconcile errors"
     type := "counter"
     samples := samplesOf m.tally fun
       | .errors controller kind => some [("controller", controller), ("kind", kind)]
       | _ => none },
   { name := "gameserver_ingress_events_skipped"
     help := "GameServer events skipped before reconciling"
     type := "counter"
     samples := samplesOf m.tally fun
       | .skipped reason => some [("reason", reason)]
       | _ => none },
   { name := "gameserver_ingress_resources_created"
     help := "Services and Ingresses created for GameServers"
     type := "counter"
     samples := samplesOf m.tally fun
       | .created kind => some [("kind", kind)]
       | _ => none },
   { name := "gameserver_ingress_ready"
     help := "GameServers annotated as ingress ready"
     type := "counter"
     samples := [⟨"_total", [], toString (m.tally.count .ready)⟩] }]

/-- The lines of the exposition. -/
def Metrics.exposition (m : Metrics) : List String :=
  m.families.flatMap (·.lines) ++ ["# EOF"]

end GameIngress
