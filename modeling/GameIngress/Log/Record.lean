import GameIngress.Config.Basic
import GameIngress.Json.Printer
import GameIngress.Log.Filter

/-!
# Log records
-/
namespace GameIngress.Log

structure Record where
  level : Level
  /-- The part of the program that the record comes from. -/
  target : String
  message : String
  deriving DecidableEq, Repr

namespace Record

def line (r : Record) : String := r.level.name ++ " " ++ r.target ++ ": " ++ r.message

def toJson (r : Record) : Json :=
  .object [
    ("level", .text r.level.name),
    ("fields", .object [("message", .text r.message)]),
    ("target", .text r.target)]

/-- The record as one line of output. -/
def render (format : LogFormat) (r : Record) : String :=
  match format with
  | .text => r.line
  | .json => r.toJson.render

end Record

/-- The lines of the records that a filter lets through. -/
def Filter.lines (f : Filter) (format : LogFormat) (rs : List Record) : List String :=
  (rs.filter fun r => f.allows r.target r.level).map (·.render format)

end GameIngress.Log
