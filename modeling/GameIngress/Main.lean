import GameIngress.CommandLine.Session

/-!
# The program

There is no connection to a cluster here: a session that needs one ends where it would be made.
-/
namespace GameIngress.CommandLine

def faultOf : IO.Error → FileFault
  | .noFileOrDirectory .. => .notFound
  | .inappropriateType _ code details => ⟨details, code.toNat⟩
  | .permissionDenied _ code details => ⟨details, code.toNat⟩
  | e => ⟨toString e, 5⟩

def readText (path : String) : IO (Except FileFault String) := do
  try pure (.ok (← IO.FS.readFile path))
  catch e => pure (.error (faultOf e))

/-- Run the program with what is found around it. -/
def perform (args : List String) : IO UInt32 := do
  let values ← namesLookedUp.mapM fun name => return (name, ← IO.getEnv name)
  let lookup (name : String) : Option String := (values.lookup name).join
  let file ← match fileNamed? lookup args with
    | none => pure (.error .notFound)
    | some path => readText path
  let e := execute { lookup, content := fun _ => file, cluster := fun _ => none } args
  for line in e.output do IO.println line
  for line in e.complaint do IO.eprintln line
  return UInt32.ofNat e.exitCode

end GameIngress.CommandLine

def main (args : List String) : IO UInt32 := GameIngress.CommandLine.perform args
