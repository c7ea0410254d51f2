import GameIngress.Config.File

/-!
# Settings from the command line

What flags set replaces what the file says, and the file replaces the defaults. The path rewrite can
only be switched on by a flag. The file is checked on its own before flags are laid over it.
-/
namespace GameIngress

/-- Why a file was not read. -/
structure FileFault where
  reason : String
  code : Nat
  deriving DecidableEq, Repr

namespace FileFault

def notFound : FileFault := ⟨"No such file or directory", 2⟩
def notDirectory : FileFault := ⟨"Not a directory", 20⟩
def isDirectory : FileFault := ⟨"Is a directory", 21⟩

def message (f : FileFault) : String := f.reason ++ " (os error " ++ toString f.code ++ ")"

end FileFault

/-- What was set outside of the file. -/
structure Flags where
  /-- The file to start from. -/
  file : Option String := none
  ns : Option String := none
  syncPeriod : Option Duration := none
  maxConcurrentReconciles : Option Nat := none
  healthAddress : Option Net.Address := none
  ingressPathRewrite : Bool := false
  logFormat : Option LogFormat := none
  deriving DecidableEq

namespace Flags

/-- Lay the flags over a configuration. -/
def overlay (f : Flags) (c : Config) : Config :=
  { c with
    ns := f.ns <|> c.ns
    syncPeriod := f.syncPeriod.getD c.syncPeriod
    maxConcurrentReconciles := f.maxConcurrentReconciles.getD c.maxConcurrentReconciles
    healthAddress := f.healthAddress.getD c.healthAddress
    ingressPathRewrite := f.ingressPathRewrite || c.ingressPathRewrite
    logFormat := f.logFormat.getD c.logFormat }

/-- The configuration of the file, if one is named. -/
def base (f : Flags) (content : String → Except FileFault String) : Except Failure Config :=
  match f.file with
  | none => .ok {}
  | some path =>
    match content path with
    | .ok text => Config.ofYaml text
    | .error e => .error (.config ("failed to read " ++ path ++ ": " ++ e.message))

/-- The configuration to run with. -/
def resolve (f : Flags) (content : String → Except FileFault String) : Except Failure Config :=
  match f.base content with
  | .ok c => (f.overlay c).validate
  | .error e => .error e

@[simp] theorem overlay_none (c : Config) : overlay {} c = c := rfl

end Flags
end GameIngress
