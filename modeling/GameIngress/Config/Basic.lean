import GameIngress.Backoff
import GameIngress.Failure
import GameIngress.Net.Address

/-!
# Configuration
-/
namespace GameIngress

inductive LogFormat where
  | text
  | json
  deriving DecidableEq, Repr

namespace LogFormat

def name : LogFormat → String
  | text => "text"
  | json => "json"

def ofName? (s : String) : Option LogFormat :=
  if s = "text" then some text else if s = "json" then some json else none

end LogFormat

structure Config where
  /-- The namespace to watch, all of them if there is none. -/
  ns : Option String := none
  /-- The time after which every cached game server is delivered again. -/
  syncPeriod : Duration := .ofSecs 15
  maxConcurrentReconciles : Nat := 10
  /-- Attempts to write the marker when others write too. -/
  statusRetrySteps : Nat := 5
  requeueBaseDelay : Duration := .ofMillis 5
  requeueMaxDelay : Duration := .ofSecs 1000
  cacheSyncInterval : Duration := .ofSecs 5
  cacheSyncAttempts : Nat := 5
  cacheSyncTimeout : Duration := .ofSecs 15
  healthAddress : Net.Address := .v4 [0, 0, 0, 0] 30235
  ingressPathRewrite : Bool := false
  /-- The component that events are reported by. -/
  reporter : String := "octops-gameserver-controller"
  logFormat : LogFormat := .text
  deriving DecidableEq

namespace Config

instance : Inhabited Config := ⟨{}⟩

inductive Fault where
  | noConcurrency
  | noSyncPeriod
  | baseAboveMax
  deriving DecidableEq, Repr

def Fault.message : Fault → String
  | noConcurrency => "maxConcurrentReconciles must be at least 1"
  | noSyncPeriod => "syncPeriod must be positive"
  | baseAboveMax => "requeueBaseDelay must not exceed requeueMaxDelay"

def fault? (c : Config) : Option Fault :=
  if c.maxConcurrentReconciles = 0 then some .noConcurrency
  else if c.syncPeriod.nanos = 0 then some .noSyncPeriod
  else if c.requeueMaxDelay < c.requeueBaseDelay then some .baseAboveMax
  else none

def validate (c : Config) : Except Failure Config :=
  match c.fault? with
  | some f => .error (.config f.message)
  | none => .ok c

end Config
end GameIngress
