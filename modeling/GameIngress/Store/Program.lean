import GameIngress.Metrics.Counter
import GameIngress.Object.Ingress
import GameIngress.Retry

/-!
# Programs over the store

A reconcile is a program that asks the store, publishes events, counts and pauses. The same program
runs over any store that can answer its requests.
-/
namespace GameIngress

inductive EventType where
  | normal
  | warning
  deriving DecidableEq, Repr

def EventType.name : EventType → String
  | normal => "Normal"
  | warning => "Warning"

/-- An event about a game server. -/
structure Notice where
  type : EventType
  reason : String
  message : String
  deriving DecidableEq, Repr

inductive Request : Type → Type where
  /-- Services and Ingresses are looked up in a cache, which may lag behind. -/
  | findService (name ns : String) : Request (Option Service)
  | findIngress (name ns : String) : Request (Option Ingress)
  | createService (s : Service) : Request (Except Failure Service)
  | createIngress (i : Ingress) : Request (Except Failure Ingress)
  | readGameServer (name ns : String) : Request (Except Failure GameServer)
  /-- Write the annotations back, on the condition that the version is still the same. -/
  | writeGameServer (gs : GameServer) : Request (Except Failure GameServer)
  | publish (gs : GameServer) (n : Notice) : Request Unit
  | count (c : Counter) : Request Unit
  | pause (d : Duration) : Request Unit

inductive Program (α : Type) : Type 1 where
  | done (a : α)
  | ask {β : Type} (r : Request β) (next : β → Program α)

namespace Program

def bind {α β : Type} (p : Program α) (f : α → Program β) : Program β :=
  match p with
  | done a => f a
  | ask r next => ask r fun b => (next b).bind f

instance : Monad Program where
  pure := done
  bind := bind

@[simp] theorem done_bind {α β : Type} (a : α) (f : α → Program β) :
    (done a : Program α) >>= f = f a := rfl

@[simp] theorem ask_bind {α β γ : Type} (r : Request γ) (next : γ → Program α)
    (f : α → Program β) : (ask r next : Program α) >>= f = ask r fun c => next c >>= f := rfl

def request {β : Type} (r : Request β) : Program β := ask r done

def publish (gs : GameServer) (type : EventType) (reason message : String) : Program Unit :=
  request (.publish gs ⟨type, reason, message⟩)

def count (c : Counter) : Program Unit := request (.count c)

def pause (d : Duration) : Program Unit := request (.pause d)

end Program
end GameIngress
