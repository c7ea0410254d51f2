import GameIngress.Proofs.Store.Faultless
import GameIngress.Proofs.Store.Transcript

/-!
# What a program comes to when it is left alone

Where nothing is made to fail and nothing is cut off, the result of a program and what it leaves in
the store depend on what the store holds, and not on latency or time. So programs are evaluated on
what a store holds, and a run over the store does the same.
-/
namespace GameIngress

variable {α β : Type}

def LogEntry.isChange : LogEntry → Bool
  | .createService _ | .createIngress _ | .writeGameServer _ => true
  | .findService _ | .findIngress _ | .readGameServer _ => false

/-- The objects of a store, and the changes that it was asked for, latest first. -/
structure Holdings where
  gameServers : List (String × GameServer)
  services : List (String × Service)
  ingresses : List (String × Ingress)
  changes : List LogEntry

namespace Holdings

def asked (entry : LogEntry) (h : Holdings) : Holdings := { h with changes := entry :: h.changes }

def withService (s : Service) (h : Holdings) : Holdings :=
  { h with services := Memory.put s.metadata.key s h.services }.asked (.createService s)

def withIngress (i : Ingress) (h : Holdings) : Holdings :=
  { h with ingresses := Memory.put i.metadata.key i h.ingresses }.asked (.createIngress i)

/-- The stored game server with the annotations of the one that is written. -/
def written (stored gs : GameServer) : GameServer :=
  Memory.raiseVersion
    { stored with metadata := { stored.metadata with annotations := gs.metadata.annotations } }

def withGameServer (stored gs : GameServer) (h : Holdings) : Holdings :=
  { h with gameServers := Memory.put gs.key (written stored gs) h.gameServers }.asked
    (.writeGameServer gs)

/-- The answer to a request, and what is held then. -/
def answer : Request β → Holdings → β × Holdings
  | .findService name ns, h => (h.services.lookup (ns ++ "/" ++ name), h)
  | .findIngress name ns, h => (h.ingresses.lookup (ns ++ "/" ++ name), h)
  | .createService s, h =>
    match h.services.lookup s.metadata.key with
    | some _ => (.error (Memory.refuse "AlreadyExists" 409), h.asked (.createService s))
    | none => (.ok s, h.withService s)
  | .createIngress i, h =>
    match h.ingresses.lookup i.metadata.key with
    | some _ => (.error (Memory.refuse "AlreadyExists" 409), h.asked (.createIngress i))
    | none => (.ok i, h.withIngress i)
  | .readGameServer name ns, h =>
    match h.gameServers.lookup (ns ++ "/" ++ name) with
    | some gs => (.ok gs, h)
    | none => (.error (Memory.refuse "NotFound" 404), h)
  | .writeGameServer gs, h =>
    match h.gameServers.lookup gs.key with
    | none => (.error (Memory.refuse "NotFound" 404), h.asked (.writeGameServer gs))
    | some stored =>
      if stored.metadata.resourceVersion = gs.metadata.resourceVersion then
        (.ok (written stored gs), h.withGameServer stored gs)
      else (.error (Memory.refuse "Conflict" 409), h.asked (.writeGameServer gs))
  | .publish _ _, h | .count _, h | .pause _, h => ((), h)

end Holdings

/-- The result of a program that is left alone, and what is held then. -/
def Program.comesTo : Program α → Holdings → α × Holdings
  | .done a, h => (a, h)
  | .ask r next, h => (next (h.answer r).1).comesTo (h.answer r).2

namespace Program

variable {h : Holdings}

theorem comesTo_bind (p : Program α) (f : α → Program β) (h : Holdings) :
    (p >>= f).comesTo h = (f (p.comesTo h).1).comesTo (p.comesTo h).2 := by
  induction p generalizing h with
  | done a => rfl
  | ask r next ih => exact ih _ _

@[simp] theorem comesTo_pure (a : α) : (pure a : Program α).comesTo h = (a, h) := rfl

@[simp] theorem comesTo_request_bind (r : Request β) (f : β → Program α) :
    (request r >>= f).comesTo h = (f (h.answer r).1).comesTo (h.answer r).2 := rfl

@[simp] theorem comesTo_publish_bind {gs : GameServer} {type : EventType} {reason message : String}
    (f : Unit → Program α) :
    (publish gs type reason message >>= f).comesTo h = (f ()).comesTo h := rfl

@[simp] theorem comesTo_count_bind {c : Counter} (f : Unit → Program α) :
    (count c >>= f).comesTo h = (f ()).comesTo h := rfl

end Program

namespace Memory

variable {m : Memory}

def holdings (m : Memory) : Holdings where
  gameServers := m.gameServers
  services := m.services
  ingresses := m.ingresses
  changes := m.log.filter (·.isChange)

/-- Nothing is made to fail, and nothing is cut off. -/
structure Steady (m : Memory) : Prop where
  faultless : m.faults = []
  uncut : m.cutAt = none

theorem answer_of_steady (hm : m.Steady) (r : Request β) :
    (m.answer r).2.Steady ∧
      ((m.answer r).1, (m.answer r).2.holdings) = m.holdings.answer r := by
  obtain ⟨hfaults, hcut⟩ := hm
  cases r with
  | findService name ns | findIngress name ns | publish gs n | count c | pause d =>
    exact ⟨⟨hfaults, hcut⟩, rfl⟩
  | createService s =>
    rw [answer, createIn_of_faultless hfaults rfl]
    dsimp only [Holdings.answer, holdings]
    cases m.services.lookup s.metadata.key with
    | none => exact ⟨⟨hfaults, hcut⟩, rfl⟩
    | some _ => exact ⟨⟨hfaults, hcut⟩, rfl⟩
  | createIngress i =>
    rw [answer, createIn_of_faultless hfaults rfl]
    dsimp only [Holdings.answer, holdings]
    cases m.ingresses.lookup i.metadata.key with
    | none => exact ⟨⟨hfaults, hcut⟩, rfl⟩
    | some _ => exact ⟨⟨hfaults, hcut⟩, rfl⟩
  | readGameServer name ns =>
    rw [answer, read, takeFault_of_faultless hfaults]
    dsimp only [Holdings.answer, holdings]
    cases m.gameServers.lookup (ns ++ "/" ++ name) with
    | none => exact ⟨⟨hfaults, hcut⟩, rfl⟩
    | some gs => exact ⟨⟨hfaults, hcut⟩, rfl⟩
  | writeGameServer gs =>
    dsimp only [Holdings.answer, answer]
    cases hstored : m.holdings.gameServers.lookup gs.key with
    | none =>
      have hlookup : m.gameServers.lookup gs.key = none := hstored
      rw [write, takeFault_of_faultless hfaults]
      simp only [hlookup]
      exact ⟨⟨hfaults, hcut⟩, rfl⟩
    | some stored =>
      dsimp only
      split
      · next hversion =>
        rw [write_of_same_version hfaults hstored hversion]
        exact ⟨⟨hfaults, hcut⟩, rfl⟩
      · next hversion =>
        rw [write_of_other_version hfaults hstored hversion]
        exact ⟨⟨hfaults, hcut⟩, rfl⟩

theorem run_of_steady (hm : m.Steady) (p : Program α) :
    ∃ m', run p m = (some (p.comesTo m.holdings).1, m') ∧ m'.Steady ∧
      m'.holdings = (p.comesTo m.holdings).2 := by
  induction p generalizing m with
  | done a => exact ⟨m, rfl, hm, rfl⟩
  | ask r next ih =>
    obtain ⟨m₁, hwait⟩ := wait_of_uncut hm.uncut (m.cost r)
    obtain ⟨now, rfl⟩ := wait_ok hwait
    have hnow : Steady { m with now } := ⟨hm.faultless, hm.uncut⟩
    obtain ⟨hsteady, hanswer⟩ := answer_of_steady hnow r
    have hasked : m.holdings.answer r = _ := hanswer.symm
    rw [run, hwait, Program.comesTo, hasked]
    exact ih _ hsteady

end Memory
end GameIngress
