import GameIngress.Proofs.Manifest.Owned
import GameIngress.Proofs.Reconcile.Sequence
import GameIngress.Proofs.Store.Faultless

/-!
# A reconcile among others of the same game server

Others may do between any two requests what a reconcile itself does: create the Service, create the
Ingress, write the marker. Each of the three is done once at most, and what it leaves behind is
known. So the store is described by which of them was done, and a reconcile by what it comes to
however many of them the others do in between.
-/
namespace GameIngress.Reconcile

variable {α β : Type} {g gs : GameServer} {now later : StoreCall → Bool}

/-- The change that the store agreed to, if it did. -/
def change? : Exchange → Option StoreCall
  | ⟨.createService _, .ok _⟩ => some .createService
  | ⟨.createIngress _, .ok _⟩ => some .createIngress
  | ⟨.writeGameServer _, .ok _⟩ => some .writeGameServer
  | _ => none

/-- The answer of a cache that has not heard of the object. -/
def Unheard : Request β → β → Prop
  | .findService _ _, found => found = none
  | .findIngress _ _, found => found = none
  | _, _ => False

/-- How the shared store may answer. -/
structure Replies (m : Memory) (r : Request β) (b : β) (m' : Memory) : Prop where
  answer : b = (m.answer r).1 ∨ Unheard r b
  after : m' = (m.answer r).2

/-- A game server as it is after its marker was written. -/
def flipped (g : GameServer) : GameServer := Memory.raiseVersion g.markReady

/-- The store, where nothing is made to fail, after the given changes for a game server. -/
structure Shows (g : GameServer) (now : StoreCall → Bool) (m : Memory) : Prop where
  faultless : m.faults = []
  service : (m.services.lookup g.key).isSome = now .createService
  ingress : (m.ingresses.lookup g.key).isSome = now .createIngress
  gameServer : m.gameServers.lookup g.key = some (if now .writeGameServer then flipped g else g)

theorem Shows.logged {m : Memory} (h : Shows g now m) (log : List LogEntry) :
    Shows g now { m with log } :=
  ⟨h.faultless, h.service, h.ingress, h.gameServer⟩

def Later (now later : StoreCall → Bool) : Prop := ∀ call, now call = true → later call = true

/-- A change was not made before, and is made now. -/
def Turns (now : StoreCall → Bool) (change : Option StoreCall) (after : StoreCall → Bool) : Prop :=
  ∀ call, if change = some call then now call = false ∧ after call = true
    else after call = now call

/-- Whatever others do in the meantime, each change of the program is the first of its kind, and
what it comes to is as said. -/
def Ends (g : GameServer) : (StoreCall → Bool) → Program α → ((StoreCall → Bool) → α → Prop) → Prop
  | now, .done a, Q => Q now a
  | now, .ask (β := β) r next, Q => ∀ (later : StoreCall → Bool) (m m' : Memory) (b : β),
      Later now later → Shows g later m → Replies m r b m' →
        ∃ after, Turns later (change? ⟨r, b⟩) after ∧ Shows g after m' ∧ Ends g after (next b) Q

theorem Later.refl (now : StoreCall → Bool) : Later now now := fun _ h => h

theorem Later.trans {last : StoreCall → Bool} (h : Later now later) (h' : Later later last) :
    Later now last := fun call hc => h' call (h call hc)

theorem turns_none (now : StoreCall → Bool) : Turns now none now := fun _ => rfl

theorem Turns.keeps {change : Option StoreCall} (h : Turns now change later) :
    Later now later := by
  intro call hcall
  have hturn := h call
  split at hturn
  · exact hturn.2
  · exact hturn.trans hcall

namespace Ends

variable {p : Program α} {Q Q' : (StoreCall → Bool) → α → Prop}

theorem bind {f : α → Program β} {R : (StoreCall → Bool) → β → Prop} (h : Ends g now p Q)
    (hf : ∀ after a, Q after a → Ends g after (f a) R) : Ends g now (p >>= f) R := by
  induction p generalizing now with
  | done a => exact hf now a h
  | ask r next ih =>
    intro later m m' b hlater hshows hreply
    obtain ⟨after, hturn, hshows', hnext⟩ := h later m m' b hlater hshows hreply
    exact ⟨after, hturn, hshows', ih b hnext⟩

theorem weaken (h : Ends g now p Q) (hQ : ∀ after a, Q after a → Q' after a) :
    Ends g now p Q' := by
  induction p generalizing now with
  | done a => exact hQ now a h
  | ask r next ih =>
    intro later m m' b hlater hshows hreply
    obtain ⟨after, hturn, hshows', hnext⟩ := h later m m' b hlater hshows hreply
    exact ⟨after, hturn, hshows', ih b hnext⟩

theorem postpone {P : α → Prop} (h : Ends g now p fun _ => P) (hl : Later now later) :
    Ends g later p fun _ => P := by
  cases p with
  | done a => exact h
  | ask r next => exact fun last m m' b hlast => h last m m' b (hl.trans hlast)

end Ends

/-- The request leaves the store as it is. -/
def isQuiet : Request β → Bool
  | .findService _ _ | .findIngress _ _ | .publish _ _ | .count _ | .pause _ => true
  | _ => false

theorem ends_quiet {r : Request β} (hr : isQuiet r = true) :
    Ends g now (Program.request r) fun after _ => Later now after := by
  intro later m m' b hlater hshows hreply
  obtain ⟨-, rfl⟩ := hreply
  refine ⟨later, ?_, ?_, hlater⟩
  · cases r <;> first | exact turns_none later | cases hr
  · cases r <;> first
      | exact ⟨hshows.faultless, hshows.service, hshows.ingress, hshows.gameServer⟩
      | cases hr

/-- What a creation comes to: the object is there. -/
def Arrives (r : Except Failure α) : Prop :=
  (∃ a, r = .ok a) ∨ ∃ e, r = .error e ∧ e.isAlreadyExists = true

theorem turns_update {call : StoreCall} (h : now call = false) :
    Turns now (some call) (Function.update now call true) := by
  intro call'
  split
  · next heq =>
    cases heq
    exact ⟨h, Function.update_self ..⟩
  · next hne => exact Function.update_of_ne (fun heq => hne (congrArg some heq.symm)) ..

theorem ends_createService {s : Service} (hs : s.metadata.key = g.key) :
    Ends g now (Program.request (.createService s)) fun _ r => Arrives r := by
  intro later m m' b hlater hshows hreply
  obtain ⟨rfl | hunheard, rfl⟩ := hreply
  · rw [Memory.answer, Memory.createIn_of_faultless hshows.faultless rfl, hs, hshows.service]
    cases hthere : later .createService with
    | true =>
      exact ⟨later, turns_none later, hshows.logged _, .inr ⟨_, rfl, rfl⟩⟩
    | false =>
      refine ⟨Function.update later .createService true, turns_update hthere,
        ⟨hshows.faultless, ?_, hshows.ingress, hshows.gameServer⟩, .inl ⟨s, rfl⟩⟩
      rw [Function.update_self]
      exact Memory.isSome_lookup_put g.key s m.services
  · exact hunheard.elim

theorem ends_createIngress {i : Ingress} (hi : i.metadata.key = g.key) :
    Ends g now (Program.request (.createIngress i)) fun _ r => Arrives r := by
  intro later m m' b hlater hshows hreply
  obtain ⟨rfl | hunheard, rfl⟩ := hreply
  · rw [Memory.answer, Memory.createIn_of_faultless hshows.faultless rfl, hi, hshows.ingress]
    cases hthere : later .createIngress with
    | true =>
      exact ⟨later, turns_none later, hshows.logged _, .inr ⟨_, rfl, rfl⟩⟩
    | false =>
      refine ⟨Function.update later .createIngress true, turns_update hthere,
        ⟨hshows.faultless, hshows.service, ?_, hshows.gameServer⟩, .inl ⟨i, rfl⟩⟩
      rw [Function.update_self]
      exact Memory.isSome_lookup_put g.key i m.ingresses
  · exact hunheard.elim

theorem flipped_isMarkedReady (g : GameServer) : (flipped g).isMarkedReady = true := by
  have hmarker : (flipped g).annotationValue? Annotations.ingressReady = some "true" := by
    change (g.metadata.annotationMap.insert Annotations.ingressReady "true").get? _ = _
    rw [TextMap.get?_insert, if_pos rfl]
  have hready : (flipped g).readiness = .ready := by
    rw [GameServer.readiness, hmarker]
    rfl
  rw [GameServer.isMarkedReady, hready]
  rfl

theorem ends_readGameServer {name ns : String} (hkey : ns ++ "/" ++ name = g.key) :
    Ends g now (Program.request (.readGameServer name ns)) fun after r =>
      Later now after ∧ r = .ok (if after .writeGameServer then flipped g else g) := by
  intro later m m' b hlater hshows hreply
  obtain ⟨rfl | hunheard, rfl⟩ := hreply
  · rw [Memory.answer, hkey, Memory.read_of_faultless hshows.faultless hshows.gameServer]
    exact ⟨later, turns_none later, hshows.logged _, hlater, rfl⟩
  · exact hunheard.elim

/-- The marker is written, or somebody else has done so since the game server was read. -/
theorem ends_writeGameServer :
    Ends g now (Program.request (.writeGameServer g.markReady)) fun after r =>
      after .writeGameServer = true ∧
        (r = .ok (flipped g) ∨ ∃ e, r = .error e ∧ e.isConflict = true) := by
  intro later m m' b hlater hshows hreply
  obtain ⟨rfl | hunheard, rfl⟩ := hreply
  · have hstored : m.gameServers.lookup g.markReady.key = _ := hshows.gameServer
    cases hdone : later .writeGameServer with
    | true =>
      rw [hdone, if_pos rfl] at hstored
      have hversion := Memory.nextVersion_ne g.metadata.resourceVersion
      rw [Memory.answer, Memory.write_of_other_version hshows.faultless hstored hversion]
      exact ⟨later, turns_none later, hshows.logged _, hdone, .inr ⟨_, rfl, rfl⟩⟩
    | false =>
      rw [hdone, if_neg Bool.false_ne_true] at hstored
      rw [Memory.answer, Memory.write_of_same_version hshows.faultless hstored rfl]
      refine ⟨Function.update later .writeGameServer true, turns_update hdone,
        ⟨hshows.faultless, hshows.service, hshows.ingress, ?_⟩, Function.update_self .., .inl rfl⟩
      change (Memory.put g.key (flipped g) m.gameServers).lookup g.key = _
      rw [Memory.lookup_put, if_pos rfl, Function.update_self, if_pos rfl]
  · exact hunheard.elim

theorem ends_publish {type : EventType} {reason message : String} :
    Ends g now (Program.publish gs type reason message) fun _ _ => True :=
  (ends_quiet rfl).weaken fun _ _ _ => trivial

theorem ends_count (c : Counter) : Ends g now (Program.count c) fun _ _ => True :=
  (ends_quiet rfl).weaken fun _ _ _ => trivial

theorem ends_fail {kind : ResourceKind} (e : Failure) :
    Ends g now (fail gs kind e : Program (Except Failure α)) fun _ _ => True :=
  ends_publish.bind fun _ _ _ => trivial

theorem ends_create {kind : ResourceKind} {built : Except ValidationError α}
    {creation : α → Request (Except Failure α)}
    (hcreation : ∀ object, built = .ok object → ∀ now,
      Ends g now (Program.request (creation object)) fun _ r => Arrives r) :
    Ends g now (create gs kind built creation) fun _ r =>
      (∃ object, built = .ok object) → ∃ a, r = .ok a := by
  refine ends_publish.bind fun after _ _ => ?_
  cases built with
  | error e => exact (ends_fail _).weaken fun _ _ _ ⟨_, h⟩ => by cases h
  | ok object =>
    refine (hcreation object rfl after).bind fun after r hr => ?_
    rcases hr with ⟨created, rfl⟩ | ⟨e, rfl, hexists⟩
    · refine (ends_count _).bind fun _ _ _ => ends_publish.bind fun _ _ _ => ?_
      exact fun _ => ⟨created, rfl⟩
    · dsimp only
      rw [if_pos hexists]
      exact ends_publish.bind fun _ _ _ _ => ⟨object, rfl⟩

theorem ends_service (hkey : gs.key = g.key) :
    Ends g now (service gs) fun _ r =>
      (∃ s, Manifest.buildService gs = .ok s) → ∃ a, r = .ok a := by
  refine (ends_quiet rfl).bind fun _ found _ => ?_
  cases found with
  | some s => exact fun _ => ⟨s, rfl⟩
  | none =>
    exact ends_create fun s hs _ =>
      ends_createService ((Manifest.owned_of_buildService hs).key.trans hkey)

theorem ends_ingress {rewrite : Bool} (hkey : gs.key = g.key) :
    Ends g now (ingress rewrite gs) fun _ r =>
      (∃ i, Manifest.buildIngress gs rewrite = .ok i) → ∃ a, r = .ok a := by
  refine (ends_quiet rfl).bind fun _ found _ => ?_
  cases found with
  | some i => exact fun _ => ⟨i, rfl⟩
  | none =>
    exact ends_create fun i hi _ =>
      ends_createIngress ((Manifest.owned_of_buildIngress hi).key.trans hkey)

theorem ends_markOnce {name ns : String} (hkey : ns ++ "/" ++ name = g.key) :
    Ends g now (markOnce name ns) fun after r => (∃ a, r = .ok a) ∨
      now .writeGameServer = false ∧ after .writeGameServer = true ∧
        ∃ e, r = .error e ∧ e.isConflict = true := by
  refine (ends_readGameServer hkey).bind fun read r ⟨hlater, hr⟩ => ?_
  cases hdone : read .writeGameServer with
  | true =>
    rw [hdone, if_pos rfl] at hr
    subst hr
    dsimp only
    rw [if_pos (flipped_isMarkedReady g)]
    exact Or.inl ⟨_, rfl⟩
  | false =>
    rw [hdone, if_neg Bool.false_ne_true] at hr
    subst hr
    dsimp only
    split
    · exact Or.inl ⟨_, rfl⟩
    · have hnow : now .writeGameServer = false := by
        by_contra h
        cases hdone.symm.trans (hlater _ (Bool.eq_true_of_not_eq_false h))
      refine ends_writeGameServer.bind fun after r ⟨hafter, hr⟩ => ?_
      rcases hr with rfl | ⟨e, rfl, hconflict⟩
      · exact Or.inl ⟨_, rfl⟩
      · exact Or.inr ⟨hnow, hafter, e, rfl, hconflict⟩

/-- One repetition is enough: the marker that somebody else wrote is there by then. -/
theorem ends_conflictLoop {name ns : String} (hkey : ns ++ "/" ++ name = g.key)
    (delay : Nat → Duration) (waits attempt : Nat) :
    Ends g now (conflictLoop Program.pause delay (markOnce name ns) waits attempt) fun _ r =>
      (waits = 0 → now .writeGameServer = true) → ∃ a, r = .ok a := by
  induction waits generalizing now attempt with
  | zero =>
    rw [conflictLoop]
    refine (ends_markOnce hkey).bind fun after r hr => ?_
    rcases hr with ⟨a, rfl⟩ | ⟨hnow, -, e, rfl, hconflict⟩
    · exact fun _ => ⟨a, rfl⟩
    · dsimp only
      rw [if_pos hconflict]
      intro h
      cases hnow.symm.trans (h rfl)
  | succ waits ih =>
    rw [conflictLoop]
    refine (ends_markOnce hkey).bind fun after r hr => ?_
    rcases hr with ⟨a, rfl⟩ | ⟨-, hafter, e, rfl, hconflict⟩
    · exact fun _ => ⟨a, rfl⟩
    · dsimp only
      rw [if_pos hconflict]
      refine (ends_quiet rfl).bind fun paused _ hpaused => ?_
      exact (ih (attempt + 1)).weaken fun _ _ h _ => h fun _ => hpaused _ hafter

theorem ends_mark (b : Backoff) (hkey : gs.key = g.key) :
    Ends g now (mark b gs) fun _ r => 2 ≤ b.steps → ∃ a, r = .ok a := by
  refine (ends_conflictLoop hkey _ _ _).bind fun after r hr => ?_
  have hwaits : 2 ≤ b.steps → b.budget - 1 ≠ 0 := by
    intro hsteps
    have : b.budget = b.steps := Nat.max_eq_left (by omega)
    omega
  match r with
  | .error e =>
    intro hsteps
    obtain ⟨_, h⟩ := hr fun hzero => absurd hzero (hwaits hsteps)
    cases h
  | .ok (found, false) => exact fun _ => ⟨found, rfl⟩
  | .ok (written, true) =>
    refine Ends.bind (Q := fun _ _ => True) ?_ fun _ _ _ _ => ⟨written, rfl⟩
    refine (ends_count _).bind fun _ _ _ => ends_publish.bind fun _ _ _ => ?_
    split
    · exact ends_publish
    · trivial

theorem ends_readiness (b : Backoff) (hkey : gs.key = g.key) :
    Ends g now (readiness b gs) fun _ r =>
      2 ≤ b.steps → (∀ e, gs.readiness ≠ .malformed e) → ∃ a, r = .ok a := by
  unfold readiness
  split
  · exact fun _ _ => ⟨gs, rfl⟩
  · exact (ends_mark b hkey).weaken fun _ _ h hsteps _ => h hsteps
  · next e hmalformed =>
    refine ends_publish.bind fun _ _ _ => (ends_mark b hkey).bind fun _ r _ => ?_
    cases r <;> exact fun _ h => absurd hmalformed (h e)

/-- Nothing about the game server stands in the way of a reconcile, and a conflict may be met by
another attempt. -/
structure Fit (c : Settings) (gs : GameServer) : Prop where
  service : ∃ s, Manifest.buildService gs = .ok s
  ingress : ∃ i, Manifest.buildIngress gs c.rewrite = .ok i
  marker : ∀ e, gs.readiness ≠ .malformed e
  steps : 2 ≤ c.backoff.steps

theorem ends_converge (c : Settings) (hkey : gs.key = g.key) :
    Ends g now (converge c gs) fun _ r => Fit c gs → r = .ok () := by
  refine (ends_service hkey).bind fun _ r hr => ?_
  cases r with
  | error e =>
    intro hfit
    obtain ⟨_, h⟩ := hr hfit.service
    cases h
  | ok s =>
    refine (ends_ingress hkey).bind fun _ r hr => ?_
    cases r with
    | error e =>
      intro hfit
      obtain ⟨_, h⟩ := hr hfit.ingress
      cases h
    | ok i =>
      refine (ends_readiness c.backoff hkey).bind fun _ r hr => ?_
      cases r with
      | error e =>
        intro hfit
        obtain ⟨_, h⟩ := hr hfit.steps hfit.marker
        cases h
      | ok marked => exact fun _ => rfl

end GameIngress.Reconcile
