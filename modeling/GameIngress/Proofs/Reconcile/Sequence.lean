import GameIngress.Proofs.Store.Transcript
import GameIngress.Reconcile.InMemory

/-!
# The steps of a reconcile

A game server that passes the gate gets its Service, its Ingress and its marker, in this order, and
the first step that fails is the last. What is proved of the transcripts of a reconcile holds
whatever the store contains and whichever of its calls fail.
-/
namespace GameIngress.Reconcile

variable {α : Type} {c : Settings} {gs : GameServer} {t : Transcript}

/-- The events about an object that is created for a game server. -/
inductive CreationNotice (gs : GameServer) (kind : ResourceKind) : Notice → Prop
  | creating : CreationNotice gs kind ⟨.normal, "Creating", creatingMessage gs kind⟩
  | created : CreationNotice gs kind ⟨.normal, "Created", createdMessage gs kind⟩
  | failed (e : Failure) : CreationNotice gs kind ⟨.warning, "Failed", failedMessage gs kind e⟩

/-- The events about the marker, each of the game server that it is about. -/
inductive MarkerNotice (gs : GameServer) : GameServer → Notice → Prop
  | marked (written : GameServer) :
      MarkerNotice gs written ⟨.normal, "Updated", markedMessage written⟩
  | deprecated (written : GameServer) :
      MarkerNotice gs written ⟨.normal, "Updated", deprecatedMessage written⟩
  | malformed :
      MarkerNotice gs gs ⟨.warning, "Failed",
        (ValidationError.invalidBool Annotations.ingressReady gs.name).message⟩

/-- The requests that a step may make for a game server. -/
def Belongs (c : Settings) (gs : GameServer) (kind : ResourceKind) {β : Type} : Request β → Prop
  | .findService name ns => kind = .service ∧ name = gs.name ∧ ns = gs.ns
  | .createService s => kind = .service ∧ Manifest.buildService gs = .ok s
  | .findIngress name ns => kind = .ingress ∧ name = gs.name ∧ ns = gs.ns
  | .createIngress i => kind = .ingress ∧ Manifest.buildIngress gs c.rewrite = .ok i
  | .readGameServer name ns => kind = .gameServer ∧ name = gs.name ∧ ns = gs.ns
  | .writeGameServer _ => kind = .gameServer
  | .publish about n =>
    (kind ≠ .gameServer ∧ about = gs ∧ CreationNotice gs kind n) ∨
      (kind = .gameServer ∧ MarkerNotice gs about n)
  | .count counter =>
    (kind ≠ .gameServer ∧ counter = .created kind.name) ∨ (kind = .gameServer ∧ counter = .ready)
  | .pause _ => kind = .gameServer

theorem every_fail {kind : ResourceKind} (hkind : kind ≠ .gameServer) (e : Failure) :
    (fail gs kind e : Program (Except Failure α)).Every (Belongs c gs kind) :=
  ⟨.inl ⟨hkind, rfl, .failed e⟩, fun _ => trivial⟩

theorem every_create {kind : ResourceKind} {built : Except ValidationError α}
    {creation : α → Request (Except Failure α)} (hkind : kind ≠ .gameServer)
    (hcreation : ∀ object, built = .ok object → Belongs c gs kind (creation object)) :
    (create gs kind built creation).Every (Belongs c gs kind) := by
  refine ⟨.inl ⟨hkind, rfl, .creating⟩, fun _ => ?_⟩
  cases built with
  | error e => exact every_fail hkind _
  | ok object =>
    refine ⟨hcreation object rfl, fun answer => ?_⟩
    cases answer with
    | ok created =>
      exact ⟨.inl ⟨hkind, rfl⟩, fun _ => ⟨.inl ⟨hkind, rfl, .created⟩, fun _ => trivial⟩⟩
    | error e =>
      change (if e.isAlreadyExists = true then _ else _ : Program _).Every _
      split
      · exact ⟨.inl ⟨hkind, rfl, .created⟩, fun _ => trivial⟩
      · exact every_fail hkind e

theorem every_service (c : Settings) (gs : GameServer) :
    (service gs).Every (Belongs c gs .service) := by
  refine ⟨⟨rfl, rfl, rfl⟩, fun found => ?_⟩
  cases found with
  | some s => trivial
  | none => exact every_create (by decide) fun _ h => ⟨rfl, h⟩

theorem every_ingress (c : Settings) (gs : GameServer) :
    (ingress c.rewrite gs).Every (Belongs c gs .ingress) := by
  refine ⟨⟨rfl, rfl, rfl⟩, fun found => ?_⟩
  cases found with
  | some i => trivial
  | none => exact every_create (by decide) fun _ h => ⟨rfl, h⟩

theorem every_markOnce : (markOnce gs.name gs.ns).Every (Belongs c gs .gameServer) := by
  refine ⟨⟨rfl, rfl, rfl⟩, fun answer => ?_⟩
  cases answer with
  | error e => trivial
  | ok current =>
    change (if current.isMarkedReady = true then _ else _ : Program _).Every _
    split
    · trivial
    · refine ⟨rfl, fun answer => ?_⟩
      cases answer <;> trivial

theorem every_conflictLoop {P : {β : Type} → Request β → Prop}
    {call : Program (Except Failure α)} (hcall : call.Every P)
    (hpause : ∀ d, P (.pause d)) (delay : Nat → Duration) (waits attempt : Nat) :
    (conflictLoop Program.pause delay call waits attempt).Every P := by
  induction waits generalizing attempt with
  | zero =>
    rw [conflictLoop]
    refine hcall.bind fun result => ?_
    cases result with
    | ok a => trivial
    | error e =>
      dsimp only
      split <;> trivial
  | succ waits ih =>
    rw [conflictLoop]
    refine hcall.bind fun result => ?_
    cases result with
    | ok a => trivial
    | error e =>
      dsimp only
      split
      · exact ⟨hpause _, fun _ => ih (attempt + 1)⟩
      · trivial

theorem every_announce (written : GameServer) :
    (announce written).Every (Belongs c gs .gameServer) := by
  refine ⟨.inr ⟨rfl, rfl⟩, fun _ => ⟨.inr ⟨rfl, .marked written⟩, fun _ => ?_⟩⟩
  change (if _ then _ else _ : Program Unit).Every _
  split
  · exact ⟨.inr ⟨rfl, .deprecated written⟩, fun _ => trivial⟩
  · trivial

theorem every_mark (b : Backoff) : (mark b gs).Every (Belongs c gs .gameServer) := by
  refine (every_conflictLoop every_markOnce (fun _ => rfl) _ _ _).bind fun result => ?_
  match result with
  | .error e => trivial
  | .ok (found, false) => trivial
  | .ok (written, true) => exact (every_announce written).bind fun _ => trivial

theorem readiness_eq_malformed {e : ValidationError} (h : gs.readiness = .malformed e) :
    e = .invalidBool Annotations.ingressReady gs.name := by
  unfold GameServer.readiness at h
  split at h
  · cases h
  · split at h
    · cases h
    · split at h <;> cases h
      rfl

theorem every_readiness (c : Settings) (b : Backoff) (gs : GameServer) :
    (readiness b gs).Every (Belongs c gs .gameServer) := by
  unfold readiness
  split
  · trivial
  · exact every_mark b
  · next e he =>
    rw [readiness_eq_malformed he]
    refine ⟨.inr ⟨rfl, .malformed⟩, fun _ => (every_mark b).bind fun result => ?_⟩
    cases result <;> trivial

theorem append_ne {a b : String} (hlength : a.length = b.length) (hne : a ≠ b) (x y : String) :
    a ++ x ≠ b ++ y := by
  intro h
  have hlist := congrArg String.toList h
  rw [String.toList_append, String.toList_append] at hlist
  exact hne (String.toList_inj.mp (List.append_inj_left hlist hlength))

theorem CreationNotice.not_both {n : Notice} (hs : CreationNotice gs .service n)
    (hi : CreationNotice gs .ingress n) : False := by
  have hkinds := append_ne (a := ResourceKind.service.name) (b := ResourceKind.ingress.name)
    (by decide) (by simp [ResourceKind.name])
  generalize hn : n = n' at hi
  have hreason := congrArg Notice.reason hn
  have hmessage := congrArg Notice.message hn
  cases hs with
  | creating =>
    cases hi with
    | creating =>
      simp only [creatingMessage, String.append_assoc, String.append_right_inj] at hmessage
      exact hkinds _ _ hmessage
    | _ => simp at hreason
  | created =>
    cases hi with
    | created =>
      simp only [createdMessage, String.append_assoc] at hmessage
      exact hkinds _ _ hmessage
    | _ => simp at hreason
  | failed e =>
    cases hi with
    | failed e' =>
      unfold failedMessage at hmessage
      simp only [String.append_assoc, String.append_right_inj] at hmessage
      exact hkinds _ _ hmessage
    | _ => simp at hreason

theorem CreationNotice.not_marker {kind : ResourceKind} {about : GameServer} {n : Notice}
    (h : CreationNotice gs kind n) (hm : MarkerNotice gs about n) : False := by
  generalize hn : n = n' at hm
  have hreason := congrArg Notice.reason hn
  have hmessage := congrArg Notice.message hn
  cases hm with
  | marked | deprecated => cases h <;> simp at hreason
  | malformed =>
    cases h with
    | failed e =>
      unfold failedMessage ValidationError.message at hmessage
      have hhead := congrArg (·.toList.head?) hmessage
      simp [String.toList_append] at hhead
    | _ => simp at hreason

theorem Belongs.unique {k k' : ResourceKind} {β : Type} {r : Request β} (h : Belongs c gs k r)
    (h' : Belongs c gs k' r) : k = k' := by
  cases r with
  | findService | createService | findIngress | createIngress | readGameServer =>
    exact h.1.trans h'.1.symm
  | writeGameServer | pause => exact h.trans h'.symm
  | publish about n =>
    rcases h with ⟨hk, -, hn⟩ | ⟨hk, hn⟩ <;> rcases h' with ⟨hk', -, hn'⟩ | ⟨hk', hn'⟩
    · cases k <;> cases k' <;> first
        | rfl
        | exact absurd rfl hk
        | exact absurd rfl hk'
        | exact (hn.not_both hn').elim
        | exact (hn'.not_both hn).elim
    · exact (hn.not_marker hn').elim
    · exact (hn'.not_marker hn).elim
    · exact hk.trans hk'.symm
  | count counter =>
    rcases h with ⟨-, hn⟩ | ⟨hk, hn⟩ <;> rcases h' with ⟨-, hn'⟩ | ⟨hk', hn'⟩
    · have hname := Counter.created.inj (hn.symm.trans hn')
      cases k <;> cases k' <;> first | rfl | simp [ResourceKind.name] at hname
    · cases hn.symm.trans hn'
    · cases hn.symm.trans hn'
    · exact hk.trans hk'.symm

/-- The object was built, and created or found to be there when it was to be created. -/
def Made (creation : α → Request (Except Failure α)) (built : Except ValidationError α)
    (t : Transcript) : Prop :=
  ∃ object, built = .ok object ∧
    ((∃ created, ⟨creation object, .ok created⟩ ∈ t) ∨
      ∃ e : Failure, e.isAlreadyExists = true ∧ ⟨creation object, .error e⟩ ∈ t)

def HasService (gs : GameServer) (t : Transcript) : Prop :=
  (∃ s, ⟨.findService gs.name gs.ns, some s⟩ ∈ t) ∨
    Made .createService (Manifest.buildService gs) t

def HasIngress (c : Settings) (gs : GameServer) (t : Transcript) : Prop :=
  (∃ i, ⟨.findIngress gs.name gs.ns, some i⟩ ∈ t) ∨
    Made .createIngress (Manifest.buildIngress gs c.rewrite) t

/-- What a step asked and was answered, and what came of it. -/
structure Took (c : Settings) (gs : GameServer) (kind : ResourceKind)
    (step : Program (Except Failure α)) (t : Transcript) (result : Except Failure α) : Prop where
  yields : step.Yields t result
  belongs : ∀ e ∈ t, Belongs c gs kind e.request

/-- The steps are taken in order, up to the first one that fails. Its failure is the result, under
the name of the step and of the game server. -/
inductive Sequenced (c : Settings) (gs : GameServer) : Transcript → Except Failure Unit → Prop
  | service {ts : Transcript} {e : Failure}
      (hs : Took c gs .service (service gs) ts (.error e)) :
      Sequenced c gs ts (.error (.step .service gs.ns gs.name e))
  | ingress {ts ti : Transcript} {s : Service} {e : Failure}
      (hs : Took c gs .service (service gs) ts (.ok s))
      (hi : Took c gs .ingress (ingress c.rewrite gs) ti (.error e)) :
      Sequenced c gs (ts ++ ti) (.error (.step .ingress gs.ns gs.name e))
  | gameServer {ts ti tg : Transcript} {s : Service} {i : Ingress} {e : Failure}
      (hs : Took c gs .service (service gs) ts (.ok s))
      (hi : Took c gs .ingress (ingress c.rewrite gs) ti (.ok i))
      (hg : Took c gs .gameServer (readiness c.backoff gs) tg (.error e)) :
      Sequenced c gs (ts ++ ti ++ tg) (.error (.step .gameServer gs.ns gs.name e))
  | complete {ts ti tg : Transcript} {s : Service} {i : Ingress} {marked : GameServer}
      (hs : Took c gs .service (service gs) ts (.ok s))
      (hi : Took c gs .ingress (ingress c.rewrite gs) ti (.ok i))
      (hg : Took c gs .gameServer (readiness c.backoff gs) tg (.ok marked)) :
      Sequenced c gs (ts ++ ti ++ tg) (.ok ())

theorem made_of_create {kind : ResourceKind} {built : Except ValidationError α}
    {creation : α → Request (Except Failure α)} {a : α}
    (h : (create gs kind built creation).Yields t (.ok a)) : Made creation built t := by
  obtain ⟨_, t, rfl, h⟩ := h
  cases built with
  | error e =>
    obtain ⟨_, _, -, -, hres⟩ := h
    cases hres
  | ok object =>
    obtain ⟨answer, t, rfl, h⟩ := h
    refine ⟨object, rfl, ?_⟩
    cases answer with
    | ok created => exact .inl ⟨created, by simp⟩
    | error e =>
      change (if e.isAlreadyExists = true then _ else _ : Program _).Yields _ _ at h
      split at h
      · next hexists => exact .inr ⟨e, hexists, by simp⟩
      · obtain ⟨_, _, -, -, hres⟩ := h
        cases hres

theorem Made.mono {creation : α → Request (Except Failure α)}
    {built : Except ValidationError α} {t' : Transcript} (h : Made creation built t)
    (hsub : ∀ e ∈ t, e ∈ t') : Made creation built t' := by
  obtain ⟨object, hbuilt, ⟨created, hmem⟩ | ⟨e, he, hmem⟩⟩ := h
  · exact ⟨object, hbuilt, .inl ⟨created, hsub _ hmem⟩⟩
  · exact ⟨object, hbuilt, .inr ⟨e, he, hsub _ hmem⟩⟩

theorem hasService_of_ok {s : Service} (h : (service gs).Yields t (.ok s)) : HasService gs t := by
  obtain ⟨found, t, rfl, h⟩ := h
  cases found with
  | some s => exact .inl ⟨s, by simp⟩
  | none => exact .inr ((made_of_create h).mono fun _ => List.mem_cons_of_mem _)

theorem hasIngress_of_ok {i : Ingress} (h : (ingress c.rewrite gs).Yields t (.ok i)) :
    HasIngress c gs t := by
  obtain ⟨found, t, rfl, h⟩ := h
  cases found with
  | some i => exact .inl ⟨i, by simp⟩
  | none => exact .inr ((made_of_create h).mono fun _ => List.mem_cons_of_mem _)

theorem HasService.mono {t' : Transcript} (h : HasService gs t) (hsub : ∀ e ∈ t, e ∈ t') :
    HasService gs t' :=
  h.imp (fun ⟨s, hs⟩ => ⟨s, hsub _ hs⟩) fun hmade => hmade.mono hsub

theorem HasIngress.mono {t' : Transcript} (h : HasIngress c gs t) (hsub : ∀ e ∈ t, e ∈ t') :
    HasIngress c gs t' :=
  h.imp (fun ⟨i, hi⟩ => ⟨i, hsub _ hi⟩) fun hmade => hmade.mono hsub

theorem sequenced_of_yields {r : Except Failure Unit} (h : (converge c gs).Yields t r) :
    Sequenced c gs t r := by
  obtain ⟨ts, t, rs, rfl, hys, h⟩ := Program.yields_bind.mp h
  have hs : Took c gs .service (service gs) ts rs := ⟨hys, (every_service c gs).of_mem hys⟩
  cases rs with
  | error e =>
    obtain ⟨rfl, rfl⟩ := h
    rw [List.append_nil]
    exact .service hs
  | ok s =>
    obtain ⟨ti, t, ri, rfl, hyi, h⟩ := Program.yields_bind.mp h
    have hi : Took c gs .ingress (ingress c.rewrite gs) ti ri :=
      ⟨hyi, (every_ingress c gs).of_mem hyi⟩
    cases ri with
    | error e =>
      obtain ⟨rfl, rfl⟩ := h
      rw [List.append_nil]
      exact .ingress hs hi
    | ok i =>
      obtain ⟨tg, t, rg, rfl, hyg, h⟩ := Program.yields_bind.mp h
      have hg : Took c gs .gameServer (readiness c.backoff gs) tg rg :=
        ⟨hyg, (every_readiness c c.backoff gs).of_mem hyg⟩
      cases rg with
      | error e =>
        obtain ⟨rfl, rfl⟩ := h
        rw [List.append_nil, ← List.append_assoc]
        exact .gameServer hs hi hg
      | ok marked =>
        obtain ⟨rfl, rfl⟩ := h
        rw [List.append_nil, ← List.append_assoc]
        exact .complete hs hi hg

/-- The request is about the game server itself, in the API server. -/
def onGameServer {β : Type} : Request β → Bool
  | .readGameServer _ _ | .writeGameServer _ => true
  | _ => false

theorem not_onGameServer {kind : ResourceKind} {β : Type} {r : Request β}
    (h : Belongs c gs kind r) (hkind : kind ≠ .gameServer) : onGameServer r = false := by
  cases r with
  | readGameServer => exact absurd h.1 hkind
  | writeGameServer => exact absurd h hkind
  | _ => rfl

/-- What occurs in a transcript, but not in its first part, lies behind that part. -/
theorem append_of_not_mem {xs ys before after : Transcript} {e : Exchange}
    (h : xs ++ ys = before ++ e :: after) (he : e ∉ xs) :
    ∃ rest, before = xs ++ rest ∧ ys = rest ++ e :: after := by
  rcases List.append_eq_append_iff.mp h with ⟨rest, hbefore, hys⟩ | ⟨rest, hxs, hrest⟩
  · exact ⟨rest, hbefore, hys⟩
  · cases rest with
    | nil =>
      rw [List.append_nil] at hxs
      exact ⟨[], by rw [hxs, List.append_nil], hrest.symm⟩
    | cons e' rest =>
      cases hrest
      exact absurd (by rw [hxs]; simp) he

/-- The game server is read and written only when its Service and its Ingress are there. -/
theorem Sequenced.ready_before {r : Except Failure Unit} (h : Sequenced c gs t r)
    {before after : Transcript} {e : Exchange} (ht : t = before ++ e :: after)
    (he : onGameServer e.request = true) : HasService gs before ∧ HasIngress c gs before := by
  have hout : ∀ {α : Type} {kind : ResourceKind} {step : Program (Except Failure α)}
      {t : Transcript} {result : Except Failure α}, Took c gs kind step t result →
      kind ≠ .gameServer → e ∉ t := by
    intro α kind step t result htook hkind hmem
    rw [not_onGameServer (htook.belongs e hmem) hkind] at he
    cases he
  have hboth : ∀ {ts ti tg : Transcript} {s : Service} {i : Ingress},
      Took c gs .service (Reconcile.service gs) ts (.ok s) →
      Took c gs .ingress (Reconcile.ingress c.rewrite gs) ti (.ok i) →
      ts ++ ti ++ tg = before ++ e :: after → HasService gs before ∧ HasIngress c gs before := by
    intro ts ti tg s i hs hi ht
    obtain ⟨rest, rfl, -⟩ := append_of_not_mem ht fun hmem =>
      (List.mem_append.mp hmem).elim (hout hs (by decide)) (hout hi (by decide))
    exact ⟨(hasService_of_ok hs.yields).mono fun x hx => by simp [hx],
      (hasIngress_of_ok hi.yields).mono fun x hx => by simp [hx]⟩
  cases h with
  | service hs =>
    exact absurd (by rw [ht]; simp) (hout hs (by decide))
  | ingress hs hi =>
    have hmem := ht ▸ (by simp : e ∈ before ++ e :: after)
    exact ((List.mem_append.mp hmem).elim (hout hs (by decide)) (hout hi (by decide))).elim
  | gameServer hs hi hg => exact hboth hs hi ht
  | complete hs hi hg => exact hboth hs hi ht

theorem Sequenced.ne_cancelled {r : Except Failure Unit} (h : Sequenced c gs t r) :
    r ≠ .error .cancelled := by
  cases h <;> exact fun h => by cases h

theorem notify_eq_of_run {p : Program (Except Failure Unit)} (hplan : plan c gs = .run p)
    (cut : Option Nat) (m : Memory) :
    ∃ cutAt, (cut = none → cutAt = m.cutAt) ∧ m.notify c gs cut =
      if m.cutAt.any (· ≤ m.now) then (.error .cancelled, { m with cutAt })
      else match Memory.run p { m with cutAt } with
        | (some r, m') => (r, m')
        | (none, m') => (.error .cancelled, m') := by
  simp only [Memory.notify, hplan]
  cases hm : m.cutAt <;> cases cut
  · exact ⟨m.cutAt, fun _ => hm, rfl⟩
  · refine ⟨_, ?_, rfl⟩
    intro h
    cases h
  · exact ⟨m.cutAt, fun _ => hm, rfl⟩
  · refine ⟨_, ?_, rfl⟩
    intro h
    cases h

theorem notify_yields {p : Program (Except Failure Unit)} (hplan : plan c gs = .run p)
    {cut : Option Nat} {m : Memory} (h : (m.notify c gs cut).1 ≠ .error .cancelled) :
    ∃ t, p.Yields t (m.notify c gs cut).1 ∧ Memory.Recorded t m (m.notify c gs cut).2 := by
  obtain ⟨cutAt, -, hnotify⟩ := notify_eq_of_run hplan cut m
  rw [hnotify] at h ⊢
  split at h
  · exact absurd rfl h
  · next hdue =>
    rw [if_neg hdue]
    split at h
    · next r m' hrun =>
      obtain ⟨t, hy, hrec⟩ := Memory.run_yields (congrArg Prod.fst hrun)
      rw [hrun] at hrec
      exact ⟨t, hy, hrec.log, hrec.events, hrec.tally⟩
    · exact absurd rfl h

theorem notify_eq_of_skip {reason : SkipReason} (hplan : plan c gs = .skip reason)
    (cut : Option Nat) (m : Memory) :
    ∃ cutAt, m.notify c gs cut =
      (.ok (), { m with cutAt, tally := m.tally.bump (.skipped reason.label) }) := by
  simp only [Memory.notify, hplan]
  split <;> exact ⟨_, rfl⟩

theorem notify_ne_cancelled {m : Memory} (hplan : plan c gs = .run (converge c gs))
    (hm : m.cutAt = none) : (m.notify c gs none).1 ≠ .error .cancelled := by
  obtain ⟨r, hr⟩ := Memory.exists_run_of_uncut (converge c gs) hm
  obtain ⟨t, hy, -⟩ := Memory.run_yields hr
  obtain ⟨cutAt, hcut, hnotify⟩ := notify_eq_of_run hplan none m
  obtain rfl := hcut rfl
  rw [hnotify, if_neg (by simp [hm])]
  split
  · next r' m' hrun =>
    cases hr.symm.trans (congrArg Prod.fst hrun)
    exact (sequenced_of_yields hy).ne_cancelled
  · next m' hrun => cases hr.symm.trans (congrArg Prod.fst hrun)

/-- A game server that does not pass the gate is counted and left alone. For one that passes, and
whatever the store answers, the steps are taken in order up to the first that fails, whose failure
is the result; and the game server itself is read and written only when its Service and its Ingress
were found, created or there already. -/
theorem steps_in_order (c : Settings) (gs : GameServer) :
    match gs.skipReason? with
    | some reason =>
      plan c gs = .skip reason ∧
        ∀ (cut : Option Nat) (m : Memory), ∃ cutAt, m.notify c gs cut =
          (.ok (), { m with cutAt, tally := m.tally.bump (.skipped reason.label) })
    | none =>
      ∃ p, plan c gs = .run p ∧
        (∀ w : Responder, ∃ t r, p.Yields t r ∧ w.Gave [] t) ∧
        (∀ m : Memory, m.cutAt = none → (m.notify c gs none).1 ≠ .error .cancelled) ∧
        (∀ (cut : Option Nat) (m : Memory), (m.notify c gs cut).1 ≠ .error .cancelled →
          ∃ t, p.Yields t (m.notify c gs cut).1 ∧ Memory.Recorded t m (m.notify c gs cut).2) ∧
        ∀ t r, p.Yields t r → Sequenced c gs t r ∧
          ∀ before e after, t = before ++ e :: after → onGameServer e.request = true →
            HasService gs before ∧ HasIngress c gs before := by
  split
  · next reason hskip =>
    have hplan : plan c gs = .skip reason := by rw [plan, hskip]
    exact ⟨hplan, notify_eq_of_skip hplan⟩
  · next hskip =>
    have hplan : plan c gs = .run (converge c gs) := by rw [plan, hskip]
    refine ⟨_, hplan, fun w => Program.exists_yields w _ [], fun m hm =>
      notify_ne_cancelled hplan hm, fun cut m h => notify_yields hplan h, fun t r hy => ?_⟩
    have hseq := sequenced_of_yields hy
    exact ⟨hseq, fun before e after ht he => hseq.ready_before ht he⟩

/-- A game server whose Ingress cannot be built: it lists no hosts. -/
def hostless : GameServer where
  metadata := {
    name := some "a"
    ns := some "d"
    annotations := some (TextMap.empty.insert Annotations.ingressMode "path") }
  status := some { state := .ready }

theorem steps_in_order_without_hosts :
    ∃ t, Sequenced {} hostless t (.error (.step .ingress "d" "a" (.validation
        (.routingAnnotationMissing .path Annotations.ingressFqdn "d" "a")))) ∧
      Memory.Recorded t {} (Memory.notify {} hostless none {}).2 := by
  have hresult : (Memory.notify {} hostless none {}).1 = .error (.step .ingress "d" "a" (.validation
      (.routingAnnotationMissing .path Annotations.ingressFqdn "d" "a"))) := rfl
  have h := steps_in_order {} hostless
  rw [show hostless.skipReason? = none from rfl] at h
  obtain ⟨p, -, -, huncut, hrun, hseq⟩ := h
  obtain ⟨t, hy, hrec⟩ := hrun none {} (huncut {} rfl)
  rw [hresult] at hy
  exact ⟨t, (hseq t _ hy).1, hrec⟩

end GameIngress.Reconcile
