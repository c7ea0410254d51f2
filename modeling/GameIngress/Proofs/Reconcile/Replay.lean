import GameIngress.Proofs.Reconcile.Crowd
import GameIngress.Proofs.Store.Outcome

/-!
# Reconciling again

A reconcile that succeeds leaves the Service, the Ingress and the marker in place. Once they are,
every step of a later reconcile finds in the store what it is after, whatever the copy says that it
was started with. So nothing is created or written any more, however often it is repeated.
-/
namespace GameIngress.Reconcile

variable {α : Type} {c : Settings} {gs g : GameServer} {h : Holdings} {key : String}

/-- The object that was found, or else the one that is built. -/
def ensured (found : Option α) (built : Except ValidationError α) (put : α → Holdings → Holdings)
    (h : Holdings) : Except Failure α × Holdings :=
  match found, built with
  | some a, _ => (.ok a, h)
  | none, .error e => (.error (.validation e), h)
  | none, .ok a => (.ok a, put a h)

theorem comesTo_create {kind : ResourceKind} {built : Except ValidationError α}
    {creation : α → Request (Except Failure α)} {put : α → Holdings → Holdings}
    (hcreation : ∀ a, built = .ok a → h.answer (creation a) = (.ok a, put a h)) :
    (create gs kind built creation).comesTo h = ensured none built put h := by
  cases built with
  | error e => rfl
  | ok a =>
    have hanswer := hcreation a rfl
    simp [create, hanswer, ensured]

theorem comesTo_service (gs : GameServer) (h : Holdings) :
    (service gs).comesTo h =
      ensured (h.services.lookup gs.key) (Manifest.buildService gs) Holdings.withService h := by
  have hanswer : h.answer (.findService gs.name gs.ns) = (h.services.lookup gs.key, h) := rfl
  rw [service, Program.comesTo_request_bind, hanswer]
  cases hfound : h.services.lookup gs.key with
  | some s => rfl
  | none =>
    refine comesTo_create fun s hs => ?_
    rw [Holdings.answer, (Manifest.owned_of_buildService hs).key, hfound]

theorem comesTo_ingress (rewrite : Bool) (gs : GameServer) (h : Holdings) :
    (ingress rewrite gs).comesTo h =
      ensured (h.ingresses.lookup gs.key) (Manifest.buildIngress gs rewrite) Holdings.withIngress
        h := by
  have hanswer : h.answer (.findIngress gs.name gs.ns) = (h.ingresses.lookup gs.key, h) := rfl
  rw [ingress, Program.comesTo_request_bind, hanswer]
  cases hfound : h.ingresses.lookup gs.key with
  | some i => rfl
  | none =>
    refine comesTo_create fun i hi => ?_
    rw [Holdings.answer, (Manifest.owned_of_buildIngress hi).key, hfound]

/-- A game server that is stored under the key bears it. -/
def Filed (key : String) (h : Holdings) : Prop :=
  ∀ g, h.gameServers.lookup key = some g → g.key = key

/-- The stored game server, with its marker set if it was not. -/
def marked (key : String) (h : Holdings) : Except Failure (GameServer × Bool) × Holdings :=
  match h.gameServers.lookup key with
  | none => (.error (Memory.refuse "NotFound" 404), h)
  | some g =>
    if g.isMarkedReady then (.ok (g, false), h)
    else (.ok (flipped g, true), h.withGameServer g g.markReady)

theorem comesTo_markOnce (hfiled : Filed gs.key h) :
    (markOnce gs.name gs.ns).comesTo h = marked gs.key h := by
  rw [markOnce, Program.comesTo_request_bind, marked]
  cases hg : h.gameServers.lookup gs.key with
  | none =>
    have hread : h.answer (.readGameServer gs.name gs.ns) =
        (.error (Memory.refuse "NotFound" 404), h) := by
      have hkey : h.gameServers.lookup (gs.ns ++ "/" ++ gs.name) = none := hg
      rw [Holdings.answer, hkey]
    rw [hread]
    rfl
  | some g =>
    have hread : h.answer (.readGameServer gs.name gs.ns) = (.ok g, h) := by
      have hkey : h.gameServers.lookup (gs.ns ++ "/" ++ gs.name) = some g := hg
      rw [Holdings.answer, hkey]
    rw [hread]
    by_cases hmarked : g.isMarkedReady = true
    · simp [hmarked]
    · have hkey : g.markReady.key = gs.key := hfiled g hg
      have hwrite : h.answer (.writeGameServer g.markReady) =
          (.ok (flipped g), h.withGameServer g g.markReady) := by
        rw [Holdings.answer, hkey, hg]
        exact if_pos rfl
      simp [hmarked, hwrite]

theorem isConflict_of_marked {e : Failure} {h' : Holdings} (he : marked key h = (.error e, h')) :
    e.isConflict = false := by
  unfold marked at he
  split at he
  · cases he
    rfl
  · split at he <;> cases he

theorem comesTo_conflictLoop (hfiled : Filed gs.key h) (delay : Nat → Duration)
    (waits attempt : Nat) :
    (conflictLoop Program.pause delay (markOnce gs.name gs.ns) waits attempt).comesTo h =
      marked gs.key h := by
  have hfirst := comesTo_markOnce hfiled
  cases hmarked : marked gs.key h with
  | mk r h' =>
    rw [hmarked] at hfirst
    rw [conflictLoop, Program.comesTo_bind, hfirst]
    cases r with
    | ok a => rfl
    | error e =>
      have hconflict := isConflict_of_marked hmarked
      simp [hconflict]

theorem comesTo_announce (gs : GameServer) (h : Holdings) : (announce gs).comesTo h = ((), h) := by
  rw [announce, Program.comesTo_count_bind, Program.comesTo_publish_bind]
  split <;> rfl

theorem comesTo_mark (hfiled : Filed gs.key h) (b : Backoff) :
    (mark b gs).comesTo h = ((marked gs.key h).1.map (·.1), (marked gs.key h).2) := by
  rw [mark, retryOnConflict, Program.comesTo_bind, comesTo_conflictLoop hfiled]
  match (marked gs.key h).1 with
  | .error e => rfl
  | .ok (g, false) => rfl
  | .ok (g, true) =>
    dsimp only
    rw [Program.comesTo_bind, comesTo_announce]
    rfl

theorem comesTo_readiness (hfiled : Filed gs.key h) (b : Backoff) :
    (readiness b gs).comesTo h = match gs.readiness with
      | .ready => (.ok gs, h)
      | .pending => ((marked gs.key h).1.map (·.1), (marked gs.key h).2)
      | .malformed e =>
        ((marked gs.key h).1.bind fun _ => .error (.validation e), (marked gs.key h).2) := by
  rw [readiness]
  cases gs.readiness with
  | ready => rfl
  | pending => exact comesTo_mark hfiled b
  | malformed e =>
    dsimp only
    rw [Program.comesTo_publish_bind, Program.comesTo_bind, comesTo_mark hfiled]
    match (marked gs.key h).1 with
    | .error f => rfl
    | .ok (g, _) => rfl

/-- Everything that a reconcile of the game server is after is in place. -/
structure Settled (key : String) (h : Holdings) : Prop where
  service : ∃ s, h.services.lookup key = some s
  ingress : ∃ i, h.ingresses.lookup key = some i
  gameServer : ∃ g, h.gameServers.lookup key = some g ∧ g.key = key ∧ g.isMarkedReady = true

theorem ensured_eq_ok {found : Option α} {built : Except ValidationError α}
    {put : α → Holdings → Holdings} {a : α} {h' : Holdings}
    (hok : ensured found built put h = (.ok a, h')) :
    (found = some a ∧ h' = h) ∨ (built = .ok a ∧ h' = put a h) := by
  unfold ensured at hok
  split at hok
  · cases hok
    exact .inl ⟨rfl, rfl⟩
  · cases hok
  · cases hok
    exact .inr ⟨rfl, rfl⟩

theorem service_eq_ok {s : Service} {h' : Holdings} (hok : (service gs).comesTo h = (.ok s, h')) :
    (∃ s, h'.services.lookup gs.key = some s) ∧ h'.gameServers = h.gameServers := by
  rw [comesTo_service] at hok
  obtain ⟨hfound, rfl⟩ | ⟨hbuilt, rfl⟩ := ensured_eq_ok hok
  · exact ⟨⟨s, hfound⟩, rfl⟩
  · refine ⟨⟨s, ?_⟩, rfl⟩
    change (Memory.put s.metadata.key s h.services).lookup gs.key = some s
    rw [Memory.lookup_put, if_pos (Manifest.owned_of_buildService hbuilt).key.symm]

theorem ingress_eq_ok {rewrite : Bool} {i : Ingress} {h' : Holdings}
    (hok : (ingress rewrite gs).comesTo h = (.ok i, h')) :
    (∃ i, h'.ingresses.lookup gs.key = some i) ∧ h'.services = h.services ∧
      h'.gameServers = h.gameServers := by
  rw [comesTo_ingress] at hok
  obtain ⟨hfound, rfl⟩ | ⟨hbuilt, rfl⟩ := ensured_eq_ok hok
  · exact ⟨⟨i, hfound⟩, rfl, rfl⟩
  · refine ⟨⟨i, ?_⟩, rfl, rfl⟩
    change (Memory.put i.metadata.key i h.ingresses).lookup gs.key = some i
    rw [Memory.lookup_put, if_pos (Manifest.owned_of_buildIngress hbuilt).key.symm]

theorem marked_eq_ok (hfiled : Filed key h) {x : GameServer × Bool} {h' : Holdings}
    (hok : marked key h = (.ok x, h')) :
    (∃ g, h'.gameServers.lookup key = some g ∧ g.key = key ∧ g.isMarkedReady = true) ∧
      h'.services = h.services ∧ h'.ingresses = h.ingresses := by
  unfold marked at hok
  split at hok
  · cases hok
  · next g hg =>
    have hkey := hfiled g hg
    split at hok
    · next hmarked =>
      cases hok
      exact ⟨⟨g, hg, hkey, hmarked⟩, rfl, rfl⟩
    · cases hok
      refine ⟨⟨flipped g, ?_, hkey, flipped_isMarkedReady g⟩, rfl, rfl⟩
      change (Memory.put g.key (flipped g) h.gameServers).lookup key = _
      rw [Memory.lookup_put, if_pos hkey.symm]

theorem readiness_eq_ok (hfiled : Filed gs.key h) (hmarker : gs.isMarkedReady = false) {b : Backoff}
    {g : GameServer} {h' : Holdings} (hok : (readiness b gs).comesTo h = (.ok g, h')) :
    (∃ g, h'.gameServers.lookup gs.key = some g ∧ g.key = gs.key ∧ g.isMarkedReady = true) ∧
      h'.services = h.services ∧ h'.ingresses = h.ingresses := by
  rw [comesTo_readiness hfiled] at hok
  cases hresult : marked gs.key h with
  | mk r h₁ =>
    rw [hresult] at hok
    cases hreadiness : gs.readiness with
    | ready => simp [GameServer.isMarkedReady, hreadiness] at hmarker
    | malformed e =>
      rw [hreadiness] at hok
      cases r <;> cases hok
    | pending =>
      rw [hreadiness] at hok
      cases r with
      | error e => cases hok
      | ok x =>
        cases hok
        exact marked_eq_ok hfiled hresult

theorem step_eq_ok {p : Program (Except Failure α)}
    {next : Except Failure α → Program (Except Failure Unit)} {h' : Holdings}
    (hok : (p >>= next).comesTo h = (.ok (), h'))
    (hends : ∀ e, ∃ e', next (.error e) = return .error e') :
    ∃ a h₁, p.comesTo h = (.ok a, h₁) ∧ (next (.ok a)).comesTo h₁ = (.ok (), h') := by
  rw [Program.comesTo_bind] at hok
  cases hp : p.comesTo h with
  | mk r h₁ =>
    rw [hp] at hok
    cases r with
    | error e =>
      obtain ⟨e', he'⟩ := hends e
      rw [he'] at hok
      cases hok
    | ok a => exact ⟨a, h₁, rfl, hok⟩

theorem settled_of_ok (hfiled : Filed gs.key h) (hmarker : gs.isMarkedReady = false)
    {h' : Holdings} (hok : (converge c gs).comesTo h = (.ok (), h')) : Settled gs.key h' := by
  obtain ⟨s, h₁, hs, hok⟩ := step_eq_ok hok fun e => ⟨_, rfl⟩
  obtain ⟨i, h₂, hi, hok⟩ := step_eq_ok hok fun e => ⟨_, rfl⟩
  obtain ⟨g, h₃, hg, hdone⟩ := step_eq_ok hok fun e => ⟨_, rfl⟩
  obtain rfl : h₃ = h' := congrArg Prod.snd hdone
  obtain ⟨hservice, hgameServers₁⟩ := service_eq_ok hs
  obtain ⟨hingress, hservices₂, hgameServers₂⟩ := ingress_eq_ok hi
  have hfiled₂ : Filed gs.key h₂ := by
    rw [Filed, hgameServers₂, hgameServers₁]
    exact hfiled
  obtain ⟨hgameServer, hservices, hingresses⟩ := readiness_eq_ok hfiled₂ hmarker hg
  refine ⟨?_, ?_, hgameServer⟩
  · rw [hservices, hservices₂]
    exact hservice
  · rw [hingresses]
    exact hingress

/-- What comes of a copy whose reconcile finds everything in place. A marker that is no truth value
is reported all the same. -/
def verdict (gs : GameServer) : Except Failure Unit :=
  match gs.skipReason?, gs.readiness with
  | none, .malformed e => .error (.step .gameServer gs.ns gs.name (.validation e))
  | _, _ => .ok ()

theorem verdict_eq_error {e : Failure} (h : verdict gs = .error e) :
    e.isValidation = true := by
  unfold verdict at h
  split at h
  · cases h
    rfl
  · cases h

theorem Settled.marked (hsettled : Settled key h) :
    ∃ g, Reconcile.marked key h = (.ok (g, false), h) := by
  obtain ⟨g, hg, -, hmarked⟩ := hsettled.gameServer
  refine ⟨g, ?_⟩
  simp only [Reconcile.marked, hg, if_pos hmarked]

theorem Settled.filed (hsettled : Settled key h) : Filed key h := by
  obtain ⟨g, hg, hkey, -⟩ := hsettled.gameServer
  intro g' hg'
  cases hg.symm.trans hg'
  exact hkey

theorem comesTo_of_settled (hsettled : Settled gs.key h) (c : Settings) :
    (plan c gs).program.comesTo h = (verdict gs, h) := by
  obtain ⟨s, hs⟩ := hsettled.service
  obtain ⟨i, hi⟩ := hsettled.ingress
  obtain ⟨g, hg⟩ := hsettled.marked
  have hservice : (service gs).comesTo h = (.ok s, h) := by rw [comesTo_service, hs, ensured]
  have hingress : (ingress c.rewrite gs).comesTo h = (.ok i, h) := by
    rw [comesTo_ingress, hi, ensured]
  have hreadiness := comesTo_readiness hsettled.filed c.backoff
  rw [hg] at hreadiness
  rw [plan, verdict]
  cases gs.skipReason? with
  | some reason => rfl
  | none =>
    simp only [Plan.program, converge, Program.comesTo_bind, hservice, hingress, hreadiness,
      labelled]
    cases gs.readiness <;> rfl

section Memory

variable {m m' : Memory} {copies : List (Settings × GameServer)}

theorem notify_of_steady (hm : m.Steady) (c : Settings) (gs : GameServer) :
    (m.notify c gs none).2.Steady ∧ ((m.notify c gs none).1, (m.notify c gs none).2.holdings) =
      (plan c gs).program.comesTo m.holdings := by
  obtain ⟨m', hrun, hm', hholdings⟩ := Memory.run_of_steady hm (plan c gs).program
  rw [run_program hm.uncut] at hrun
  obtain ⟨hresult, rfl⟩ := Prod.ext_iff.mp hrun
  exact ⟨hm', Prod.ext (Option.some.inj hresult) hholdings⟩

/-- Notifications about copies, added or updated, handled in turn. -/
def replay : List (Settings × GameServer) → Memory → List (Except Failure Unit) × Memory
  | [], m => ([], m)
  | (c, gs) :: rest, m =>
    let (r, m) := m.notify c gs none
    let (rs, m) := replay rest m
    (r :: rs, m)

theorem replay_of_settled (hm : m.Steady) (hsettled : Settled key m.holdings)
    (hcopies : ∀ x ∈ copies, x.2.key = key) :
    (replay copies m).1 = copies.map (fun x => verdict x.2) ∧
      (replay copies m).2.holdings = m.holdings := by
  induction copies generalizing m with
  | nil => exact ⟨rfl, rfl⟩
  | cons x rest ih =>
    obtain ⟨c, gs⟩ := x
    obtain rfl : gs.key = key := hcopies _ List.mem_cons_self
    obtain ⟨hsteady, hnotify⟩ := notify_of_steady hm c gs
    rw [comesTo_of_settled hsettled] at hnotify
    obtain ⟨hresult, hheld⟩ := Prod.ext_iff.mp hnotify
    change (m.notify c gs none).2.holdings = m.holdings at hheld
    rw [← hheld] at hsettled ⊢
    obtain ⟨hresults, hholdings⟩ :=
      ih hsteady hsettled fun x hx => hcopies x (List.mem_cons_of_mem _ hx)
    refine ⟨?_, hholdings⟩
    rw [List.map_cons, ← hresults]
    exact congrArg (· :: _) hresult

/-- After a reconcile that succeeded, and that did not trust a marker of its own copy, any number of
reconciles of any copies leave the store as it is and ask for no change. Each succeeds, unless it
reports the malformed marker of its copy. -/
theorem replay_changes_nothing (hm : m.Steady) (hfiled : Filed gs.key m.holdings)
    (hgate : gs.skipReason? = none) (hmarker : gs.isMarkedReady = false)
    (hok : m.notify c gs none = (.ok (), m')) (hcopies : ∀ x ∈ copies, x.2.key = gs.key) :
    (replay copies m').2.holdings = m'.holdings ∧
      (replay copies m').1 = copies.map (fun x => verdict x.2) ∧
      ∀ e, Except.error e ∈ (replay copies m').1 → e.isValidation = true := by
  obtain ⟨hsteady, hnotify⟩ := notify_of_steady hm c gs
  rw [hok, plan, hgate] at hnotify
  rw [hok] at hsteady
  have hsettled := settled_of_ok hfiled hmarker hnotify.symm
  obtain ⟨hresults, hholdings⟩ := replay_of_settled hsteady hsettled hcopies
  refine ⟨hholdings, hresults, fun e he => ?_⟩
  rw [hresults] at he
  obtain ⟨x, -, hx⟩ := List.mem_map.mp he
  exact verdict_eq_error hx

end Memory

def exposedStore : Memory := { gameServers := [("d/a", Crowd.exposed)] }

/-- Copies as it was, with a marker that is no truth value, and shut down. -/
def exposedCopies : List (Settings × GameServer) :=
  [({}, Crowd.exposed),
    ({ rewrite := true }, { Crowd.exposed with
      metadata := Crowd.exposed.metadata.annotate Annotations.ingressReady "perhaps" }),
    ({}, { Crowd.exposed with status := some { state := .shutdown } })]

theorem exposed_replayed :
    ∃ m', exposedStore.notify {} Crowd.exposed none = (.ok (), m') ∧
      (replay exposedCopies m').2.holdings = m'.holdings ∧
      (replay exposedCopies m').1 = [.ok (), .error (.step .gameServer "d" "a" (.validation
        (.invalidBool Annotations.ingressReady "a"))), .ok ()] := by
  have hkey : Crowd.exposed.key = "d/a" := rfl
  have hcopies : ∀ x ∈ exposedCopies, x.2.key = Crowd.exposed.key := by
    rw [hkey]
    refine List.forall_mem_cons.mpr ⟨rfl, List.forall_mem_cons.mpr ⟨rfl, ?_⟩⟩
    exact List.forall_mem_singleton.mpr rfl
  have hfiled : Filed Crowd.exposed.key exposedStore.holdings := by
    intro g hg
    cases hg
    rfl
  have hresult : (exposedStore.notify {} Crowd.exposed none).1 = .ok () := by decide +kernel
  have hok : exposedStore.notify {} Crowd.exposed none = (.ok (), _) := Prod.ext hresult rfl
  obtain ⟨hholdings, hresults, -⟩ :=
    replay_changes_nothing ⟨rfl, rfl⟩ hfiled rfl rfl hok hcopies
  exact ⟨_, hok, hholdings, hresults⟩

end GameIngress.Reconcile
