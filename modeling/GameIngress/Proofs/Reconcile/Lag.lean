import GameIngress.Proofs.Cluster.Calm
import GameIngress.Proofs.Json.Merge
import GameIngress.Proofs.Reconcile.Crowd

/-!
# Caches that lag behind

An object that a cache shows is left alone, and one that is created although it is there already
counts as created. So a reconcile that nobody interferes with does not depend on what its caches
have heard of, as long as they show nothing that is not on the server.
-/
namespace GameIngress

open Json Cluster

variable {α β : Type}

namespace Cluster

/-- Both caches, whatever becomes of the world. -/
structure View where
  services : World → Watch.Cache Json
  ingresses : World → Watch.Cache Json

namespace View

def fixed (services ingresses : Watch.Cache Json) : View := ⟨fun _ => services, fun _ => ingresses⟩

/-- The world with these caches in the place of its own. -/
def shownIn (v : View) (w : World) : World :=
  { w with
    services := { w.services with cache := v.services w }
    ingresses := { w.ingresses with cache := v.ingresses w } }

example (w : World) : shownIn ⟨fun w => w.services.cache, fun w => w.ingresses.cache⟩ w = w := rfl

/-- Every object of the cache has a namespace, and one of its name is on the server. -/
def Present (c : Collection) (cache : Watch.Cache Json) (s : Server) : Prop :=
  ∀ ns name j, cache.get? ⟨some ns, name⟩ = some j →
    ns ≠ "" ∧ s.objects.contains (c, ns ++ "/" ++ name) = true

/-- At this and any later state of the server, the caches show only what is there. -/
structure Lags (v : View) (s : Server) : Prop where
  services : ∀ w : World, s.Later w.server → Present .services (v.services w) w.server
  ingresses : ∀ w : World, s.Later w.server → Present .ingresses (v.ingresses w) w.server

theorem Present.later {c : Collection} {cache : Watch.Cache Json} {s s' : Server}
    (h : Present c cache s) (hlater : s.Later s') : Present c cache s' := by
  intro ns name j hj
  obtain ⟨hns, hthere⟩ := h ns name j hj
  exact ⟨hns, hlater.stored _ hthere⟩

theorem Lags.later {v : View} {s s' : Server} (h : v.Lags s) (hlater : s.Later s') : v.Lags s' :=
  ⟨fun w hw => h.services w (hlater.trans hw), fun w hw => h.ingresses w (hlater.trans hw)⟩

theorem lags_fixed {services ingresses : Watch.Cache Json} {s : Server}
    (hs : Present .services services s) (hi : Present .ingresses ingresses s) :
    (fixed services ingresses).Lags s :=
  ⟨fun _ => hs.later, fun _ => hi.later⟩

end View
end Cluster

namespace Program

/-- Run a program in a world with these caches. -/
def under (v : View) : Program α → World → α × World
  | done a, w => (a, w)
  | ask r next, w =>
    let (b, w) := (v.shownIn w).perform r
    (next b).under v w

/-- Run a program at a server, with caches that have heard of nothing. -/
def served : Program α → Server → α × Server
  | done a, s => (a, s)
  | ask r next, s =>
    let (b, s) := s.answer r
    (next b).served s

theorem under_bind (v : View) (p : Program α) (f : α → Program β) (w : World) :
    (p >>= f).under v w = (f (p.under v w).1).under v (p.under v w).2 := by
  induction p generalizing w with
  | done a => rfl
  | ask r next ih => exact ih _ _

theorem served_bind (p : Program α) (f : α → Program β) (s : Server) :
    (p >>= f).served s = (f (p.served s).1).served (p.served s).2 := by
  induction p generalizing s with
  | done a => rfl
  | ask r next ih => exact ih _ _

@[simp] theorem served_request_bind (r : Request β) (f : β → Program α) (s : Server) :
    (request r >>= f).served s = (f (s.answer r).1).served (s.answer r).2 := rfl

@[simp] theorem served_publish_bind {gs : GameServer} {type : EventType} {reason message : String}
    (f : Unit → Program α) (s : Server) :
    (publish gs type reason message >>= f).served s = (f ()).served s := rfl

theorem later_served (p : Program α) (s : Server) : s.Later (p.served s).2 := by
  induction p generalizing s with
  | done a => exact .refl s
  | ask r next ih => exact (Server.later_answer r s).trans (ih _ _)

theorem under_of_noLookup {v : View} {p : Program α}
    (hp : p.Every fun r => World.isLookup r = false) {w : World} (hw : w.Calm) :
    (p.under v w).1 = (p.served w.server).1 ∧
      (p.under v w).2.server = (p.served w.server).2 ∧ (p.under v w).2.Calm := by
  induction p generalizing w with
  | done a => exact ⟨rfl, rfl, hw⟩
  | ask r next ih =>
    have hshown : (v.shownIn w).Calm := ⟨hw.plan, hw.server⟩
    have hfollows := World.follows_perform hshown hp.1
    have hnext := ih (World.perform r (v.shownIn w)).1 (hp.2 _) (hfollows.calm hshown)
    rw [hfollows.server, hfollows.result] at hnext
    rw [under, served]
    dsimp only
    rw [hfollows.result]
    exact hnext

end Program

namespace Reconcile

open Program

variable {c : Settings} {gs : GameServer} {v : View} {w : World}

theorem get?_name_of_owned {m : ObjectMeta} (h : Manifest.Owned gs m) :
    m.toJson.get? "name" = some (.text gs.name) := by
  obtain ⟨annotations, rfl⟩ := h
  cases annotations <;> cases gs.metadata.ns <;> rfl

/-- The key under which the server stores an object that is created for a game server. -/
theorem keyOf_created {j : Json} {m : ObjectMeta} (hj : j.get? "metadata" = some m.toJson)
    (h : Manifest.Owned gs m) (ns : String) :
    Server.keyOf (j.setAt ["metadata", "namespace"] (.text ns)) = ns ++ "/" ++ gs.name := by
  have hns : Server.nsOf (j.setAt ["metadata", "namespace"] (.text ns)) = some ns := by
    rw [Server.nsOf, Server.textAt, at?_setAt_self]
  have hname : Server.nameOf (j.setAt ["metadata", "namespace"] (.text ns)) = some gs.name := by
    rw [Server.nameOf, Server.textAt, at?_setAt_of_diverge (by simp [Diverge]), at?_cons, hj,
      Option.bind_some, at?_cons, get?_name_of_owned h]
    rfl
  rw [Server.keyOf, hns, hname]
  rfl

theorem create_of_contains {s : Server} {collection : Collection} {j : Json} {m : ObjectMeta}
    (hs : s.Calm) (hcollection : collection = .services ∨ collection = .ingresses)
    (hj : j.get? "metadata" = some m.toJson) (h : Manifest.Owned gs m) {ns : String}
    (hthere : s.objects.contains (collection, ns ++ "/" ++ gs.name) = true) :
    s.create collection ns j = (.status (Server.refusal "AlreadyExists" 409), s) := by
  have hreliable : s.Reliable .create collection := hs.reliable fun _ => ⟨nofun, nofun⟩
  have hevents : collection ≠ .events := by
    rintro rfl
    cases hcollection <;> contradiction
  rw [Server.create, Server.guarded_of_reliable hreliable]
  dsimp only
  rw [if_neg hevents, keyOf_created hj h, if_pos hthere]

/-- Results that differ at most in what a success carries. -/
def Alike : Except Failure α → Except Failure β → Prop
  | .ok _, .ok _ => True
  | .error e, .error e' => e = e'
  | _, _ => False

theorem Alike.refl (r : Except Failure α) : Alike r r := by
  cases r with
  | ok a => trivial
  | error e => exact rfl

theorem Alike.eq {r r' : Except Failure Unit} (h : Alike r r') : r = r' := by
  match r, r', h with
  | .ok (), .ok (), _ => rfl
  | .error e, .error _, h => exact congrArg _ h

theorem noLookup_create {kind : ResourceKind} {built : Except ValidationError α}
    {creation : α → Request (Except Failure α)}
    (hcreation : ∀ a, World.isLookup (creation a) = false) :
    (create gs kind built creation).Every fun r => World.isLookup r = false := by
  refine ⟨rfl, fun _ => ?_⟩
  cases built with
  | error e => exact ⟨rfl, fun _ => trivial⟩
  | ok object =>
    refine ⟨hcreation object, fun answer => ?_⟩
    cases answer with
    | ok created => exact ⟨rfl, fun _ => ⟨rfl, fun _ => trivial⟩⟩
    | error e =>
      change (if e.isAlreadyExists = true then _ else _ : Program _).Every _
      split <;> exact ⟨rfl, fun _ => trivial⟩

theorem noLookup_readiness (b : Backoff) (gs : GameServer) :
    (readiness b gs).Every fun r => World.isLookup r = false := by
  refine (every_readiness {} b gs).imp fun r hr => ?_
  cases r with
  | findService _ _ | findIngress _ _ => cases hr.1
  | _ => rfl

theorem served_create_of_refused {kind : ResourceKind} {object : α}
    {creation : α → Request (Except Failure α)} {s : Server}
    (h : s.answer (creation object) =
      (.error (.api (Server.refusal "AlreadyExists" 409)), s)) :
    (create gs kind (.ok object) creation).served s = (.ok object, s) := by
  simp only [create, served_publish_bind, served_request_bind, h]
  rfl

/-- Look an object up, and create it if it is not found. -/
def ensure (gs : GameServer) (kind : ResourceKind) (lookup : Request (Option α))
    (built : Except ValidationError α) (creation : α → Request (Except Failure α)) :
    Program (Except Failure α) :=
  .ask lookup fun
    | some found => .done (.ok found)
    | none => create gs kind built creation

theorem service_eq (gs : GameServer) : service gs = ensure gs .service
    (.findService gs.name gs.ns) (Manifest.buildService gs) .createService := by
  refine congrArg (Program.ask _) (funext fun found => ?_)
  cases found <;> rfl

theorem ingress_eq (rewrite : Bool) (gs : GameServer) : ingress rewrite gs = ensure gs .ingress
    (.findIngress gs.name gs.ns) (Manifest.buildIngress gs rewrite) .createIngress := by
  refine congrArg (Program.ask _) (funext fun found => ?_)
  cases found <;> rfl

def whenOk (kind : ResourceKind) (gs : GameServer) (rest : Program (Except Failure Unit))
    (r : Except Failure α) : Program (Except Failure Unit) :=
  match labelled kind gs r with
  | .error e => .done (.error e)
  | .ok _ => rest

/-- A step of a reconcile, and what follows. -/
def stepThen (kind : ResourceKind) (gs : GameServer) (step : Program (Except Failure α))
    (rest : Program (Except Failure Unit)) : Program (Except Failure Unit) :=
  step >>= whenOk kind gs rest

theorem converge_eq (c : Settings) (gs : GameServer) :
    converge c gs = stepThen .service gs (service gs) (stepThen .ingress gs (ingress c.rewrite gs)
      (stepThen .gameServer gs (readiness c.backoff gs) (.done (.ok ())))) := by
  refine congrArg (service gs >>= ·) (funext fun r => ?_)
  cases r with
  | error e => rfl
  | ok _ =>
    refine congrArg (ingress c.rewrite gs >>= ·) (funext fun r => ?_)
    cases r with
    | error e => rfl
    | ok _ =>
      refine congrArg (readiness c.backoff gs >>= ·) (funext fun r => ?_)
      cases r <;> rfl

/-- In the world with these caches, a program comes to what it comes to at the server, up to what a
success carries. -/
structure Matches (v : View) (p : Program (Except Failure α)) (w : World) : Prop where
  result : Alike (p.under v w).1 (p.served w.server).1
  server : (p.under v w).2.server = (p.served w.server).2
  calm : (p.under v w).2.Calm

theorem matches_of_noLookup {p : Program (Except Failure α)}
    (hp : p.Every fun r => World.isLookup r = false) (hw : w.Calm) : Matches v p w := by
  obtain ⟨hresult, hserver, hcalm⟩ := under_of_noLookup (v := v) hp hw
  exact ⟨hresult ▸ .refl _, hserver, hcalm⟩

theorem matches_stepThen {kind : ResourceKind} {step : Program (Except Failure α)}
    {rest : Program (Except Failure Unit)} (hstep : Matches v step w)
    (hrest : ∀ w' : World, w'.Calm → w.server.Later w'.server → Matches v rest w') :
    Matches v (stepThen kind gs step rest) w := by
  obtain ⟨hresult, hserver, hcalm⟩ := hstep
  have hlater := later_served step w.server
  have hunder := under_bind v step (whenOk kind gs rest) w
  have hserved := served_bind step (whenOk kind gs rest) w.server
  generalize step.under v w = x at hresult hserver hcalm hunder
  generalize step.served w.server = y at hresult hserver hlater hserved
  obtain ⟨r, w'⟩ := x
  obtain ⟨r', s⟩ := y
  obtain rfl : w'.server = s := hserver
  suffices h : Matches v (whenOk kind gs rest r) w' ∧
      (whenOk kind gs rest r').served w'.server = (whenOk kind gs rest r).served w'.server by
    obtain ⟨⟨hresult, hserver, hcalm⟩, hsame⟩ := h
    rw [hsame] at hserved
    exact ⟨by rw [stepThen, hunder, hserved]; exact hresult,
      by rw [stepThen, hunder, hserved]; exact hserver, by rw [stepThen, hunder]; exact hcalm⟩
  match r, r', hresult with
  | .ok _, .ok _, _ => exact ⟨hrest w' hcalm hlater, rfl⟩
  | .error e, .error _, heq => exact ⟨⟨.refl _, rfl, hcalm⟩, heq ▸ rfl⟩

/-- An object is found or created, whatever the cache has heard of, if what it shows is refused by
the server. -/
theorem matches_ensure {kind : ResourceKind} {lookup : Request (Option α)}
    {creation : α → Request (Except Failure α)} {object : α} {found : Option α}
    (hcreation : ∀ a, World.isLookup (creation a) = false) (hw : w.Calm)
    (hfound : (v.shownIn w).perform lookup = (found, v.shownIn w))
    (hserved : w.server.answer lookup = (none, w.server))
    (hrefused : found.isSome = true → w.server.answer (creation object) =
      (.error (.api (Server.refusal "AlreadyExists" 409)), w.server)) :
    Matches v (ensure gs kind lookup (.ok object) creation) w := by
  have hshown : (v.shownIn w).Calm := ⟨hw.plan, hw.server⟩
  have hserver : (ensure gs kind lookup (.ok object) creation).served w.server =
      (create gs kind (.ok object) creation).served w.server := by
    rw [ensure, served, hserved]
  cases found with
  | some a =>
    have hunder : (ensure gs kind lookup (.ok object) creation).under v w =
        (.ok a, v.shownIn w) := by
      rw [ensure, under, hfound]
      rfl
    rw [served_create_of_refused (hrefused rfl)] at hserver
    exact ⟨by rw [hunder, hserver]; trivial, by rw [hunder, hserver]; rfl, hunder ▸ hshown⟩
  | none =>
    have hunder : (ensure gs kind lookup (.ok object) creation).under v w =
        (create gs kind (.ok object) creation).under v (v.shownIn w) := by
      rw [ensure, under, hfound]
    have hnoLookup : (create gs kind (.ok object) creation).Every fun r =>
        World.isLookup r = false := noLookup_create hcreation
    obtain ⟨hresult, hafter, hcalm⟩ := matches_of_noLookup (v := v) hnoLookup hshown
    exact ⟨by rw [hunder, hserver]; exact hresult, by rw [hunder, hserver]; exact hafter,
      hunder ▸ hcalm⟩

theorem nsOrDefault_of_ne (h : gs.ns ≠ "") : gs.metadata.nsOrDefault = gs.ns := by
  change gs.metadata.ns.getD "" ≠ "" at h
  change gs.metadata.ns.getD "default" = gs.metadata.ns.getD ""
  cases hns : gs.metadata.ns with
  | none => exact absurd (congrArg (·.getD "") hns) h
  | some ns => rfl

theorem refused_of_shown {collection : Collection} {cache : Watch.Cache Json} {s : Server}
    {decode : Json → Option α} {j : Json} {m : ObjectMeta} (hs : s.Calm)
    (hcollection : collection = .services ∨ collection = .ingresses)
    (hcache : View.Present collection cache s) (hj : j.get? "metadata" = some m.toJson)
    (h : Manifest.Owned gs m)
    (hshown : ((cache.get? ⟨some gs.ns, gs.name⟩).bind decode).isSome = true) :
    s.create collection m.nsOrDefault j = (.status (Server.refusal "AlreadyExists" 409), s) := by
  obtain ⟨a, ha⟩ := Option.isSome_iff_exists.mp hshown
  obtain ⟨found, hfound, -⟩ := Option.bind_eq_some_iff.mp ha
  obtain ⟨hns, hthere⟩ := hcache _ _ _ hfound
  have hm : m.nsOrDefault = gs.ns := by
    obtain ⟨_, rfl⟩ := h
    exact nsOrDefault_of_ne hns
  rw [hm]
  exact create_of_contains hs hcollection hj h hthere

theorem matches_service {s : Service} (hs : Manifest.buildService gs = .ok s) (hw : w.Calm)
    (hv : v.Lags w.server) : Matches v (service gs) w := by
  rw [service_eq, hs]
  refine matches_ensure (fun _ => rfl) hw rfl rfl fun hfound => ?_
  have hrefused := refused_of_shown hw.server (.inl rfl) (hv.services w (.refl w.server))
    (j := s.toJson) rfl (Manifest.owned_of_buildService hs) hfound
  rw [Server.answer, hrefused]
  rfl

theorem matches_ingress {rewrite : Bool} {i : Ingress}
    (hi : Manifest.buildIngress gs rewrite = .ok i) (hw : w.Calm) (hv : v.Lags w.server) :
    Matches v (ingress rewrite gs) w := by
  rw [ingress_eq, hi]
  refine matches_ensure (fun _ => rfl) hw rfl rfl fun hfound => ?_
  have hrefused := refused_of_shown hw.server (.inr rfl) (hv.ingresses w (.refl w.server))
    (j := i.toJson) rfl (Manifest.owned_of_buildIngress hi) hfound
  rw [Server.answer, hrefused]
  rfl

/-- A reconcile does what it does at the server with caches that have heard of nothing. -/
theorem matches_converge {s : Service} {i : Ingress} (hs : Manifest.buildService gs = .ok s)
    (hi : Manifest.buildIngress gs c.rewrite = .ok i) (hw : w.Calm) (hv : v.Lags w.server) :
    Matches v (converge c gs) w := by
  rw [converge_eq]
  refine matches_stepThen (matches_service hs hw hv) fun w₁ hw₁ hlater => ?_
  refine matches_stepThen (matches_ingress hi hw₁ (hv.later hlater)) fun w₂ hw₂ _ => ?_
  refine matches_stepThen (matches_of_noLookup (noLookup_readiness c.backoff gs) hw₂)
    fun w₃ hw₃ _ => ?_
  exact ⟨trivial, rfl, hw₃⟩

theorem matches_plan {s : Service} {i : Ingress} (hs : Manifest.buildService gs = .ok s)
    (hi : Manifest.buildIngress gs c.rewrite = .ok i) (hw : w.Calm) (hv : v.Lags w.server) :
    Matches v (plan c gs).program w := by
  unfold plan
  split
  · exact matches_of_noLookup ⟨rfl, fun _ => trivial⟩ hw
  · exact matches_converge hs hi hw hv

/-- What a reconcile comes to, and what it leaves on the server, does not depend on what its caches
have heard of. -/
theorem lag_invisible (c : Settings) (gs : GameServer) {w : World} (hw : w.Calm) {v₁ v₂ : View}
    (h₁ : v₁.Lags w.server) (h₂ : v₂.Lags w.server)
    (hs : ∃ s, Manifest.buildService gs = .ok s)
    (hi : ∃ i, Manifest.buildIngress gs c.rewrite = .ok i) :
    ((plan c gs).program.under v₁ w).1 = ((plan c gs).program.under v₂ w).1 ∧
      ((plan c gs).program.under v₁ w).2.server = ((plan c gs).program.under v₂ w).2.server := by
  obtain ⟨s, hs⟩ := hs
  obtain ⟨i, hi⟩ := hi
  have hmatches₁ := matches_plan hs hi hw h₁
  have hmatches₂ := matches_plan hs hi hw h₂
  exact ⟨hmatches₁.result.eq.trans hmatches₂.result.eq.symm,
    hmatches₁.server.trans hmatches₂.server.symm⟩

/-- An Ingress that somebody created under the name of the game server. -/
def strangeIngress : Json :=
  .object [("metadata", .object [("name", .text "a"), ("namespace", .text "d")])]

/-- A cluster with a game server and this Ingress. -/
def halfExposed : World where
  server := { objects := [
    ((.gameServers, "d/a"), Crowd.exposed.toJson), ((.ingresses, "d/a"), strangeIngress)] }
  services := World.idle .services
  ingresses := World.idle .ingresses

/-- A cache that has heard of the Ingress saves the attempt to create it. -/
theorem lag_invisible_of_ingress :
    let p := (plan {} Crowd.exposed).program
    let heard := p.under (.fixed {} { store := [(⟨some "d", "a"⟩, strangeIngress)] }) halfExposed
    let unheard := p.under (.fixed {} {}) halfExposed
    heard.1 = unheard.1 ∧ heard.2.server = unheard.2.server ∧ unheard.1 = .ok () ∧
      heard.2.log.length < unheard.2.log.length := by
  intro p heard unheard
  have hnothing (c : Collection) : View.Present c {} halfExposed.server := by
    intro ns name j hj
    cases hj
  have hcalm : halfExposed.Calm := ⟨rfl, fun f hf => by cases hf⟩
  have hheard : View.Present .ingresses { store := [(⟨some "d", "a"⟩, strangeIngress)] }
      halfExposed.server := by
    intro ns name j hj
    obtain ⟨rfl, rfl⟩ : "d" = ns ∧ "a" = name := by
      by_contra hne
      have hkey : (⟨some "d", "a"⟩ : Watch.Key) ≠ ⟨some ns, name⟩ := by
        simpa using hne
      rw [Watch.Cache.get?, Assoc.get?, if_neg hkey] at hj
      cases hj
    decide
  obtain ⟨hresult, hserver⟩ := lag_invisible {} Crowd.exposed (w := halfExposed)
    hcalm (View.lags_fixed (hnothing _) hheard) (View.lags_fixed (hnothing _) (hnothing _))
    Crowd.fit_exposed.service Crowd.fit_exposed.ingress
  exact ⟨hresult, hserver, by decide +kernel, by decide +kernel⟩

end Reconcile
end GameIngress
