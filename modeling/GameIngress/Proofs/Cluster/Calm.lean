import GameIngress.Cluster.World

/-!
# Requests that nobody interferes with

When nobody else acts on the cluster, and the caches get all that they ask for, a request does to
the server what it does to the server alone. The caches, the clock and the watch play no part,
however long the request takes.
-/
namespace GameIngress.Cluster

variable {α β : Type}

namespace Server

variable {s s' s'' : Server} {verb : Verb} {c : Collection} {key : String}

/-- No request of the kind is made to fail. -/
def Reliable (verb : Verb) (c : Collection) (s : Server) : Prop :=
  ∀ f ∈ s.faults, ¬ (f.verb = verb ∧ f.collection = c)

/-- Only requests for single game servers are made to fail. -/
def Calm (s : Server) : Prop :=
  ∀ f ∈ s.faults, f.collection = .gameServers ∧ (f.verb = .get ∨ f.verb = .patch)

/-- What was stored still is, and nothing more is made to fail. -/
structure Later (s s' : Server) : Prop where
  stored : ∀ key, s.objects.contains key = true → s'.objects.contains key = true
  faults : ∀ f' ∈ s'.faults, ∃ f ∈ s.faults, f'.verb = f.verb ∧ f'.collection = f.collection

theorem Later.refl (s : Server) : Later s s := ⟨fun _ h => h, fun f hf => ⟨f, hf, rfl, rfl⟩⟩

theorem Later.trans (h : Later s s') (h' : Later s' s'') : Later s s'' where
  stored key hkey := h'.stored key (h.stored key hkey)
  faults f hf := by
    obtain ⟨f', hf', hverb', hc'⟩ := h'.faults f hf
    obtain ⟨f'', hf'', hverb'', hc''⟩ := h.faults f' hf'
    exact ⟨f'', hf'', hverb'.trans hverb'', hc'.trans hc''⟩

theorem Calm.later (hs : s.Calm) (h : Later s s') : s'.Calm := by
  intro f hf
  obtain ⟨f', hf', hverb, hc⟩ := h.faults f hf
  rw [hverb, hc]
  exact hs f' hf'

theorem Calm.reliable (hs : s.Calm) (h : c = .gameServers → verb ≠ .get ∧ verb ≠ .patch) :
    s.Reliable verb c := by
  rintro f hf ⟨rfl, rfl⟩
  obtain ⟨hc, hverb⟩ := hs f hf
  exact hverb.elim (h hc).1 (h hc).2

theorem meet_of_reliable {faults : List Fault}
    (h : ∀ f ∈ faults, ¬ (f.verb = verb ∧ f.collection = c)) :
    meet verb c faults = (none, faults) := by
  induction faults with
  | nil => rfl
  | cons f rest ih =>
    have hf : ¬ (f.verb = verb ∧ f.collection = c ∧ (0 < f.skip ∨ 0 < f.times)) :=
      fun hf => h f List.mem_cons_self ⟨hf.1, hf.2.1⟩
    rw [meet, if_neg hf, ih fun f' hf' => h f' (List.mem_cons_of_mem f hf')]

theorem mem_meet {faults : List Fault} {f' : Fault} (h : f' ∈ (meet verb c faults).2) :
    ∃ f ∈ faults, f'.verb = f.verb ∧ f'.collection = f.collection := by
  induction faults with
  | nil => cases h
  | cons f rest ih =>
    have hrest (h : f' ∈ (meet verb c rest).2) :
        ∃ f₁ ∈ f :: rest, f'.verb = f₁.verb ∧ f'.collection = f₁.collection := by
      obtain ⟨f₁, hf₁, heq⟩ := ih h
      exact ⟨f₁, List.mem_cons_of_mem f hf₁, heq⟩
    rw [meet] at h
    split at h
    · split at h
      · obtain rfl | h := List.mem_cons.mp h
        · exact ⟨f, List.mem_cons_self, rfl, rfl⟩
        · exact hrest h
      · obtain rfl | h := List.mem_cons.mp h
        · exact ⟨f, List.mem_cons_self, rfl, rfl⟩
        · exact ⟨f', List.mem_cons_of_mem f h, rfl, rfl⟩
    · obtain rfl | h := List.mem_cons.mp h
      · exact ⟨f', List.mem_cons_self, rfl, rfl⟩
      · exact hrest h

theorem guarded_of_reliable (h : s.Reliable verb c) (key : String) (fail : Reply → α)
    (serve : Server → α × Server) : guarded verb c key fail serve s = serve s := by
  rw [guarded, meet_of_reliable h]

theorem list_of_reliable {scope : Scope} (h : s.Reliable .list scope.collection) (limit : Nat) :
    (s.list scope limit).2 = s := by
  rw [list, guarded_of_reliable h]

theorem watch_of_reliable {scope : Scope} (h : s.Reliable .watch scope.collection) :
    (s.watch scope).2 = s := by
  rw [watch, guarded_of_reliable h]

theorem contains_set {objects : Assoc (Collection × String) Json} {k : Collection × String}
    (k' : Collection × String) (j : Json) (h : objects.contains k = true) :
    Assoc.contains k (objects.set k' j) = true := by
  rw [Assoc.contains, Assoc.get?_set]
  split
  · rfl
  · exact h

theorem later_store (c : Collection) (key : String) (j : Json) (s : Server) :
    Later s (s.store c key j).2 :=
  ⟨fun _ h => contains_set _ _ h, fun f hf => ⟨f, hf, rfl, rfl⟩⟩

theorem later_touchAt (c : Collection) (key : String) (s : Server) : Later s (s.touchAt c key) := by
  unfold touchAt
  split
  · exact later_store _ _ _ s
  · exact .refl s

theorem later_guarded {fail : Reply → α} {serve : Server → α × Server}
    (h : ∀ s, Later s (serve s).2) : Later s (guarded verb c key fail serve s).2 := by
  have hmet : Later s { s with faults := (meet verb c s.faults).2 } :=
    ⟨fun _ h => h, fun _ hf => mem_meet hf⟩
  unfold guarded
  split
  next fault faults hmeet =>
  rw [hmeet] at hmet
  dsimp only
  split
  · next f =>
    cases f.touch with
    | false => exact hmet
    | true => exact hmet.trans (later_touchAt _ _ _)
  · exact hmet.trans (h _)

theorem later_get (c : Collection) (ns name : String) (s : Server) :
    Later s (s.get c ns name).2 := by
  refine later_guarded fun s => ?_
  split <;> exact .refl s

theorem later_create (c : Collection) (ns : String) (j : Json) (s : Server) :
    Later s (s.create c ns j).2 := by
  refine later_guarded fun s => ?_
  split
  · exact .refl s
  · split
    · exact .refl s
    · exact later_store _ _ _ s

theorem later_patch (c : Collection) (ns name : String) (p : Json) (s : Server) :
    Later s (s.patch c ns name p).2 := by
  refine later_guarded fun s => ?_
  split
  · exact .refl s
  · cases versionOf p with
    | none => exact later_store _ _ _ s
    | some v =>
      dsimp only
      split
      · exact .refl s
      · exact later_store _ _ _ s

theorem create_event (hs : s.Calm) (ns : String) (j : Json) : (s.create .events ns j).2 = s := by
  rw [create, guarded_of_reliable (hs.reliable fun h => by cases h)]
  rfl

/-- What the server alone answers to a request, and its state then. A cache that has heard of
nothing finds nothing. -/
def answer : Request β → Server → β × Server
  | .findService _ _, s => (none, s)
  | .findIngress _ _, s => (none, s)
  | .createService x, s =>
    let (reply, s) := s.create .services x.metadata.nsOrDefault x.toJson
    (reply.read Service.ofJson?, s)
  | .createIngress x, s =>
    let (reply, s) := s.create .ingresses x.metadata.nsOrDefault x.toJson
    (reply.read Ingress.ofJson?, s)
  | .readGameServer name ns, s =>
    if name.isEmpty then (.error .undecodable, s)
    else
      let (reply, s) := s.get .gameServers ns name
      (reply.read GameServer.ofJson?, s)
  | .writeGameServer gs, s =>
    if gs.name.isEmpty then (.error .undecodable, s)
    else
      let (reply, s) := s.patch .gameServers gs.metadata.nsOrDefault gs.name
        (World.annotationsPatch gs)
      (reply.read GameServer.ofJson?, s)
  | .publish _ _, s | .count _, s | .pause _, s => ((), s)

theorem later_answer (r : Request β) (s : Server) : Later s (s.answer r).2 := by
  cases r with
  | findService _ _ | findIngress _ _ | publish _ _ | count _ | pause _ => exact .refl s
  | createService x | createIngress x => exact later_create _ _ _ s
  | readGameServer name ns =>
    simp only [answer]
    split
    · exact .refl s
    · exact later_get _ _ _ s
  | writeGameServer gs =>
    simp only [answer]
    split
    · exact .refl s
    · exact later_patch _ _ _ _ s

end Server

theorem Follower.step_server {s : Server} (hs : s.Calm) (decodes : Json → Bool) (now latency : Nat)
    (f : Follower) : (f.step decodes now latency s).2.2.2 = s := by
  have hlist : (s.list f.scope pageLimit).2 = s :=
    Server.list_of_reliable (hs.reliable fun _ => ⟨nofun, nofun⟩) pageLimit
  have hwatch : (s.watch f.scope).2 = s :=
    Server.watch_of_reliable (hs.reliable fun _ => ⟨nofun, nofun⟩)
  unfold step
  split
  · split
    · rfl
    · split
      next heq =>
        rw [heq] at hlist
        split <;> exact hlist
      next heq =>
        rw [heq] at hlist
        exact hlist
  · split
    · rfl
    · split <;>
      · next heq =>
        rw [heq] at hwatch
        exact hwatch
  · rfl
  · split <;> rfl
  · rfl

theorem Follower.advance_server {s : Server} (hs : s.Calm) (decodes : Json → Bool)
    (now latency : Nat) (f : Follower) : (f.advance decodes now latency s).2.2.2 = s := by
  refine List.foldlRecOn (motive := fun x : List Lesson × Bool × Follower × Server => x.2.2.2 = s)
    (List.range 4) _ rfl ?_
  rintro ⟨lessons, listed, f, _⟩ rfl _ -
  exact f.step_server hs decodes now latency

namespace World

variable {w : World}

/-- Caches, watches, the clock and the records may differ. -/
structure SameServer (w w' : World) : Prop where
  server : w'.server = w.server
  plan : w'.plan = w.plan

theorem SameServer.trans {w' w'' : World} (h : SameServer w w') (h' : SameServer w' w'') :
    SameServer w w'' :=
  ⟨h'.server.trans h.server, h'.plan.trans h.plan⟩

theorem sameServer_noteList (scope : Server.Scope) (limit : Nat) (w : World) :
    SameServer w (w.noteList scope limit) := by
  unfold noteList
  dsimp only
  split <;> exact ⟨rfl, rfl⟩

theorem sameServer_advanceReplica (hw : w.server.Calm) (decodes : Json → Bool) (m : Replica) :
    SameServer w (w.advanceReplica decodes m).2 := by
  have hserver := m.follower.advance_server hw decodes w.now w.latency
  unfold advanceReplica
  dsimp only
  rw [hserver]
  split
  · exact sameServer_noteList _ _ w
  · exact ⟨rfl, rfl⟩

theorem sameServer_refresh (hw : w.server.Calm) : SameServer w w.refresh := by
  have hstart : SameServer w (if w.isCancelled then w.stopReplicas else w) := by
    split <;> exact ⟨rfl, rfl⟩
  have hstep {c : World} (hc : SameServer w c) (decodes : Json → Bool) (m : Replica) :
      SameServer w (c.advanceReplica decodes m).2 :=
    hc.trans (sameServer_advanceReplica (hc.server ▸ hw) decodes m)
  unfold refresh
  dsimp only
  generalize (if w.isCancelled then w.stopReplicas else w) = start at hstart ⊢
  have hservices := hstep hstart (fun j => (Service.ofJson? j).isSome) start.services
  generalize start.advanceReplica _ start.services = x at hservices ⊢
  obtain ⟨services, w₁⟩ := x
  have hingresses := hstep (c := { w₁ with services }) ⟨hservices.server, hservices.plan⟩
    (fun j => (Ingress.ofJson? j).isSome) w₁.ingresses
  dsimp only at hingresses ⊢
  generalize advanceReplica _ _ _ = x at hingresses ⊢
  obtain ⟨ingresses, w₂⟩ := x
  dsimp only at hingresses ⊢
  split
  · exact ⟨hingresses.server, hingresses.plan⟩
  · next f _ =>
    have hserver := f.advance_server (hingresses.server ▸ hw)
      (fun j => (GameServer.ofJson? j).isSome) w₂.now w₂.latency
    generalize Follower.advance _ _ _ _ _ = x at hserver ⊢
    obtain ⟨lessons, listed, f, server⟩ := x
    dsimp only at hserver ⊢
    obtain rfl := hserver
    have hshown : SameServer w
        { w₂ with ingresses, server := w₂.server, watch := some f, shown := w₂.shown ++ lessons } :=
      ⟨hingresses.server, hingresses.plan⟩
    split
    · exact hshown.trans (sameServer_noteList _ _ _)
    · exact hshown

/-- A request is noted, the server answers, and the caches are brought up to date. -/
theorem sameServer_noted (hw : w.server.Calm) (method path about : String) (body : Option Json)
    {server : Server} (h : w.server.Later server) :
    SameServer { w with server } (refresh { w.note method path about body with server }) := by
  have hrefresh := sameServer_refresh (w := { w.note method path about body with server })
    (hw.later h)
  exact ⟨hrefresh.server, hrefresh.plan⟩

theorem sameServer_create (hw : w.server.Calm) (c : Collection) (ns about : String) (body : Json)
    (decode : Json → Option α) :
    SameServer { w with server := (w.server.create c ns body).2 }
      (w.create c ns about body decode).2 :=
  sameServer_noted hw _ _ _ _ (Server.later_create c ns body w.server)

/-- Whether a request is answered by a cache. -/
def isLookup {β : Type} : Request β → Bool
  | .findService .. | .findIngress .. => true
  | _ => false

/-- What the server answers to a request and its state then are the answer and the state in the
world. -/
structure Follows (w : World) (r : Request β) (x : β × World) : Prop where
  result : x.1 = (w.server.answer r).1
  server : x.2.server = (w.server.answer r).2
  plan : x.2.plan = w.plan

theorem follows_answer (hw : w.server.Calm) {r : Request β} (hr : isLookup r = false) :
    Follows w r (answer r w) := by
  cases r with
  | findService _ _ | findIngress _ _ => cases hr
  | count _ | pause _ => exact ⟨rfl, rfl, rfl⟩
  | createService x =>
    have hsame := sameServer_create hw .services x.metadata.nsOrDefault
      (x.metadata.nsOrDefault ++ "/" ++ x.metadata.anyName) x.toJson Service.ofJson?
    exact ⟨rfl, hsame.server, hsame.plan⟩
  | createIngress x =>
    have hsame := sameServer_create hw .ingresses x.metadata.nsOrDefault
      (x.metadata.nsOrDefault ++ "/" ++ x.metadata.anyName) x.toJson Ingress.ofJson?
    exact ⟨rfl, hsame.server, hsame.plan⟩
  | readGameServer name ns =>
    change Follows w _ (w.readGameServer ns name)
    unfold readGameServer
    split
    · next hname => exact ⟨by simp only [Server.answer, if_pos hname], by
        simp only [Server.answer, if_pos hname], rfl⟩
    · next hname =>
      have hsame := sameServer_noted hw "GET" (Collection.gameServers.path (some ns) ++ "/" ++ name)
        (ns ++ "/" ++ name) none (Server.later_get .gameServers ns name w.server)
      refine ⟨?_, ?_, hsame.plan⟩ <;> simp only [Server.answer, if_neg hname]
      · rfl
      · exact hsame.server
  | writeGameServer gs =>
    change Follows w _ (w.writeGameServer gs)
    unfold writeGameServer
    split
    · next hname => exact ⟨by simp only [Server.answer, if_pos hname], by
        simp only [Server.answer, if_pos hname], rfl⟩
    · next hname =>
      have hsame := sameServer_noted hw "PATCH"
        (Collection.gameServers.path (some gs.metadata.nsOrDefault) ++ "/" ++ gs.name)
        (gs.metadata.nsOrDefault ++ "/" ++ gs.name) (some (annotationsPatch gs))
        (Server.later_patch .gameServers gs.metadata.nsOrDefault gs.name (annotationsPatch gs)
          w.server)
      refine ⟨?_, ?_, hsame.plan⟩ <;> simp only [Server.answer, if_neg hname]
      · rfl
      · exact hsame.server
  | publish gs n =>
    have hsame := sameServer_create hw .events gs.metadata.nsOrDefault gs.key
      (eventBody w.reporter gs n.type.name n.reason n.message) some
    have hevent := Server.create_event hw gs.metadata.nsOrDefault
      (eventBody w.reporter gs n.type.name n.reason n.message)
    exact ⟨rfl, hsame.server.trans hevent, hsame.plan⟩

/-- Nobody else acts, and only requests for single game servers are made to fail. -/
structure Calm (w : World) : Prop where
  plan : w.plan = []
  server : w.server.Calm

theorem SameServer.calm {w' : World} (h : SameServer w w') (hw : w.Calm) : w'.Calm :=
  ⟨h.plan.trans hw.plan, h.server ▸ hw.server⟩

theorem Follows.calm {r : Request β} {x : β × World} (h : Follows w r x) (hw : w.Calm) :
    x.2.Calm :=
  ⟨h.plan.trans hw.plan, h.server ▸ hw.server.later (Server.later_answer r w.server)⟩

theorem sameServer_advance (hw : w.Calm) (now : Nat) : SameServer w (w.advance now) := by
  have hrefresh := sameServer_refresh (w := { w with now, plan := [] }) hw.server
  unfold advance
  rw [hw.plan]
  exact ⟨hrefresh.server, hrefresh.plan.trans hw.plan.symm⟩

theorem sameServer_runTo (hw : w.Calm) (fuel now : Nat) : SameServer w (runTo fuel now w) := by
  induction fuel generalizing w with
  | zero => exact ⟨rfl, rfl⟩
  | succ fuel ih =>
    rw [runTo]
    split
    · next t _ =>
      split
      · have hadvance := sameServer_advance hw (max t w.now)
        exact hadvance.trans (ih (hadvance.calm hw))
      · exact ⟨rfl, rfl⟩
    · exact ⟨rfl, rfl⟩

theorem sameServer_pass (hw : w.Calm) (millis : Nat) : SameServer w (w.pass millis) := by
  have hrefresh := sameServer_refresh hw.server
  exact hrefresh.trans (sameServer_runTo (hrefresh.calm hw) _ _)

theorem follows_perform (hw : w.Calm) {r : Request β} (hr : isLookup r = false) :
    Follows w r (perform r w) := by
  have hwait : SameServer w (if isLocal r then w else w.pass (w.cost r)) := by
    split
    · exact ⟨rfl, rfl⟩
    · exact sameServer_pass hw _
  obtain ⟨hresult, hserver, hplan⟩ := follows_answer (hwait.calm hw).server hr
  rw [hwait.server] at hresult hserver
  exact ⟨hresult, hserver, hplan.trans hwait.plan⟩

end World
end GameIngress.Cluster
