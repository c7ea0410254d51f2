import GameIngress.Proofs.Reconcile.Existence
import GameIngress.Proofs.Reconcile.Crowd
import GameIngress.Proofs.Store.Outcome

/-!
# Who owns what exposes a game server

A Service or an Ingress is owned by the game server that it was built for, and a game server that
was deleted and made anew under its name is another owner. A reconcile asks for the name only. So a
success means that the objects under the name are owned by the game server just if none was left
there from another one.
-/
namespace GameIngress.Reconcile

variable {c : Settings} {gs : GameServer} {m m' : Memory} {t : Transcript} {kind : ResourceKind}

/-- What tells game servers of one name apart. -/
def uidOf (gs : GameServer) : String := gs.metadata.uid.getD ""

/-- The game server is named as the controller of the object. -/
def Carries (gs : GameServer) (m : ObjectMeta) : Prop :=
  ∃ owners, m.ownerReferences = some owners ∧
    ∃ r ∈ owners, r.controller = some true ∧ r.uid = uidOf gs

/-- The Service and the Ingress of the game server are there, and it is their controller. -/
structure Exposed (gs : GameServer) (m : Memory) : Prop where
  service : ∃ s, m.services.lookup gs.key = some s ∧ Carries gs s.metadata
  ingress : ∃ i, m.ingresses.lookup gs.key = some i ∧ Carries gs i.metadata

/-- There is a Service or an Ingress under the name of the game server that was built for another
one, of the same name. -/
def Leftover (gs : GameServer) (m : Memory) : Prop :=
  ∃ kind found former, m.metaAt kind gs.key = some found ∧ former.key = gs.key ∧
    Manifest.Owned former found ∧ uidOf former ≠ uidOf gs

/-- What is created was built for some game server. -/
def Built {β : Type} : Request β → Prop
  | .createService s => ∃ gs, Manifest.buildService gs = .ok s
  | .createIngress i => ∃ gs rewrite, Manifest.buildIngress gs rewrite = .ok i
  | _ => True

/-- What may happen to a store. -/
inductive Event (m : Memory) : Memory → Prop
  /-- A request of any reconcile is answered. -/
  | answer {β : Type} (r : Request β) (h : Built r) : Event m (m.answer r).2
  /-- Game servers are made, changed or deleted, time passes, calls are made to fail. -/
  | others {m' : Memory} (h : Memory.SameObjects m m') : Event m m'
  /-- A Service or an Ingress is collected. -/
  | collect (kind : ResourceKind) (key : String) : Event m (m.collect kind key)

/-- The runs of a store that had no Services and no Ingresses at first. -/
inductive Reached : Memory → Prop
  | start {m : Memory} (hs : m.services = []) (hi : m.ingresses = []) : Reached m
  | step {m m' : Memory} (h : Reached m) (he : Event m m') : Reached m'

/-- Nothing of the game server is collected, and nothing is created under its name for another. -/
def Spares (gs : GameServer) (m m' : Memory) : Prop :=
  ∀ kind, m'.metaAt kind gs.key = m.metaAt kind gs.key ∨
    m.metaAt kind gs.key = none ∧
      ∃ created, m'.metaAt kind gs.key = some created ∧ Carries gs created

/-- The requests of a transcript are answered in turn, while other things happen that spare the game
server. -/
inductive Course (gs : GameServer) : Memory → Transcript → Memory → Prop
  | nil (m : Memory) : Course gs m [] m
  | own {β : Type} {r : Request β} {b : β} {m m₁ m' : Memory} {t : Transcript}
      (hreply : Replies m r b m₁) (htrue : m.Truthful ⟨r, b⟩) (h : Course gs m₁ t m') :
      Course gs m (⟨r, b⟩ :: t) m'
  | meanwhile {m m₁ m' : Memory} {t : Transcript} (he : Event m m₁) (hspares : Spares gs m m₁)
      (h : Course gs m₁ t m') : Course gs m t m'

theorem carries_iff_of_owned {former : GameServer} {found : ObjectMeta}
    (h : Manifest.Owned former found) : Carries gs found ↔ uidOf former = uidOf gs := by
  obtain ⟨_, rfl⟩ := h
  constructor
  · rintro ⟨_, hrefs, r, hr, -, huid⟩
    cases hrefs
    rw [List.mem_singleton.mp hr] at huid
    exact huid
  · intro huid
    exact ⟨_, rfl, former.ownerReference, List.mem_singleton_self _, rfl, huid⟩

theorem exposed_iff : Exposed gs m ↔ ∀ kind, kind ≠ .gameServer →
    ∃ found, m.metaAt kind gs.key = some found ∧ Carries gs found := by
  constructor
  · rintro ⟨⟨s, hs, hcs⟩, i, hi, hci⟩ kind hkind
    cases kind with
    | service => exact ⟨s.metadata, by rw [Memory.metaAt, hs]; rfl, hcs⟩
    | ingress => exact ⟨i.metadata, by rw [Memory.metaAt, hi]; rfl, hci⟩
    | gameServer => exact absurd rfl hkind
  · intro h
    obtain ⟨_, hs, hcs⟩ := h .service (by decide)
    obtain ⟨_, hi, hci⟩ := h .ingress (by decide)
    obtain ⟨s, hlookup, rfl⟩ := Option.map_eq_some_iff.mp hs
    obtain ⟨i, hlookup', rfl⟩ := Option.map_eq_some_iff.mp hi
    exact ⟨⟨s, hlookup, hcs⟩, i, hlookup', hci⟩

/-- Every object was built for a game server of its name. -/
def AllOwned (m : Memory) : Prop :=
  ∀ kind key found, m.metaAt kind key = some found →
    ∃ former : GameServer, former.key = key ∧ Manifest.Owned former found

theorem owned_of_built {β : Type} {r : Request β} (h : Built r) {created : ObjectMeta}
    (hcreated : r.creation? = some (kind, created)) :
    ∃ former : GameServer, Manifest.Owned former created := by
  cases r with
  | createService s =>
    cases hcreated
    obtain ⟨former, hs⟩ := h
    exact ⟨former, Manifest.owned_of_buildService hs⟩
  | createIngress i =>
    cases hcreated
    obtain ⟨former, rewrite, hi⟩ := h
    exact ⟨former, Manifest.owned_of_buildIngress hi⟩
  | _ => cases hcreated

theorem Event.allOwned (he : Event m m') (hm : AllOwned m) : AllOwned m' := by
  intro kind key found hfound
  cases he with
  | answer r h =>
    obtain hsame | ⟨-, created, hcreated, hkey, hthere⟩ := Memory.metaAt_answer r m kind key
    · exact hm kind key found (hsame ▸ hfound)
    · cases hthere.symm.trans hfound
      obtain ⟨former, howned⟩ := owned_of_built h hcreated
      exact ⟨former, howned.key.symm.trans hkey, howned⟩
  | others h => exact hm kind key found ((h.metaAt kind key).symm.trans hfound)
  | collect kind' key' => exact hm kind key found (Memory.metaAt_of_collect hfound)

theorem Reached.allOwned (h : Reached m) : AllOwned m := by
  induction h with
  | start hs hi =>
    intro kind key found hfound
    cases kind <;> simp [Memory.metaAt, hs, hi] at hfound
  | step _ he ih => exact he.allOwned ih

/-- In a run of the store, what does not name the game server was left from another one. -/
theorem Reached.carries (h : Reached m) (hclean : ¬ Leftover gs m) {found : ObjectMeta}
    (hfound : m.metaAt kind gs.key = some found) : Carries gs found := by
  obtain ⟨former, hkey, howned⟩ := h.allOwned kind gs.key found hfound
  by_contra hnot
  exact hclean ⟨kind, found, former, hfound, hkey, howned,
    fun huid => hnot ((carries_iff_of_owned howned).mpr huid)⟩

theorem every_converge (c : Settings) (gs : GameServer) :
    (converge c gs).Every fun r => ∃ kind, Belongs c gs kind r := by
  refine ((every_service c gs).imp fun r hr => ⟨_, hr⟩).bind fun result => ?_
  cases result with
  | error e => trivial
  | ok s =>
    refine ((every_ingress c gs).imp fun r hr => ⟨_, hr⟩).bind fun result => ?_
    cases result with
    | error e => trivial
    | ok i =>
      refine ((every_readiness c c.backoff gs).imp fun r hr => ⟨_, hr⟩).bind fun result => ?_
      cases result <;> trivial

theorem eq_converge_of_plan {p : Program (Except Failure Unit)} (h : plan c gs = .run p) :
    p = converge c gs := by
  unfold plan at h
  split at h
  · cases h
  · exact (Plan.run.inj h).symm

theorem carries_of_belongs {β : Type} {r : Request β} {kind' : ResourceKind}
    (h : Belongs c gs kind' r) {created : ObjectMeta}
    (hcreated : r.creation? = some (kind, created)) : Carries gs created := by
  cases r with
  | createService s =>
    cases hcreated
    exact (carries_iff_of_owned (Manifest.owned_of_buildService h.2)).mpr rfl
  | createIngress i =>
    cases hcreated
    exact (carries_iff_of_owned (Manifest.owned_of_buildIngress h.2)).mpr rfl
  | _ => cases hcreated

namespace Course

theorem stays (h : Course gs m t m') {found : ObjectMeta}
    (hfound : m.metaAt kind gs.key = some found) : m'.metaAt kind gs.key = some found := by
  induction h with
  | nil => exact hfound
  | own hreply _ _ ih => exact ih (hreply.after ▸ Memory.metaAt_answer_of_some hfound)
  | meanwhile _ hspares _ ih =>
    obtain hsame | ⟨hnone, -⟩ := hspares kind
    · exact ih (hsame.trans hfound)
    · cases hnone.symm.trans hfound

/-- If all that was there names the game server, all that is there in the end does. -/
theorem carries (h : Course gs m t m') (hmine : ∀ e ∈ t, ∃ kind, Belongs c gs kind e.request)
    (hm : ∀ kind found, m.metaAt kind gs.key = some found → Carries gs found) :
    ∀ kind found, m'.metaAt kind gs.key = some found → Carries gs found := by
  induction h with
  | nil => exact hm
  | @own _ r _ m₁ _ _ _ hreply _ _ ih =>
    refine ih (fun e he => hmine e (List.mem_cons_of_mem _ he)) fun kind found hfound => ?_
    rw [hreply.after] at hfound
    obtain hsame | ⟨-, created, hcreated, -, hthere⟩ := Memory.metaAt_answer r m₁ kind gs.key
    · exact hm kind found (hsame.symm.trans hfound)
    · cases hthere.symm.trans hfound
      obtain ⟨_, hbelongs⟩ := hmine _ List.mem_cons_self
      exact carries_of_belongs hbelongs hcreated
  | meanwhile _ hspares _ ih =>
    refine ih hmine fun kind found hfound => ?_
    obtain hsame | ⟨-, created, hthere, hcarries⟩ := hspares kind
    · exact hm kind found (hsame.symm.trans hfound)
    · cases hthere.symm.trans hfound
      exact hcarries

theorem shown (h : Course gs m t m') {e : Exchange} (he : e ∈ t) (hshows : e.Shows kind gs.key) :
    ∃ found, m'.metaAt kind gs.key = some found := by
  induction h with
  | nil => cases he
  | own hreply htrue hrest ih =>
    obtain rfl | he := List.mem_cons.mp he
    · obtain ⟨found, hfound⟩ := Memory.exists_metaAt_of_shows hreply htrue hshows
      exact ⟨found, hrest.stays hfound⟩
    · exact ih he
  | meanwhile _ _ _ ih => exact ih he

end Course

theorem shows_of_hasService (h : HasService gs t) : ∃ e ∈ t, e.Shows .service gs.key := by
  obtain ⟨s, hs⟩ | ⟨s, hbuilt, ⟨created, hmem⟩ | ⟨e, he, hmem⟩⟩ := h
  · exact ⟨_, hs, rfl, rfl⟩
  · exact ⟨_, hmem, rfl, (Manifest.owned_of_buildService hbuilt).key⟩
  · exact ⟨_, hmem, he, rfl, (Manifest.owned_of_buildService hbuilt).key⟩

theorem shows_of_hasIngress (h : HasIngress c gs t) : ∃ e ∈ t, e.Shows .ingress gs.key := by
  obtain ⟨i, hi⟩ | ⟨i, hbuilt, ⟨created, hmem⟩ | ⟨e, he, hmem⟩⟩ := h
  · exact ⟨_, hi, rfl, rfl⟩
  · exact ⟨_, hmem, rfl, (Manifest.owned_of_buildIngress hbuilt).key⟩
  · exact ⟨_, hmem, he, rfl, (Manifest.owned_of_buildIngress hbuilt).key⟩

theorem has_both_of_yields (h : (converge c gs).Yields t (.ok ())) :
    HasService gs t ∧ HasIngress c gs t := by
  cases sequenced_of_yields h with
  | complete hs hi hg =>
    exact ⟨(hasService_of_ok hs.yields).mono fun x hx => by simp [hx],
      (hasIngress_of_ok hi.yields).mono fun x hx => by simp [hx]⟩

/-- In a store where all Services and Ingresses come from reconciles: when a reconcile of a game
server that passes the gate has succeeded, both objects of its name are there and name it as their
controller exactly if none was left from another game server of that name when it began. -/
theorem Reached.exposed_iff_clean (hm : Reached m) {p : Program (Except Failure Unit)}
    (hplan : plan c gs = .run p) (hy : p.Yields t (.ok ())) (ht : Course gs m t m') :
    Exposed gs m' ↔ ¬ Leftover gs m := by
  obtain rfl := eq_converge_of_plan hplan
  rw [exposed_iff]
  constructor
  · rintro hexposed ⟨kind, found, former, hfound, -, howned, huid⟩
    have hkind : kind ≠ .gameServer := by
      rintro rfl
      cases hfound
    obtain ⟨last, hlast, hcarries⟩ := hexposed kind hkind
    cases hlast.symm.trans (ht.stays hfound)
    exact huid ((carries_iff_of_owned howned).mp hcarries)
  · intro hclean kind hkind
    have hcarries := ht.carries ((every_converge c gs).of_mem hy) fun _ _ => hm.carries hclean
    obtain ⟨hservice, hingress⟩ := has_both_of_yields hy
    have hthere : ∃ found, m'.metaAt kind gs.key = some found := by
      cases kind with
      | service =>
        obtain ⟨e, he, hshows⟩ := shows_of_hasService hservice
        exact ht.shown he hshows
      | ingress =>
        obtain ⟨e, he, hshows⟩ := shows_of_hasIngress hingress
        exact ht.shown he hshows
      | gameServer => exact absurd rfl hkind
    obtain ⟨found, hfound⟩ := hthere
    exact ⟨found, hfound, hcarries kind found hfound⟩

theorem built_of_belongs {β : Type} {r : Request β} (h : Belongs c gs kind r) : Built r := by
  cases r with
  | createService s => exact ⟨gs, h.2⟩
  | createIngress i => exact ⟨gs, c.rewrite, h.2⟩
  | _ => trivial

theorem Reached.run {α : Type} {p : Program α} (hm : Reached m)
    (hp : p.Every fun r => Built r) : Reached (Memory.run p m).2 := by
  induction p generalizing m with
  | done a => exact hm
  | ask r next ih =>
    rw [Memory.run]
    split
    · exact hm.step (.others ⟨rfl, rfl⟩)
    · next m₁ hwait =>
      obtain ⟨now, rfl⟩ := Memory.wait_ok hwait
      have hlater : Reached { m with now } := hm.step (.others ⟨rfl, rfl⟩)
      exact ih _ (hlater.step (.answer r hp.1)) (hp.2 _)

theorem every_program (c : Settings) (gs : GameServer) :
    (plan c gs).program.Every fun r => Built r := by
  cases hplan : plan c gs with
  | skip reason => exact ⟨trivial, fun _ => trivial⟩
  | run p =>
    obtain rfl := eq_converge_of_plan hplan
    exact (every_converge c gs).imp fun r ⟨_, hr⟩ => built_of_belongs hr

theorem Reached.notify (hm : Reached m) (hcut : m.cutAt = none) (c : Settings) (gs : GameServer) :
    Reached (m.notify c gs none).2 := by
  have hrun := hm.run (every_program c gs)
  rwa [run_program hcut] at hrun

theorem truthful_of_faultless {β : Type} (hm : m.faults = []) (r : Request β) :
    m.Truthful ⟨r, (m.answer r).1⟩ := by
  cases r with
  | createService s =>
    rw [Memory.answer, Memory.createIn_of_faultless hm rfl]
    split
    · next hthere => exact fun _ => by rw [Memory.metaAt, Option.isSome_map]; exact hthere
    · trivial
  | createIngress i =>
    rw [Memory.answer, Memory.createIn_of_faultless hm rfl]
    split
    · next hthere => exact fun _ => by rw [Memory.metaAt, Option.isSome_map]; exact hthere
    · trivial
  | _ => trivial

theorem exists_course {α : Type} (hm : m.Steady) (p : Program α) (gs : GameServer) :
    ∃ t a m', Memory.run p m = (some a, m') ∧ p.Yields t a ∧ Course gs m t m' := by
  induction p generalizing m with
  | done a => exact ⟨[], a, m, rfl, ⟨rfl, rfl⟩, .nil m⟩
  | ask r next ih =>
    obtain ⟨m₁, hwait⟩ := Memory.wait_of_uncut hm.uncut (m.cost r)
    obtain ⟨now, rfl⟩ := Memory.wait_ok hwait
    have hnow : Memory.Steady { m with now } := ⟨hm.faultless, hm.uncut⟩
    obtain ⟨t, a, m', hrun, hy, ht⟩ := ih _ (Memory.answer_of_steady hnow r).1
    refine ⟨_, a, m', ?_, ⟨_, t, rfl, hy⟩, ?_⟩
    · rw [Memory.run, hwait]
      exact hrun
    · have hsame : Memory.SameObjects m { m with now } := ⟨rfl, rfl⟩
      exact .meanwhile (.others hsame) (fun kind => .inl (hsame.metaAt kind gs.key))
        (.own ⟨.inl rfl, rfl⟩ (truthful_of_faultless hnow.faultless r) ht)

/-- A game server under the name `a`, made anew with every uid. -/
def madeAs (uid : String) : GameServer :=
  { Crowd.exposed with metadata := { Crowd.exposed.metadata with uid := some uid } }

/-- The game server was exposed, deleted and made anew, and its objects are not collected yet. -/
def madeAnew : Memory :=
  { (Memory.notify {} (madeAs "u1") none { gameServers := [("d/a", madeAs "u1")] }).2 with
    gameServers := [("d/a", madeAs "u2")] }

theorem reached_madeAnew : Reached madeAnew :=
  have hstart : Reached { gameServers := [("d/a", madeAs "u1")] } := .start rfl rfl
  (hstart.notify rfl {} (madeAs "u1")).step (.others ⟨rfl, rfl⟩)

/-- The objects of the former game server are taken for those of the new one. -/
theorem success_with_leftovers :
    Reached madeAnew ∧ (madeAs "u2").skipReason? = none ∧
      (madeAnew.notify {} (madeAs "u2") none).1 = .ok () ∧
      ¬ Exposed (madeAs "u2") (madeAnew.notify {} (madeAs "u2") none).2 := by
  refine ⟨reached_madeAnew, rfl, by decide +kernel, ?_⟩
  have howners : (((madeAnew.notify {} (madeAs "u2") none).2.services.lookup "d/a").bind
      fun s => s.metadata.ownerReferences.map fun owners => owners.map (·.uid)) = some ["u1"] := by
    decide +kernel
  rintro ⟨⟨s, hs, owners, hrefs, r, hr, -, huid⟩, -⟩
  change List.lookup "d/a" _ = some s at hs
  rw [hs, Option.bind_some, hrefs, Option.map_some, Option.some_inj] at howners
  have hmem : r.uid ∈ owners.map (·.uid) := List.mem_map_of_mem hr
  rw [howners, huid] at hmem
  exact absurd hmem (by decide)

/-- The same after the old objects were collected. -/
def collectedAnew : Memory := (madeAnew.collect .service "d/a").collect .ingress "d/a"

theorem exposed_once_collected : Reached collectedAnew ∧
    (collectedAnew.notify {} (madeAs "u2") none).1 = .ok () ∧
      Exposed (madeAs "u2") (collectedAnew.notify {} (madeAs "u2") none).2 := by
  have hreached : Reached collectedAnew :=
    (reached_madeAnew.step (.collect .service "d/a")).step (.collect .ingress "d/a")
  have hok : (collectedAnew.notify {} (madeAs "u2") none).1 = .ok () := by decide +kernel
  have hplan : plan {} (madeAs "u2") = .run (converge {} (madeAs "u2")) := rfl
  have hclean : ¬ Leftover (madeAs "u2") collectedAnew := by
    rintro ⟨kind, found, -, hfound, -⟩
    have hnothing : ∀ kind, (collectedAnew.metaAt kind "d/a").isSome = false := by
      intro kind
      cases kind <;> decide +kernel
    have hthere : collectedAnew.metaAt kind "d/a" = some found := hfound
    have hnone := hnothing kind
    rw [hthere] at hnone
    cases hnone
  have hsteady : collectedAnew.Steady := ⟨by decide +kernel, by decide +kernel⟩
  obtain ⟨t, r, m', hrun, hy, ht⟩ := exists_course hsteady (converge {} (madeAs "u2")) (madeAs "u2")
  have hnotify := run_program hsteady.uncut {} (madeAs "u2")
  rw [hplan] at hnotify
  cases hrun.symm.trans hnotify
  rw [hok] at hy
  exact ⟨hreached, hok, (hreached.exposed_iff_clean hplan hy ht).mpr hclean⟩

end GameIngress.Reconcile
