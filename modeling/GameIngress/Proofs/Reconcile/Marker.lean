import GameIngress.Proofs.Cluster.Annotations
import GameIngress.Proofs.Reconcile.Careful

/-!
# The marker and other writers

Any number of reconciles and other writers take turns at the server, one request at a time. Every
write gives an object a version that was never used before, and a patch that names a version is only
applied to the object that has it. So what a reconcile writes back is what it read, and no write of
somebody else in between is undone.
-/
namespace GameIngress.Reconcile

open Json Cluster
open World (annotationsPatch)

def markerPath : List String := ["metadata", "annotations", Annotations.ingressReady]

def versionPath : List String := ["metadata", "resourceVersion"]

/-- The game servers that the API server keeps, under namespace and name, and all that it ever
kept. -/
structure Shelf where
  objects : Assoc String Json := []
  past : List Json := []

namespace Shelf

def Fresh (v : String) (s : Shelf) : Prop := ∀ j ∈ s.past, Server.versionOf j ≠ some v

def keep (key : String) (j : Json) (s : Shelf) : Shelf where
  objects := s.objects.set key j
  past := j :: s.past

def drop (key : String) (s : Shelf) : Shelf :=
  { s with objects := s.objects.erase key }

/-- Other writers put any object in the place of another, with a fresh version, or remove one. -/
inductive Others (s : Shelf) : Shelf → Prop
  | keep (key : String) {j : Json} {v : String} (hv : Server.versionOf j = some v)
      (hf : s.Fresh v) (hd : Distinct j) : Others s (s.keep key j)
  | drop (key : String) : Others s (s.drop key)

def keyOf (gs : GameServer) : String := gs.metadata.nsOrDefault ++ "/" ++ gs.name

/-- The patch that writes a game server is applied. The object has the version that the patch names,
if it names one, and gets a fresh one. -/
inductive Applies (gs : GameServer) (s : Shelf) : Shelf → Prop
  | intro {j : Json} {v : String} (hj : s.objects.get? (keyOf gs) = some j)
      (hcurrent : ∀ r, Server.versionOf (annotationsPatch gs) = some r →
        Server.versionOf j = some r)
      (hf : s.Fresh v) :
      Applies gs s (s.keep (keyOf gs)
        (((annotationsPatch gs).mergePatch j).setAt versionPath (.text v)))

/-- How the server may answer. A read that succeeds shows what is kept. A write that is applied may
be answered in any way, and one that is not fails. Everything else leaves game servers alone. -/
inductive Answers (s : Shelf) : {β : Type} → Request β → β → Shelf → Prop
  | read {name ns : String} {j : Json} {gs : GameServer}
      (hj : s.objects.get? (ns ++ "/" ++ name) = some j) (hd : GameServer.ofJson? j = some gs) :
      Answers s (.readGameServer name ns) (.ok gs) s
  | unread (name ns : String) (e : Failure) : Answers s (.readGameServer name ns) (.error e) s
  | written {gs : GameServer} {s' : Shelf} (ha : Applies gs s s')
      (answer : Except Failure GameServer) : Answers s (.writeGameServer gs) answer s'
  | unwritten (gs : GameServer) (e : Failure) : Answers s (.writeGameServer gs) (.error e) s
  | findService (name ns : String) (answer : Option Service) :
      Answers s (.findService name ns) answer s
  | findIngress (name ns : String) (answer : Option Ingress) :
      Answers s (.findIngress name ns) answer s
  | createService (service : Service) (answer : Except Failure Service) :
      Answers s (.createService service) answer s
  | createIngress (ingress : Ingress) (answer : Except Failure Ingress) :
      Answers s (.createIngress ingress) answer s
  | publish (gs : GameServer) (n : Notice) : Answers s (.publish gs n) () s
  | count (c : Counter) : Answers s (.count c) () s
  | pause (d : Duration) : Answers s (.pause d) () s

end Shelf

/-- The server and the reconciles that are under way. -/
structure System where
  shelf : Shelf := {}
  runs : List (Program (Except Failure GameServer)) := []

namespace System

inductive Step (s : System) : System → Prop
  | others {shelf : Shelf} (h : s.shelf.Others shelf) : Step s { s with shelf }
  /-- Somebody begins to reconcile any game server. -/
  | begin (b : Backoff) (gs : GameServer) : Step s { s with runs := s.runs ++ [readiness b gs] }
  /-- A request of the reconcile `i` is answered. -/
  | answer {β : Type} {i : Nat} {r : Request β} {next : β → Program (Except Failure GameServer)}
      {a : β} {shelf : Shelf} (hi : s.runs[i]? = some (.ask r next))
      (ha : s.shelf.Answers r a shelf) : Step s { shelf, runs := s.runs.set i (next a) }

inductive Reachable : System → Prop
  | empty : Reachable {}
  | step {s s' : System} (hr : Reachable s) (hs : s.Step s') : Reachable s'

end System

/-- Objects are told apart by their versions. -/
structure Shelf.Sound (s : Shelf) : Prop where
  version : ∀ j ∈ s.past, ∃ v, Server.versionOf j = some v
  unique : ∀ i ∈ s.past, ∀ j ∈ s.past, Server.versionOf i = Server.versionOf j → i = j
  distinct : ∀ j ∈ s.past, Distinct j
  kept : ∀ key j, s.objects.get? key = some j → j ∈ s.past

/-- The game server was read at some time. -/
def Shelf.Showed (gs : GameServer) (s : Shelf) : Prop :=
  ∃ j ∈ s.past, GameServer.ofJson? j = some gs

/-- Every reconcile is careful with what the server showed. -/
structure System.Guarded (s : System) : Prop where
  sound : s.shelf.Sound
  careful : ∀ p ∈ s.runs, ∃ held, Careful held p ∧ ∀ gs, held = some gs → s.shelf.Showed gs

namespace Shelf

variable {s s' : Shelf} {gs : GameServer} {j : Json} {key v : String}

theorem Sound.keep (h : s.Sound) (hv : Server.versionOf j = some v) (hf : s.Fresh v)
    (hd : Distinct j) (key : String) : (s.keep key j).Sound where
  version := by
    intro i hi
    rcases List.mem_cons.mp hi with rfl | hi
    · exact ⟨v, hv⟩
    · exact h.version i hi
  unique := by
    intro i hi k hk heq
    rcases List.mem_cons.mp hi with hij | hi' <;> rcases List.mem_cons.mp hk with hkj | hk'
    · exact hij.trans hkj.symm
    · exact absurd (heq.symm.trans (hij ▸ hv)) (hf k hk')
    · exact absurd (heq.trans (hkj ▸ hv)) (hf i hi')
    · exact h.unique i hi' k hk' heq
  distinct := by
    intro i hi
    rcases List.mem_cons.mp hi with rfl | hi
    · exact hd
    · exact h.distinct i hi
  kept := by
    intro key' i hi
    rw [Shelf.keep, Assoc.get?_set] at hi
    split at hi
    · cases hi
      exact List.mem_cons_self
    · exact List.mem_cons_of_mem _ (h.kept key' i hi)

theorem Sound.drop (h : s.Sound) (key : String) : (s.drop key).Sound where
  version := h.version
  unique := h.unique
  distinct := h.distinct
  kept := by
    intro key' i hi
    rw [Shelf.drop, Assoc.get?_erase] at hi
    split at hi
    · cases hi
    · exact h.kept key' i hi

theorem Showed.keep (h : s.Showed gs) (key : String) (j : Json) : (s.keep key j).Showed gs := by
  obtain ⟨i, hi, hd⟩ := h
  exact ⟨i, List.mem_cons_of_mem _ hi, hd⟩

theorem versionOf_annotationsPatch (h : gs.metadata.resourceVersion = some v) :
    Server.versionOf (annotationsPatch gs) = some v := by
  rw [annotationsPatch, h]
  rfl

theorem versionOf_setAt (j : Json) (v : String) :
    Server.versionOf (j.setAt versionPath (.text v)) = some v :=
  versionOf_of_at? (at?_setAt_self j versionPath (.text v))

/-- A patch made from what was read is applied to just that object, and sets its marker. -/
theorem Applies.sets_marker {current : GameServer} (hs : s.Sound) (hshowed : s.Showed current)
    (ha : Applies current.markReady s s') :
    ∃ j v, s.objects.get? (keyOf current) = some j ∧ j ∈ s.past ∧
      GameServer.ofJson? j = some current ∧ s.Fresh v ∧
      s' = s.keep (keyOf current)
        ((j.setAt markerPath (.text "true")).setAt versionPath (.text v)) := by
  obtain ⟨i, hi, hd⟩ := hshowed
  obtain ⟨r, hr⟩ := hs.version i hi
  have hversion : current.metadata.resourceVersion = some r := by
    obtain ⟨_, _, -, -, -, hversion, -⟩ := parts_of_ofJson? hd hr
    exact hversion
  cases ha with
  | @intro j v hj hcurrent hf =>
    have hpatch : Server.versionOf (annotationsPatch current.markReady) = some r :=
      versionOf_annotationsPatch hversion
    have hmem := hs.kept _ j hj
    have heq : j = i := hs.unique j hmem i hi ((hcurrent r hpatch).trans hr.symm)
    subst heq
    refine ⟨j, v, hj, hmem, hd, hf, ?_⟩
    have hmerge := mergePatch_annotationsPatch hd hr (hs.distinct j hmem) Annotations.ingressReady
      "true"
    change s.keep _ (((annotationsPatch current.markReady).mergePatch j).setAt versionPath _) = _
    rw [show (annotationsPatch current.markReady).mergePatch j = j.setAt markerPath (.text "true")
      from hmerge]
    rfl

theorem Applies.preserves {current : GameServer} (hs : s.Sound) (hshowed : s.Showed current)
    (ha : Applies current.markReady s s') :
    s'.Sound ∧ ∀ gs, s.Showed gs → s'.Showed gs := by
  obtain ⟨j, v, -, hmem, -, hf, rfl⟩ := ha.sets_marker hs hshowed
  have hdistinct := (hs.distinct j hmem).setAt Annotations.ingressReady "true" v
  exact ⟨hs.keep (versionOf_setAt _ v) hf hdistinct _, fun gs hgs => hgs.keep _ _⟩

theorem Others.preserves (hs : s.Sound) (ho : s.Others s') :
    s'.Sound ∧ ∀ gs, s.Showed gs → s'.Showed gs := by
  cases ho with
  | keep key hv hf hd => exact ⟨hs.keep hv hf hd key, fun gs hgs => hgs.keep key _⟩
  | drop key => exact ⟨hs.drop key, fun gs hgs => hgs⟩

theorem Answers.preserves {β : Type} {r : Request β} {a : β}
    {next : β → Program (Except Failure GameServer)} {held : Option GameServer} (hs : s.Sound)
    (hc : Careful held (.ask r next)) (hheld : ∀ gs, held = some gs → s.Showed gs)
    (ha : s.Answers r a s') :
    (s'.Sound ∧ ∀ gs, s.Showed gs → s'.Showed gs) ∧
      ∃ held', Careful held' (next a) ∧ ∀ gs, held' = some gs → s'.Showed gs := by
  cases ha with
  | @read name ns j gs hj hd =>
    refine ⟨⟨hs, fun _ h => h⟩, some gs, hc (.ok gs), fun gs' heq => ?_⟩
    cases heq
    exact ⟨j, hs.kept _ j hj, hd⟩
  | unread name ns e =>
    exact ⟨⟨hs, fun _ h => h⟩, none, hc (.error e), fun gs heq => by cases heq⟩
  | written ha answer =>
    obtain ⟨⟨current, rfl, -, rfl⟩, hnext⟩ := hc
    exact ⟨ha.preserves hs (hheld current rfl), none, hnext answer, fun gs heq => by cases heq⟩
  | unwritten gs e => exact ⟨⟨hs, fun _ h => h⟩, none, hc.2 (.error e), fun gs heq => by cases heq⟩
  | findService _ _ answer | findIngress _ _ answer | createService _ answer
  | createIngress _ answer => exact ⟨⟨hs, fun _ h => h⟩, held, hc answer, hheld⟩
  | publish _ _ | count _ | pause _ => exact ⟨⟨hs, fun _ h => h⟩, held, hc (), hheld⟩

end Shelf

namespace System

variable {s s' : System}

theorem Guarded.step (hg : s.Guarded) (hs : s.Step s') : s'.Guarded := by
  cases hs with
  | others ho =>
    obtain ⟨hsound, hshowed⟩ := ho.preserves hg.sound
    refine ⟨hsound, fun p hp => ?_⟩
    obtain ⟨held, hc, hheld⟩ := hg.careful p hp
    exact ⟨held, hc, fun gs heq => hshowed gs (hheld gs heq)⟩
  | begin b gs =>
    refine ⟨hg.sound, fun p hp => ?_⟩
    rcases List.mem_append.mp hp with hp | hp
    · exact hg.careful p hp
    · rw [List.mem_singleton.mp hp]
      exact ⟨none, careful_readiness b gs, fun gs heq => by cases heq⟩
  | answer hi ha =>
    obtain ⟨held, hc, hheld⟩ := hg.careful _ (List.mem_of_getElem? hi)
    obtain ⟨⟨hsound, hshowed⟩, hnext⟩ := ha.preserves hg.sound hc hheld
    refine ⟨hsound, fun p hp => ?_⟩
    rcases List.mem_or_eq_of_mem_set hp with hp | rfl
    · obtain ⟨held', hc', hheld'⟩ := hg.careful p hp
      exact ⟨held', hc', fun gs heq => hshowed gs (hheld' gs heq)⟩
    · exact hnext

theorem Reachable.guarded (hr : Reachable s) : s.Guarded := by
  induction hr with
  | empty =>
    refine ⟨⟨?_, ?_, ?_, ?_⟩, ?_⟩
    · intro j hj; cases hj
    · intro i hi; cases hi
    · intro j hj; cases hj
    · intro key j hj; cases hj
    · intro p hp; cases hp
  | step _ hs ih => exact ih.step hs

end System

theorem readBool_of_not_isMarkedReady {gs : GameServer} {t : String}
    (h : gs.isMarkedReady = false) (ht : gs.annotationValue? Annotations.ingressReady = some t) :
    readBool t ≠ some true := by
  intro htrue
  have hne : t ≠ "" := by
    rintro rfl
    exact absurd htrue (by decide)
  have hready : gs.readiness = .ready := by
    unfold GameServer.readiness
    rw [ht]
    simp only [hne, ↓reduceIte, htrue]
  rw [GameServer.isMarkedReady, hready] at h
  cases h

/-- No write of a reconcile undoes a write of somebody else. Whenever the server applies one, the
object is changed, with respect to what it was just before, at the marker and at the version only;
the marker was nothing that reads as true, and is `true` after. -/
theorem System.Reachable.write_only_sets_marker {s : System} (hr : Reachable s) {i : Nat}
    {gs : GameServer}
    {next : Except Failure GameServer → Program (Except Failure GameServer)}
    (hi : s.runs[i]? = some (.ask (.writeGameServer gs) next)) {shelf : Shelf}
    (ha : s.shelf.Applies gs shelf) :
    ∃ j j' v, s.shelf.objects.get? (Shelf.keyOf gs) = some j ∧
      shelf.objects = s.shelf.objects.set (Shelf.keyOf gs) j' ∧
      j' = (j.setAt markerPath (.text "true")).setAt versionPath (.text v) ∧
      (∀ path, Diverge path markerPath → Diverge path versionPath →
        j'.at? path = j.at? path) ∧
      (∀ t, j.at? markerPath = some (.text t) → readBool t ≠ some true) ∧
      j'.at? markerPath = some (.text "true") := by
  have hg := hr.guarded
  obtain ⟨held, hc, hheld⟩ := hg.careful _ (List.mem_of_getElem? hi)
  obtain ⟨⟨current, rfl, hready, rfl⟩, -⟩ := hc
  obtain ⟨j, v, hj, hmem, hd, -, rfl⟩ := ha.sets_marker hg.sound (hheld current rfl)
  obtain ⟨r, hr⟩ := hg.sound.version j hmem
  refine ⟨j, _, v, hj, rfl, rfl, ?_, ?_, ?_⟩
  · intro path hmarker hversion
    rw [at?_setAt_of_diverge hversion, at?_setAt_of_diverge hmarker]
  · intro t ht
    exact readBool_of_not_isMarkedReady hready
      (annotationValue?_of_at? hd hr (hg.sound.distinct j hmem) ht)
  · rw [at?_setAt_of_diverge (by simp [Diverge, markerPath, versionPath]), at?_setAt_self]

def firstVersion : Json := .object [
  ("metadata", .object [("name", .text "a"), ("namespace", .text "d"),
    ("resourceVersion", .text "1")]),
  ("spec", .object [])]

def firstRead : GameServer :=
  { metadata := { name := some "a", ns := some "d", resourceVersion := some "1" } }

/-- A reconcile finds no marker and sets it. -/
theorem marker_set_on_first_version : ∃ s gs next shelf,
    System.Reachable s ∧ s.runs[0]? = some (.ask (.writeGameServer gs) next) ∧
    s.shelf.Applies gs shelf ∧ s.shelf.objects.get? "d/a" = some firstVersion ∧
    ∃ j', shelf.objects.get? "d/a" = some j' ∧ j'.at? markerPath = some (.text "true") := by
  have hrun : ∃ next, readiness {} firstRead = .ask (.readGameServer "a" "d") next ∧
      ∃ next', next (.ok firstRead) = .ask (.writeGameServer firstRead.markReady) next' := by
    refine ⟨?next, ?first, ?next', ?second⟩
    case first =>
      change mark {} firstRead = _
      rw [mark, retryOnConflict, conflictLoop]
      rfl
    case second => rfl
  obtain ⟨next, hbegin, next', hwrite⟩ := hrun
  have hput : System.Reachable { shelf := Shelf.keep "d/a" firstVersion {} } :=
    .step .empty (.others (.keep "d/a" (v := "1") rfl
      (fun j hj => absurd hj List.not_mem_nil) fun ms hms => by cases hms))
  have hdecode : GameServer.ofJson? firstVersion = some firstRead := rfl
  have hread := (hput.step (.begin {} firstRead)).step (.answer (i := 0) (congrArg some hbegin)
    (.read rfl hdecode))
  have hfresh : Shelf.Fresh "2" (Shelf.keep "d/a" firstVersion {}) := by
    intro j hj
    rw [List.mem_singleton.mp hj]
    decide
  have happlies : Shelf.Applies firstRead.markReady (Shelf.keep "d/a" firstVersion {}) _ :=
    .intro (v := "2") (j := firstVersion) rfl (fun r hr => hr) hfresh
  obtain ⟨j, j', v, hj, hshelf, -, -, -, hmarker⟩ :=
    hread.write_only_sets_marker (i := 0) (congrArg some hwrite) happlies
  refine ⟨_, _, _, _, hread, congrArg some hwrite, happlies, rfl, j', ?_, hmarker⟩
  rw [hshelf, Assoc.get?_set]
  rfl

end GameIngress.Reconcile
