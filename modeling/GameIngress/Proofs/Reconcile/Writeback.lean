import GameIngress.Proofs.Cluster.Calm
import GameIngress.Proofs.Cluster.Decoding
import GameIngress.Proofs.Reconcile.Marker
import Mathlib

/-!
# One attempt to set the marker

A game server is read, and written back with its marker some time later. In between, anybody may
have written or removed any object. No two writes get the same version, so the version that was read
tells whether the object is still the one that was read.
-/
namespace GameIngress.Reconcile

open Json Cluster

variable {s s' : Server} {ns name v : String} {j : Json} {gs : GameServer}

/-- Somebody writes or removes an object of any kind. -/
inductive Change (s : Server) : Server → Prop
  | store (c : Collection) (key : String) (j : Json) : Change s (s.store c key j).2
  | drop (c : Collection) (key : String) : Change s (s.drop c key).2

def Given (v : String) (s : Server) : Prop := ∀ n, s.version < n → v ≠ toString n

/-- A game server as a server keeps it: under its own name, its annotations distinct, and with the
version of a write. -/
structure Kept (s : Server) (ns name v : String) (j : Json) : Prop where
  stored : s.objects.get? (.gameServers, ns ++ "/" ++ name) = some j
  named : name ≠ ""
  name : Server.nameOf j = some name
  ns : Server.nsOf j = some ns
  version : Server.versionOf j = some v
  given : Given v s
  distinct : Distinct j

/-- The version stands for the object. -/
structure Identified (s : Server) (key v : String) (j : Json) : Prop where
  given : Given v s
  unique : ∀ j', s.objects.get? (.gameServers, key) = some j' → Server.versionOf j' = some v →
    j' = j

theorem given_toString {n : Nat} (h : n ≤ s.version) : Given (toString n) s := by
  intro n' hn' heq
  have hsame : n = n' := Nat.repr_injective heq
  omega

theorem Change.faults (h : Change s s') : s'.faults = s.faults := by
  cases h with
  | store => rfl
  | drop c key =>
    unfold Server.drop
    dsimp only
    split <;> rfl

theorem Change.identified {key : String} (h : Change s s') (hs : Identified s key v j) :
    Identified s' key v j := by
  obtain ⟨hgiven, hunique⟩ := hs
  have hnext : Given v { s with version := s.version + 1 } :=
    fun n hn => hgiven n (Nat.lt_of_succ_lt hn)
  cases h with
  | store c key' i =>
    refine ⟨hnext, fun j' hj' hv => ?_⟩
    change (s.objects.set (c, key') _).get? _ = _ at hj'
    rw [Assoc.get?_set] at hj'
    split at hj'
    · cases hj'
      have hwritten := (Shelf.versionOf_setAt i (toString (s.version + 1))).symm.trans hv
      exact absurd (Option.some.inj hwritten).symm (hgiven _ (Nat.lt_succ_self s.version))
    · exact hunique j' hj' hv
  | drop c key' =>
    unfold Server.drop
    dsimp only
    split
    · exact ⟨hnext, hunique⟩
    · refine ⟨hnext, fun j' hj' hv => ?_⟩
      change (s.objects.erase (c, key')).get? _ = _ at hj'
      rw [Assoc.get?_erase] at hj'
      split at hj'
      · cases hj'
      · exact hunique j' hj' hv

theorem Kept.identified (h : Kept s ns name v j) : Identified s (ns ++ "/" ++ name) v j :=
  ⟨h.given, fun _ hj' _ => Option.some.inj (hj'.symm.trans h.stored)⟩

theorem identified_of_changes {key : String} (h : Relation.ReflTransGen Change s s')
    (hs : Identified s key v j) (hfaults : s.faults = []) :
    Identified s' key v j ∧ s'.faults = [] := by
  induction h with
  | refl => exact ⟨hs, hfaults⟩
  | tail _ hchange ih => exact ⟨hchange.identified ih.1, hchange.faults.trans ih.2⟩

theorem reliable_of_faultless (h : s.faults = []) (verb : Verb) (c : Collection) :
    s.Reliable verb c := by
  intro f hf
  rw [h] at hf
  cases hf

theorem calm_of_faultless (h : s.faults = []) : s.Calm := by
  intro f hf
  rw [h] at hf
  cases hf

theorem decodeAs_of_some {α : Type} {decode : Json → Option α} {a : α} (h : decode j = some a) :
    Reply.decodeAs decode j = .ok a := by
  rw [Reply.decodeAs, h]

theorem answer_read (hfaults : s.faults = []) (hkept : Kept s ns name v j)
    (hd : GameServer.ofJson? j = some gs) :
    s.answer (.readGameServer name ns) = (.ok gs, s) := by
  have hnamed : ¬ name.isEmpty = true := by simpa using hkept.named
  simp only [Server.answer, if_neg hnamed, Server.get,
    Server.guarded_of_reliable (reliable_of_faultless hfaults .get .gameServers), hkept.stored]
  rw [Reply.read, decodeAs_of_some hd]

/-- What is under the key of the game server when it is written back decides what happens. -/
theorem answer_write (hfaults : s'.faults = []) (hkept : Kept s ns name v j)
    (hd : GameServer.ofJson? j = some gs) :
    s'.answer (.writeGameServer gs.markReady) =
      match s'.objects.get? (.gameServers, ns ++ "/" ++ name) with
      | none => (.error (.api (Server.refusal "NotFound" 404)), s')
      | some j' =>
        if Server.versionOf j' = some v then
          let (j'', s'') := s'.store .gameServers (ns ++ "/" ++ name)
            ((World.annotationsPatch gs.markReady).mergePatch j')
          ((Reply.object j'').read GameServer.ofJson?, s'')
        else (.error (.api (Server.refusal "Conflict" 409)), s') := by
  obtain ⟨hname, hns⟩ := names_of_ofJson? hd hkept.version hkept.name hkept.ns
  obtain ⟨_, _, -, -, -, hversion, -⟩ := parts_of_ofJson? hd hkept.version
  have hmarkedName : gs.markReady.name = name := by
    change (gs.metadata.name <|> gs.metadata.generateName).getD "" = name
    rw [hname]
    rfl
  have hmarkedNs : gs.markReady.metadata.nsOrDefault = ns := by
    change gs.metadata.ns.getD "default" = ns
    rw [hns]
    rfl
  have hpatch : Server.versionOf (World.annotationsPatch gs.markReady) = some v :=
    Shelf.versionOf_annotationsPatch hversion
  have hnamed : ¬ name.isEmpty = true := by simpa using hkept.named
  simp only [Server.answer, hmarkedName, hmarkedNs, if_neg hnamed, Server.patch,
    Server.guarded_of_reliable (reliable_of_faultless hfaults .patch .gameServers), hpatch]
  cases s'.objects.get? (.gameServers, ns ++ "/" ++ name) with
  | none => rfl
  | some j' =>
    by_cases hsame : Server.versionOf j' = some v
    · simp [hsame]
    · simp [hsame]
      rfl

/-- The object was marked and got a version. Nothing else of it changed, known to the controller or
not. -/
structure OnlyMarked (j : Json) (v : String) (j' : Json) : Prop where
  eq : j' = (j.setAt markerPath (.text "true")).setAt versionPath (.text v)
  marker : j'.at? markerPath = some (.text "true")
  version : Server.versionOf j' = some v
  elsewhere : ∀ path, Diverge path markerPath → Diverge path versionPath → j'.at? path = j.at? path

theorem onlyMarked (j : Json) (v : String) :
    OnlyMarked j v ((j.setAt markerPath (.text "true")).setAt versionPath (.text v)) where
  eq := rfl
  marker := by
    rw [at?_setAt_of_diverge (by simp [Diverge, markerPath, versionPath]), at?_setAt_self]
  version := Shelf.versionOf_setAt _ v
  elsewhere path hmarker hversion := by
    rw [at?_setAt_of_diverge hversion, at?_setAt_of_diverge hmarker]

/-- Written back, a game server that was read changes its object at the marker and at the version
only, if the version is still the one that was read. If it is another, the write is refused as a
conflict; if the object is gone, it is refused too; and then nothing on the server changes. -/
theorem marked_or_conflict (w w' : World) (hfaults : w.server.faults = [])
    (hkept : Kept w.server ns name v j) (hd : GameServer.ofJson? j = some gs)
    (hsince : Relation.ReflTransGen Change (w.readGameServer ns name).2.server w'.server) :
    (w.readGameServer ns name).1 = .ok gs ∧ (w.readGameServer ns name).2.server = w.server ∧
      match w'.server.objects.get? (.gameServers, ns ++ "/" ++ name) with
      | none =>
        (∃ e, (w'.writeGameServer gs.markReady).1 = .error e) ∧
          (w'.writeGameServer gs.markReady).2.server = w'.server
      | some j' =>
        if Server.versionOf j' = some v then
          ∃ j'' v', OnlyMarked j' v' j'' ∧
            (w'.writeGameServer gs.markReady).2.server.objects =
              w'.server.objects.set (.gameServers, ns ++ "/" ++ name) j'' ∧
            (w'.writeGameServer gs.markReady).1 = .ok { gs.markReady with
              metadata := { gs.markReady.metadata with resourceVersion := some v' } }
        else
          (∃ e, (w'.writeGameServer gs.markReady).1 = .error e ∧ e.isConflict = true) ∧
            (w'.writeGameServer gs.markReady).2.server = w'.server := by
  have hread : w.Follows (.readGameServer name ns) (w.readGameServer ns name) :=
    World.follows_answer (calm_of_faultless hfaults) rfl
  have hreadServer := hread.server
  have hreadResult := hread.result
  rw [answer_read hfaults hkept hd] at hreadServer hreadResult
  rw [hreadServer] at hsince
  refine ⟨hreadResult, hreadServer, ?_⟩
  obtain ⟨hidentified, hfaults'⟩ := identified_of_changes hsince hkept.identified hfaults
  have hwrite : w'.Follows (.writeGameServer gs.markReady) (w'.writeGameServer gs.markReady) :=
    World.follows_answer (calm_of_faultless hfaults') rfl
  obtain ⟨hresult, hserver, -⟩ := hwrite
  rw [answer_write hfaults' hkept hd] at hresult hserver
  cases hthere : w'.server.objects.get? (.gameServers, ns ++ "/" ++ name) with
  | none =>
    rw [hthere] at hresult hserver
    exact ⟨⟨_, hresult⟩, hserver⟩
  | some j' =>
    rw [hthere] at hresult hserver
    dsimp only at hresult hserver ⊢
    split
    · next hsame =>
      rw [if_pos hsame] at hresult hserver
      obtain rfl : j' = j := hidentified.unique j' hthere hsame
      have hmerged : (World.annotationsPatch gs.markReady).mergePatch j' =
          j'.setAt markerPath (.text "true") :=
        mergePatch_annotationsPatch hd hsame hkept.distinct Annotations.ingressReady "true"
      rw [hmerged] at hresult hserver
      refine ⟨_, toString (w'.server.version + 1), onlyMarked j' _, ?_, ?_⟩
      · rw [hserver]
        rfl
      · rw [hresult]
        exact decodeAs_of_some
          (ofJson?_annotated hd hsame hkept.distinct Annotations.ingressReady "true" _)
    · next hmoved =>
      rw [if_neg hmoved] at hresult hserver
      exact ⟨⟨_, hresult, rfl⟩, hserver⟩

/-- A game server without annotations, but with a label and a template that the controller does not
read. -/
def plainObject : Json := .object [
  ("metadata", .object [("name", .text "a"), ("namespace", .text "d"),
    ("resourceVersion", .text (toString 7)), ("labels", .object [("fleet", .text "f")])]),
  ("spec", .object [("template", .bool true)])]

def plainWorld : World where
  server := { version := 7, objects := [((.gameServers, "d/a"), plainObject)] }
  services := World.idle .services
  ingresses := World.idle .ingresses

theorem kept_plainObject : Kept plainWorld.server "d" "a" (toString 7) plainObject where
  stored := rfl
  named := by decide
  name := rfl
  ns := rfl
  version := rfl
  given := given_toString (Nat.le_refl 7)
  distinct := nofun

/-- The same after somebody has set the label to another value. -/
def relabelledWorld : World where
  server := (plainWorld.server.store .gameServers "d/a"
    (plainObject.setAt ["metadata", "labels", "fleet"] (.text "g"))).2
  services := World.idle .services
  ingresses := World.idle .ingresses

/-- The label and the template stay when the marker is set, and a label that somebody has set since
the read makes a conflict. -/
theorem marked_or_conflict_of_plainObject : ∃ gs, GameServer.ofJson? plainObject = some gs ∧
    (∃ j' v', OnlyMarked plainObject v' j' ∧
      (plainWorld.writeGameServer gs.markReady).2.server.objects = [((.gameServers, "d/a"), j')] ∧
      j'.at? ["metadata", "labels", "fleet"] = some (.text "f") ∧
      j'.at? ["spec", "template"] = some (.bool true)) ∧
    (∃ e, (relabelledWorld.writeGameServer gs.markReady).1 = .error e ∧ e.isConflict = true) ∧
      (relabelledWorld.writeGameServer gs.markReady).2.server = relabelledWorld.server := by
  obtain ⟨gs, hd⟩ := Option.isSome_iff_exists.mp
    (show (GameServer.ofJson? plainObject).isSome = true from rfl)
  have hunchanged : (plainWorld.readGameServer "d" "a").2.server = plainWorld.server := rfl
  refine ⟨gs, hd, ?_, ?_⟩
  · obtain ⟨j', v', hmarked, hobjects, -⟩ := (marked_or_conflict plainWorld plainWorld rfl
      kept_plainObject hd (hunchanged ▸ .refl)).2.2
    refine ⟨j', v', hmarked, hobjects, ?_, ?_⟩
    · exact hmarked.elsewhere _ (by simp [Diverge, markerPath]) (by simp [Diverge, versionPath])
    · exact hmarked.elsewhere _ (by simp [Diverge, markerPath]) (by simp [Diverge, versionPath])
  · exact (marked_or_conflict plainWorld relabelledWorld rfl kept_plainObject hd
      (hunchanged ▸ .single (.store .gameServers "d/a" _))).2.2

end GameIngress.Reconcile
