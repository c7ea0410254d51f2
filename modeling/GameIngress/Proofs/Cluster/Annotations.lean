import GameIngress.Cluster.World
import GameIngress.Proofs.Json.Codec

/-!
# Writing an annotation back

A game server that was read, given one more annotation and written back as a patch leaves its object
as it was, but for this annotation.
-/
namespace GameIngress

open Json

theorem ObjectMeta.ofJson?_eq_some {j : Json} {m : ObjectMeta} (h : ObjectMeta.ofJson? j = some m) :
    ∃ ms, j = .object ms ∧ Members.optional ms "resourceVersion" asText = some m.resourceVersion ∧
      Members.optional ms "annotations" asTextMap = some m.annotations := by
  unfold ObjectMeta.ofJson? at h
  simp only [bind, Option.bind_eq_some_iff, Option.some.injEq] at h
  obtain ⟨ms, hms, _, _, _, _, _, _, _, _, v, hv, _, _, a, ha, _, _, _, _, rfl⟩ := h
  cases j with
  | object ms' =>
    cases hms
    exact ⟨_, rfl, hv, ha⟩
  | _ => cases hms

theorem GameServer.ofJson?_eq_some {j : Json} {gs : GameServer}
    (h : GameServer.ofJson? j = some gs) :
    ∃ ms, fieldsOf ["metadata", "spec", "status"] j = some ms ∧
      (Members.get? ms "metadata").bind ObjectMeta.ofJson? = some gs.metadata := by
  unfold GameServer.ofJson? at h
  obtain ⟨ms, hms, h⟩ := Option.bind_eq_some_iff.mp h
  refine ⟨ms, hms, ?_⟩
  split at h
  · cases h
  · obtain ⟨m, hm, h⟩ := Option.bind_eq_some_iff.mp h
    obtain ⟨_, -, h⟩ := Option.bind_eq_some_iff.mp h
    obtain ⟨_, -, h⟩ := Option.bind_eq_some_iff.mp h
    cases h
    exact hm

namespace Cluster

open World (annotationsPatch)

/-- The annotations of an object have distinct keys. -/
def Distinct (j : Json) : Prop :=
  ∀ ms, j.at? ["metadata", "annotations"] = some (.object ms) → (ms.map (·.1)).Nodup

theorem at?_of_versionOf {j : Json} {v : String} (h : Server.versionOf j = some v) :
    j.at? ["metadata", "resourceVersion"] = some (.text v) := by
  unfold Server.versionOf Server.textAt at h
  split at h
  · next s hs =>
    cases h
    exact hs
  · cases h

theorem versionOf_of_at? {j : Json} {v : String}
    (h : j.at? ["metadata", "resourceVersion"] = some (.text v)) : Server.versionOf j = some v := by
  unfold Server.versionOf Server.textAt
  rw [h]

/-- Annotations keep distinct keys when one of them is set, and when the version is. -/
theorem Distinct.setAt {j : Json} (hn : Distinct j) (k t v : String) :
    Distinct ((j.setAt ["metadata", "annotations", k] (.text t)).setAt
      ["metadata", "resourceVersion"] (.text v)) := by
  intro ms hms
  rw [at?_setAt_of_diverge (by simp [Diverge])] at hms
  rw [show ["metadata", "annotations", k] = ["metadata", "annotations"] ++ [k] from rfl,
    at?_setAt_append] at hms
  cases hms
  refine Members.nodup_set ?_
  cases hold : j.at? ["metadata", "annotations"] with
  | none => exact List.nodup_nil
  | some w =>
    cases w with
    | object ms => exact hn ms hold
    | _ => exact List.nodup_nil

section Decoded
variable {j : Json} {gs : GameServer} {v k t : String}

theorem parts_of_ofJson? (hd : GameServer.ofJson? j = some gs) (hv : Server.versionOf j = some v) :
    ∃ top members, j = .object top ∧ top.lookup "metadata" = some (.object members) ∧
      members.lookup "resourceVersion" = some (.text v) ∧
      gs.metadata.resourceVersion = some v ∧
      ∃ es, ((members.lookup "annotations").getD .null).membersOrNone = ofTexts es ∧
        gs.metadata.annotationMap = TextMap.ofList es ∧
        (Distinct j → (es.map (·.1)).Nodup) := by
  obtain ⟨top, htop, hmeta⟩ := GameServer.ofJson?_eq_some hd
  obtain ⟨w, hw, hmeta⟩ := Option.bind_eq_some_iff.mp hmeta
  obtain ⟨members, rfl, hversion, hannotations⟩ := ObjectMeta.ofJson?_eq_some hmeta
  have hat := at?_of_versionOf hv
  cases j with
  | object ms =>
    cases htop
    have hmembers : top.lookup "metadata" = some (.object members) := hw
    have hpath : ∀ k, (object top).at? ["metadata", k] = members.lookup k := by
      intro k
      rw [at?_cons]
      change (top.lookup "metadata").bind _ = _
      rw [hmembers, Option.bind_some, at?_cons]
      change (members.lookup k).bind some = _
      cases members.lookup k <;> rfl
    rw [hpath] at hat
    refine ⟨top, members, rfl, hmembers, hat, ?_, ?_⟩
    · rcases optional_eq_some hversion with ⟨hnull, -⟩ | ⟨w, b, -, hlookup, hb, hsome⟩
      · rw [hat] at hnull
        cases hnull
      · rw [hat] at hlookup
        cases hlookup
        rw [hsome, ← hb]
        rfl
    · rcases optional_eq_some hannotations with ⟨hnull, hnone⟩ | ⟨w, m, -, hlookup, hm, hsome⟩
      · refine ⟨[], ?_, ?_, fun _ => List.nodup_nil⟩
        · rw [hnull]
          rfl
        · rw [ObjectMeta.annotationMap, hnone]
          rfl
      · obtain ⟨es, rfl, rfl⟩ := asTextMap_eq_some hm
        refine ⟨es, ?_, ?_, fun hdistinct => ?_⟩
        · rw [hlookup]
          rfl
        · rw [ObjectMeta.annotationMap, hsome]
          rfl
        · rw [← map_fst_ofTexts]
          exact hdistinct _ ((hpath _).trans hlookup)
  | _ => cases hat

theorem annotationValue?_of_at? (hd : GameServer.ofJson? j = some gs)
    (hv : Server.versionOf j = some v) (hn : Distinct j)
    (ht : j.at? ["metadata", "annotations", k] = some (.text t)) :
    gs.annotationValue? k = some t := by
  obtain ⟨top, members, rfl, hmembers, -, -, es, hes, hmap, hdistinct⟩ := parts_of_ofJson? hd hv
  have hlookup : (ofTexts es).lookup k = some (.text t) := by
    rw [at?_cons] at ht
    change (top.lookup "metadata").bind _ = _ at ht
    rw [hmembers, Option.bind_some, at?_cons] at ht
    change (members.lookup "annotations").bind _ = _ at ht
    obtain ⟨w, hw, ht⟩ := Option.bind_eq_some_iff.mp ht
    rw [at?_cons] at ht
    obtain ⟨u, hu, hut⟩ := Option.bind_eq_some_iff.mp ht
    cases hut
    rw [← hes, hw, Option.getD_some, lookup_membersOrNone, hu]
  rw [lookup_ofTexts] at hlookup
  obtain ⟨u, hu, hut⟩ := Option.map_eq_some_iff.mp hlookup
  cases hut
  change gs.metadata.annotationValue? k = some t
  rw [ObjectMeta.annotationValue?_eq, hmap, TextMap.get?_ofList (hdistinct hn), hu]

/-- To write a game server back with one more annotation is to set this annotation. -/
theorem mergePatch_annotationsPatch (hd : GameServer.ofJson? j = some gs)
    (hv : Server.versionOf j = some v) (hn : Distinct j) (k t : String) :
    (annotationsPatch { gs with metadata := gs.metadata.annotate k t }).mergePatch j =
      j.setAt ["metadata", "annotations", k] (.text t) := by
  obtain ⟨top, members, rfl, hmembers, hversion, hgs, es, hes, hmap, hdistinct⟩ :=
    parts_of_ofJson? hd hv
  have hentries : mergeMembers (ofTexts ((TextMap.ofList es).insert k t).entries) (ofTexts es) =
      (ofTexts es).set k (.text t) := by
    refine mergeMembers_of_one (TextMap.nodup_keys _) (TextMap.mem_of_get? ?_) fun e he hne => ?_
    · rw [TextMap.get?_insert, if_pos rfl]
    · have hget := TextMap.get?_of_mem he
      rw [TextMap.get?_insert, if_neg hne, TextMap.get?_ofList (hdistinct hn)] at hget
      rw [lookup_ofTexts, hget]
      rfl
  have hpatch : annotationsPatch { gs with metadata := gs.metadata.annotate k t } =
      .object [("metadata", .object [("resourceVersion", .text v),
        ("annotations", .object (ofTexts ((TextMap.ofList es).insert k t).entries))])] := by
    simp only [annotationsPatch, ObjectMeta.annotate, ObjectMeta.annotationMap, hgs,
      Option.map_some, Option.getD_some]
    change Json.object [("metadata", .object [("resourceVersion", .text v),
      ("annotations", ofTextMap (gs.metadata.annotationMap.insert k t))])] = _
    rw [hmap]
    rfl
  have hmerged : mergePatch (.object (ofTexts ((TextMap.ofList es).insert k t).entries))
      ((members.lookup "annotations").getD .null) = .object ((ofTexts es).set k (.text t)) := by
    rw [mergePatch, hes, hentries]
  have hmeta : mergePatch (.object [("resourceVersion", .text v),
        ("annotations", .object (ofTexts ((TextMap.ofList es).insert k t).entries))])
      (.object members) =
      .object (Members.set members "annotations" (.object ((ofTexts es).set k (.text t)))) := by
    rw [mergePatch, mergeMembers_text, mergeMembers_object, mergeMembers]
    rw [membersOrNone_object, Members.set_of_lookup hversion, hmerged]
  rw [hpatch, mergePatch, mergeMembers_object, mergeMembers]
  rw [membersOrNone_object, hmembers, Option.getD_some, hmeta]
  simp only [setAt, membersOrNone_object, Members.get?, hmembers, Option.getD_some, hes]

end Decoded
end Cluster
end GameIngress
