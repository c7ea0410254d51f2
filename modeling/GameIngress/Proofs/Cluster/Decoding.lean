import GameIngress.Proofs.Cluster.Annotations
import GameIngress.Proofs.Object.NormalForm

/-!
# Decoding an object whose annotations changed

A decoder sees an object only through the values of its members. So an object that is read as a game
server is still read as one when an annotation and the version are set, and as the same one but for
these two.
-/
namespace GameIngress

open Json

theorem ofTexts_set (es : List (String × String)) (k t : String) :
    ∃ es', (ofTexts es).set k (.text t) = ofTexts es' ∧
      (∀ k', es'.lookup k' = if k' = k then some t else es.lookup k') ∧
      ((es.map (·.1)).Nodup → (es'.map (·.1)).Nodup) := by
  have hset : ∃ es', (ofTexts es).set k (.text t) = ofTexts es' := by
    induction es with
    | nil => exact ⟨[(k, t)], rfl⟩
    | cons e rest ih =>
      obtain ⟨es', hes'⟩ := ih
      have hcons : ofTexts (e :: rest) = (e.1, .text e.2) :: ofTexts rest := rfl
      rw [hcons, Members.set]
      split
      · exact ⟨(e.1, t) :: rest, rfl⟩
      · exact ⟨e :: es', by rw [hes']; rfl⟩
  obtain ⟨es', hes'⟩ := hset
  refine ⟨es', hes', fun k' => ?_, fun hdistinct => ?_⟩
  · have hlookup := congrArg (·.lookup k') hes'
    simp only [Members.lookup_set, lookup_ofTexts] at hlookup
    split at hlookup
    · next heq =>
      obtain ⟨t', ht', heq'⟩ := Option.map_eq_some_iff.mp hlookup.symm
      cases heq'
      rw [ht', if_pos heq]
    · next hne =>
      rw [if_neg hne]
      exact (Option.map_injective (fun _ _ h => Json.text.inj h) hlookup).symm
  · rw [← map_fst_ofTexts es', ← hes']
    exact Members.nodup_set (by rwa [map_fst_ofTexts])

/-- Metadata with other annotations and another version, and otherwise the same members. -/
theorem ObjectMeta.ofJson?_of_same {ms ms' : Members} {m : ObjectMeta} {v : String}
    {es : List (String × String)} (h : ObjectMeta.ofJson? (.object ms) = some m)
    (hversion : ms'.get? "resourceVersion" = some (.text v))
    (hannotations : ms'.get? "annotations" = some (.object (ofTexts es)))
    (hsame : ∀ k, k ≠ "resourceVersion" → k ≠ "annotations" → ms'.get? k = ms.get? k) :
    ObjectMeta.ofJson? (.object ms') =
      some { m with resourceVersion := some v, annotations := some (TextMap.ofList es) } := by
  have hother : otherFields.read ms' = otherFields.read ms := by
    refine otherFields.read_congr fun name hname => hsame name ?_ ?_
    · rintro rfl
      exact absurd hname (by decide)
    · rintro rfl
      exact absurd hname (by decide)
  have hv : ms'.optional "resourceVersion" asText = some (some v) := by
    rw [Members.optional, hversion]
    rfl
  have ha : ms'.optional "annotations" asTextMap = some (some (TextMap.ofList es)) := by
    rw [Members.optional, hannotations]
    change (asTextMap (.object (ofTexts es))).map some = _
    rw [asTextMap_ofTexts]
    rfl
  unfold ObjectMeta.ofJson? at h ⊢
  simp only [bind, Option.bind_eq_some_iff, Option.some.injEq] at h ⊢
  obtain ⟨_, hms, name, hname, generateName, hgenerate, ns, hns, uid, huid, _, _, labels, hlabels,
    _, _, owners, howners, other, hread, rfl⟩ := h
  cases hms
  refine ⟨ms', rfl, name, ?_, generateName, ?_, ns, ?_, uid, ?_, _, hv, labels, ?_, _, ha, owners,
    ?_, other, hother.trans hread, rfl⟩
  all_goals
    refine (Members.optional_congr _ (hsame _ ?_ ?_)).trans ?_
    rotate_left 2
    · assumption
    all_goals decide

theorem GameServer.ofJson?_of_same {top top' : Members} {gs : GameServer} {j : Json}
    {m : ObjectMeta} (h : GameServer.ofJson? (.object top) = some gs)
    (hmeta : top'.get? "metadata" = some j) (hm : ObjectMeta.ofJson? j = some m)
    (hsame : ∀ k, k ≠ "metadata" → top'.get? k = top.get? k) :
    GameServer.ofJson? (.object top') = some { gs with metadata := m } := by
  have hspec : top'.get? "spec" = top.get? "spec" := hsame _ (by decide)
  have hstatus : top'.optional "status" GameServerStatus.ofJson? =
      top.optional "status" GameServerStatus.ofJson? :=
    Members.optional_congr _ (hsame _ (by decide))
  change ((top.get? "metadata").bind ObjectMeta.ofJson?).bind _ = _ at h
  change ((top'.get? "metadata").bind ObjectMeta.ofJson?).bind _ = _
  obtain ⟨_, -, h⟩ := Option.bind_eq_some_iff.mp h
  obtain ⟨ports, hports, h⟩ := Option.bind_eq_some_iff.mp h
  obtain ⟨status, hread, h⟩ := Option.bind_eq_some_iff.mp h
  cases h
  simp only [hmeta, Option.bind_some, hm, hspec, hports, hstatus, hread, bind]

namespace Cluster

variable {j : Json} {gs : GameServer} {v : String}

theorem eq_of_optional_text {ms : Members} {k s : String} {a : Option String}
    (h : ms.optional k asText = some a) (hs : ms.lookup k = some (.text s)) : a = some s := by
  rw [Members.optional, Members.get?, hs] at h
  exact (Option.some.inj h).symm

theorem names_of_ofJson? {name ns : String} (hd : GameServer.ofJson? j = some gs)
    (hv : Server.versionOf j = some v) (hname : Server.nameOf j = some name)
    (hns : Server.nsOf j = some ns) : gs.metadata.name = some name ∧ gs.metadata.ns = some ns := by
  obtain ⟨top, members, rfl, hmembers, -⟩ := parts_of_ofJson? hd hv
  have hpath (k s : String) (h : Server.textAt (object top) ["metadata", k] = some s) :
      members.lookup k = some (.text s) := by
    have hat : (object top).at? ["metadata", k] = members.lookup k := by
      rw [at?_cons, show (object top).get? "metadata" = some (object members) from hmembers,
        Option.bind_some, at?_cons]
      change (members.lookup k).bind some = _
      cases members.lookup k <;> rfl
    unfold Server.textAt at h
    rw [hat] at h
    split at h
    · next heq =>
      cases h
      exact heq
    · cases h
  obtain ⟨ms, hms, hmeta⟩ := GameServer.ofJson?_eq_some hd
  cases hms
  rw [Members.get?, hmembers, Option.bind_some] at hmeta
  unfold ObjectMeta.ofJson? at hmeta
  simp only [bind, Option.bind_eq_some_iff, Option.some.injEq] at hmeta
  obtain ⟨_, hms, _, hreadName, _, -, _, hreadNs, _, -, _, -, _, -, _, -, _, -, _, -, heq⟩ := hmeta
  cases hms
  rw [← heq]
  exact ⟨eq_of_optional_text hreadName (hpath _ _ hname),
    eq_of_optional_text hreadNs (hpath _ _ hns)⟩

theorem ofJson?_annotated (hd : GameServer.ofJson? j = some gs) (hv : Server.versionOf j = some v)
    (hn : Distinct j) (k t v' : String) :
    GameServer.ofJson? ((j.setAt ["metadata", "annotations", k] (.text t)).setAt
        ["metadata", "resourceVersion"] (.text v')) =
      some { gs with
        metadata := { gs.metadata.annotate k t with resourceVersion := some v' } } := by
  obtain ⟨top, members, rfl, hmembers, -, -, es, hes, hmap, hdistinct⟩ := parts_of_ofJson? hd hv
  obtain ⟨es', hset, hlookup, hnodup⟩ := ofTexts_set es k t
  have hannotations : TextMap.ofList es' = gs.metadata.annotationMap.insert k t := by
    refine TextMap.ext_get? fun k' => ?_
    rw [hmap, TextMap.get?_insert, TextMap.get?_ofList (hnodup (hdistinct hn)),
      TextMap.get?_ofList (hdistinct hn), hlookup]
  have hmeta : ObjectMeta.ofJson? (.object members) = some gs.metadata := by
    obtain ⟨ms, hms, hmeta⟩ := GameServer.ofJson?_eq_some hd
    cases hms
    rwa [Members.get?, hmembers] at hmeta
  let annotated : Members := Members.set members "annotations" (.object (ofTexts es'))
  let first : Members := Members.set top "metadata" (.object annotated)
  let versioned : Members := annotated.set "resourceVersion" (.text v')
  have hfirst : (object top).setAt ["metadata", "annotations", k] (.text t) = .object first := by
    simp only [setAt, membersOrNone_object, Members.get?, hmembers, Option.getD_some, hes, hset,
      first, annotated]
  have hsecond : (object first).setAt ["metadata", "resourceVersion"] (.text v') =
      .object (first.set "metadata" (.object versioned)) := by
    simp only [setAt, membersOrNone_object, Members.get?, first, Members.lookup_set, if_pos,
      Option.getD_some, versioned]
  have hread : ObjectMeta.ofJson? (.object versioned) =
      some { gs.metadata.annotate k t with resourceVersion := some v' } := by
    rw [ObjectMeta.annotate, ← hannotations]
    refine ObjectMeta.ofJson?_of_same (m := gs.metadata) hmeta ?_ ?_ fun k' hversion hne => ?_
    · rw [Members.get?, Members.lookup_set, if_pos rfl]
    · rw [Members.get?, Members.lookup_set, if_neg (by decide), Members.lookup_set, if_pos rfl]
    · rw [Members.get?, Members.lookup_set, if_neg hversion, Members.lookup_set, if_neg hne,
        Members.get?]
  rw [hfirst, hsecond]
  refine GameServer.ofJson?_of_same hd ?_ hread fun k' hne => ?_
  · rw [Members.get?, Members.lookup_set, if_pos rfl]
  · rw [Members.get?, Members.lookup_set, if_neg hne, Members.lookup_set, if_neg hne,
      Members.get?]

end Cluster
end GameIngress
