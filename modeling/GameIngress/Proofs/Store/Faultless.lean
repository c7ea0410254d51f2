import GameIngress.Proofs.TextMap
import GameIngress.Store.Memory
import Mathlib

/-!
# A store without planned failures

What its calls answer, and what they leave in the store.
-/
namespace GameIngress

/-- A key whose namespace and name have no slash stands for this one pair. -/
theorem ObjectMeta.key_eq_iff {m : ObjectMeta} (hns : '/' ∉ m.nsOrEmpty.toList)
    (hname : '/' ∉ m.anyName.toList) (m' : ObjectMeta) :
    m.key = m'.key ↔ m.nsOrEmpty = m'.nsOrEmpty ∧ m.anyName = m'.anyName := by
  have hlists : m.key = m'.key ↔ m.nsOrEmpty.toList ++ '/' :: m.anyName.toList =
      m'.nsOrEmpty.toList ++ '/' :: m'.anyName.toList := by
    simp [key, ← String.toList_inj]
  rw [hlists, List.append_cons_inj_of_notMem hns hname, String.toList_inj, String.toList_inj]
  simp

namespace Memory

variable {α : Type} {m : Memory}

theorem lookup_put (key : String) (v : α) (es : List (String × α)) (key' : String) :
    (put key v es).lookup key' = if key' = key then some v else es.lookup key' := by
  induction es with
  | nil => rw [put, lookup_cons_ite]
  | cons e rest ih =>
    obtain ⟨k, w⟩ := e
    rw [put]
    split
    · rw [lookup_cons_ite]
    · split
      · next heq =>
        subst heq
        rw [lookup_cons_ite, lookup_cons_ite]
        split <;> rfl
      · next hne =>
        rw [lookup_cons_ite, lookup_cons_ite, ih]
        split
        · next hk => rw [if_neg (hk ▸ hne)]
        · rfl

theorem isSome_lookup_put (key : String) (v : α) (es : List (String × α)) :
    ((put key v es).lookup key).isSome = true := by
  rw [lookup_put, if_pos rfl, Option.isSome_some]

theorem nextVersion_ne (v : Option String) : some (nextVersion v) ≠ v := by
  intro h
  have hread : (nextVersion v).toNat? = some ((v.bind String.toNat?).getD 0 + 1) := by
    rw [nextVersion, Nat.toString_eq_repr, Nat.toNat?_repr]
  have hv : (v.bind String.toNat?).getD 0 = (v.bind String.toNat?).getD 0 + 1 := by
    calc (v.bind String.toNat?).getD 0 = ((some (nextVersion v)).bind String.toNat?).getD 0 := by
          rw [h]
      _ = (v.bind String.toNat?).getD 0 + 1 := by rw [Option.bind_some, hread, Option.getD_some]
  omega

theorem takeFault_of_faultless (hm : m.faults = []) (call : StoreCall) (log : List LogEntry) :
    takeFault call { m with log } = (none, { m with log }) := by
  rw [takeFault, hm]
  rfl

theorem createIn_of_faultless (hm : m.faults = []) {call : StoreCall} {entry : LogEntry}
    {key : String} {v : α} {table : Memory → List (String × α)}
    {store : List (String × α) → Memory → Memory}
    (htable : table { m with log := entry :: m.log } = table m) :
    createIn call entry key v table store m =
      if ((table m).lookup key).isSome then
        (.error (refuse "AlreadyExists" 409), { m with log := entry :: m.log })
      else (.ok v, store (put key v (table m)) { m with log := entry :: m.log }) := by
  rw [createIn, takeFault_of_faultless hm]
  simp only [htable]

theorem read_of_faultless (hm : m.faults = []) {key : String} {gs : GameServer}
    (hgs : m.gameServers.lookup key = some gs) :
    read key m = (.ok gs, { m with log := .readGameServer key :: m.log }) := by
  rw [read, takeFault_of_faultless hm]
  simp only [hgs]

theorem write_of_other_version (hm : m.faults = []) {gs stored : GameServer}
    (hstored : m.gameServers.lookup gs.key = some stored)
    (hversion : stored.metadata.resourceVersion ≠ gs.metadata.resourceVersion) :
    write gs m =
      (.error (refuse "Conflict" 409), { m with log := .writeGameServer gs :: m.log }) := by
  rw [write, takeFault_of_faultless hm]
  simp only [hstored]
  rw [if_pos hversion]

theorem write_of_same_version (hm : m.faults = []) {gs stored : GameServer}
    (hstored : m.gameServers.lookup gs.key = some stored)
    (hversion : stored.metadata.resourceVersion = gs.metadata.resourceVersion) :
    write gs m =
      let written := raiseVersion
        { stored with metadata := { stored.metadata with annotations := gs.metadata.annotations } }
      (.ok written, { m with
        gameServers := put gs.key written m.gameServers
        log := .writeGameServer gs :: m.log }) := by
  rw [write, takeFault_of_faultless hm]
  simp only [hstored]
  rw [if_neg (not_not_intro hversion)]

end Memory
end GameIngress
