import GameIngress.Proofs.Json.Codec
import GameIngress.Proofs.Timestamp

/-!
# Object metadata in normal form

What was read by a shape is read by it as it is. So metadata that were read are read back from what
they are written as.
-/
namespace GameIngress.Object

open Json

def Fields.names : Fields → List String
  | .nil => []
  | .cons name _ _ rest => name :: rest.names

theorem Fields.read_congr {ms ms' : Members} :
    ∀ fields : Fields, (∀ name ∈ fields.names, ms'.get? name = ms.get? name) →
      fields.read ms' = fields.read ms
  | .nil, _ => rfl
  | .cons name required shape rest, h => by
    rw [Fields.read, Fields.read, h name List.mem_cons_self,
      read_congr rest fun other hother => h other (List.mem_cons_of_mem name hother)]

mutual
/-- No record has two members of one name. -/
def Shape.Distinct : Shape → Prop
  | .list item => item.Distinct
  | .record fields => fields.Distinct
  | _ => True
def Fields.Distinct : Fields → Prop
  | .nil => True
  | .cons name _ shape rest => name ∉ rest.names ∧ shape.Distinct ∧ rest.Distinct
end

variable {name : String} {required : Bool} {shape : Shape} {fields rest : Fields} {ms ns : Members}
  {v w : Json}

/-- What is written of a member that was read as `v`, before the other members. -/
def Fields.put (name : String) (required : Bool) (zero : Json) : Option Json → Members → Members
  | some v, others => (name, v) :: others
  | none, others => if required then (name, zero) :: others else others

theorem Fields.read_cons :
    (Fields.cons name required shape rest).read ms =
      (ms.optional name shape.read).bind fun v =>
        (rest.read ms).map (put name required shape.zero v) := by
  have hput (v : Option Json) :
      ((rest.read ms).bind fun others => some (put name required shape.zero v others)) =
        (rest.read ms).map (put name required shape.zero v) := by
    cases rest.read ms <;> rfl
  rw [Fields.read, Members.optional]
  cases ms.get? name with
  | none => exact hput none
  | some v =>
    cases v with
    | null => exact hput none
    | _ =>
      change Option.bind (Option.map some (shape.read _)) _ =
        Option.bind (Option.map some (shape.read _)) _
      cases shape.read _ with
      | none => rfl
      | some w => exact hput (some w)

theorem Fields.mem_names_of_put {v : Option Json} {k : String} {others : Members} {zero : Json}
    (h : k ∈ (put name required zero v others).map (·.1)) : k = name ∨ k ∈ others.map (·.1) := by
  cases v with
  | some v => exact List.mem_cons.mp h
  | none =>
    cases required with
    | false => exact .inr h
    | true => exact List.mem_cons.mp h

theorem Fields.mem_names_of_read {k : String} :
    ∀ {fields : Fields} {ns : Members}, fields.read ms = some ns → k ∈ ns.map (·.1) →
      k ∈ fields.names
  | .nil, _, h, hk => by
    cases h
    cases hk
  | .cons name required shape rest, ns, h, hk => by
    rw [read_cons] at h
    obtain ⟨v, -, h⟩ := Option.bind_eq_some_iff.mp h
    obtain ⟨others, hothers, rfl⟩ := Option.map_eq_some_iff.mp h
    rcases mem_names_of_put hk with rfl | hk
    · exact List.mem_cons_self
    · exact List.mem_cons_of_mem _ (mem_names_of_read hothers hk)

theorem Fields.get?_put_of_ne {v : Option Json} {k : String} {others : Members} {zero : Json}
    (h : k ≠ name) : (put name required zero v others).get? k = Members.get? others k := by
  have hskip (w : Json) : Members.get? ((name, w) :: others) k = Members.get? others k := by
    rw [Members.get?, lookup_cons_ite, if_neg h]
    rfl
  cases v with
  | some v => exact hskip v
  | none =>
    cases required with
    | false => rfl
    | true => exact hskip zero

theorem Fields.read_put {v : Option Json} {others : Members} (hname : name ∉ rest.names)
    (hothers : rest.read others = some others) (hzero : shape.read shape.zero = some shape.zero)
    (hv : ∀ w ∈ v, w ≠ .null ∧ shape.read w = some w) :
    (Fields.cons name required shape rest).read (put name required shape.zero v others) =
      some (put name required shape.zero v others) := by
  have hrest : rest.read (put name required shape.zero v others) = some others := by
    refine (rest.read_congr fun k hk => get?_put_of_ne ?_).trans hothers
    rintro rfl
    exact hname hk
  have hhead (w : Json) : Members.get? ((name, w) :: others) name = some w := by
    rw [Members.get?, lookup_cons_ite, if_pos rfl]
  have hread (w : Json) (hne : w ≠ .null) (hw : shape.read w = some w) :
      Members.optional ((name, w) :: others) name shape.read = some (some w) := by
    rw [Members.optional, hhead]
    exact (nullable_of_ne_null hne).trans (congrArg (Option.map some) hw)
  have hmember : ∃ v', (put name required shape.zero v others).optional name shape.read = some v' ∧
      put name required shape.zero v' others = put name required shape.zero v others := by
    cases v with
    | some w =>
      obtain ⟨hne, hw⟩ := hv w rfl
      exact ⟨some w, hread w hne hw, rfl⟩
    | none =>
      cases required with
      | true =>
        by_cases hnull : shape.zero = .null
        · refine ⟨none, ?_, rfl⟩
          rw [put, if_pos rfl, Members.optional, hhead, hnull]
          rfl
        · exact ⟨some shape.zero, hread shape.zero hnull hzero, rfl⟩
      | false =>
        have hnone : Members.get? others name = none :=
          lookup_of_notMem fun h => hname (mem_names_of_read hothers h)
        refine ⟨none, ?_, rfl⟩
        rw [put, if_neg Bool.false_ne_true, Members.optional, hnone]
  obtain ⟨v', hv', hsame⟩ := hmember
  rw [read_cons, hv', hrest]
  exact congrArg some hsame

theorem mapM_of_fixed {item : Decoder Json} (hitem : ∀ v w, item v = some w → item w = some w)
    {vs ws : List Json} (h : vs.mapM item = some ws) : ws.mapM item = some ws := by
  induction vs generalizing ws with
  | nil =>
    cases h
    rfl
  | cons v vs ih =>
    rw [List.mapM_cons] at h
    obtain ⟨w, hw, h⟩ := Option.bind_eq_some_iff.mp h
    obtain ⟨ws, hws, h⟩ := Option.bind_eq_some_iff.mp h
    cases h
    rw [List.mapM_cons, hitem v w hw, ih hws]
    rfl

theorem asInt_of_asInt {bits : Nat} {i : Int} {j : Json} (h : asInt bits j = some i) :
    asInt bits (.int i) = some i := by
  cases j with
  | int k =>
    obtain ⟨hrange, heq⟩ := Option.ite_none_right_eq_some.mp h
    cases heq
    exact if_pos hrange
  | _ => cases h

theorem asInt_zero (bits : Nat) : asInt bits (.int 0) = some 0 := by
  have hpos : 0 < 2 ^ (bits - 1) := Nat.two_pow_pos _
  refine if_pos ?_
  simp only [Nat.pow_eq]
  omega

mutual
/-- What stands for a value that is not given has the shape, and is in normal form. -/
theorem Shape.read_zero : ∀ shape : Shape, shape.Distinct → shape.read shape.zero = some shape.zero
  | .text, _ => rfl
  | .boolean, _ => rfl
  | .int bits, _ => congrArg (Option.map Json.int) (asInt_zero bits)
  | .timestamp, _ => by
    have hproper : Timestamp.Proper ⟨0, false⟩ := ⟨by decide, nofun⟩
    have htext : Timestamp.render ⟨0, false⟩ = "1970-01-01T00:00:00Z" := by decide +kernel
    have hread := hproper.read?_render
    rw [htext] at hread
    simp only [Shape.zero, Shape.read, asText, bind, Option.bind_some, hread, htext]
  | .intOrText, _ => congrArg (Option.map Json.int) (asInt_zero 32)
  | .anything, _ => rfl
  | .list _, _ => rfl
  | .textMap, _ => rfl
  | .record fields, h => by
    simp only [Shape.zero, Shape.read, asMembers, bind, Option.bind_some, fields.read_zero h]
theorem Fields.read_zero :
    ∀ fields : Fields, fields.Distinct → fields.read fields.zero = some fields.zero
  | .nil, _ => rfl
  | .cons _ _ shape rest, ⟨hname, hshape, hrest⟩ =>
    Fields.read_put (v := none) hname (rest.read_zero hrest) (shape.read_zero hshape) nofun
end

theorem Shape.ne_null_of_read (hv : v ≠ .null) (h : shape.read v = some w) : w ≠ .null := by
  cases shape with
  | text | boolean | int | textMap =>
    obtain ⟨_, -, rfl⟩ := Option.map_eq_some_iff.mp h
    nofun
  | timestamp | list | record =>
    obtain ⟨_, -, h⟩ := Option.bind_eq_some_iff.mp h
    obtain ⟨_, -, h⟩ := Option.bind_eq_some_iff.mp h
    cases h
    nofun
  | intOrText =>
    cases v with
    | text =>
      cases h
      nofun
    | _ =>
      obtain ⟨_, -, rfl⟩ := Option.map_eq_some_iff.mp h
      nofun
  | anything =>
    cases h
    exact hv

mutual
theorem Shape.read_read :
    ∀ {shape : Shape} {v w : Json}, shape.Distinct → shape.read v = some w → shape.read w = some w
  | .text, _, _, _, h => by
    obtain ⟨s, -, rfl⟩ := Option.map_eq_some_iff.mp h
    rfl
  | .boolean, _, _, _, h => by
    obtain ⟨b, -, rfl⟩ := Option.map_eq_some_iff.mp h
    rfl
  | .int bits, _, _, _, h => by
    obtain ⟨i, hi, rfl⟩ := Option.map_eq_some_iff.mp h
    exact congrArg (Option.map Json.int) (asInt_of_asInt hi)
  | .timestamp, _, _, _, h => by
    obtain ⟨s, -, h⟩ := Option.bind_eq_some_iff.mp h
    obtain ⟨t, ht, h⟩ := Option.bind_eq_some_iff.mp h
    cases h
    have hread := (Timestamp.proper_of_read? ht).read?_render
    simp only [Shape.read, asText, bind, Option.bind_some, hread]
  | .intOrText, .text _, _, _, h => by
    cases h
    rfl
  | .intOrText, .int _, _, _, h => by
    obtain ⟨i, hi, rfl⟩ := Option.map_eq_some_iff.mp h
    exact congrArg (Option.map Json.int) (asInt_of_asInt hi)
  | .anything, _, _, _, _ => rfl
  | .list item, _, _, hitem, h => by
    obtain ⟨vs, -, h⟩ := Option.bind_eq_some_iff.mp h
    obtain ⟨ws, hws, h⟩ := Option.bind_eq_some_iff.mp h
    cases h
    have hread : ws.mapM item.read = some ws :=
      mapM_of_fixed (fun _ _ => Shape.read_read (show item.Distinct from hitem)) hws
    have hlist : listOf some (.array ws) = some ws :=
      (List.mapM_pure (f := id)).trans (congrArg some (List.map_id ws))
    simp only [Shape.read, bind, hlist, Option.bind_some, hread]
  | .textMap, _, _, _, h => by
    obtain ⟨m, -, rfl⟩ := Option.map_eq_some_iff.mp h
    exact congrArg (Option.map ofTextMap) (inverts_textMap.read_write m)
  | .record fields, _, _, hfields, h => by
    obtain ⟨ms, -, h⟩ := Option.bind_eq_some_iff.mp h
    obtain ⟨ns, hns, h⟩ := Option.bind_eq_some_iff.mp h
    cases h
    have hread := fields.read_read hfields hns
    simp only [Shape.read, asMembers, bind, Option.bind_some, hread]
theorem Fields.read_read :
    ∀ {fields : Fields} {ms ns : Members}, fields.Distinct → fields.read ms = some ns →
      fields.read ns = some ns
  | .nil, _, _, _, h => by
    cases h
    rfl
  | .cons _ _ shape _, _, _, ⟨hname, hshape, hrest⟩, h => by
    rw [Fields.read_cons] at h
    obtain ⟨_, hv, h⟩ := Option.bind_eq_some_iff.mp h
    obtain ⟨_, hothers, rfl⟩ := Option.map_eq_some_iff.mp h
    refine Fields.read_put hname (Fields.read_read hrest hothers) (shape.read_zero hshape) ?_
    rintro w rfl
    rcases optional_eq_some hv with ⟨-, hnone⟩ | ⟨v, w, hne, -, hw, heq⟩
    · cases hnone
    · cases heq
      exact ⟨Shape.ne_null_of_read hne hw, Shape.read_read hshape hw⟩
end

end GameIngress.Object

namespace GameIngress

open Json Object

theorem OwnerReference.inverts : Inverts OwnerReference.ofJson? OwnerReference.toJson := by
  refine ⟨fun r => ?_, nofun⟩
  let ms : List (String × Option Json) := [
    ("apiVersion", some (.text r.apiVersion)),
    ("blockOwnerDeletion", r.blockOwnerDeletion.map .bool),
    ("controller", r.controller.map .bool),
    ("kind", some (.text r.kind)),
    ("name", some (.text r.name)),
    ("uid", some (.text r.uid))]
  have hget (k : String) : (present ms).get? k = (ms.lookup k).join := get?_present (by simp [ms]) k
  have hversion : (present ms).orZero "apiVersion" "" asText = some r.apiVersion :=
    inverts_text.orZero_of_get? "" (hget "apiVersion")
  have hkind : (present ms).orZero "kind" "" asText = some r.kind :=
    inverts_text.orZero_of_get? "" (hget "kind")
  have hname : (present ms).orZero "name" "" asText = some r.name :=
    inverts_text.orZero_of_get? "" (hget "name")
  have huid : (present ms).orZero "uid" "" asText = some r.uid :=
    inverts_text.orZero_of_get? "" (hget "uid")
  have hcontroller : (present ms).optional "controller" asBool = some r.controller :=
    inverts_bool.optional_of_get? (hget "controller")
  have hblock : (present ms).optional "blockOwnerDeletion" asBool = some r.blockOwnerDeletion :=
    inverts_bool.optional_of_get? (hget "blockOwnerDeletion")
  change OwnerReference.ofJson? (.object (present ms)) = some r
  simp only [OwnerReference.ofJson?, asMembers, hversion, hkind, hname, huid, hcontroller, hblock,
    bind, Option.bind_some]

namespace ObjectMeta

theorem distinct_otherFields : otherFields.Distinct := by
  simp [otherFields, managedFieldsShape, Fields.ofList, Fields.Distinct, Shape.Distinct,
    Fields.names]

theorem ofJson?_toJson {m : ObjectMeta} (hother : otherFields.read m.other = some m.other) :
    ObjectMeta.ofJson? m.toJson = some m := by
  let ms : List (String × Option Json) := [
    ("annotations", m.annotations.map ofTextMap),
    ("generateName", m.generateName.map .text),
    ("labels", m.labels.map ofTextMap),
    ("name", m.name.map .text),
    ("namespace", m.ns.map .text),
    ("ownerReferences", m.ownerReferences.map fun rs => .array (rs.map OwnerReference.toJson)),
    ("resourceVersion", m.resourceVersion.map .text),
    ("uid", m.uid.map .text)]
  have hpresent (k : String) : (present ms).get? k = (ms.lookup k).join :=
    get?_present (by simp [ms]) k
  let all : Members := present ms ++ m.other
  have happend (k : String) : all.get? k = ((ms.lookup k).join).or (m.other.lookup k) := by
    rw [← hpresent]
    exact List.lookup_append
  have hget (k : String) (hk : k ∉ otherFields.names) : all.get? k = (ms.lookup k).join := by
    rw [happend, lookup_of_notMem fun h => hk (Fields.mem_names_of_read hother h), Option.or_none]
  have hcarried : otherFields.read all = some m.other := by
    refine (otherFields.read_congr fun k hk => ?_).trans hother
    have hkeys : ms.map (·.1) = ["annotations", "generateName", "labels", "name", "namespace",
      "ownerReferences", "resourceVersion", "uid"] := rfl
    have hapart : ∀ k ∈ otherFields.names, k ∉ ms.map (·.1) := by
      rw [hkeys]
      decide
    rw [happend, lookup_of_notMem (hapart k hk)]
    rfl
  have hname : all.optional "name" asText = some m.name :=
    inverts_text.optional_of_get? (hget "name" (by decide))
  have hgenerate : all.optional "generateName" asText = some m.generateName :=
    inverts_text.optional_of_get? (hget "generateName" (by decide))
  have hns : all.optional "namespace" asText = some m.ns :=
    inverts_text.optional_of_get? (hget "namespace" (by decide))
  have huid : all.optional "uid" asText = some m.uid :=
    inverts_text.optional_of_get? (hget "uid" (by decide))
  have hversion : all.optional "resourceVersion" asText = some m.resourceVersion :=
    inverts_text.optional_of_get? (hget "resourceVersion" (by decide))
  have hlabels : all.optional "labels" asTextMap = some m.labels :=
    inverts_textMap.optional_of_get? (hget "labels" (by decide))
  have hannotations : all.optional "annotations" asTextMap = some m.annotations :=
    inverts_textMap.optional_of_get? (hget "annotations" (by decide))
  have howners : all.optional "ownerReferences" (listOf OwnerReference.ofJson?) =
      some m.ownerReferences :=
    OwnerReference.inverts.list.optional_of_get? (hget "ownerReferences" (by decide))
  change ObjectMeta.ofJson? (.object all) = some m
  simp only [ObjectMeta.ofJson?, asMembers, hname, hgenerate, hns, huid, hversion, hlabels,
    hannotations, howners, hcarried, bind, Option.bind_some]

theorem ofJson?_toJson_of_ofJson? {j : Json} {m : ObjectMeta} (h : ObjectMeta.ofJson? j = some m) :
    ObjectMeta.ofJson? m.toJson = some m := by
  unfold ObjectMeta.ofJson? at h
  simp only [bind, Option.bind_eq_some_iff, Option.some.injEq] at h
  obtain ⟨_, -, _, -, _, -, _, -, _, -, _, -, _, -, _, -, _, -, other, hother, rfl⟩ := h
  exact ofJson?_toJson (Fields.read_read distinct_otherFields hother)

end ObjectMeta
end GameIngress
