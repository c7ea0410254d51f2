import GameIngress.GameServer.Codec
import GameIngress.Proofs.Json.Merge

/-!
# Values that are read back as they were written

A decoder inverts an encoder when it reads every value back. This passes from values to lists of
them, and to a member of a record whether the member is always written, is written when there is a
value, or is a list that is left out when empty. In the other direction, what a member was read as
says what is there.
-/
namespace GameIngress.Json

/-- What is written is read back, and is told apart from null. -/
structure Inverts {α : Type} (read : Decoder α) (write : α → Json) : Prop where
  read_write (x : α) : read (write x) = some x
  ne_null (x : α) : write x ≠ .null

theorem inverts_text : Inverts asText .text := ⟨fun _ => rfl, nofun⟩

theorem inverts_bool : Inverts asBool .bool := ⟨fun _ => rfl, nofun⟩

theorem inverts_int32 : Inverts asInt32 ofInt32 := by
  refine ⟨fun i => ?_, nofun⟩
  have hlow : -(Nat.pow 2 (32 - 1) : Int) ≤ i.toInt := i.le_toInt
  have hhigh : i.toInt < (Nat.pow 2 (32 - 1) : Int) := i.toInt_lt
  rw [asInt32, ofInt32, asInt, if_pos ⟨hlow, hhigh⟩, Option.map_some, Int32.ofInt_toInt]

theorem asTextMap_ofTexts (es : List (String × String)) :
    asTextMap (.object (ofTexts es)) = some (TextMap.ofList es) := by
  have hes : (ofTexts es).mapM (fun m : String × Json => (asText m.2).map (m.1, ·)) = some es := by
    induction es with
    | nil => rfl
    | cons e rest ih =>
      have hcons : ofTexts (e :: rest) = (e.1, .text e.2) :: ofTexts rest := rfl
      rw [hcons, List.mapM_cons, ih]
      rfl
  rw [asTextMap, hes]
  rfl

theorem asTextMap_eq_some {j : Json} {m : TextMap} (h : asTextMap j = some m) :
    ∃ es, j = .object (ofTexts es) ∧ m = TextMap.ofList es := by
  cases j with
  | object ms =>
    obtain ⟨es, hes, rfl⟩ := Option.map_eq_some_iff.mp h
    refine ⟨es, ?_, rfl⟩
    congr 1
    clear h
    induction ms generalizing es with
    | nil =>
      cases hes
      rfl
    | cons e rest ih =>
      obtain ⟨k, w⟩ := e
      rw [List.mapM_cons] at hes
      obtain ⟨p, hp, hes⟩ := Option.bind_eq_some_iff.mp hes
      obtain ⟨ps, hps, hes⟩ := Option.bind_eq_some_iff.mp hes
      cases hes
      obtain ⟨t, ht, rfl⟩ := Option.map_eq_some_iff.mp hp
      cases w with
      | text s =>
        cases ht
        rw [ih ps hps]
        rfl
      | _ => cases ht
  | _ => cases h

theorem inverts_textMap : Inverts asTextMap ofTextMap := by
  refine ⟨fun m => ?_, nofun⟩
  have hentries : TextMap.ofList m.entries = m :=
    TextMap.ext_get? fun _ => TextMap.get?_ofList m.nodup_keys
  exact (asTextMap_ofTexts m.entries).trans (congrArg some hentries)

theorem Members.optional_congr {α : Type} {ms ms' : Members} {k : String} (item : Decoder α)
    (h : ms'.get? k = ms.get? k) : ms'.optional k item = ms.optional k item := by
  unfold Members.optional
  rw [h]

theorem nullable_of_ne_null {α : Type} {read : Decoder α} {j : Json} (h : j ≠ .null) :
    nullable read j = (read j).map some := by
  cases j with
  | null => exact absurd rfl h
  | _ => rfl

theorem optional_eq_some {α : Type} {ms : Members} {k : String} {read : Decoder α} {a : Option α}
    (h : ms.optional k read = some a) :
    ((ms.lookup k).getD .null = .null ∧ a = none) ∨
    ∃ w b, w ≠ .null ∧ ms.lookup k = some w ∧ read w = some b ∧ a = some b := by
  rw [Members.optional, Members.get?] at h
  cases hw : ms.lookup k with
  | none =>
    rw [hw] at h
    cases h
    exact .inl ⟨rfl, rfl⟩
  | some w =>
    rw [hw] at h
    change nullable read w = some a at h
    by_cases hnull : w = .null
    · subst hnull
      cases h
      exact .inl ⟨rfl, rfl⟩
    · rw [nullable_of_ne_null hnull] at h
      obtain ⟨b, hb, rfl⟩ := Option.map_eq_some_iff.mp h
      exact .inr ⟨w, b, hnull, rfl, hb, rfl⟩

namespace Inverts

variable {α : Type} {read : Decoder α} {write : α → Json} {ms : Members} {k : String}

theorem nullable_write (h : Inverts read write) (x : α) :
    nullable read (write x) = some (some x) := by
  rw [nullable_of_ne_null (h.ne_null x), h.read_write, Option.map_some]

theorem list (h : Inverts read write) : Inverts (listOf read) fun xs => .array (xs.map write) := by
  refine ⟨fun xs => ?_, nofun⟩
  rw [listOf]
  induction xs with
  | nil => rfl
  | cons x rest ih =>
    rw [List.map_cons, List.mapM_cons, h.read_write, ih]
    rfl

theorem orDefault_of_get? (h : Inverts read write) {x : α} (zero : α)
    (hget : ms.get? k = some (write x)) : ms.orDefault k zero read = some x := by
  rw [Members.orDefault, hget]
  exact h.read_write x

theorem orZero_of_get? (h : Inverts read write) {x : α} (zero : α)
    (hget : ms.get? k = some (write x)) : ms.orZero k zero read = some x := by
  rw [Members.orZero, Members.optional, hget]
  exact congrArg (Option.map _) (h.nullable_write x)

theorem optional_of_get? (h : Inverts read write) {o : Option α}
    (hget : ms.get? k = o.map write) : ms.optional k read = some o := by
  rw [Members.optional, hget]
  cases o with
  | none => rfl
  | some x => exact h.nullable_write x

theorem orDefault_of_nonEmptyList (h : Inverts read write) {xs : List α}
    (hget : ms.get? k = nonEmptyList write xs) : ms.orDefault k [] (listOf read) = some xs := by
  rw [Members.orDefault, hget]
  cases xs with
  | nil => rfl
  | cons x rest => exact h.list.read_write (x :: rest)

end Inverts

abbrev present (ms : List (String × Option Json)) : Members :=
  ms.filterMap fun (k, v) => v.map (k, ·)

theorem get?_present {ms : List (String × Option Json)} (hd : (ms.map (·.1)).Nodup) (k : String) :
    (present ms).get? k = (ms.lookup k).join := by
  rw [Members.get?]
  induction ms with
  | nil => rfl
  | cons m rest ih =>
    obtain ⟨k', v⟩ := m
    obtain ⟨hnot, hrest⟩ := List.nodup_cons.mp hd
    rw [lookup_cons_ite, present, List.filterMap_cons]
    cases v with
    | none =>
      change (present rest).lookup k = _
      rw [ih hrest]
      split
      · next heq =>
        subst heq
        rw [lookup_of_notMem hnot]
        rfl
      · rfl
    | some j =>
      change ((k', j) :: present rest).lookup k = _
      rw [lookup_cons_ite, ih hrest]
      split <;> rfl

end GameIngress.Json
