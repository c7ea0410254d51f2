import GameIngress.Dispatch.Slots
import Mathlib.Data.Multiset.Filter

/-!
# Outstanding calls

A call is outstanding from the moment it is queued until somebody looks at how it ended. Queueing
adds one call, looking takes one away, and nothing else changes which calls are outstanding.
-/
namespace GameIngress.Dispatch
namespace Slots

/-- Calls that have not ended, those that have a slot first. -/
def unfinished (s : Slots) : List Call := s.running ++ s.waiting

/-- Calls that were queued and not looked at since. -/
def outstanding (s : Slots) : Multiset Call := ↑(s.ended.map (·.1)) + ↑s.unfinished

/-- Calls that were queued after the first `n` and have not ended, in the order of their queueing.
-/
def queuedSince (n : Nat) (s : Slots) : List Call := s.unfinished.filter (n ≤ ·.id)

/-- Outstanding calls are numbered below the next number. -/
def Numbered (s : Slots) : Prop := ∀ c ∈ s.outstanding, c.id < s.queued

@[simp] theorem unfinished_fill (s : Slots) : s.fill.unfinished = s.unfinished := by
  simp [fill, unfinished]

@[simp] theorem outstanding_fill (s : Slots) : s.fill.outstanding = s.outstanding := by
  simp only [outstanding, unfinished_fill]
  rfl

@[simp] theorem unfinished_enqueue (o : Origin) (d : Delivery) (s : Slots) :
    (s.enqueue o d).unfinished = s.unfinished ++ [⟨s.queued, o, d⟩] := by
  rw [enqueue, unfinished_fill]
  simp only [unfinished, List.append_assoc]

@[simp] theorem ended_enqueue (o : Origin) (d : Delivery) (s : Slots) :
    (s.enqueue o d).ended = s.ended := rfl

@[simp] theorem queued_enqueue (o : Origin) (d : Delivery) (s : Slots) :
    (s.enqueue o d).queued = s.queued + 1 := rfl

@[simp] theorem outstanding_enqueue (o : Origin) (d : Delivery) (s : Slots) :
    (s.enqueue o d).outstanding = ⟨s.queued, o, d⟩ ::ₘ s.outstanding := by
  have hcall : ((s.unfinished ++ [⟨s.queued, o, d⟩] : List Call) : Multiset Call)
      = ⟨s.queued, o, d⟩ ::ₘ ↑s.unfinished := by
    rw [Multiset.cons_coe, Multiset.coe_eq_coe]
    exact List.perm_append_singleton _ _
  rw [outstanding, unfinished_enqueue, ended_enqueue, hcall, Multiset.add_cons]
  rfl

theorem running_split (id : Nat) (s : Slots) :
    ((s.running.filter (·.id = id) : List Call) : Multiset Call) +
      ↑(s.running.filter (·.id ≠ id)) = ↑s.running := by
  rw [Multiset.coe_add, Multiset.coe_eq_coe]
  simpa using List.filter_append_perm (fun c : Call => decide (c.id = id)) s.running

@[simp] theorem outstanding_settle (id : Nat) (r : CallResult) (s : Slots) :
    (s.settle id r).outstanding = s.outstanding := by
  rw [settle, outstanding_fill]
  simp only [outstanding, unfinished, List.map_append, List.map_map, Function.comp_def,
    List.map_id', ← Multiset.coe_add]
  rw [← s.running_split id]
  simp only [Multiset.add_assoc]

section Join
variable {s s' : Slots} {c : Call} {o : Outcome}

theorem ended_of_join (h : s.join = some ((c, o), s')) : s.ended = (c, o) :: s'.ended := by
  unfold join at h
  cases he : s.ended with
  | nil => simp [he] at h
  | cons e rest =>
    simp only [he, Option.some.injEq, Prod.mk.injEq] at h
    obtain ⟨rfl, rfl⟩ := h
    rfl

theorem unfinished_of_join (h : s.join = some ((c, o), s')) : s'.unfinished = s.unfinished := by
  unfold join at h
  split at h
  · cases h
  · cases h; rfl

theorem queued_of_join (h : s.join = some ((c, o), s')) : s'.queued = s.queued := by
  unfold join at h
  split at h
  · cases h
  · cases h; rfl

theorem seats_of_join (h : s.join = some ((c, o), s')) :
    s'.running = s.running ∧ s'.waiting = s.waiting ∧ s'.size = s.size := by
  unfold join at h
  split at h
  · cases h
  · cases h
    exact ⟨rfl, rfl, rfl⟩

theorem outstanding_of_join (h : s.join = some ((c, o), s')) :
    s.outstanding = c ::ₘ s'.outstanding := by
  rw [outstanding, ended_of_join h, ← unfinished_of_join h, List.map_cons, ← Multiset.cons_coe,
    Multiset.cons_add]
  rfl

theorem mem_outstanding_of_join (h : s.join = some ((c, o), s')) : c ∈ s.outstanding := by
  rw [outstanding_of_join h]
  exact Multiset.mem_cons_self c _

end Join

namespace Numbered

theorem enqueue {s : Slots} (h : s.Numbered) (o : Origin) (d : Delivery) :
    (s.enqueue o d).Numbered := by
  intro c hc
  rw [outstanding_enqueue, Multiset.mem_cons] at hc
  rw [queued_enqueue]
  rcases hc with rfl | hc
  · exact Nat.lt_succ_self _
  · exact (h c hc).trans (Nat.lt_succ_self _)

theorem settle {s : Slots} (h : s.Numbered) (id : Nat) (r : CallResult) :
    (s.settle id r).Numbered := by
  intro c hc
  rw [outstanding_settle] at hc
  exact h c hc

theorem join {s s' : Slots} {c : Call} {o : Outcome} (h : s.Numbered)
    (hj : s.join = some ((c, o), s')) : s'.Numbered := by
  intro x hx
  rw [queued_of_join hj]
  exact h x (outstanding_of_join hj ▸ Multiset.mem_cons_of_mem hx)

theorem queuedSince_eq_nil {s : Slots} (h : s.Numbered) : s.queuedSince s.queued = [] := by
  rw [queuedSince, List.filter_eq_nil_iff]
  intro c hc
  have hlt := h c (Multiset.mem_add.mpr (.inr hc))
  simpa using hlt

end Numbered

/-- The calls of `new` were queued, and nothing else happened but that some calls got a slot. -/
structure Appends (new : List Call) (s s' : Slots) : Prop where
  ended : s'.ended = s.ended
  unfinished : s'.unfinished = s.unfinished ++ new
  ids : new.map (·.id) = List.range' s.queued new.length
  queued : s'.queued = s.queued + new.length

namespace Appends

variable {s t u : Slots} {new more : List Call}

theorem of_eq (h : t = s) : Appends [] s t := by
  rw [h]
  exact ⟨rfl, (List.append_nil _).symm, rfl, rfl⟩

theorem of_enqueue {o : Origin} {d : Delivery} (h : t = s.enqueue o d) :
    Appends [⟨s.queued, o, d⟩] s t := by
  rw [h]
  exact ⟨rfl, unfinished_enqueue o d s, rfl, rfl⟩

theorem trans (h : Appends new s t) (h' : Appends more t u) : Appends (new ++ more) s u where
  ended := h'.ended.trans h.ended
  unfinished := by rw [h'.unfinished, h.unfinished, List.append_assoc]
  ids := by
    rw [List.map_append, h.ids, h'.ids, h.queued, List.length_append]
    exact List.range'_append_1
  queued := by rw [h'.queued, h.queued, List.length_append, Nat.add_assoc]

theorem le_id (h : Appends new s t) {c : Call} (hc : c ∈ new) : s.queued ≤ c.id := by
  have hid : c.id ∈ new.map (·.id) := List.mem_map_of_mem hc
  rw [h.ids, List.mem_range'_1] at hid
  exact hid.1

theorem outstanding (h : Appends new s t) : t.outstanding = s.outstanding + ↑new := by
  rw [Slots.outstanding, Slots.outstanding, h.ended, h.unfinished, ← Multiset.coe_add,
    Multiset.add_assoc]

theorem queuedSince (h : Appends new s t) (hs : s.Numbered) : t.queuedSince s.queued = new := by
  have hold := hs.queuedSince_eq_nil
  have hnew : new.filter (s.queued ≤ ·.id) = new := by
    rw [List.filter_eq_self]
    intro c hc
    exact decide_eq_true (h.le_id hc)
  unfold Slots.queuedSince at hold ⊢
  rw [h.unfinished, List.filter_append, hold, hnew, List.nil_append]

end Appends

/-- No more calls run than there are slots, and whenever a call waits, all slots are taken. -/
structure Packed (s : Slots) : Prop where
  room : 0 < s.size
  fits : s.running.length ≤ s.size
  full : s.waiting = [] ∨ s.running.length = s.size

namespace Packed

variable {s : Slots}

theorem fill (hroom : 0 < s.size) (hfits : s.running.length ≤ s.size) : s.fill.Packed where
  room := hroom
  fits := length_running_fill s hfits
  full := waiting_fill s hfits

theorem enqueue (h : s.Packed) (o : Origin) (d : Delivery) : (s.enqueue o d).Packed :=
  .fill h.room h.fits

theorem settle (h : s.Packed) (id : Nat) (r : CallResult) : (s.settle id r).Packed :=
  .fill h.room ((List.length_filter_le _ _).trans h.fits)

theorem join (h : s.Packed) {s' : Slots} {c : Call} {o : Outcome}
    (hj : s.join = some ((c, o), s')) : s'.Packed := by
  unfold Slots.join at hj
  split at hj
  · cases hj
  · cases hj
    exact ⟨h.room, h.fits, h.full⟩

theorem running_eq (h : s.Packed) : s.running = s.unfinished.take s.size := by
  rcases h.full with hw | hfull
  · rw [unfinished, hw, List.append_nil, List.take_of_length_le h.fits]
  · rw [unfinished, ← hfull, List.take_left]

theorem waiting_eq (h : s.Packed) : s.waiting = s.unfinished.drop s.size := by
  rcases h.full with hw | hfull
  · rw [unfinished, hw, List.append_nil, List.drop_of_length_le h.fits]
  · rw [unfinished, ← hfull, List.drop_left]

/-- Where calls are queued, those that have a slot keep it, and the free slots go to the first of
the others. -/
theorem seats_of_appends (h : s.Packed) {s' : Slots} {new : List Call} (ha : Appends new s s')
    (h' : s'.Packed) (hsize : s'.size = s.size) :
    ∃ seated, s'.running = s.running ++ seated ∧ s.waiting ++ new = seated ++ s'.waiting := by
  refine ⟨new.take (s.size - s.unfinished.length), ?_, ?_⟩
  · rw [h'.running_eq, h.running_eq, hsize, ha.unfinished, List.take_append]
  · rw [h'.waiting_eq, hsize, ha.unfinished, List.drop_append, ← h.waiting_eq]
    rcases h.full with hw | hfull
    · rw [hw, List.nil_append, List.nil_append, List.take_append_drop]
    · have hle : s.size ≤ s.unfinished.length := by
        rw [unfinished, List.length_append, hfull]
        exact Nat.le_add_right _ _
      rw [Nat.sub_eq_zero_of_le hle, List.take_zero, List.drop_zero, List.nil_append]

theorem isIdle (h : s.Packed) (hr : s.running = []) (he : s.ended = []) : s.isIdle = true := by
  have hw : s.waiting = [] := by
    rcases h.full with hw | hfull
    · exact hw
    · have hroom := h.room
      rw [hr, List.length_nil] at hfull
      omega
  simp [Slots.isIdle, hr, hw, he]

end Packed

theorem seats_of_settle (s : Slots) (id : Nat) (r : CallResult) :
    ∃ seated, (s.settle id r).running = s.running.filter (·.id ≠ id) ++ seated ∧
      s.waiting = seated ++ (s.settle id r).waiting :=
  ⟨_, rfl, (List.take_append_drop _ _).symm⟩

end Slots
end GameIngress.Dispatch
