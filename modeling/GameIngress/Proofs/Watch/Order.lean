import GameIngress.Proofs.Watch.Cache

/-!
# The order of events

A watch shows lists, and between them single changes. Single changes are cached at once and the
parts of a list only when it is complete, so while a list is shown the cache falls behind, and this
is the only time when it does.
-/
namespace GameIngress.Watch

variable {α : Type} {key : α → Key} {k : Key} {n : Nat} {a : α} {e : Event α}
  {es : List (Event α)}

/-- Whether a list is under way after the event, if `before` tells whether one was before. -/
def Event.opens (before : Bool) : Event α → Bool
  | .init => true
  | .initDone => false
  | .initApply _ | .apply _ | .delete _ => before

/-- Whether a list is under way after the events. -/
def listing (es : List (Event α)) : Bool := es.foldl Event.opens false

/-- The parts and the end of a list come while it is under way, single changes while none is. A list
may be begun anew. -/
def Event.Fits (listing : Bool) : Event α → Prop
  | .init => True
  | .initApply _ | .initDone => listing = true
  | .apply _ | .delete _ => listing = false

def Orderly (es : List (Event α)) : Prop :=
  ∀ (n : Nat) (e : Event α), es[n]? = some e → e.Fits (listing (es.take n))

theorem getElem?_concat_cases {e' : Event α} (h : (es ++ [e])[n]? = some e') :
    es[n]? = some e' ∨ n = es.length ∧ e' = e := by
  rw [List.getElem?_append] at h
  split at h
  · exact .inl h
  · next hn =>
    obtain ⟨hzero, heq⟩ := List.getElem?_eq_some_iff.mp h
    rw [List.length_singleton] at hzero
    refine .inr ⟨by omega, ?_⟩
    rw [← heq, List.getElem_singleton]

theorem listing_concat : listing (es ++ [e]) = e.opens (listing es) := by
  rw [listing, List.foldl_append]
  rfl

namespace Orderly

theorem take (h : Orderly es) (n : Nat) : Orderly (es.take n) := by
  intro m e he
  obtain ⟨hm, -⟩ := List.getElem?_eq_some_iff.mp he
  rw [List.length_take] at hm
  rw [List.getElem?_take_of_lt (by omega)] at he
  rw [List.take_take, Nat.min_eq_left (by omega)]
  exact h m e he

theorem left (h : Orderly (es ++ [e])) : Orderly es := by
  have htake := h.take es.length
  rwa [List.take_left] at htake

theorem last (h : Orderly (es ++ [e])) : e.Fits (listing es) := by
  have hlast := h es.length e List.getElem?_concat_length
  rwa [List.take_left] at hlast

theorem nil : Orderly ([] : List (Event α)) := fun _ _ he => by cases he

theorem concat (h : Orderly es) (he : e.Fits (listing es)) : Orderly (es ++ [e]) := by
  intro n e' hn
  rcases getElem?_concat_cases hn with hn | ⟨rfl, rfl⟩
  · rw [List.take_append_of_le_length (Nat.le_of_lt (List.getElem?_eq_some_iff.mp hn).1)]
    exact h n e' hn
  · rwa [List.take_left]

end Orderly

namespace Cache

theorem buffer_of_not_listing (ho : Orderly es) (hl : listing es = false) :
    (replay key es).buffer = [] := by
  induction es using List.reverseRecOn with
  | nil => rfl
  | append_singleton es e ih =>
    rw [listing_concat] at hl
    rw [replay_concat]
    cases e with
    | init | initDone => rfl
    | initApply a => cases hl.symm.trans ho.last
    | apply a | delete a => exact ih ho.left hl

section Source
variable {serial : α → Nat}

/-- The object is that of the event whose number it carries. -/
def Shown (serial : α → Nat) (es : List (Event α)) (a : α) : Prop :=
  es[serial a]? = some (.initApply a) ∨ es[serial a]? = some (.apply a)

theorem Shown.lt (h : Shown serial es a) : serial a < es.length := by
  rcases h with h | h <;> exact (List.getElem?_eq_some_iff.mp h).1

variable (hserial : ∀ n e a, es[n]? = some e → e.object? = some a → serial a = n)

include hserial in
theorem shown_of_mem :
    (∀ e ∈ (replay key es).store, Shown serial es e.2) ∧
      ∀ e ∈ (replay key es).buffer, Shown serial es e.2 := by
  refine forall_replay fun a ha => ?_
  rcases ha with ha | ha
  · obtain ⟨n, hn⟩ := List.mem_iff_getElem?.mp ha
    exact .inl ((hserial n _ a hn rfl).symm ▸ hn)
  · obtain ⟨n, hn⟩ := List.mem_iff_getElem?.mp ha
    exact .inr ((hserial n _ a hn rfl).symm ▸ hn)

include hserial in
theorem shown_of_get? (h : (replay key es).get? k = some a) : Shown serial es a :=
  (shown_of_mem hserial).1 _ (Assoc.mem_of_get? h)

end Source

/-- The event `n` is a part of a list that is not complete yet. -/
def Listed (n : Nat) (es : List (Event α)) : Prop :=
  (∃ a, es[n]? = some (.initApply a)) ∧ ∀ e ∈ es.drop (n + 1), e ≠ .initDone

theorem Listed.lt (h : Listed n es) : n < es.length := by
  obtain ⟨⟨a, ha⟩, -⟩ := h
  exact (List.getElem?_eq_some_iff.mp ha).1

theorem Listed.concat (h : Listed n es) (he : e ≠ .initDone) : Listed n (es ++ [e]) := by
  have hn := h.lt
  obtain ⟨⟨a, ha⟩, hdone⟩ := h
  refine ⟨⟨a, by rw [List.getElem?_append_left hn, ha]⟩, fun e' he' => ?_⟩
  rw [List.drop_append_of_le_length hn] at he'
  rcases List.mem_append.mp he' with he' | he'
  · exact hdone e' he'
  · exact List.mem_singleton.mp he' ▸ he

theorem listed_concat_self (a : α) : Listed es.length (es ++ [.initApply a]) := by
  refine ⟨⟨a, List.getElem?_concat_length⟩, fun e he => ?_⟩
  rw [List.drop_eq_nil_of_le (by simp)] at he
  cases he

theorem Listed.left (h : Listed n (es ++ [e])) (hn : n < es.length) :
    Listed n es ∧ e ≠ .initDone := by
  obtain ⟨⟨a, ha⟩, hdone⟩ := h
  rw [List.getElem?_append_left hn] at ha
  rw [List.drop_append_of_le_length hn] at hdone
  exact ⟨⟨⟨a, ha⟩, fun e' he' => hdone e' (List.mem_append_left _ he')⟩,
    hdone e (List.mem_append_right _ (List.mem_singleton_self e))⟩

theorem Listed.store (h : Listed n es) (ho : Orderly es) :
    listing es = true ∧ (replay key es).store = (replay key (es.take n)).store := by
  induction es using List.reverseRecOn with
  | nil => exact absurd h.lt (Nat.not_lt_zero n)
  | append_singleton es e ih =>
    rw [listing_concat, replay_concat]
    rcases Nat.lt_or_ge n es.length with hlt | hge
    · obtain ⟨hleft, hdone⟩ := h.left hlt
      obtain ⟨hl, hstore⟩ := ih hleft ho.left
      rw [List.take_append_of_le_length (Nat.le_of_lt hlt), ← hstore]
      cases e with
      | init => exact ⟨rfl, rfl⟩
      | initApply a => exact ⟨hl, rfl⟩
      | initDone => exact absurd rfl hdone
      | apply a | delete a => cases hl.symm.trans ho.last
    · have hn : n = es.length := by
        have hlt := h.lt
        rw [List.length_append, List.length_singleton] at hlt
        omega
      subst hn
      obtain ⟨⟨a, ha⟩, -⟩ := h
      rw [List.getElem?_concat_length] at ha
      cases ha
      rw [List.take_left]
      exact ⟨ho.last, rfl⟩

section Newest
variable {serial : α → Nat}

/-- No later event was about the object `k`, except for parts of a list that is not complete. -/
def Newest (key : α → Key) (serial : α → Nat) (k : Key) (es : List (Event α)) (a : α) : Prop :=
  ∀ n e, es[n]? = some e → Concerns key k e → n ≤ serial a ∨ Listed n es

theorem Newest.concat (h : Newest key serial k es a) (he : e ≠ .initDone)
    (hnew : Concerns key k e → Listed es.length (es ++ [e])) :
    Newest key serial k (es ++ [e]) a := by
  intro n e' hn hk
  rcases getElem?_concat_cases hn with hn | ⟨rfl, rfl⟩
  · exact (h n e' hn hk).imp_right fun hl => hl.concat he
  · exact .inr (hnew hk)

theorem newest_self {b : α} (hb : serial b = es.length) :
    Newest key serial k (es ++ [e]) b := by
  intro n e' hn _
  obtain ⟨hlt, -⟩ := List.getElem?_eq_some_iff.mp hn
  rw [List.length_append, List.length_singleton] at hlt
  exact .inl (by omega)

variable (hserial : ∀ n e a, es[n]? = some e → e.object? = some a → serial a = n)

include hserial in
/-- What is cached is the latest that was published; and while a list is under way, what was shown
of it is the latest of all. -/
theorem newest_replay (ho : Orderly es) :
    (∀ a, (replay key es).get? k = some a → Newest key serial k es a) ∧
    (listing es = true → ∀ a, (replay key es).buffer.get? k = some a →
      ∀ n e, es[n]? = some e → Concerns key k e → n ≤ serial a) := by
  induction es using List.reverseRecOn with
  | nil => exact ⟨fun a h => (by cases h), fun h => (by cases h)⟩
  | append_singleton es e ih =>
    obtain ⟨hstore, hbuffer⟩ := ih (fun n e' b he' =>
      hserial n e' b (List.getElem?_append_left (List.getElem?_eq_some_iff.mp he').1 ▸ he')) ho.left
    have hlast : (es ++ [e])[es.length]? = some e := List.getElem?_concat_length
    have hother : ∀ {b}, e.object? = some b → key b ≠ k → ¬ Concerns key k e := by
      rintro b hb hne ⟨b', hb', hk⟩
      cases hb.symm.trans hb'
      exact hne hk
    rw [replay_concat, listing_concat]
    cases e with
    | init =>
      refine ⟨fun a ha => (hstore a ha).concat (fun h => by cases h) ?_, fun _ a ha => by cases ha⟩
      rintro ⟨b, hb, -⟩
      cases hb
    | initApply b =>
      refine ⟨fun a ha => (hstore a ha).concat (fun h => by cases h) fun _ =>
        listed_concat_self b, ?_⟩
      intro hl a ha n e' hn hk
      change (Assoc.set (key b) b (replay key es).buffer).get? k = some a at ha
      rw [Assoc.get?_set] at ha
      split at ha
      · cases ha
        have hb := hserial _ _ b hlast rfl
        obtain ⟨hlt, -⟩ := List.getElem?_eq_some_iff.mp hn
        rw [List.length_append, List.length_singleton] at hlt
        omega
      · next hne =>
        rcases getElem?_concat_cases hn with hn | ⟨rfl, rfl⟩
        · exact hbuffer hl a ha n e' hn hk
        · exact absurd hk (hother rfl hne)
    | initDone =>
      refine ⟨fun a ha n e' hn hk => ?_, fun hl => by cases hl⟩
      rcases getElem?_concat_cases hn with hn | ⟨rfl, rfl⟩
      · exact .inl (hbuffer ho.last a ha n e' hn hk)
      · obtain ⟨b, hb, -⟩ := hk
        cases hb
    | apply b =>
      refine ⟨fun a ha => ?_, fun hl => by cases hl.symm.trans ho.last⟩
      change (Assoc.set (key b) b (replay key es).store).get? k = some a at ha
      rw [Assoc.get?_set] at ha
      split at ha
      · cases ha
        exact newest_self (hserial _ _ b hlast rfl)
      · next hne =>
        exact (hstore a ha).concat (fun h => by cases h) fun hk => absurd hk (hother rfl hne)
    | delete b =>
      refine ⟨fun a ha => ?_, fun hl => by cases hl.symm.trans ho.last⟩
      change (Assoc.erase (key b) (replay key es).store).get? k = some a at ha
      rw [Assoc.get?_erase] at ha
      split at ha
      · cases ha
      · next hne =>
        exact (hstore a ha).concat (fun h => by cases h) fun hk => absurd hk (hother rfl hne)

end Newest

def Shows (key : α → Key) (k : Key) (e : Event α) : Prop :=
  ∃ a, (e = .initApply a ∨ e = .apply a) ∧ key a = k

/-- The object `k` was deleted and not shown since. -/
def Gone (key : α → Key) (k : Key) (es : List (Event α)) : Prop :=
  ∃ n a, es[n]? = some (.delete a) ∧ key a = k ∧ ∀ e ∈ es.drop (n + 1), ¬ Shows key k e

theorem gone_concat (h : Gone key k (es ++ [e])) :
    (∃ a, e = .delete a ∧ key a = k) ∨ Gone key k es ∧ ¬ Shows key k e := by
  obtain ⟨n, a, hn, hk, hsince⟩ := h
  rcases getElem?_concat_cases hn with hn | ⟨-, rfl⟩
  · have hlt := (List.getElem?_eq_some_iff.mp hn).1
    rw [List.drop_append_of_le_length hlt] at hsince
    exact .inr ⟨⟨n, a, hn, hk, fun e' he' => hsince e' (List.mem_append_left _ he')⟩,
      hsince e (List.mem_append_right _ (List.mem_singleton_self e))⟩
  · exact .inl ⟨a, rfl, hk⟩

theorem Gone.uncached (h : Gone key k es) (ho : Orderly es) :
    (replay key es).get? k = none ∧ (replay key es).buffer.get? k = none := by
  induction es using List.reverseRecOn with
  | nil =>
    obtain ⟨n, a, hn, -⟩ := h
    cases hn
  | append_singleton es e ih =>
    rw [replay_concat]
    rcases gone_concat h with ⟨a, rfl, hk⟩ | ⟨hgone, hshows⟩
    · refine ⟨?_, ?_⟩
      · change (Assoc.erase (key a) (replay key es).store).get? k = none
        rw [Assoc.get?_erase, if_pos hk]
      · change (replay key es).buffer.get? k = none
        rw [buffer_of_not_listing ho.left ho.last]
        rfl
    · obtain ⟨hstore, hbuffer⟩ := ih hgone ho.left
      cases e with
      | init => exact ⟨hstore, rfl⟩
      | initApply b =>
        refine ⟨hstore, ?_⟩
        change (Assoc.set (key b) b (replay key es).buffer).get? k = none
        rw [Assoc.get?_set, if_neg fun hk => hshows ⟨b, .inl rfl, hk⟩, hbuffer]
      | initDone => exact ⟨hbuffer, rfl⟩
      | apply b =>
        refine ⟨?_, hbuffer⟩
        change (Assoc.set (key b) b (replay key es).store).get? k = none
        rw [Assoc.get?_set, if_neg fun hk => hshows ⟨b, .inr rfl, hk⟩]
        exact hstore
      | delete b =>
        refine ⟨?_, hbuffer⟩
        change (Assoc.erase (key b) (replay key es).store).get? k = none
        rw [Assoc.get?_erase]
        split
        · rfl
        · exact hstore

end Cache
end GameIngress.Watch
