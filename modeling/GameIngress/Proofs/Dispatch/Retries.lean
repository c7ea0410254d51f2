import GameIngress.Proofs.Dispatch.Faithful

/-!
# Which failures are retried

A call that failed is tried again if its game server is still cached. What is cached lags behind
what was delivered: the parts of a list are delivered one by one and cached together, when the list
is complete. So a call for a part of a list can fail before the game server is cached.
-/
namespace GameIngress.Dispatch

open Watch (Key Cache)

/-- How many events had been taken when the delivery was made that the call is for. -/
def Spawning.since (x : Spawning) : Nat :=
  if x.call.origin = .watch then x.call.delivery.subject.serial + 1 else x.after

namespace Chronicle

variable {c : Settings} {h h' : Chronicle} {taken : List (Watch.Event Sighting)} {new : List Call}
  {x : Spawning} {d : Delivery} {k : Key} {n : Nat}

/-- No event was about the game server `k` since the first `n` events. -/
def Silent (k : Key) (n : Nat) (h : Chronicle) : Prop :=
  ∀ e ∈ h.shown.drop n, ¬ Cache.Concerns Sighting.key k e

/-- The game server `k` was deleted, or a list without it completed, since the first `n` events. -/
def Dropped (k : Key) (n : Nat) (h : Chronicle) : Prop :=
  Cache.DropsSince Sighting.key k n h.shown

section Silent

theorem silent_of_length_le (hn : h.shown.length ≤ n) : Silent k n h := by
  intro e he
  rw [List.drop_eq_nil_of_le hn] at he
  cases he

theorem silent_same (ha : Adds [] new h h') : Silent k n h' ↔ Silent k n h := by
  rw [Silent, ha.shown, List.append_nil, Silent]

theorem Silent.before {e : Watch.Event Sighting} (hs : Silent k n h') (ha : Adds [e] new h h') :
    Silent k n h := by
  intro e' he'
  refine hs e' ?_
  rw [ha.shown, List.drop_append]
  exact List.mem_append_left _ he'

theorem Silent.concat {e : Watch.Event Sighting} (hs : Silent k n h) (ha : Adds [e] new h h')
    (he : ¬ Cache.Concerns Sighting.key k e) : Silent k n h' := by
  intro e' he'
  rw [ha.shown, List.drop_append] at he'
  rcases List.mem_append.mp he' with he' | he'
  · exact hs e' he'
  · rw [List.mem_singleton.mp (List.mem_of_mem_drop he')]
    exact he

theorem not_silent_concat {e : Watch.Event Sighting} (hn : n ≤ h.shown.length)
    (ha : Adds [e] new h h') (he : Cache.Concerns Sighting.key k e) : ¬ Silent k n h' := by
  intro hs
  refine hs e ?_ he
  rw [ha.shown, List.drop_append_of_le_length hn]
  exact List.mem_append_right _ (List.mem_singleton_self e)

theorem Dropped.mono (hd : Dropped k n h) (ha : Adds taken new h h')
    (htaken : taken = [] ∨ ∃ e, taken = [e]) : Dropped k n h' := by
  rw [Dropped, ha.shown]
  rcases htaken with rfl | ⟨e, rfl⟩
  · rw [List.append_nil]
    exact hd
  · exact hd.concat

theorem not_concerns {cache : Dispatch.Cache} {e : Watch.Event Sighting}
    (hd : Delivery.ofEvent? cache e = some d) (hk : d.key ≠ k) :
    ¬ Cache.Concerns Sighting.key k e := by
  rintro ⟨s, hs, hkey⟩
  rw [Delivery.object?_of_ofEvent? hd] at hs
  cases hs
  exact hk hkey

end Silent

/-- What is put off is the last word about its game server. -/
def Latest (h : Chronicle) : Prop :=
  ∀ k d, h.pending? k = some d → Silent k (d.subject.serial + 1) h

/-- Nothing is put off behind the call if nothing was said since its delivery; and if anything was
said, then something is, unless the game server was dropped. -/
structure Attended (x : Spawning) (h : Chronicle) : Prop where
  of_silent : Silent x.call.delivery.key x.since h → h.pending? x.call.delivery.key = none
  of_none : h.pending? x.call.delivery.key = none →
    Silent x.call.delivery.key x.since h ∨ Dropped x.call.delivery.key x.since h

namespace Faithful

theorem latest_step (hf : h.Faithful) (hn : h.Next h') (hl : h.Latest) : h'.Latest := by
  have hf' := hf.step hn
  intro k d hd
  cases hf.effect hn with
  | quiet ha _ _ hp => exact (silent_same ha).mpr (hl k d (hp k ▸ hd))
  | @noted e ha he hp =>
    refine (hl k d (hp k ▸ hd)).concat ha ?_
    rintro ⟨s, hs, -⟩
    rw [he] at hs
    cases hs
  | handed ha _ hd' hp =>
    rw [hp] at hd
    split at hd
    · cases hd
    · next hk => exact (hl k d hd).concat ha (not_concerns hd' hk)
  | held ha hd' _ hp =>
    rw [hp] at hd
    split at hd
    · cases hd
      have hserial := hf'.serial_eq ((delivery?_length hf ha).trans hd')
      refine silent_of_length_le ?_
      rw [hserial, ha.shown, List.length_append, List.length_singleton]
    · next hk => exact (hl k d hd).concat ha (not_concerns hd' hk)
  | resumed ha _ _ hp =>
    rw [hp] at hd
    split at hd
    · cases hd
    · exact (silent_same ha).mpr (hl k d hd)

theorem since_le (hf : h.Faithful) (hx : x ∈ h.spawned) : x.since ≤ h.shown.length := by
  unfold Spawning.since
  split
  · next ho => exact lt_of_delivery? (hf.watched x hx ho)
  · next ho => exact (hf.unwatched x hx ho).2.1

theorem eq_of_outstanding (hf : h.Faithful) {y z : Call} (hy : y ∈ h.slots.outstanding)
    (hz : z ∈ h.slots.outstanding) (hdy : y.delivery.isDelete = false)
    (hdz : z.delivery.isDelete = false) (hk : y.delivery.key = z.delivery.key) : y = z := by
  obtain ⟨hone, -⟩ := hf.coherent.running_of_outstanding hy hdy
  have hmem : z ∈ (h.dispatcher.queue.profile y.delivery.key).calls :=
    Multiset.mem_filter.mpr ⟨hz, hdz, hk.symm⟩
  rw [hone] at hmem
  exact (Multiset.mem_singleton.mp hmem).symm

theorem notMem_new (hf : h.Faithful) (ha : Adds taken new h h') (hx : x ∈ h.spawned) :
    x.call ∉ new := by
  intro hnew
  have hold : x.call.id ∈ List.range h.slots.queued := hf.ids ▸ List.mem_map_of_mem hx
  have hid : x.call.id ∈ List.range' h.slots.queued new.length := ha.ids ▸ List.mem_map_of_mem hnew
  rw [List.mem_range] at hold
  rw [List.mem_range'_1] at hid
  omega

theorem outstanding_of_adds (hf : h.Faithful) (ha : Adds taken new h h') (hx : x ∈ h.spawned)
    (hout : x.call ∈ h'.slots.outstanding) : x.call ∈ h.slots.outstanding := by
  rcases Multiset.mem_add.mp (Multiset.mem_of_le ha.outstanding hout) with hold | hnew
  · exact hold
  · exact absurd hnew (hf.notMem_new ha hx)

end Faithful

namespace Attended

theorem same (hs : Attended x h) (ha : Adds [] new h h')
    (hp : h'.pending? x.call.delivery.key = h.pending? x.call.delivery.key) : Attended x h' where
  of_silent hq := hp ▸ hs.of_silent ((silent_same ha).mp hq)
  of_none hq := (hs.of_none (hp ▸ hq)).imp (silent_same ha).mpr fun hd => hd.mono ha (.inl rfl)

theorem concat (hs : Attended x h) {e : Watch.Event Sighting} (ha : Adds [e] new h h')
    (he : ¬ Cache.Concerns Sighting.key x.call.delivery.key e)
    (hp : h'.pending? x.call.delivery.key = h.pending? x.call.delivery.key) : Attended x h' where
  of_silent hq := hp ▸ hs.of_silent (hq.before ha)
  of_none hq :=
    (hs.of_none (hp ▸ hq)).imp (fun hq => hq.concat ha he) fun hd => hd.mono ha (.inr ⟨e, rfl⟩)

theorem fresh (hs : Silent x.call.delivery.key x.since h)
    (hp : h.pending? x.call.delivery.key = none) : Attended x h :=
  ⟨fun _ => hp, fun _ => .inl hs⟩

end Attended

theorem Attended.step (hs : Attended x h) (hf : h.Faithful) (hn : h.Next h')
    (hx : x ∈ h.spawned) (hout : x.call ∈ h'.slots.outstanding)
    (hd : x.call.delivery.isDelete = false) : Attended x h' := by
  have hf' := hf.step hn
  have hother : ∀ {taken y}, Adds taken [y] h h' → y.delivery.isDelete = false →
      y.delivery.key ≠ x.call.delivery.key := by
    intro taken y ha hdy hk
    have hy : y ∈ h'.slots.outstanding :=
      Multiset.mem_of_le ha.added (Multiset.mem_coe.mpr (List.mem_singleton_self y))
    have heq := hf'.eq_of_outstanding hy hout hdy hd hk
    exact hf.notMem_new ha hx (heq ▸ List.mem_singleton_self y)
  cases hf.effect hn with
  | quiet ha _ _ hp => exact hs.same ha (hp _)
  | noted ha he hp =>
    refine hs.concat ha ?_ (hp _)
    rintro ⟨s, hobject, -⟩
    rw [he] at hobject
    cases hobject
  | @handed e y ha _ hd' hp =>
    by_cases hk : y.delivery.key = x.call.delivery.key
    · cases hdy : y.delivery.isDelete with
      | false => exact absurd hk (hother ha hdy)
      | true =>
        have he := Delivery.eq_delete_of_ofEvent? hd' hdy
        refine ⟨fun _ => by rw [hp, if_pos hk], fun _ => .inr ?_⟩
        rw [Dropped, ha.shown]
        refine Cache.dropsSince_concat_self (hf.since_le hx) ?_
        rw [he]
        exact hk
    · exact hs.concat ha (not_concerns hd' hk) (by rw [hp, if_neg hk])
  | @held e d ha hd' _ hp =>
    by_cases hk : d.key = x.call.delivery.key
    · have hloud : ¬ Silent x.call.delivery.key x.since h' :=
        not_silent_concat (hf.since_le hx) ha ⟨d.subject, Delivery.object?_of_ofEvent? hd', hk⟩
      refine ⟨fun hq => absurd hq hloud, fun hnone => ?_⟩
      rw [hp, if_pos hk] at hnone
      cases hnone
    · exact hs.concat ha (not_concerns hd' hk) (by rw [hp, if_neg hk])
  | @resumed y ha _ hput hp =>
    have hk := hother ha (hf.of_pending hput).2
    exact hs.same ha (by rw [hp, if_neg hk])

theorem Faithful.attended_step (hf : h.Faithful) (hl : h.Latest) (hn : h.Next h')
    (ih : ∀ x ∈ h.spawned, x.call ∈ h.slots.outstanding → x.call.delivery.isDelete = false →
      Attended x h)
    (hx : x ∈ h'.spawned) (hout : x.call ∈ h'.slots.outstanding)
    (hd : x.call.delivery.isDelete = false) : Attended x h' := by
  have hf' := hf.step hn
  have hold : ∀ {taken new}, Adds taken new h h' → x ∈ h.spawned → Attended x h' := by
    intro taken new ha hx
    exact (ih x hx (hf.outstanding_of_adds ha hx hout) hd).step hf hn hx hout hd
  cases hf.effect hn with
  | quiet ha hnew _ hp =>
    rcases Faithful.spawned_cases ha hx with hx | ⟨y, hy, rfl⟩
    · exact hold ha hx
    · obtain ⟨ho, -, -, hidle⟩ := hnew y hy
      refine .fresh (silent_of_length_le ?_) ((hp _).trans hidle)
      rw [Spawning.since, if_neg ho]
  | noted ha =>
    rcases Faithful.spawned_cases ha hx with hx | ⟨y, hy, rfl⟩
    · exact hold ha hx
    · cases hy
  | handed ha ho hd' hp =>
    rcases Faithful.spawned_cases ha hx with hx | ⟨y, hy, rfl⟩
    · exact hold ha hx
    · cases List.mem_singleton.mp hy
      refine .fresh (silent_of_length_le ?_) (by rw [hp, if_pos rfl])
      have hserial := hf'.serial_eq ((delivery?_length hf ha).trans hd')
      rw [Spawning.since, if_pos ho, hserial, ha.shown, List.length_append, List.length_singleton]
  | held ha =>
    rcases Faithful.spawned_cases ha hx with hx | ⟨y, hy, rfl⟩
    · exact hold ha hx
    · cases hy
  | resumed ha ho hput hp =>
    rcases Faithful.spawned_cases ha hx with hx | ⟨y, hy, rfl⟩
    · exact hold ha hx
    · cases List.mem_singleton.mp hy
      refine .fresh ?_ (by rw [hp, if_pos rfl])
      rw [Spawning.since, if_pos ho]
      exact (silent_same ha).mpr (hl _ _ hput)

theorem Reached.attended (hr : Reached c h) : h.Latest ∧ ∀ x ∈ h.spawned,
    x.call ∈ h.slots.outstanding → x.call.delivery.isDelete = false → Attended x h := by
  obtain ⟨d₀, hnew, hl⟩ := hr
  induction hl with
  | refl =>
    rw [Dispatcher.eq_of_new hnew]
    exact ⟨fun k d hd => (by cases hd), fun x hx => absurd hx List.not_mem_nil⟩
  | step hl hn ih =>
    have hf := Reached.faithful ⟨d₀, hnew, hl⟩
    exact ⟨hf.latest_step hn ih.1, fun x hx => hf.attended_step ih.1 hn ih.2 hx⟩

/-- The call is for a part of a list that is not complete yet, and its game server was neither
cached before nor heard of since. -/
structure Unpublished (x : Spawning) (h : Chronicle) : Prop where
  listed : x.call.origin = .watch ∧
    ∃ s, h.shown[x.call.delivery.subject.serial]? = some (.initApply s)
  uncached : (h.cacheAt x.call.delivery.subject.serial).get? x.call.delivery.key = none
  incomplete : ∀ e ∈ h.shown.drop (x.call.delivery.subject.serial + 1), e ≠ .initDone
  silent : Silent x.call.delivery.key (x.call.delivery.subject.serial + 1) h

section Cached

theorem cacheAt_succ {e : Watch.Event Sighting} (he : h.shown[n]? = some e) :
    h.cacheAt (n + 1) = (h.cacheAt n).observe Sighting.key e := by
  obtain ⟨hn, rfl⟩ := List.getElem?_eq_some_iff.mp he
  rw [cacheAt, List.take_add_one, he, Option.toList_some, Cache.replay_concat, cacheAt]

theorem Faithful.isSome_of_cacheAt (hf : h.Faithful) (hc : ((h.cacheAt n).get? k).isSome)
    (hd : ¬ Dropped k n h) : (h.dispatcher.cache.get? k).isSome := by
  rw [hf.cache]
  exact Cache.cached_of_not_dropsSince hc hd

theorem Faithful.get?_of_unpublished (hf : h.Faithful) (hu : Unpublished x h) :
    h.dispatcher.cache.get? x.call.delivery.key = none := by
  obtain ⟨-, s, hs⟩ := hu.listed
  rw [hf.cache, Cache.get?_replay_of_quiet fun e he => ⟨hu.silent e he, hu.incomplete e he⟩]
  change (h.cacheAt (x.call.delivery.subject.serial + 1)).get? _ = none
  rw [cacheAt_succ hs]
  exact hu.uncached

theorem isSome_of_initDone {m : Nat} (hm : h.shown[m]? = some .initDone) (hn : n ≤ m)
    (hd : ¬ Dropped k n h) : ((h.cacheAt (m + 1)).get? k).isSome := by
  rw [cacheAt_succ hm]
  refine Option.isSome_iff_ne_none.mpr fun hnone => hd ⟨m, .initDone, hn, hm, hnone⟩

theorem Dropped.weaken {m : Nat} (hd : Dropped k m h) (hn : n ≤ m) : Dropped k n h := by
  obtain ⟨i, e, hi, hrest⟩ := hd
  exact ⟨i, e, hn.trans hi, hrest⟩

/-- The game server of a call that heard nothing since is cached, unless it is unpublished. -/
theorem Faithful.isSome_of_silent (hf : h.Faithful) (hx : x ∈ h.spawned)
    (hdelete : x.call.delivery.isDelete = false) (hd : ¬ Dropped x.call.delivery.key x.since h)
    (hs : Silent x.call.delivery.key x.since h) (hu : ¬ Unpublished x h) :
    (h.dispatcher.cache.get? x.call.delivery.key).isSome := by
  by_cases ho : x.call.origin = .watch
  · rw [Spawning.since, if_pos ho] at hd hs
    obtain ⟨e, he, hdelivery⟩ := Option.bind_eq_some_iff.mp (hf.watched x hx ho)
    have hobject := Delivery.object?_of_ofEvent? hdelivery
    cases e with
    | init | initDone => cases hobject
    | delete s =>
      rw [← Option.some.inj hdelivery] at hdelete
      cases hdelete
    | apply s =>
      cases hobject
      refine hf.isSome_of_cacheAt (n := x.call.delivery.subject.serial + 1) ?_ hd
      rw [cacheAt_succ he]
      simp [Cache.get?, Cache.observe, Assoc.get?_set, Delivery.key]
    | initApply s =>
      by_cases hcached :
          (h.cacheAt x.call.delivery.subject.serial).get? x.call.delivery.key = none
      · have hdone : ∃ e ∈ h.shown.drop (x.call.delivery.subject.serial + 1), e = .initDone := by
          by_contra hnot
          refine hu ⟨⟨ho, s, he⟩, hcached, fun e he hdone => hnot ⟨e, he, hdone⟩, hs⟩
        obtain ⟨_, hmem, rfl⟩ := hdone
        obtain ⟨i, hi⟩ := List.mem_iff_getElem?.mp hmem
        rw [List.getElem?_drop] at hi
        have hle : x.call.delivery.subject.serial + 1 ≤ x.call.delivery.subject.serial + 1 + i :=
          Nat.le_add_right _ _
        exact hf.isSome_of_cacheAt (isSome_of_initDone hi hle hd)
          fun hdrop => hd (hdrop.weaken (hle.trans (Nat.le_succ _)))
      · refine hf.isSome_of_cacheAt (n := x.call.delivery.subject.serial + 1) ?_ hd
        rw [cacheAt_succ he]
        exact Option.isSome_iff_ne_none.mpr hcached
  · rw [Spawning.since, if_neg ho] at hd
    exact hf.isSome_of_cacheAt (Option.isSome_of_mem (hf.unwatched x hx ho).2.2) hd

end Cached

/-- The failure of a call that another attempt may mend, with its game server neither deleted nor
missing from a list since its delivery, looked at by a dispatcher that survives it: what was put off
has been started, or the game server waits for its timer, except if the call was for a part of a
list that is not complete yet, its game server was not cached before, and nothing was said about it
since. -/
theorem Reached.retried_iff (hr : Reached c h) (hx : x ∈ h.spawned) {e : Failure} {o : Outcome}
    {slots : Slots} (hj : h.slots.join = some ((x.call, o), slots))
    (hdelete : x.call.delivery.isDelete = false) (hretriable : e.isRetriable = true)
    (ho : o = Outcome.of x.call.delivery (.failed e))
    (hd : ¬ Dropped x.call.delivery.key x.since h) (now : Nat) :
    let q := { h.dispatcher.queue with slots }.finish now h.dispatcher.cache x.call o
    ((q.standing? x.call.delivery.key = some (.running none) ∧
        ∃ y ∈ q.slots.outstanding, h.pending? x.call.delivery.key = some y.delivery) ∨
      ∃ t ∈ q.timers, t.key = x.call.delivery.key ∧
        q.standing? x.call.delivery.key = some (.waiting t.id)) ↔
    ¬ Unpublished x h := by
  intro q
  have hf := hr.faithful
  have hretry : o = .retry e := by simp [ho, Outcome.of, hdelete, hretriable]
  have hout : x.call ∈ h.slots.outstanding := Slots.mem_outstanding_of_join hj
  have hattended := hr.attended.2 x hx hout hdelete
  have hstanding : h.pending? x.call.delivery.key = none → q.standing? x.call.delivery.key =
      (h.dispatcher.cache.get? x.call.delivery.key).map fun _ =>
        .waiting h.dispatcher.queue.armed := by
    intro hnone
    have hfinish := Queue.standing?_finish_retry hf.coherent (hretry ▸ hj) hdelete hnone now
      h.dispatcher.cache
    rwa [← hretry] at hfinish
  constructor
  · intro hbusy hu
    have hsince : x.since = x.call.delivery.subject.serial + 1 := if_pos hu.listed.1
    have hnone : h.pending? x.call.delivery.key = none := hattended.of_silent (hsince ▸ hu.silent)
    have hidle : q.standing? x.call.delivery.key = none := by
      rw [hstanding hnone, hf.get?_of_unpublished hu, Option.map_none]
    rcases hbusy with ⟨hrunning, -⟩ | ⟨t, -, -, hwaiting⟩
    · rw [hidle] at hrunning
      cases hrunning
    · rw [hidle] at hwaiting
      cases hwaiting
  · intro hu
    cases hp : h.pending? x.call.delivery.key with
    | some d =>
      have hkey := (hf.of_pending hp).1
      have hq : q = { h.dispatcher.queue with
          slots, standings := h.dispatcher.queue.standings.erase x.call.delivery.key }.start
            .watch d :=
        Queue.finish_of_pending hdelete hp now h.dispatcher.cache
      refine .inl ⟨?_, ⟨slots.queued, .watch, d⟩, ?_, rfl⟩
      · rw [hq, Queue.standing?_start, if_pos hkey]
      · rw [hq]
        simp [Queue.start, Queue.spawn]
    | none =>
      have hsilent := (hattended.of_none hp).resolve_right hd
      obtain ⟨s, hs⟩ := Option.isSome_iff_exists.mp (hf.isSome_of_silent hx hdelete hd hsilent hu)
      have hwaiting : q.standing? x.call.delivery.key =
          some (.waiting h.dispatcher.queue.armed) := by
        rw [hstanding hp, hs, Option.map_some]
      have hc : q.Coherent := hf.coherent.finish hj now h.dispatcher.cache
      obtain ⟨-, ⟨t, hone, hid⟩, -⟩ := hc.waiting hwaiting
      have ht : t ∈ (q.profile x.call.delivery.key).timers := by
        rw [hone]
        exact List.mem_singleton_self t
      refine .inr ⟨t, List.mem_of_mem_filter ht, by simpa using List.of_mem_filter ht, ?_⟩
      rw [hid, hwaiting]

/-- The addition of a game server fails before its list is complete: nothing is left of it. -/
theorem retry_lost_in_list : ∃ h x slots,
    ofInputs oneSlot [.watch .init, .watch (.initApply Queue.lone.gs),
      .settled 0 (.failed internalError) 7] = .ok h ∧
    x ∈ h.spawned ∧ x.call.delivery.isDelete = false ∧ internalError.isRetriable = true ∧
    h.slots.join = some ((x.call, .of x.call.delivery (.failed internalError)), slots) ∧
    ¬ Dropped x.call.delivery.key x.since h ∧
    (let q := { h.dispatcher.queue with slots }.finish 7 h.dispatcher.cache x.call
      (.of x.call.delivery (.failed internalError))
    q.standing? x.call.delivery.key = none ∧ q.timers = [] ∧ q.slots.outstanding = 0) := by
  refine ⟨_, _, _, rfl, List.mem_singleton_self _, rfl, rfl, rfl, ?_, rfl, rfl, rfl⟩
  rintro ⟨m, e, hm, he, -⟩
  have hlt := (List.getElem?_eq_some_iff.mp he).1
  exact absurd hlt (Nat.not_lt_of_ge hm)

/-- The addition of a game server fails after its list is complete: its timer is set. -/
theorem retried_after_list : ∃ h x slots,
    ofInputs oneSlot [.watch .init, .watch (.initApply Queue.lone.gs), .watch .initDone,
      .settled 0 (.failed internalError) 7] = .ok h ∧
    x ∈ h.spawned ∧ h.slots.join = some ((x.call, .retry internalError), slots) ∧
    ∃ t ∈ ({ h.dispatcher.queue with slots }.finish 7 h.dispatcher.cache x.call
      (.retry internalError)).timers, t.key = x.call.delivery.key := by
  have hrun : ∃ h x slots, ofInputs oneSlot [.watch .init, .watch (.initApply Queue.lone.gs),
        .watch .initDone, .settled 0 (.failed internalError) 7] = .ok h ∧ h.spawned = [x] ∧
      x = ⟨⟨0, .watch, .add { Queue.lone with serial := 1 }⟩, 2⟩ ∧
      h.shown = [.init, .initApply { Queue.lone with serial := 1 }, .initDone] ∧
      h.pending? Queue.lone.key = none ∧
      h.slots.join = some ((x.call, .retry internalError), slots) :=
    ⟨_, _, _, rfl, rfl, rfl, rfl, rfl, rfl⟩
  obtain ⟨h, x, slots, hrun, hspawned, hx, hshown, hp, hj⟩ := hrun
  have hmem : x ∈ h.spawned := hspawned ▸ List.mem_singleton_self x
  have hd : ¬ Dropped x.call.delivery.key x.since h := by
    rintro ⟨m, e, hm, he, hdrop⟩
    rw [hx] at hm hdrop
    rw [hshown] at he hdrop
    have hlt := (List.getElem?_eq_some_iff.mp he).1
    obtain rfl : m = 2 := Nat.le_antisymm (Nat.le_of_lt_succ hlt) hm
    cases he
    cases hdrop
  have hbusy := ((reached_of_ofInputs hrun).retried_iff hmem hj (by rw [hx]; rfl)
    (e := internalError) rfl (by rw [hx]; rfl) hd 7).mpr
    fun hu => hu.incomplete .initDone (by rw [hx, hshown]; exact List.mem_singleton_self _) rfl
  rcases hbusy with ⟨-, y, -, hy⟩ | ⟨t, ht, hk, -⟩
  · rw [hx] at hy
    cases hp.symm.trans hy
  · exact ⟨h, x, slots, hrun, hmem, hj, t, ht, hk⟩

end Chronicle
end GameIngress.Dispatch
