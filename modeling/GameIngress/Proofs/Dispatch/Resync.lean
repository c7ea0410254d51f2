import GameIngress.Proofs.Dispatch.Delay
import GameIngress.Proofs.Dispatch.Spared

/-!
# Resyncs and retries

A resync starts the game servers that are cached and idle, and leaves the others alone. So a game
server that waits for its timer is not started before the timer is due, however often a resync
comes.
-/
namespace GameIngress.Dispatch

open Watch (Key Cache)

namespace Queue

variable {q : Queue} {k : Key}

theorem resync_append (l₁ l₂ : List Sighting) (q : Queue) :
    q.resync (l₁ ++ l₂) = (q.resync l₁).resync l₂ := List.foldl_append

theorem le_queued_resync (cached : List Sighting) (q : Queue) :
    q.slots.queued ≤ (q.resync cached).slots.queued := by
  obtain ⟨new, happ, -⟩ := resync_appends cached q
  rw [happ.queued]
  exact Nat.le_add_right _ _

theorem resync_idle {cached : List Sighting} (hd : (cached.map Sighting.key).Nodup) {s : Sighting}
    (hs : s ∈ cached) (hidle : q.standing? s.key = none) :
    (q.resync cached).standing? s.key = some (.running none) ∧ ∃ id, q.slots.queued ≤ id ∧
      (q.resync cached).slots.unfinishedOf s.key =
        q.slots.unfinishedOf s.key ++ [⟨id, .resync, .again s⟩] := by
  obtain ⟨l₁, l₂, rfl⟩ := List.append_of_mem hs
  rw [List.map_append, List.map_cons] at hd
  have hnot : s.key ∉ (l₁ ++ l₂).map Sighting.key := by
    have hnodup := List.nodup_cons.mp (List.nodup_middle.mp hd)
    rw [List.map_append]
    exact hnodup.1
  have hleft : q.Spares s.key (q.resync l₁) := spares_resync fun s' hs' hk =>
    absurd (List.mem_map.mpr ⟨s', List.mem_append_left _ hs', hk⟩) hnot
  have hright : ((q.resync l₁).start .resync (.again s)).Spares s.key
      (((q.resync l₁).start .resync (.again s)).resync l₂) := spares_resync fun s' hs' hk =>
    absurd (List.mem_map.mpr ⟨s', List.mem_append_right _ hs', hk⟩) hnot
  have hresync : q.resync (l₁ ++ s :: l₂) =
      ((q.resync l₁).start .resync (.again s)).resync l₂ := by
    have hnone : (q.resync l₁).standing? s.key = none := hleft.standing?.trans hidle
    rw [resync_append]
    change (if ((q.resync l₁).standing? s.key).isSome then q.resync l₁ else
      (q.resync l₁).start .resync (.again s)).resync l₂ = _
    rw [hnone]
    rfl
  rw [hresync]
  refine ⟨?_, (q.resync l₁).slots.queued, le_queued_resync l₁ q, ?_⟩
  · rw [hright.standing?, standing?_start]
    exact if_pos rfl
  · rw [hright.unfinished, ← hleft.unfinished]
    exact Slots.unfinishedOf_enqueue (d := .again s)

end Queue

theorem nodup_values {cache : Dispatch.Cache} (hk : cache.Keyed Sighting.key) (hs : cache.Single) :
    (cache.values.map Sighting.key).Nodup := by
  have hkeys : cache.values.map Sighting.key = cache.store.map (·.1) := by
    rw [Cache.values, List.map_map]
    exact List.map_congr_left fun e he => hk.store e he
  rw [hkeys]
  exact hs.store

theorem filter_values {cache : Dispatch.Cache} (hk : cache.Keyed Sighting.key) (hs : cache.Single)
    (k : Key) : cache.values.filter (·.key = k) = (cache.get? k).toList := by
  cases hget : cache.get? k with
  | none =>
    rw [List.filter_eq_nil_iff.mpr, Option.toList_none]
    intro s hmem hkey
    rw [← of_decide_eq_true hkey, hs.get?_of_mem_values hk hmem] at hget
    cases hget
  | some s =>
    have hmem : s ∈ cache.values := List.mem_map_of_mem (f := (·.2)) (Assoc.mem_of_get? hget)
    rw [← hk.key_eq hget]
    exact Slots.filter_eq_singleton (nodup_values hk hs) hmem

namespace Turn

/-- The turn starts the game servers that are cached and idle, and touches nothing else. -/
structure Resyncs (t : Turn) : Prop where
  idle : ∀ k s, t.before.dispatcher.cache.get? k = some s →
    t.before.dispatcher.queue.standing? k = none →
      t.after.queue.standing? k = some (.running none) ∧
      ∃ id, t.queued.filter (·.delivery.key = k) = [⟨id, .resync, .update s s⟩]
  others : ∀ k, t.before.dispatcher.cache.get? k = none ∨
    t.before.dispatcher.queue.standing? k ≠ none →
      t.Spares k ∧ t.queued.filter (·.delivery.key = k) = []
  unfinished : t.after.queue.slots.unfinished = t.before.slots.unfinished ++ t.queued
  ended : t.after.queue.slots.ended = t.before.slots.ended
  timers : t.after.queue.timers = t.before.dispatcher.queue.timers
  failures : t.after.queue.failures = t.before.dispatcher.queue.failures

theorem resyncs_of_tick {h : Chronicle} (hf : h.Faithful) (time : Nat) : Resyncs ⟨time, h, .tick,
      { h.dispatcher with queue := h.dispatcher.queue.resync h.dispatcher.cache.values }⟩ := by
  obtain ⟨new, happ, -⟩ := Queue.resync_appends h.dispatcher.cache.values h.dispatcher.queue
  obtain ⟨htimers, -, hfailures⟩ := h.dispatcher.queue.resync_books h.dispatcher.cache.values
  have hqueued : queued ⟨time, h, .tick,
      { h.dispatcher with queue := h.dispatcher.queue.resync h.dispatcher.cache.values }⟩ = new :=
    happ.queuedSince hf.coherent.numbered
  refine ⟨fun k s hs hidle => ?_, fun k hk => ?_, hqueued ▸ happ.unfinished, happ.ended, htimers,
    hfailures⟩
  · have hkey : s.key = k := hf.keyed.key_eq hs
    subst hkey
    have hmem : s ∈ h.dispatcher.cache.values := List.mem_map.mpr ⟨_, Assoc.mem_of_get? hs, rfl⟩
    obtain ⟨hstanding, id, hid, hunfinished⟩ :=
      Queue.resync_idle (nodup_values hf.keyed hf.single) hmem hidle
    refine ⟨hstanding, id, queued_of_append hf.coherent.toSound hunfinished fun x hx => ?_⟩
    exact List.mem_singleton.mp hx ▸ hid
  · have hspares : h.dispatcher.queue.Spares k
        (h.dispatcher.queue.resync h.dispatcher.cache.values) := by
      refine Queue.spares_resync fun s hs hkey => ?_
      have hcached := hf.single.get?_of_mem_values hf.keyed hs
      rw [hkey] at hcached
      exact Option.isSome_iff_ne_none.mpr (hk.resolve_left (by rw [hcached]; exact nofun))
    exact ⟨⟨hspares, rfl, rfl, rfl⟩, (new_of_spares hf.coherent.toSound hspares).1⟩

/-- The turn takes no event about the game server. -/
def Silent (k : Key) (t : Turn) : Prop := ∀ e ∈ t.taken?, ¬ Cache.Concerns Sighting.key k e

section Silent
variable {t : Turn} {k : Key} {x : Call}

theorem queued_of_adds {taken : List (Watch.Event Sighting)} {new : List Call}
    (ha : Chronicle.Adds taken new t.before t.reached) : t.queued = new := by
  have hcalls := congrArg (List.map (·.call)) ha.spawned
  simpa [reached, Chronicle.extend, queued, Function.comp_def] using hcalls

theorem taken_of_adds {taken : List (Watch.Event Sighting)} {new : List Call}
    (ha : Chronicle.Adds taken new t.before t.reached) : t.taken?.toList = taken :=
  List.append_cancel_left ha.shown

theorem Silent.key_ne (hs : t.Silent k) {e : Watch.Event Sighting} {new : List Call} {d : Delivery}
    (ha : Chronicle.Adds [e] new t.before t.reached)
    (hd : Delivery.ofEvent? t.before.dispatcher.cache e = some d) : d.key ≠ k := by
  have htaken : t.taken? = some e := by
    have hlist := taken_of_adds ha
    cases ht : t.taken? with
    | none => simp [ht] at hlist
    | some e' => simpa [ht] using hlist
  exact fun hk => hs e htaken ⟨d.subject, Delivery.object?_of_ofEvent? hd, hk⟩

theorem Silent.pending? (hs : t.Silent k) (he : Chronicle.Effect t.before t.reached)
    (hp : t.before.pending? k = none) : t.reached.pending? k = none := by
  cases he with
  | quiet _ _ _ hp' => rw [hp', hp]
  | noted _ _ hp' => rw [hp', hp]
  | handed ha _ hd hp' => rw [hp', if_neg (hs.key_ne ha hd), hp]
  | held ha hd _ hp' => rw [hp', if_neg (hs.key_ne ha hd), hp]
  | resumed _ _ _ hp' =>
    rw [hp', hp]
    split <;> rfl

theorem pending?_of_queued (he : Chronicle.Effect t.before t.reached) (hx : x ∈ t.queued) :
    t.reached.pending? x.delivery.key = none := by
  cases he with
  | quiet ha hnew _ hp' => rw [hp', (hnew x (queued_of_adds ha ▸ hx)).2.2.2]
  | noted ha => exact absurd (queued_of_adds ha ▸ hx) List.not_mem_nil
  | held ha => exact absurd (queued_of_adds ha ▸ hx) List.not_mem_nil
  | handed ha _ _ hp' | resumed ha _ _ hp' =>
    rw [queued_of_adds ha] at hx
    rw [List.mem_singleton.mp hx, hp', if_pos rfl]

theorem outstanding_or_joined (he : Chronicle.Effect t.before t.reached)
    (hx : x ∈ t.before.slots.outstanding) :
    x ∈ t.reached.slots.outstanding ∨ ∃ o, t.joined? = some (x, o) := by
  obtain ⟨taken, new, ha⟩ := he.adds
  have haccount := ha.account
  have hjoined : t.reached.joined = t.before.joined ++ t.joined?.toList := rfl
  rw [hjoined, List.map_append, ← Multiset.coe_add, Multiset.add_assoc, Multiset.add_assoc]
    at haccount
  have hmem : x ∈ ↑(t.joined?.toList.map (·.1)) + t.reached.slots.outstanding := by
    rw [← Multiset.add_right_inj.mp haccount]
    exact Multiset.mem_add.mpr (.inl hx)
  rcases Multiset.mem_add.mp hmem with hmem | hmem
  · obtain ⟨⟨y, o⟩, hy, rfl⟩ := List.mem_map.mp (Multiset.mem_coe.mp hmem)
    exact .inr ⟨o, Option.mem_toList.mp hy⟩
  · exact .inl hmem

theorem queued_eq_nil {s : Slots} (hn : s.Numbered) (hq : s.queued = t.before.slots.queued)
    (hs : t.after.queue.slots = s) : t.queued = [] := by
  rw [queued, hs, ← hq]
  exact hn.queuedSince_eq_nil

theorem not_queued_of_outstanding (hf : t.before.Faithful)
    (hx : x ∈ t.before.slots.outstanding) : x ∉ t.queued := by
  intro hq
  have hlt : x.id < t.before.slots.queued := hf.coherent.numbered x hx
  have hle : t.before.slots.queued ≤ x.id := by simpa using (List.mem_filter.mp hq).2
  omega

theorem not_tracked_of_outstanding (hf : t.before.Faithful)
    (hs : t.before.dispatcher.step t.input = .ok t.after) (hx : x ∈ t.before.slots.outstanding)
    (hx' : x ∈ t.reached.slots.outstanding) (hk : Call.IsTracked k x) {y : Call}
    (hy : y ∈ t.queued) : ¬ Call.IsTracked k y := by
  intro hky
  have hf' : t.reached.Faithful := hf.step ⟨_, _, hs, rfl⟩
  have hy' : y ∈ t.reached.slots.outstanding :=
    Multiset.mem_add.mpr (.inr (List.mem_of_mem_filter hy))
  have heq : x = y := hf'.eq_of_outstanding hx' hy' hk.1 hky.1 (hk.2.trans hky.2.symm)
  exact not_queued_of_outstanding hf hx (heq ▸ hy)

/-- A failure that is looked at, with nothing put off behind it, queues nothing and sets the timer
of its game server if it is cached. -/
theorem timer_of_joined (hf : t.before.Faithful)
    (hs : t.before.dispatcher.step t.input = .ok t.after) {o : Outcome}
    (hj : t.joined? = some (x, o)) (hk : Call.IsTracked k x) (hp : t.before.pending? k = none) :
    t.queued = [] ∧ ((∃ e, o = .retry e) → (t.before.dispatcher.cache.get? k).isSome →
      ∃ now timer, t.input = .join now ∧ timer ∈ t.armed ∧ timer ∈ t.after.queue.timers ∧
        timer.key = k ∧ timer.due = now + timer.delay.timerMillis) := by
  obtain ⟨time, h, i, d⟩ := t
  cases i with
  | watch _ | settled _ _ _ | expire _ | tick | stop => cases hj
  | join now =>
    obtain ⟨⟨⟨y, o'⟩, slots⟩, hjoin, heq⟩ := Option.map_eq_some_iff.mp hj
    cases heq
    dsimp only at hjoin hf hp hs ⊢
    rcases Dispatcher.step_join hs with ⟨hnone, -⟩ | ⟨y, o', slots', hsome, rfl⟩
    · rw [hnone] at hjoin
      cases hjoin
    rw [hjoin] at hsome
    cases hsome
    obtain ⟨hdelete, rfl⟩ := hk
    have hfinish := hf.coherent.finish_of_join hjoin now h.dispatcher.cache
    have hnil : ∀ q' : Queue, q'.slots = slots →
        queued ⟨time, h, .join now, { h.dispatcher with queue := q' }⟩ = [] := fun q' hq' =>
      queued_eq_nil (hf.coherent.numbered.join hjoin) (Slots.queued_of_join hjoin) hq'
    generalize { h.dispatcher.queue with slots }.finish now h.dispatcher.cache x o = q' at hfinish ⊢
    cases hfinish with
    | delete hd => exact absurd (hdelete.symm.trans hd) (by decide)
    | next hd hsome => cases hp.symm.trans hsome
    | well hd hnone => exact ⟨hnil _ rfl, fun ⟨e, he⟩ => nomatch he⟩
    | dropped hd hnone hc =>
      refine ⟨hnil _ rfl, fun _ hcached => ?_⟩
      rw [hc] at hcached
      cases hcached
    | again hd hnone hc =>
      have htimer : h.dispatcher.queue.nextTimer now x.delivery.key ∈
          h.dispatcher.queue.timers ++ [h.dispatcher.queue.nextTimer now x.delivery.key] :=
        List.mem_append_right _ (List.mem_singleton_self _)
      refine ⟨hnil _ rfl, fun _ _ => ⟨now, h.dispatcher.queue.nextTimer now x.delivery.key, rfl,
        List.mem_filter.mpr ⟨htimer, decide_eq_true (Nat.le_refl _)⟩, htimer, rfl, rfl⟩⟩

/-- The timer stays set, and no call is queued for its game server. -/
def Keeps (timer : Timer) (t : Turn) : Prop :=
  timer ∈ t.after.queue.timers ∧ ∀ y ∈ t.queued, ¬ Call.IsTracked timer.key y

theorem keeps_of_spares (hf : t.before.Faithful) {timer : Timer}
    (ht : timer ∈ t.before.dispatcher.queue.timers)
    (hs : t.before.dispatcher.queue.Spares timer.key t.after.queue) : t.Keeps timer := by
  constructor
  · have hmem : timer ∈ t.before.dispatcher.queue.timers.filter (·.key = timer.key) :=
      List.mem_filter.mpr ⟨ht, decide_eq_true rfl⟩
    rw [← hs.timers] at hmem
    exact List.mem_of_mem_filter hmem
  · intro y hy hk
    have hnone := (new_of_spares hf.coherent.toSound hs).1
    exact absurd (List.mem_filter.mpr ⟨hy, decide_eq_true hk.2⟩) (hnone ▸ List.not_mem_nil)

theorem keeps_of_queued {timer : Timer} (ht : timer ∈ t.after.queue.timers) (hq : t.queued = []) :
    t.Keeps timer :=
  ⟨ht, fun _ hy => absurd hy (hq ▸ List.not_mem_nil)⟩

section Input
variable {h : Chronicle} {d : Dispatcher} {time : Nat}

theorem spares_of_silent (hf : h.Faithful) {e : Watch.Event GameServer}
    (hs : h.dispatcher.step (.watch e) = .ok d) (hq : Silent k ⟨time, h, .watch e, d⟩) :
    h.dispatcher.queue.Spares k d.queue := by
  rcases Dispatcher.step_watch hs with ⟨-, rfl⟩ | ⟨hstop, e', he, rfl⟩
  · exact .refl k _
  have htaken : taken? ⟨time, h, .watch e, h.dispatcher.observe e'⟩ = some e' := by
    simp [taken?, Dispatcher.taken?, hstop, he]
  cases hobject : e'.object? with
  | some s =>
    have hne : s.key ≠ k := fun hkey => hq e' htaken ⟨s, hobject, hkey⟩
    exact (Dispatcher.spares_observe hf.coherent hobject hne).queue
  | none =>
    have hnone : Delivery.ofEvent? h.dispatcher.cache e' = none := by
      cases hd : Delivery.ofEvent? h.dispatcher.cache e' with
      | none => rfl
      | some delivery => cases hobject.symm.trans (Delivery.object?_of_ofEvent? hd)
    rw [Dispatcher.observe, hnone]
    exact .refl k _

theorem keeps_of_join (hf : h.Faithful) {now : Nat} (hs : h.dispatcher.step (.join now) = .ok d)
    {timer : Timer} (ht : timer ∈ h.dispatcher.queue.timers) :
    Keeps timer ⟨time, h, .join now, d⟩ := by
  rcases Dispatcher.step_join hs with ⟨-, rfl⟩ | ⟨x, o, slots, hj, heq⟩
  · exact keeps_of_spares hf ht (.refl _ _)
  by_cases hkey : x.delivery.key = timer.key
  · have hout : x ∈ h.slots.outstanding := Slots.mem_outstanding_of_join hj
    have hdelete : x.delivery.isDelete = true := by
      cases hd : x.delivery.isDelete with
      | true => rfl
      | false =>
        obtain ⟨-, pending, hrunning⟩ := hf.coherent.running_of_outstanding hout hd
        rw [hkey, hf.coherent.waiting_of_mem ht] at hrunning
        cases hrunning
    rw [Queue.finish, if_pos hdelete] at heq
    subst heq
    exact keeps_of_queued ht
      (queued_eq_nil (hf.coherent.numbered.join hj) (Slots.queued_of_join hj) rfl)
  · refine keeps_of_spares hf ht ?_
    rw [heq]
    exact hf.coherent.spares_finish hj hkey now _

theorem keeps_of_expire (hf : h.Faithful) {id : Nat} (hs : h.dispatcher.step (.expire id) = .ok d)
    {timer : Timer} (ht : timer ∈ h.dispatcher.queue.timers) (hid : timer.id ≠ id) :
    Keeps timer ⟨time, h, .expire id, d⟩ := by
  rcases Dispatcher.step_expired hs with ⟨-, rfl⟩ | ⟨timer', ht', rfl, -, -, rfl⟩
  · exact keeps_of_spares hf ht (.refl _ _)
  · have hkey : timer'.key ≠ timer.key := by
      intro hkey
      have hwaiting := hf.coherent.waiting_of_mem ht'
      rw [hkey, hf.coherent.waiting_of_mem ht] at hwaiting
      exact hid (by simpa using hwaiting)
    exact keeps_of_spares hf ht (hf.coherent.spares_expire ht' hf.keyed hkey)

end Input

/-- A timer stays set until it is looked at, as long as no event is about its game server, and until
then no call is queued for it. -/
theorem keeps_timer (hf : t.before.Faithful) (hs : t.before.dispatcher.step t.input = .ok t.after)
    {timer : Timer} (ht : timer ∈ t.before.dispatcher.queue.timers) (hq : t.Silent timer.key) :
    t.Keeps timer ∨ t.input = .expire timer.id := by
  obtain ⟨time, h, i, d⟩ := t
  cases i with
  | watch e => exact .inl (keeps_of_spares hf ht (spares_of_silent hf hs hq))
  | settled id r millis =>
    have hqueue := (Dispatcher.step_settled hs).1
    dsimp only at hqueue
    have hnew := queued_eq_nil (t := ⟨time, h, .settled id r millis, d⟩)
      (hf.coherent.numbered.settle id r) rfl (congrArg Queue.slots hqueue)
    exact .inl (keeps_of_queued (by rw [hqueue]; exact ht) hnew)
  | join now => exact .inl (keeps_of_join hf hs ht)
  | expire id =>
    by_cases hid : timer.id = id
    · exact .inr (by rw [hid])
    · exact .inl (keeps_of_expire hf hs ht hid)
  | tick =>
    refine .inl (keeps_of_spares hf ht ?_)
    rcases Dispatcher.step_tick hs with heq | ⟨-, heq⟩
    · rw [heq]
      exact .refl _ _
    · rw [heq]
      exact Queue.spares_resync fun _ _ _ => by rw [hf.coherent.waiting_of_mem ht]; rfl
  | stop =>
    refine .inl (keeps_of_spares hf ht ?_)
    rw [Dispatcher.step_stop hs]
    exact .refl _ _

end Silent

end Turn

/-- How far things are since the call `x` for the game server `k` was queued, if no event was about
`k` in the turns `us` since then: the call is outstanding, or it was looked at, and if its failure
set a timer, then that is still set, or a turn was not before it was due. -/
inductive Retrying (k : Key) (x : Call) (us : List Turn) (h : Chronicle) : Prop
  | busy (hx : x ∈ h.slots.outstanding) (hp : h.pending? k = none)
  | joined {us₁ us₂ : List Turn} {j : Turn} {o : Outcome} (hus : us = us₁ ++ j :: us₂)
      (hj : j.joined? = some (x, o))
      (hwait : (∃ e, o = .retry e) → (j.before.dispatcher.cache.get? k).isSome →
        ∃ timer ∈ j.armed, timer.key = k ∧ timer.due = j.time + timer.delay.timerMillis ∧
          (timer ∈ h.dispatcher.queue.timers ∨ ∃ v ∈ us₂, timer.due ≤ v.time))

theorem nanos_le_timerMillis (d : Duration) : d.nanos ≤ d.timerMillis * 1000000 := by
  unfold Duration.timerMillis
  omega

namespace Run

variable {c : Settings} {ts us vs : List Turn} {t u : Turn} {h : Chronicle} {k : Key} {x y : Call}

theorem effect (hr : Run c ts h) (ht : t ∈ ts) : Chronicle.Effect t.before t.reached :=
  (hr.of_mem ht).1.effect ⟨_, _, (hr.of_mem ht).2, rfl⟩

theorem retrying (hr : Run c (ts ++ t :: us) h) (ho : OnTime (ts ++ t :: us)) (hx : x ∈ t.queued)
    (hk : Call.IsTracked k x) (hq : ∀ v ∈ us, v.Silent k) : Retrying k x us h := by
  induction us using List.reverseRecOn generalizing h with
  | nil =>
    have heffect := hr.effect (List.mem_append_right _ (List.mem_singleton_self t))
    obtain ⟨-, -, rfl⟩ := hr.concat_inv
    refine .busy (Multiset.mem_add.mpr (.inr (List.mem_of_mem_filter hx))) ?_
    rw [← hk.2]
    exact Turn.pending?_of_queued heffect hx
  | append_singleton us v ih =>
    rw [← List.cons_append, ← List.append_assoc] at hr ho
    have hv : v ∈ ts ++ t :: us ++ [v] := List.mem_append_right _ (List.mem_singleton_self v)
    have heffect := hr.effect hv
    obtain ⟨hf, -⟩ := hr.of_mem hv
    obtain ⟨hbefore, hs, rfl⟩ := hr.concat_inv
    have hsilent := hq v (List.mem_append_right _ (List.mem_singleton_self v))
    have htimely := ho.timely v hv
    rcases ih hbefore ho.left fun w hw => hq w (List.mem_append_left _ hw) with
      ⟨hout, hp⟩ | ⟨rfl, hj, hwait⟩
    · rcases Turn.outstanding_or_joined heffect hout with hout' | ⟨o, hj⟩
      · exact .busy hout' (hsilent.pending? heffect hp)
      · refine .joined (rfl : us ++ [v] = us ++ v :: []) hj fun hretry hcached => ?_
        obtain ⟨now, timer, hi, harmed, hmem, hkey, hdue⟩ :=
          (Turn.timer_of_joined hf hs hj hk hp).2 hretry hcached
        rw [Turn.Timely, hi] at htimely
        exact ⟨timer, harmed, hkey, htimely ▸ hdue, .inl hmem⟩
    · refine .joined (List.append_assoc _ _ _) hj fun hretry hcached => ?_
      obtain ⟨timer, harmed, hkey, hdue, hstill⟩ := hwait hretry hcached
      refine ⟨timer, harmed, hkey, hdue, ?_⟩
      rcases hstill with hmem | ⟨w, hw, hpast⟩
      · rcases Turn.keeps_timer hf hs hmem (hkey ▸ hsilent) with ⟨hmem', -⟩ | hi
        · exact .inl hmem'
        · rw [Turn.Timely, hi] at htimely
          exact .inr ⟨v, List.mem_append_right _ (List.mem_singleton_self v),
            htimely timer hmem rfl⟩
      · exact .inr ⟨w, List.mem_append_left _ hw, hpast⟩

/-- When the next call for a game server is queued, with no event about it since the one before,
that one was looked at, and if its failure set a timer, then that was due. -/
theorem due_of_queued (hr : Run c (ts ++ t :: (us ++ [u])) h)
    (ho : OnTime (ts ++ t :: (us ++ [u]))) (hx : x ∈ t.queued) (hy : y ∈ u.queued)
    (hkx : Call.IsTracked k x) (hky : Call.IsTracked k y) (hq : ∀ v ∈ us ++ [u], v.Silent k) :
    ∃ us₁ j us₂ o, us = us₁ ++ j :: us₂ ∧ j.joined? = some (x, o) ∧
      ((∃ e, o = .retry e) → (j.before.dispatcher.cache.get? k).isSome →
        ∃ timer ∈ j.armed, timer.key = k ∧ j.time + timer.delay.timerMillis ≤ u.time) := by
  rw [← List.cons_append, ← List.append_assoc] at hr ho
  have hu : u ∈ ts ++ t :: us ++ [u] := List.mem_append_right _ (List.mem_singleton_self u)
  have heffect := hr.effect hu
  have htimely := ho.timely u hu
  obtain ⟨hf, hs⟩ := hr.of_mem hu
  have hsilent := hq u (List.mem_append_right _ (List.mem_singleton_self u))
  rcases hr.concat_inv.1.retrying ho.left hx hkx fun v hv => hq v (List.mem_append_left _ hv) with
    ⟨hout, hp⟩ | ⟨hus, hj, hwait⟩
  · rcases Turn.outstanding_or_joined heffect hout with hout' | ⟨o, hj⟩
    · exact absurd hky (Turn.not_tracked_of_outstanding hf hs hout hout' hkx hy)
    · rw [(Turn.timer_of_joined hf hs hj hkx hp).1] at hy
      cases hy
  · refine ⟨_, _, _, _, hus, hj, fun hretry hcached => ?_⟩
    obtain ⟨timer, harmed, hkey, hdue, hstill⟩ := hwait hretry hcached
    refine ⟨timer, harmed, hkey, ?_⟩
    rw [← hdue]
    rcases hstill with hmem | ⟨v, hv, hpast⟩
    · rcases Turn.keeps_timer hf hs hmem (hkey ▸ hsilent) with ⟨-, hnone⟩ | hi
      · exact absurd hky (hkey ▸ hnone y hy)
      · rw [Turn.Timely, hi] at htimely
        exact htimely timer hmem rfl
    · refine hpast.trans (ho.le ?_ (List.mem_singleton_self u))
      rw [hus]
      exact List.mem_append_right _ (List.mem_cons_of_mem _
        (List.mem_append_right _ (List.mem_cons_of_mem _ hv)))

/-- This is about runs that were survived so far. A resync starts every cached game server that is
idle and touches nothing else. So two calls for a game server that no event is about in between are
at least as far apart as the delay of the first one's failure asks: the first has ended before the
second is queued, and if it failed and its game server is still cached, its timer was set and was
due. -/
theorem single_retry_loop (hr : Run c ts h) :
    (h.dispatcher.stopped = false → ∃ d, h.dispatcher.step .tick = .ok d ∧
      ∀ time, Turn.Resyncs ⟨time, h, .tick, d⟩) ∧
    ∀ us t vs u ws k x y, ts = us ++ t :: (vs ++ u :: ws) → OnTime ts → x ∈ t.queued →
      y ∈ u.queued → Call.IsTracked k x → Call.IsTracked k y → (∀ v ∈ vs ++ [u], v.Silent k) →
      ∃ vs₁ j vs₂ o, vs = vs₁ ++ j :: vs₂ ∧ j.joined? = some (x, o) ∧
        ∃ e ∈ us ++ t :: vs₁, e.Ends x o ∧
          ((∃ f, o = .retry f) → (j.before.dispatcher.cache.get? k).isSome →
            ∃ timer ∈ j.armed, timer.key = k ∧
              timer.delay = backoffDelay (j.before.dispatcher.queue.failureCount k)
                c.delays.base c.delays.cap ∧
              e.time * 1000000 + timer.delay.nanos ≤ u.time * 1000000) := by
  constructor
  · intro hgoing
    have hs : h.dispatcher.step .tick = .ok { h.dispatcher with
        queue := h.dispatcher.queue.resync h.dispatcher.cache.values } := by
      simp [Dispatcher.step, hgoing]
    exact ⟨_, hs, Turn.resyncs_of_tick hr.faithful⟩
  · rintro us t vs u ws k x y rfl ho hx hy hkx hky hq
    have hsplit : us ++ t :: (vs ++ u :: ws) = us ++ t :: (vs ++ [u]) ++ ws := by simp
    rw [hsplit] at hr ho
    obtain ⟨h', hr'⟩ := hr.left
    obtain ⟨vs₁, j, vs₂, o, rfl, hj, hwait⟩ := hr'.due_of_queued ho.left hx hy hkx hky hq
    have hmiddle : us ++ t :: (vs₁ ++ j :: vs₂ ++ [u]) = (us ++ t :: vs₁) ++ j :: (vs₂ ++ [u]) := by
      simp
    rw [hmiddle] at hr' ho
    have hbefore := hr'.split
    have hended : (x, o) ∈ j.before.slots.ended := by
      obtain ⟨time, hj', i, d⟩ := j
      cases i with
      | watch _ | settled _ _ _ | expire _ | tick | stop => cases hj
      | join now =>
        obtain ⟨⟨_, slots⟩, hjoin, rfl⟩ := Option.map_eq_some_iff.mp hj
        rw [Chronicle.slots, Slots.ended_of_join hjoin]
        exact List.mem_cons_self
    obtain ⟨e, he, hends⟩ := hbefore.1.ends_of_ended hended
    refine ⟨vs₁, j, vs₂, o, rfl, hj, e, he, hends, fun hretry hcached => ?_⟩
    obtain ⟨timer, harmed, hkey, hdue⟩ := hwait hretry hcached
    refine ⟨timer, harmed, hkey, hkey ▸ hbefore.1.delay_eq hbefore.2 harmed, ?_⟩
    have hle : e.time ≤ j.time := ho.left.le he List.mem_cons_self
    have hnanos := nanos_le_timerMillis timer.delay
    omega

/-- A game server is added, which fails after 7 ms. Resyncs come at 10 ms and at 20 ms, and the
timer is due at 107 ms. Another run adds it, which succeeds, and then a resync starts it. -/
theorem retried_between_resyncs :
    (∃ ts h d id s, Run Chronicle.oneSlot ts h ∧ h.dispatcher.step .tick = .ok d ∧
      (Turn.mk 10 h .tick d).queued.filter (·.delivery.key = Queue.lone.key) =
        [⟨id, .resync, .update s s⟩]) ∧
    ∃ us h x y e, Run Chronicle.oneSlot us h ∧ us.flatMap Turn.queued = [x, y] ∧ e ∈ us ∧
      e.Ends x (.retry Chronicle.internalError) ∧ e.time * 1000000 + 100000000 ≤ 107 * 1000000 := by
  constructor
  · obtain ⟨ts, h, hp, hgoing, s, hcached, hidle⟩ : ∃ ts h,
        play Chronicle.oneSlot [(0, .watch (.apply Queue.lone.gs)), (5, .settled 0 .ok 5),
          (5, .join 5)] = .ok (ts, h) ∧ h.dispatcher.stopped = false ∧
        ∃ s, h.dispatcher.cache.get? Queue.lone.key = some s ∧
          h.dispatcher.queue.standing? Queue.lone.key = none :=
      ⟨_, _, rfl, rfl, _, rfl, rfl⟩
    have hr := of_play hp
    obtain ⟨d, hs, hresyncs⟩ := (single_retry_loop hr).1 hgoing
    obtain ⟨-, id, hqueued⟩ := (hresyncs 10).idle _ s hcached hidle
    exact ⟨ts, h, d, id, s, hr, hs, hqueued⟩
  · obtain ⟨t₀, t₁, t₂, t₃, t₄, t₅, h, x, y, hp, hcalls, hx, hy, htracked, hcached, hfails, hcount,
        hdue⟩ : ∃ t₀ t₁ t₂ t₃ t₄ t₅ h x y,
        play Chronicle.oneSlot [(0, .watch (.apply Queue.lone.gs)),
          (7, .settled 0 (.failed Chronicle.internalError) 7), (7, .join 7), (10, .tick),
          (20, .tick), (107, .expire 0)] = .ok ([t₀, t₁, t₂, t₃, t₄, t₅], h) ∧
        [t₀, t₁, t₂, t₃, t₄, t₅].flatMap Turn.queued = [x, y] ∧ x ∈ t₀.queued ∧ y ∈ t₅.queued ∧
        (Call.IsTracked Queue.lone.key x ∧ Call.IsTracked Queue.lone.key y) ∧
        (t₂.before.dispatcher.cache.get? Queue.lone.key).isSome ∧
        t₂.joined? = some (x, .retry Chronicle.internalError) ∧
        t₂.before.dispatcher.queue.failureCount Queue.lone.key = 0 ∧
        t₅.before.dispatcher.queue.timers.map (·.due) = [107] :=
      ⟨_, _, _, _, _, _, _, _, _, rfl, rfl, List.mem_singleton_self _, List.mem_singleton_self _,
        ⟨⟨rfl, rfl⟩, rfl, rfl⟩, rfl, rfl, rfl, rfl⟩
    have hr := of_play hp
    have hinputs := inputs_of_play hp
    simp only [List.map_cons, List.map_nil, List.cons.injEq, Prod.mk.injEq, and_true] at hinputs
    obtain ⟨⟨hc₀, hi₀⟩, ⟨hc₁, hi₁⟩, ⟨hc₂, hi₂⟩, ⟨hc₃, hi₃⟩, ⟨hc₄, hi₄⟩, ⟨hc₅, hi₅⟩⟩ := hinputs
    have htimer : ∀ timer ∈ t₅.before.dispatcher.queue.timers, timer.due ≤ 107 := by
      intro timer htimer
      have hmem := List.mem_map_of_mem (f := Timer.due) htimer
      rw [hdue] at hmem
      exact (List.mem_singleton.mp hmem).le
    have ho : OnTime [t₀, t₁, t₂, t₃, t₄, t₅] := by
      constructor
      · simp [hc₀, hc₁, hc₂, hc₃, hc₄, hc₅]
      · have htimely : t₅.Timely := by
          simp only [Turn.Timely, hi₅, hc₅]
          exact fun timer ht _ => htimer timer ht
        rw [Turn.Timely] at htimely
        simpa [Turn.Timely, hi₀, hi₁, hi₂, hi₃, hi₄, hc₂] using htimely
    have hsilent : ∀ v ∈ [t₁, t₂, t₃, t₄] ++ [t₅], v.Silent Queue.lone.key := by
      simp [Turn.Silent, Turn.taken?, Dispatcher.taken?, hi₁, hi₂, hi₃, hi₄, hi₅]
    obtain ⟨vs₁, j, vs₂, o, hvs, hj, e, he, hends, hwait⟩ := (single_retry_loop hr).2 [] t₀
      [t₁, t₂, t₃, t₄] t₅ [] Queue.lone.key x y rfl ho hx hy htracked.1 htracked.2 hsilent
    have hjoin : j = t₂ := by
      have hmem : j ∈ [t₁, t₂, t₃, t₄] := hvs ▸ List.mem_append_right _ List.mem_cons_self
      simp only [List.mem_cons, List.not_mem_nil, or_false] at hmem
      rcases hmem with rfl | rfl | rfl | rfl
      · simp [Turn.joined?, Dispatcher.joined?, hi₁] at hj
      · rfl
      · simp [Turn.joined?, Dispatcher.joined?, hi₃] at hj
      · simp [Turn.joined?, Dispatcher.joined?, hi₄] at hj
    subst hjoin
    cases hj.symm.trans hfails
    obtain ⟨timer, -, -, hdelay, hlate⟩ := hwait ⟨_, rfl⟩ hcached
    refine ⟨_, h, x, y, e, hr, hcalls, ?_, hends, ?_⟩
    · change e ∈ t₀ :: ([t₁, j, t₃, t₄] ++ [t₅])
      rw [hvs, List.append_assoc, ← List.cons_append]
      exact List.mem_append_left _ he
    · have hnanos : timer.delay.nanos = 100000000 := by
        rw [hdelay, hcount]
        rfl
      rwa [hnanos, hc₅] at hlate

end Run
end GameIngress.Dispatch
