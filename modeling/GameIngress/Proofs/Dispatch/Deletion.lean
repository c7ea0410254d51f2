import GameIngress.Proofs.Dispatch.Handover
import GameIngress.Proofs.Dispatch.Timeline

/-!
# Deleted game servers stay quiet

A deletion clears the timer and the failures of its game server, and takes it out of the cache. A
timer is only ever set for a cached game server, so none is set until the game server is shown
again, and the first one then counts no failure from before.
-/
namespace GameIngress.Dispatch

open Watch (Key Cache Orderly)

namespace Queue

variable {q q' : Queue} {k k' : Key} {d : Delivery}

/-- The end of a call leaves the queue alone, starts what was put off, leaves the game server idle
or sets its timer, if it is cached. -/
theorem finish_eq (q : Queue) (now : Nat) (cache : Cache) (c : Call) (o : Outcome) :
    let k := c.delivery.key
    let q' := { q with standings := q.standings.erase k }
    q.finish now cache c o = q ∨ (∃ d, q.finish now cache c o = q'.start .watch d) ∨
      q.finish now cache c o = q'.forget k ∨
        (cache.get? k).isSome ∧ q.finish now cache c o = q'.arm now k := by
  unfold Queue.finish
  cases c.delivery.isDelete with
  | true => exact .inl rfl
  | false =>
    simp only [Bool.false_eq_true, ↓reduceIte]
    split
    · exact .inl rfl
    · exact .inr (.inl ⟨_, rfl⟩)
    all_goals
      cases o with
      | done => exact .inr (.inr (.inl rfl))
      | retry e =>
        dsimp only
        cases cache.get? c.delivery.key with
        | none => exact .inr (.inr (.inl rfl))
        | some s => exact .inr (.inr (.inr ⟨rfl, rfl⟩))

/-- The game server has no timer and no failures are counted for it. -/
structure Quiet (k : Key) (q : Queue) : Prop where
  untimed : ∀ t ∈ q.timers, t.key ≠ k
  unfailed : q.failures.get? k = none

theorem untimed_of_profile (h : (q.profile k).timers = []) : ∀ t ∈ q.timers, t.key ≠ k := by
  intro t ht
  simpa using List.filter_eq_nil_iff.mp h t ht

theorem Quiet.of_eq (h : q.Quiet k) (ht : q'.timers = q.timers) (hf : q'.failures = q.failures) :
    q'.Quiet k :=
  ⟨ht ▸ h.untimed, hf ▸ h.unfailed⟩

theorem quiet_forget (h : ∀ t ∈ q.timers, t.key ≠ k) : (q.forget k).Quiet k where
  untimed := h
  unfailed := by rw [forget, Assoc.get?_erase, if_pos rfl]

theorem Coherent.quiet_enqueue_delete (h : q.Coherent) (hd : d.isDelete = true) :
    (q.enqueue d).Quiet d.key := by
  unfold Queue.enqueue
  simp only [hd, ↓reduceIte]
  rw [show (q.forget d.key).standing? d.key = q.standing? d.key from rfl]
  cases hs : q.standing? d.key with
  | none => exact (quiet_forget (untimed_of_profile (h.idle hs).2.1)).of_eq rfl rfl
  | some standing =>
    cases standing with
    | running pending => exact (quiet_forget (untimed_of_profile (h.running hs).2.1)).of_eq rfl rfl
    | waiting id =>
      exact (quiet_forget (untimed_of_profile (h.vacant_cancelTimer hs).timers)).of_eq rfl rfl

namespace Quiet

theorem failureCount (h : q.Quiet k) : q.failureCount k = 0 := by
  rw [Queue.failureCount, h.unfailed, Option.getD_none]

theorem start (h : q.Quiet k) (o : Origin) (d : Delivery) : (q.start o d).Quiet k :=
  ⟨h.untimed, h.unfailed⟩

theorem cancelTimer (h : q.Quiet k) (id : Nat) : (q.cancelTimer id).Quiet k :=
  ⟨fun t ht => h.untimed t (List.mem_of_mem_filter ht), h.unfailed⟩

theorem forget (h : q.Quiet k) (k' : Key) : (q.forget k').Quiet k where
  untimed := h.untimed
  unfailed := by
    rw [Queue.forget, Assoc.get?_erase]
    split
    · rfl
    · exact h.unfailed

theorem arm (h : q.Quiet k) (now : Nat) (hk : k' ≠ k) : (q.arm now k').Quiet k where
  untimed := by
    intro t ht
    rcases List.mem_append.mp ht with ht | ht
    · exact h.untimed t ht
    · rw [List.mem_singleton.mp ht]
      exact hk
  unfailed := by
    rw [Queue.arm, Assoc.get?_set, if_neg hk]
    exact h.unfailed

theorem enqueue (h : q.Quiet k) (d : Delivery) : (q.enqueue d).Quiet k := by
  unfold Queue.enqueue
  cases d.isDelete with
  | true =>
    have hforget := h.forget d.key
    simp only [↓reduceIte]
    cases (q.forget d.key).standing? d.key with
    | none => exact hforget.of_eq rfl rfl
    | some standing =>
      cases standing with
      | running pending => exact hforget.of_eq rfl rfl
      | waiting id => exact (hforget.cancelTimer id).of_eq rfl rfl
  | false =>
    simp only [Bool.false_eq_true, ↓reduceIte]
    cases q.standing? d.key with
    | none => exact h.start .watch d
    | some standing =>
      cases standing with
      | running pending => exact h.of_eq rfl rfl
      | waiting id => exact (h.cancelTimer id).start .watch d

theorem resync (h : q.Quiet k) (cached : List Sighting) : (q.resync cached).Quiet k := by
  unfold Queue.resync
  induction cached generalizing q with
  | nil => exact h
  | cons s rest ih =>
    rw [List.foldl_cons]
    apply ih
    cases q.standing? s.key with
    | none => exact h.start .resync (.again s)
    | some _ => exact h

theorem expire (h : q.Quiet k) (cache : Cache) (t : Timer) : (q.expire cache t).Quiet k := by
  have hcancel : { q.cancelTimer t.id with standings := q.standings.erase t.key }.Quiet k :=
    (h.cancelTimer t.id).of_eq rfl rfl
  unfold Queue.expire
  cases cache.get? t.key with
  | none => exact hcancel.forget t.key
  | some s => exact hcancel.start .requeue (.again s)

/-- At the end of a call a quiet game server stays quiet, unless it is cached and its timer is
set. -/
theorem finish (h : q.Quiet k) (now : Nat) (cache : Cache) (c : Call) (o : Outcome) :
    (q.finish now cache c o).Quiet k ∨
    (cache.get? k).isSome ∧ (q.finish now cache c o).timers = q.timers ++ [q.nextTimer now k] := by
  have herase : { q with standings := q.standings.erase c.delivery.key }.Quiet k := h.of_eq rfl rfl
  rcases q.finish_eq now cache c o with hq | ⟨d, hq⟩ | hq | ⟨hcached, hq⟩
  · exact .inl (by rwa [hq])
  · exact .inl (hq ▸ herase.start .watch d)
  · exact .inl (hq ▸ herase.forget c.delivery.key)
  · by_cases hk : c.delivery.key = k
    · subst hk
      exact .inr ⟨hcached, hq ▸ rfl⟩
    · exact .inl (hq ▸ herase.arm now hk)

end Quiet

theorem Step.delays (hs : q.Step q') : q'.delays = q.delays := by
  cases hs with
  | settle id r => rfl
  | enqueue d =>
    unfold Queue.enqueue
    cases d.isDelete with
    | true =>
      simp only [↓reduceIte]
      rcases (q.forget d.key).standing? d.key with _ | ⟨_ | _⟩ <;> rfl
    | false =>
      simp only [Bool.false_eq_true, ↓reduceIte]
      rcases q.standing? d.key with _ | ⟨_ | _⟩ <;> rfl
  | resync cached =>
    unfold Queue.resync
    induction cached generalizing q with
    | nil => rfl
    | cons s rest ih =>
      rw [List.foldl_cons, ih]
      cases q.standing? s.key <;> rfl
  | @finish c r slots _ now cache =>
    rcases { q with slots }.finish_eq now cache c r with hq | ⟨_, hq⟩ | hq | ⟨-, hq⟩ <;>
      rw [hq] <;> rfl
  | @expire t _ cache _ =>
    unfold Queue.expire
    cases cache.get? t.key <;> rfl

end Queue

/-- After an input, a game server that was quiet is quiet still, unless it is cached and its timer
is set. -/
theorem Dispatcher.step_quiet {d d' : Dispatcher} {i : Input} {k : Key} (hq : d.queue.Quiet k)
    (hs : d.step i = .ok d') : d'.queue.Quiet k ∨ (d.cache.get? k).isSome ∧
      ∃ now, d'.queue.timers = d.queue.timers ++ [d.queue.nextTimer now k] := by
  cases i with
  | watch e =>
    rcases step_watch hs with ⟨-, rfl⟩ | ⟨-, e', -, rfl⟩
    · exact .inl hq
    · rw [observe]
      cases Delivery.ofEvent? d.cache e' with
      | none => exact .inl hq
      | some delivery => exact .inl (hq.enqueue delivery)
  | settled id r millis =>
    rw [(step_settled hs).1]
    exact .inl (hq.of_eq rfl rfl)
  | join now =>
    rcases step_join hs with ⟨-, rfl⟩ | ⟨c, o, slots, -, rfl⟩
    · exact .inl hq
    · have hslots : { d.queue with slots }.Quiet k := hq.of_eq rfl rfl
      exact (hslots.finish now d.cache c o).imp_right (And.imp_right fun ht => ⟨now, ht⟩)
  | expire timer =>
    rcases step_expire hs with rfl | ⟨-, t, -, rfl⟩
    · exact .inl hq
    · exact .inl (hq.expire d.cache t)
  | tick =>
    rcases step_tick hs with rfl | ⟨-, rfl⟩
    · exact .inl hq
    · exact .inl (hq.resync _)
  | stop =>
    rw [step_stop hs]
    exact .inl hq

namespace Chronicle

variable {c : Settings} {h h' h₁ h₂ : Chronicle} {k : Key} {n : Nat}

theorem Reached.delays (hr : Reached c h) : h.dispatcher.queue.delays = c.delays := by
  obtain ⟨d, hnew, hl⟩ := hr
  induction hl with
  | refl => rw [Dispatcher.eq_of_new hnew]
  | step hl hn ih =>
    have hf := Reached.faithful ⟨d, hnew, hl⟩
    obtain ⟨i, d', hs, rfl⟩ := hn
    rcases Dispatcher.step_queue hf.keyed hs with hq | hq
    · rw [extend, hq, ih]
    · rw [extend, hq.delays, ih]

theorem Reached.quiet_of_gone (hr : Reached c h) (hg : Orderly h.shown)
    (hgone : Cache.Gone Sighting.key k h.shown) : h.dispatcher.queue.Quiet k := by
  obtain ⟨d₀, hnew, hl⟩ := hr
  induction hl with
  | refl =>
    obtain ⟨n, s, hn, -⟩ := hgone
    cases hn
  | @step h₁ h₂ hl hn ih =>
    have hf := Reached.faithful ⟨d₀, hnew, hl⟩
    obtain ⟨i, d, hs, rfl⟩ := hn
    have hstays : Orderly h₁.shown → Cache.Gone Sighting.key k h₁.shown → d.queue.Quiet k := by
      intro hg₁ hgone₁
      refine (Dispatcher.step_quiet (ih hg₁ hgone₁) hs).resolve_right fun ⟨hcached, _⟩ => ?_
      rw [hf.cache, (hgone₁.uncached hg₁).1] at hcached
      cases hcached
    cases ht : h₁.dispatcher.taken? i with
    | none =>
      rw [extend, ht, Option.toList_none, List.append_nil] at hg hgone
      exact hstays hg hgone
    | some e =>
      rw [extend, ht, Option.toList_some] at hg hgone
      rcases Cache.gone_concat hgone with ⟨s, rfl, rfl⟩ | ⟨hgone₁, -⟩
      · cases i with
        | watch e₀ =>
          rcases Dispatcher.step_watch hs with ⟨hstop, -⟩ | ⟨hstop, e', he, rfl⟩
          · simp [Dispatcher.taken?, hstop] at ht
          · simp only [Dispatcher.taken?, hstop, Bool.false_eq_true, ↓reduceIte, he,
              Option.some.injEq] at ht
            subst ht
            exact hf.coherent.quiet_enqueue_delete (d := .delete s) rfl
        | settled _ _ _ | join _ | expire _ | tick | stop => cases ht
      · exact hstays hg.left hgone₁

/-- A run on which the game server `k` gets no timer. -/
inductive Untimed (k : Key) (h : Chronicle) : Chronicle → Prop
  | refl : Untimed k h h
  | step {h₁ h₂ : Chronicle} (hu : Untimed k h h₁) (hn : h₁.Next h₂)
      (ht : ∀ t ∈ h₂.dispatcher.queue.timers, t.key ≠ k) : Untimed k h h₂

theorem Untimed.leads (hu : Untimed k h h') : h.Leads h' := by
  induction hu with
  | refl => exact .refl
  | step _ hn _ ih => exact ih.step hn

theorem Untimed.quiet (hu : Untimed k h h') (hq : h.dispatcher.queue.Quiet k) :
    h'.dispatcher.queue.Quiet k := by
  induction hu with
  | refl => exact hq
  | step _ hn ht ih =>
    obtain ⟨i, d, hs, rfl⟩ := hn
    refine (Dispatcher.step_quiet ih hs).resolve_right fun ⟨_, now, htimers⟩ => ?_
    have hmem : Queue.nextTimer now k _ ∈ d.queue.timers :=
      htimers ▸ List.mem_append_right _ (List.mem_singleton_self _)
    exact ht _ hmem rfl

theorem delay_of_quiet (hq : h₁.dispatcher.queue.Quiet k) (hn : h₁.Next h₂) {t : Timer}
    (ht : t ∈ h₂.dispatcher.queue.timers) (hk : t.key = k) :
    t.delay = backoffDelay 0 h₁.dispatcher.queue.delays.base h₁.dispatcher.queue.delays.cap := by
  obtain ⟨i, d, hs, rfl⟩ := hn
  rcases Dispatcher.step_quiet hq hs with hquiet | ⟨-, now, htimers⟩
  · exact absurd hk (hquiet.untimed t ht)
  · rw [extend, htimers] at ht
    rcases List.mem_append.mp ht with ht | ht
    · exact absurd hk (hq.untimed t ht)
    · rw [List.mem_singleton.mp ht, Queue.nextTimer, hq.failureCount]

/-- An addition or update that is queued after a deletion comes of an event after it. -/
theorem Reached.shown_since (hr : Reached c h) (hg : Orderly h.shown) {s : Sighting}
    (hn : h.shown[n]? = some (.delete s)) {x : Spawning} (hx : x ∈ h.spawned)
    (hk : x.call.delivery.key = s.key) (hd : x.call.delivery.isDelete = false) (hlt : n < x.after) :
    ∃ m e, n < m ∧ m < x.after ∧ h.shown[m]? = some e ∧ Cache.Shows Sighting.key s.key e := by
  have hf := hr.faithful
  have ht := hr.timely
  obtain ⟨hshown, hafter⟩ := hf.shown ht hx hd
  by_cases ho : x.call.origin = .watch
  · refine ⟨x.call.delivery.subject.serial, ?_⟩
    have hne : x.call.delivery.subject.serial ≠ n := by
      rintro rfl
      rcases hshown with he | he <;> cases hn.symm.trans he
    have hge := ht.le_serial hx ho hn hlt ⟨s, rfl, hk.symm⟩
    rcases hshown with he | he
    · exact ⟨_, by omega, hafter, he, _, .inl rfl, hk⟩
    · exact ⟨_, by omega, hafter, he, _, .inr rfl, hk⟩
  · obtain ⟨-, -, hcached⟩ := hf.unwatched x hx ho
    by_contra hnone
    have hgone : Cache.Gone Sighting.key s.key (h.shown.take x.after) := by
      refine ⟨n, s, by rw [List.getElem?_take_of_lt hlt, hn], rfl, fun e he hshows => ?_⟩
      obtain ⟨m, hm⟩ := List.mem_iff_getElem?.mp he
      rw [List.getElem?_drop] at hm
      have hlt' := (List.getElem?_eq_some_iff.mp hm).1
      rw [List.length_take] at hlt'
      rw [List.getElem?_take_of_lt (by omega)] at hm
      exact hnone ⟨n + 1 + m, e, by omega, by omega, hm, hshows⟩
    rw [hk] at hcached
    cases hcached.symm.trans (hgone.uncached (hg.take _)).1

theorem Reached.join_delete (hr : Reached c h) {i : Input} {d : Dispatcher} {x : Call} {o : Outcome}
    (hs : h.dispatcher.step i = .ok d) (hj : h.dispatcher.joined? i = some (x, o))
    (hd : x.delivery.isDelete = true) :
    (h.extend i d).spawned = h.spawned ∧ ∃ slots, d.queue = { h.dispatcher.queue with slots } := by
  cases i with
  | watch _ | settled _ _ _ | expire _ | tick | stop => cases hj
  | join now =>
    rcases Dispatcher.step_join hs with ⟨hnone, -⟩ | ⟨y, o', slots, hsome, rfl⟩
    · rw [Dispatcher.joined?, hnone] at hj
      cases hj
    · rw [Dispatcher.joined?, hsome] at hj
      cases hj
      have hqueue : { h.dispatcher.queue with slots }.finish now h.dispatcher.cache x o =
          { h.dispatcher.queue with slots } := by
        rw [Queue.finish, if_pos hd]
      refine ⟨?_, slots, hqueue⟩
      have hnew := (hr.faithful.coherent.numbered.join hsome).queuedSince_eq_nil
      rw [Slots.queued_of_join hsome] at hnew
      rw [extend, hqueue, Chronicle.slots, hnew, List.map_nil, List.append_nil]

/-- Once a game server is deleted, and as long as the dispatcher survives, no addition or update of
it is queued until it is shown again, it has no timer meanwhile, and the first timer that it gets
then is that of a first failure. The deletion itself is handed to one call, and however that call
ends, nothing comes of it. -/
theorem Reached.deleted_stays_quiet (hr : Reached c h) (hg : Orderly h.shown) {s : Sighting}
    (hn : h.shown[n]? = some (.delete s)) :
    (∀ x ∈ h.spawned, x.call.delivery.key = s.key → x.call.delivery.isDelete = false →
      n < x.after →
        ∃ m e, n < m ∧ m < x.after ∧ h.shown[m]? = some e ∧ Cache.Shows Sighting.key s.key e) ∧
    ((∀ e ∈ h.shown.drop (n + 1), ¬ Cache.Shows Sighting.key s.key e) →
      (∀ t ∈ h.dispatcher.queue.timers, t.key ≠ s.key) ∧
      ∀ h₁ h₂, Untimed s.key h h₁ → h₁.Next h₂ → ∀ t ∈ h₂.dispatcher.queue.timers, t.key = s.key →
        h₁.dispatcher.queue.failureCount s.key = 0 ∧
          t.delay = backoffDelay 0 c.delays.base c.delays.cap) ∧
    h.handed n = [.delete s] ∧
    (∀ x ∈ h.spawned, x.call.delivery.isDelete = true → x.call.origin = .watch) ∧
    (∀ i d x o, h.dispatcher.step i = .ok d → h.dispatcher.joined? i = some (x, o) →
      x.delivery.isDelete = true → (h.extend i d).spawned = h.spawned ∧
        ∃ slots, d.queue = { h.dispatcher.queue with slots }) := by
  refine ⟨fun x hx hk hd hlt => hr.shown_since hg hn hx hk hd hlt, fun hsince => ?_,
    hr.handed_delete hn, fun x hx hd => hr.faithful.origin_of_delete hx hd,
    fun i d x o hs hj hd => hr.join_delete hs hj hd⟩
  have hquiet := hr.quiet_of_gone hg ⟨n, s, hn, rfl, hsince⟩
  refine ⟨hquiet.untimed, fun h₁ h₂ hu hnext t ht hk => ?_⟩
  have hquiet₁ := hu.quiet hquiet
  have hdelay := delay_of_quiet hquiet₁ hnext ht hk
  rw [(hr.leads hu.leads).delays] at hdelay
  exact ⟨hquiet₁.failureCount, hdelay⟩

/-- A game server is deleted while it is added, which fails, and added again. The call of the
deletion fails, and so does that of the second addition. -/
theorem quiet_until_added_again : ∃ h h₁ h₂,
    ofInputs oneSlot [.watch (.apply Queue.lone.gs), .watch (.delete Queue.lone.gs),
      .settled 0 (.failed internalError) 7, .join 7] = .ok h ∧
    (∀ t ∈ h.dispatcher.queue.timers, t.key ≠ Queue.lone.key) ∧ (h.handed 1).length = 1 ∧
    h.extendAll [.watch (.apply Queue.lone.gs), .settled 1 (.failed internalError) 9, .join 9,
      .settled 2 (.failed internalError) 11] = .ok h₁ ∧ h₁.extendAll [.join 11] = .ok h₂ ∧
    ∃ t ∈ h₂.dispatcher.queue.timers, t.key = Queue.lone.key ∧
      t.delay = backoffDelay 0 oneSlot.delays.base oneSlot.delays.cap := by
  obtain ⟨h, h₁, h₂, t, hrun, hshown, hmore, hlast, hu, hnext, ht, hk⟩ : ∃ h h₁ h₂ t,
      ofInputs oneSlot [.watch (.apply Queue.lone.gs), .watch (.delete Queue.lone.gs),
        .settled 0 (.failed internalError) 7, .join 7] = .ok h ∧
      h.shown = [.apply Queue.lone, .delete { Queue.lone with serial := 1 }] ∧
      h.extendAll [.watch (.apply Queue.lone.gs), .settled 1 (.failed internalError) 9, .join 9,
        .settled 2 (.failed internalError) 11] = .ok h₁ ∧ h₁.extendAll [.join 11] = .ok h₂ ∧
      Untimed Queue.lone.key h h₁ ∧ h₁.Next h₂ ∧ t ∈ h₂.dispatcher.queue.timers ∧
      t.key = Queue.lone.key := by
    have hnone : ∀ {ts : List Timer}, ts = [] → ∀ t ∈ ts, t.key ≠ Queue.lone.key := by
      rintro _ rfl t ht
      cases ht
    refine ⟨_, _, _, _, rfl, rfl, rfl, rfl, ?_, ⟨.join 11, _, rfl, rfl⟩,
      List.mem_singleton_self _, rfl⟩
    exact Untimed.refl.step ⟨.watch (.apply Queue.lone.gs), _, rfl, rfl⟩ (hnone rfl)
      |>.step ⟨.settled 1 (.failed internalError) 9, _, rfl, rfl⟩ (hnone rfl)
      |>.step ⟨.join 9, _, rfl, rfl⟩ (hnone rfl)
      |>.step ⟨.settled 2 (.failed internalError) 11, _, rfl, rfl⟩ (hnone rfl)
  have hg : Orderly h.shown := hshown ▸ (Orderly.nil.concat (e := .apply _) rfl).concat rfl
  have hn : h.shown[1]? = some (.delete { Queue.lone with serial := 1 }) := by rw [hshown]; rfl
  obtain ⟨-, hquiet, hhanded, -⟩ := (reached_of_ofInputs hrun).deleted_stays_quiet hg hn
  obtain ⟨huntimed, hfirst⟩ := hquiet (by rw [hshown]; exact fun e he => absurd he List.not_mem_nil)
  exact ⟨h, h₁, h₂, hrun, huntimed, by rw [hhanded]; rfl, hmore, hlast, t, ht, hk,
    (hfirst h₁ h₂ hu hnext t ht hk).2⟩

end Chronicle
end GameIngress.Dispatch
