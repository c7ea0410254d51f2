import GameIngress.Controller
import GameIngress.Dispatch.Script
import GameIngress.Proofs.Dispatch.Survival

/-!
# Every event is handed over once

The delivery of an event is handed to one call, unless a later event about the same game server
comes while it is put off. A dispatcher that is done has handed over all that was put off, and has
seen every call end. One that breaks down is never done, and what it had queued is lost.
-/
namespace GameIngress.Dispatch

universe u

open Watch (Key Cache)

/-- The call was queued for the event `n`. -/
def Call.Hands (n : Nat) (x : Call) : Prop := x.origin = .watch ∧ x.delivery.subject.serial = n

instance (n : Nat) : DecidablePred (Call.Hands n) := fun x =>
  inferInstanceAs (Decidable (x.origin = .watch ∧ x.delivery.subject.serial = n))

theorem Slots.outstanding_of_isIdle {s : Slots} (hs : s.isIdle = true) : s.outstanding = 0 := by
  obtain ⟨⟨hrunning, hwaiting⟩, hended⟩ : (s.running = [] ∧ s.waiting = []) ∧ s.ended = [] := by
    simpa [isIdle] using hs
  rw [outstanding, unfinished, hrunning, hwaiting, hended]
  rfl

namespace Chronicle

variable {c : Settings} {h h' h₀ : Chronicle} {taken : List (Watch.Event Sighting)}
  {new : List Call} {d : Delivery} {n : Nat}

/-- What was handed to the calls that were queued for the event `n`. -/
def handed (n : Nat) (h : Chronicle) : List Delivery :=
  ((h.spawned.map (·.call)).filter (Call.Hands n)).map (·.delivery)

/-- At some point of the run the delivery was put off, and the next event was about the same game
server. -/
def Displaced (c : Settings) (d : Delivery) (h : Chronicle) : Prop :=
  ∃ h₁ h₂ e, Reached c h₁ ∧ h₁.Next h₂ ∧ h₂.Leads h ∧ h₂.shown = h₁.shown ++ [e] ∧
    Cache.Concerns Sighting.key d.key e ∧ h₁.pending? d.key = some d

/-- How the delivery of the event `n` stands: it was handed over once; or it was not, and is put off
or was displaced. -/
def Settled (c : Settings) (n : Nat) (d : Delivery) (h : Chronicle) : Prop :=
  (h.handed n = [d] ∧ h.pending? d.key ≠ some d) ∨
  (h.handed n = [] ∧ (h.pending? d.key = some d ∨ Displaced c d h))

theorem Displaced.next (hd : Displaced c d h) (hn : h.Next h') : Displaced c d h' := by
  obtain ⟨h₁, h₂, e, hr, hn₁, hl, hrest⟩ := hd
  exact ⟨h₁, h₂, e, hr, hn₁, hl.step hn, hrest⟩

section Handed

theorem handed_of_adds (ha : Adds taken new h h') :
    h'.handed n = h.handed n ++ (new.filter (Call.Hands n)).map (·.delivery) := by
  simp only [handed, ha.spawned, List.map_append, List.map_map, List.filter_append,
    Function.comp_def, List.map_id']

theorem handed_eq (ha : Adds taken new h h') (hnew : ∀ x ∈ new, ¬ Call.Hands n x) :
    h'.handed n = h.handed n := by
  have hnone : new.filter (Call.Hands n) = [] := by
    rw [List.filter_eq_nil_iff]
    intro x hx
    simpa using hnew x hx
  rw [handed_of_adds ha, hnone, List.map_nil, List.append_nil]

theorem handed_concat {x : Call} (ha : Adds taken [x] h h') (hx : Call.Hands n x) :
    h'.handed n = h.handed n ++ [x.delivery] := by
  rw [handed_of_adds ha, List.filter_cons_of_pos (by simpa using hx), List.filter_nil]
  rfl

theorem Faithful.handed_eq_nil (hf : h.Faithful) (hn : h.delivery? n = none) :
    h.handed n = [] := by
  rw [handed, List.map_eq_nil_iff, List.filter_eq_nil_iff]
  intro x hx
  obtain ⟨y, hy, rfl⟩ := List.mem_map.mp hx
  have hother : ¬ Call.Hands n y.call := by
    rintro ⟨ho, rfl⟩
    rw [hf.watched y hy ho] at hn
    cases hn
  simpa using hother

end Handed

section Settled

theorem Settled.stays (hs : Settled c n d h) (hn : h.Next h') (hh : h'.handed n = h.handed n)
    (hp : h'.pending? d.key = some d ↔ h.pending? d.key = some d) : Settled c n d h' := by
  rcases hs with ⟨hone, hnot⟩ | ⟨hnone, hput | hgone⟩
  · exact .inl ⟨hh.trans hone, fun hput => hnot (hp.mp hput)⟩
  · exact .inr ⟨hh.trans hnone, .inl (hp.mpr hput)⟩
  · exact .inr ⟨hh.trans hnone, .inr (hgone.next hn)⟩

/-- An event about the same game server is taken, and something else is put off or nothing is. -/
theorem Settled.displaced (hs : Settled c n d h) (hr : Reached c h) (hn : h.Next h')
    {e : Watch.Event Sighting} (hshown : h'.shown = h.shown ++ [e])
    (he : Cache.Concerns Sighting.key d.key e) (hh : h'.handed n = h.handed n)
    (hp : h'.pending? d.key ≠ some d) : Settled c n d h' := by
  rcases hs with ⟨hone, -⟩ | ⟨hnone, hput | hgone⟩
  · exact .inl ⟨hh.trans hone, hp⟩
  · exact .inr ⟨hh.trans hnone, .inr ⟨h, h', e, hr, hn, .refl, hshown, he, hput⟩⟩
  · exact .inr ⟨hh.trans hnone, .inr (hgone.next hn)⟩

theorem concerns_subject {cache : Dispatch.Cache} {e : Watch.Event Sighting}
    (hd : Delivery.ofEvent? cache e = some d) : Cache.Concerns Sighting.key d.key e :=
  ⟨d.subject, Delivery.object?_of_ofEvent? hd, rfl⟩

theorem Settled.older (hs : Settled c n d h) (hr : Reached c h) (hn : h.Next h')
    (hlt : n < h.shown.length) {e : Watch.Event Sighting} (ha : Adds [e] new h h')
    {d' : Delivery} (hserial : d'.subject.serial = h.shown.length) {after : Option Delivery}
    (hd' : Delivery.ofEvent? h.dispatcher.cache e = some d')
    (hnew : ∀ x ∈ new, x.delivery = d')
    (hafter : ∀ d₁, after = some d₁ → d₁ = d') (hd : d.subject.serial = n)
    (hp : ∀ k, h'.pending? k = if d'.key = k then after else h.pending? k) :
    Settled c n d h' := by
  have hne : d ≠ d' := by
    rintro rfl
    exact absurd (hserial.symm.trans hd) (Nat.ne_of_gt hlt)
  have hh : h'.handed n = h.handed n := by
    refine handed_eq ha fun x hx hx' => ?_
    have hx'' : d'.subject.serial = n := hnew x hx ▸ hx'.2
    exact absurd (hserial.symm.trans hx'') (Nat.ne_of_gt hlt)
  by_cases hk : d'.key = d.key
  · refine hs.displaced hr hn ha.shown (hk ▸ concerns_subject hd') hh fun hput => ?_
    rw [hp, if_pos hk] at hput
    exact hne (hafter d hput)
  · exact hs.stays hn hh (by rw [hp, if_neg hk])

theorem Settled.resumed (hs : Settled c n d h) (hf : h.Faithful) (hd : h.delivery? n = some d)
    (hn : h.Next h') {x : Call} (ha : Adds taken [x] h h') (hx : x.origin = .watch)
    (hput : h.pending? x.delivery.key = some x.delivery)
    (hp : ∀ k, h'.pending? k = if x.delivery.key = k then none else h.pending? k) :
    Settled c n d h' := by
  by_cases hserial : x.delivery.subject.serial = n
  · have heq : x.delivery = d := by
      have hsource := hf.pending _ _ hput
      rw [hserial, hd] at hsource
      exact (Option.some.inj hsource).symm
    have hnone : h.handed n = [] := by
      rcases hs with ⟨-, hnot⟩ | ⟨hnone, -⟩
      · exact absurd (heq ▸ hput) hnot
      · exact hnone
    refine .inl ⟨?_, ?_⟩
    · rw [handed_concat ha ⟨hx, hserial⟩, hnone, heq]
      rfl
    · rw [hp, heq, if_pos rfl]
      simp
  · have hh : h'.handed n = h.handed n := by
      refine handed_eq ha fun y hy hy' => hserial ?_
      rw [← List.mem_singleton.mp hy]
      exact hy'.2
    refine hs.stays hn hh ?_
    by_cases hk : x.delivery.key = d.key
    · rw [hp, if_pos hk, ← hk, hput]
      refine ⟨fun hnone => (by cases hnone), fun heq => absurd ?_ hserial⟩
      rw [Option.some.inj heq]
      exact hf.serial_eq hd
    · rw [hp, if_neg hk]

theorem Faithful.settled_of_handed (hf : h.Faithful) {e : Watch.Event Sighting} {x : Call}
    (ha : Adds [e] [x] h h') (hx : Call.Hands h.shown.length x)
    (hp : h'.pending? x.delivery.key = none) : Settled c h.shown.length x.delivery h' := by
  refine .inl ⟨?_, fun hput => ?_⟩
  · rw [handed_concat ha hx, hf.handed_eq_nil (delivery?_of_length_le (Nat.le_refl _))]
    rfl
  · cases hp.symm.trans hput

theorem Faithful.settled_of_held (hf : h.Faithful) {e : Watch.Event Sighting}
    (ha : Adds [e] [] h h') (hp : h'.pending? d.key = some d) :
    Settled c h.shown.length d h' := by
  refine .inr ⟨?_, .inl hp⟩
  rw [handed_eq ha fun x hx => absurd hx List.not_mem_nil]
  exact hf.handed_eq_nil (delivery?_of_length_le (Nat.le_refl _))

end Settled

theorem Reached.settled (hr : Reached c h) (hd : h.delivery? n = some d) : Settled c n d h := by
  obtain ⟨d₀, hnew, hl⟩ := hr
  induction hl generalizing n d with
  | refl => exact absurd (lt_of_delivery? hd) (Nat.not_lt_zero n)
  | @step h₁ h₂ hl hn ih =>
    have hr₁ : Reached c h₁ := ⟨d₀, hnew, hl⟩
    have hf := hr₁.faithful
    have hf₂ := hf.step hn
    have hold : ∀ {taken new}, Adds taken new h₁ h₂ → n < h₁.shown.length → Settled c n d h₁ := by
      intro taken new ha hlt
      exact ih (delivery?_of_adds ha hlt ▸ hd)
    have hlen : ∀ {new}, Adds [] new h₁ h₂ → n < h₁.shown.length := by
      intro new ha
      have hlt := lt_of_delivery? hd
      rwa [ha.shown, List.append_nil] at hlt
    have hlast : ∀ {e new}, Adds [e] new h₁ h₂ → n < h₁.shown.length ∨ n = h₁.shown.length := by
      intro e new ha
      have hlt := lt_of_delivery? hd
      rw [ha.shown, List.length_append, List.length_singleton] at hlt
      omega
    have hserial : ∀ {e new d'}, Adds [e] new h₁ h₂ →
        Delivery.ofEvent? h₁.dispatcher.cache e = some d' →
        d'.subject.serial = h₁.shown.length := by
      intro e new d' ha hd'
      exact hf₂.serial_eq ((delivery?_length hf ha).trans hd')
    cases hf.effect hn with
    | @quiet new ha hwatch _ hp =>
      refine (hold ha (hlen ha)).stays hn (handed_eq ha fun x hx hx' => ?_) (by rw [hp])
      exact (hwatch x hx).1 hx'.1
    | noted ha he hp =>
      rcases hlast ha with hlt | rfl
      · exact (hold ha hlt).stays hn (handed_eq ha fun x hx => absurd hx List.not_mem_nil)
          (by rw [hp])
      · rw [delivery?_length hf ha] at hd
        have hobject := Delivery.object?_of_ofEvent? hd
        rw [he] at hobject
        cases hobject
    | @handed e x ha hx hd' hp =>
      rcases hlast ha with hlt | rfl
      · refine (hold ha hlt).older hr₁ hn hlt ha (hserial ha hd') hd' ?_ ?_ (hf₂.serial_eq hd) hp
        · intro y hy
          rw [List.mem_singleton.mp hy]
        · intro d₁ hd₁
          cases hd₁
      · obtain rfl : x.delivery = d :=
          Option.some.inj (hd'.symm.trans (delivery?_length hf ha ▸ hd))
        exact hf.settled_of_handed ha ⟨hx, hserial ha hd'⟩ (by rw [hp, if_pos rfl])
    | @held e d' ha hd' hdelete hp =>
      rcases hlast ha with hlt | rfl
      · refine (hold ha hlt).older hr₁ hn hlt ha (hserial ha hd') hd' ?_ ?_ (hf₂.serial_eq hd) hp
        · intro y hy
          cases hy
        · intro d₁ hd₁
          exact (Option.some.inj hd₁).symm
      · obtain rfl : d' = d := Option.some.inj (hd'.symm.trans (delivery?_length hf ha ▸ hd))
        exact hf.settled_of_held ha (by rw [hp, if_pos rfl])
    | resumed ha hx hput hp =>
      have hd₁ : h₁.delivery? n = some d := delivery?_of_adds ha (hlen ha) ▸ hd
      exact (hold ha (hlen ha)).resumed hf hd₁ hn ha hx hput hp

section Drain

/-- What was put off when the dispatcher stopped is put off still, or one of the calls since. -/
structure Drained (h₀ h : Chronicle) (new : List Spawning) : Prop where
  stopped : h.dispatcher.stopped = true
  spawned : h.spawned = h₀.spawned ++ new
  watched : ∀ x ∈ new, x.call.origin = .watch
  kept : ∀ k d, h₀.pending? k = some d → h.pending? k = some d ∨ ∃ x ∈ new, x.call.delivery = d

theorem Drained.step {more : List Spawning} (hs : Drained h₀ h more) (hf : h.Faithful)
    (hn : h.Next h') : ∃ more', Drained h₀ h' more' := by
  obtain ⟨hstop, hshown⟩ := hn.of_stopped hs.stopped
  have hnot : ∀ {e new}, ¬ Adds [e] new h h' := by
    intro e new ha
    have hlen := congrArg List.length (hshown.symm.trans ha.shown)
    simp at hlen
  cases hf.effect hn with
  | quiet ha _ hquiet hp =>
    have hspawned := ha.spawned
    rw [hquiet hs.stopped, List.map_nil, List.append_nil] at hspawned
    exact ⟨more, hstop, hspawned.trans hs.spawned, hs.watched, fun k d hk => hp k ▸ hs.kept k d hk⟩
  | noted ha => exact absurd ha hnot
  | handed ha => exact absurd ha hnot
  | held ha => exact absurd ha hnot
  | @resumed x ha hx hput hp =>
    refine ⟨more ++ [⟨x, h'.shown.length⟩], hstop, ?_, ?_, ?_⟩
    · rw [ha.spawned, hs.spawned, List.append_assoc]
      rfl
    · intro y hy
      rcases List.mem_append.mp hy with hy | hy
      · exact hs.watched y hy
      · rw [List.mem_singleton.mp hy]
        exact hx
    · intro k d hk
      rcases hs.kept k d hk with hput' | ⟨y, hy, hd⟩
      · by_cases hkey : x.delivery.key = k
        · rw [hkey, hput'] at hput
          refine .inr ⟨_, List.mem_append_right _ (List.mem_singleton_self _), ?_⟩
          exact (Option.some.inj hput).symm
        · exact .inl (by rw [hp, if_neg hkey, hput'])
      · exact .inr ⟨y, List.mem_append_left _ hy, hd⟩

theorem Leads.drained (hr : Reached c h₀) (hs : h₀.dispatcher.stopped = true)
    (hl : h₀.Leads h) : ∃ new, Drained h₀ h new := by
  induction hl with
  | refl =>
    exact ⟨[], hs, (List.append_nil _).symm, fun x hx => absurd hx List.not_mem_nil,
      fun k d hk => .inl hk⟩
  | step hl hn ih =>
    obtain ⟨new, hdrained⟩ := ih
    exact hdrained.step (hr.leads hl).faithful hn

theorem Faithful.of_isDone (hf : h.Faithful) (hdone : h.dispatcher.isDone = true) :
    (h.joined.map (·.1)).Perm (h.spawned.map (·.call)) ∧ ∀ k, h.pending? k = none := by
  have hout : h.slots.outstanding = 0 :=
    Slots.outstanding_of_isIdle (Bool.and_eq_true_iff.mp hdone).2
  constructor
  · have haccount := hf.account
    rw [hout, Multiset.add_zero] at haccount
    exact (Multiset.coe_eq_coe.mp haccount).symm
  · intro k
    cases hp : h.pending? k with
    | none => rfl
    | some d =>
      obtain ⟨⟨x, hx⟩, -⟩ := hf.coherent.running (Queue.standing?_of_pending? hp)
      have hcalls : (h.dispatcher.queue.profile k).calls = 0 := by
        change h.slots.outstanding.filter _ = 0
        rw [hout, Multiset.filter_zero]
      rw [hcalls] at hx
      exact absurd hx.symm (Multiset.singleton_ne_zero x)

end Drain

theorem exists_delivery? {e : Watch.Event Sighting} {s : Sighting} (he : h.shown[n]? = some e)
    (hs : e = .initApply s ∨ e = .apply s) :
    ∃ d, h.delivery? n = some d ∧ d.isDelete = false ∧ d.subject = s := by
  rw [delivery?, he]
  rcases hs with rfl | rfl
  · exact ⟨_, rfl, rfl, rfl⟩
  · simp only [Option.bind_some, Delivery.ofEvent?]
    split
    · exact ⟨_, rfl, rfl, rfl⟩
    · exact ⟨_, rfl, rfl, rfl⟩

/-- No event is lost or handed over twice in a run that was survived so far. -/
structure HandsOver (c : Settings) (h : Chronicle) : Prop where
  /-- A deletion is handed to one call. -/
  deletion : ∀ n s, h.shown[n]? = some (.delete s) → h.handed n = [.delete s]
  /-- The delivery of an event that shows a game server is handed to one call, unless it is still
  put off, or a later event about the same game server came while it was. -/
  sighting : ∀ n e s, h.shown[n]? = some e → e = .initApply s ∨ e = .apply s →
    ∃ d, h.delivery? n = some d ∧ d.isDelete = false ∧ d.subject = s ∧
      (h.handed n = [d] ∨ h.handed n = [] ∧ (h.pending? d.key = some d ∨ Displaced c d h))
  /-- Only events lead to calls of deletions. -/
  origin : ∀ x ∈ h.spawned, x.call.delivery.isDelete = true → x.call.origin = .watch
  distinct : (h.spawned.map (·.call.id)).Nodup
  /-- A dispatcher that is done has seen all calls end. -/
  done : h.dispatcher.isDone = true →
    (h.joined.map (·.1)).Perm (h.spawned.map (·.call)) ∧ ∀ k, h.pending? k = none
  /-- What was put off when the dispatcher stopped is handed over until it is done, and nothing else
  is started since. -/
  drain : ∀ h₀, Reached c h₀ → h₀.dispatcher.stopped = true → h₀.Leads h →
    ∃ new, h.spawned = h₀.spawned ++ new ∧ (∀ x ∈ new, x.call.origin = .watch) ∧
      (h.dispatcher.isDone = true → ∀ k d, h₀.pending? k = some d →
        ∃ x ∈ new, x.call.delivery = d ∧ x.call ∈ h.joined.map (·.1))

theorem Reached.handed_delete (hr : Reached c h) {s : Sighting}
    (he : h.shown[n]? = some (.delete s)) : h.handed n = [.delete s] := by
  have hd : h.delivery? n = some (.delete s) := by
    rw [delivery?, he]
    rfl
  rcases hr.settled hd with ⟨hone, -⟩ | ⟨-, hput | ⟨h₁, h₂, e, hr₁, -, -, -, -, hput⟩⟩
  · exact hone
  · exact absurd (hr.faithful.of_pending hput).2 (by simp [Delivery.isDelete])
  · exact absurd (hr₁.faithful.of_pending hput).2 (by simp [Delivery.isDelete])

theorem Faithful.origin_of_delete (hf : h.Faithful) {x : Spawning} (hx : x ∈ h.spawned)
    (hd : x.call.delivery.isDelete = true) : x.call.origin = .watch := by
  by_contra ho
  rw [(hf.unwatched x hx ho).1] at hd
  cases hd

theorem Reached.handsOver (hr : Reached c h) : HandsOver c h := by
  have hf := hr.faithful
  refine ⟨fun n s he => hr.handed_delete he, ?_, fun x hx hd => hf.origin_of_delete hx hd, ?_,
    hf.of_isDone, ?_⟩
  · intro n e s he hs
    obtain ⟨d, hd, hdelete, hsubject⟩ := exists_delivery? he hs
    refine ⟨d, hd, hdelete, hsubject, ?_⟩
    rcases hr.settled hd with ⟨hone, -⟩ | hrest
    · exact .inl hone
    · exact .inr hrest
  · rw [hf.ids]
    exact List.nodup_range
  · intro h₀ hr₀ hs hl
    obtain ⟨new, hdrained⟩ := hl.drained hr₀ hs
    refine ⟨new, hdrained.spawned, hdrained.watched, fun hdone k d hk => ?_⟩
    obtain ⟨hperm, hnone⟩ := hf.of_isDone hdone
    rcases hdrained.kept k d hk with hput | ⟨x, hx, hd⟩
    · rw [hnone k] at hput
      cases hput
    · refine ⟨x, hx, hd, hperm.mem_iff.mpr (List.mem_map_of_mem ?_)⟩
      rw [hdrained.spawned]
      exact List.mem_append_right _ hx

/-- No event is lost or handed over twice, unless the dispatcher breaks down. A run on any inputs is
survived, or its first inputs are, up to one that breaks the dispatcher down; and a simulation in
any surroundings goes on until its dispatcher is done, or something breaks it down. All that was
survived hands every event over once. -/
theorem every_event_handed_over {d₀ : Dispatcher} (hnew : Dispatcher.new c = .ok d₀) :
    (∀ is, (∃ h, ofInputs c is = .ok h ∧ HandsOver c h) ∨
      ∃ before i after h e, is = before ++ i :: after ∧ ofInputs c before = .ok h ∧
        HandsOver c h ∧ h.dispatcher.Breaks i e ∧ ofInputs c is = .error e) ∧
    ∀ {σ : Type} {π : Type u} (env : Surroundings σ π) world now cancelAt n s,
      Simulation.start world c now cancelAt = .ok s →
      (∃ s' ts h, s.run env n = .ok s' ∧ Simulation.Follows c s' ts h ∧ HandsOver c h ∧
        (s'.step env = .ok none → h.dispatcher.isDone = true)) ∨
      ∃ h i e, s.run env n = .error e ∧ Reached c h ∧ HandsOver c h ∧ Simulation.Shows env i ∧
        h.dispatcher.Breaks i e := by
  have hr : Reached c { dispatcher := d₀ } := ⟨d₀, hnew, .refl⟩
  have hof : ∀ is, ofInputs c is = extendAll is { dispatcher := d₀ } := fun is => by
    rw [ofInputs, hnew]
  refine ⟨fun is => ?_, fun env world now cancelAt n s hstart => ?_⟩
  · rcases hr.extendAll_cases is with
      ⟨h, hall, hr'⟩ | ⟨before, i, after, h, e, his, hbefore, hr', hb, hall⟩
    · exact .inl ⟨h, (hof is).trans hall, hr'.handsOver⟩
    · exact .inr ⟨before, i, after, h, e, his, (hof before).trans hbefore, hr'.handsOver, hb,
        (hof is).trans hall⟩
  · rcases Simulation.run_cases hstart n with ⟨s', hrun, -⟩ | ⟨e, hrun, h, i, hr', hshows, hb⟩
    · obtain ⟨ts, h, hf, hdone⟩ := Simulation.follows_of_run hstart hrun
      exact .inl ⟨s', ts, h, hrun, hf, hf.run.reached.handsOver, hf.dispatcher ▸ hdone⟩
    · exact .inr ⟨h, i, e, hrun, hr', hr'.handsOver, hshows, hb⟩

/-- A change that comes while a call has the only slot is handed over after the dispatcher stopped.
-/
theorem handed_over_after_stop : ∃ d h, Dispatcher.new oneSlot = .ok d ∧
    ofInputs oneSlot [.watch (.apply Queue.lone.gs), .watch (.apply Queue.lone.gs), .stop,
      .settled 0 .ok 7, .join 7, .settled 1 .panicked 9, .join 9] = .ok h ∧
    h.dispatcher.isDone = true ∧ (h.joined.map (·.1)).Perm (h.spawned.map (·.call)) ∧
    ∃ d, d.isDelete = false ∧ h.handed 1 = [d] := by
  obtain ⟨d₀, h, hnew, hrun, hdone, hlength, hshown⟩ : ∃ d h, Dispatcher.new oneSlot = .ok d ∧
      ofInputs oneSlot [.watch (.apply Queue.lone.gs), .watch (.apply Queue.lone.gs), .stop,
        .settled 0 .ok 7, .join 7, .settled 1 .panicked 9, .join 9] = .ok h ∧
      h.dispatcher.isDone = true ∧ (h.handed 1).length = 1 ∧
      h.shown[1]? = some (.apply { Queue.lone with serial := 1 }) :=
    ⟨_, _, rfl, rfl, rfl, rfl, rfl⟩
  rcases (every_event_handed_over.{0} hnew).1 _ with
    ⟨h', hrun', hover⟩ | ⟨_, _, _, _, e, -, -, -, -, hcrash⟩
  · cases hrun.symm.trans hrun'
    obtain ⟨d, -, hdelete, -, hone | ⟨hnone, -⟩⟩ := hover.sighting 1 _ _ hshown (.inr rfl)
    · exact ⟨d₀, h, hnew, hrun, hdone, (hover.done hdone).1, d, hdelete, hone⟩
    · rw [hnone] at hlength
      cases hlength
  · cases hrun.symm.trans hcrash

/-- A game server is added, whose only call fails after 7 ms, and two other ones are deleted. -/
def addsAndDeletes : Script where
  events := [⟨0, some (.apply Queue.lone.gs)⟩,
    ⟨0, some (.delete { metadata := { ns := some "d", name := some "b" } })⟩,
    ⟨0, some (.delete { metadata := { ns := some "d", name := some "c" } })⟩]
  otherwise := { delay := 7, result := .failed internalError }

/-- The configuration is valid, and all three events are taken. But the dispatcher breaks down over
the failure, and the second deletion, which waits for the only slot, is never handed over. -/
theorem deletion_lost_in_breakdown :
    ∃ (c : Config) (s s' : Simulation Script CallResult) (x : Call),
    c = { maxConcurrentReconciles := 1, requeueBaseDelay := .ofMillis 68719476736,
          requeueMaxDelay := .ofMillis 68719476736 } ∧ c.validate = .ok c ∧
    Simulation.start addsAndDeletes (Controller.dispatchSettings c) 0 none = .ok s ∧
    s.run Script.surroundings 11 = .ok s' ∧ s'.world.events = [] ∧
    s'.dispatcher.queue.slots.waiting = [x] ∧ x.id = 2 ∧ x.delivery.isDelete = true ∧
    x.delivery.key = { ns := some "d", name := "c" } ∧
    s'.records.map (·.call.id) = [0] ∧ s'.inProgress.map (·.call.id) = [1] ∧
    ∀ m, s.run Script.surroundings (m + 12) = .error .timerTooFar :=
  ⟨_, _, _, _, rfl, rfl, rfl, rfl, rfl, rfl, rfl, rfl, rfl, rfl, rfl, fun _ => rfl⟩

end Chronicle
end GameIngress.Dispatch
