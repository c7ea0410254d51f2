import GameIngress.Proofs.Dispatch.Step

/-!
# Runs of a dispatcher and what they leave behind

A run is any sequence of inputs that the dispatcher survives. Its chronicle keeps the events that
were taken, the calls that were queued and the calls that were looked at. One input can have five
different effects, and everything that holds of all runs is derived from these. Nothing is said here
of a run beyond an input that breaks the dispatcher down.
-/
namespace GameIngress.Dispatch

open Watch (Key)

/-- A call that was queued, and how many events had been taken by then. -/
structure Spawning where
  call : Call
  after : Nat

structure Chronicle where
  dispatcher : Dispatcher
  /-- The events that were taken. -/
  shown : List (Watch.Event Sighting) := []
  /-- The calls that were queued. -/
  spawned : List Spawning := []
  /-- The calls that ended and were looked at. -/
  joined : List (Call × Outcome) := []

namespace Chronicle

variable {c : Settings} {h h' : Chronicle} {taken : List (Watch.Event Sighting)} {new : List Call}

def slots (h : Chronicle) : Slots := h.dispatcher.queue.slots

/-- The delivery that is put off until the running call ends. -/
def pending? (k : Key) (h : Chronicle) : Option Delivery := h.dispatcher.queue.pending? k

/-- The input `i` leads to the dispatcher `d`. -/
def extend (i : Input) (d : Dispatcher) (h : Chronicle) : Chronicle :=
  let shown := h.shown ++ (h.dispatcher.taken? i).toList
  { dispatcher := d
    shown
    spawned := h.spawned ++ (d.queue.slots.queuedSince h.slots.queued).map (⟨·, shown.length⟩)
    joined := h.joined ++ (h.dispatcher.joined? i).toList }

/-- One input that the dispatcher survives leads from one chronicle to the other. -/
def Next (h h' : Chronicle) : Prop :=
  ∃ i d, h.dispatcher.step i = .ok d ∧ h' = h.extend i d

/-- Any number of inputs lead from one chronicle to the other. -/
inductive Leads (h : Chronicle) : Chronicle → Prop
  | refl : Leads h h
  | step {h₁ h₂ : Chronicle} (hl : Leads h h₁) (hn : Next h₁ h₂) : Leads h h₂

/-- The chronicle of a run, survived so far, of a dispatcher with these settings. -/
def Reached (c : Settings) (h : Chronicle) : Prop :=
  ∃ d, Dispatcher.new c = .ok d ∧ Leads { dispatcher := d } h

theorem Reached.step (hr : Reached c h) (hn : h.Next h') : Reached c h' := by
  obtain ⟨d, hnew, hl⟩ := hr
  exact ⟨d, hnew, hl.step hn⟩

theorem Reached.leads (hr : Reached c h) (hl : h.Leads h') : Reached c h' := by
  induction hl with
  | refl => exact hr
  | step _ hn ih => exact ih.step hn

/-- All of the inputs, one after the other. -/
def extendAll : List Input → Chronicle → Except Crash Chronicle
  | [], h => .ok h
  | i :: is, h =>
    match h.dispatcher.step i with
    | .error e => .error e
    | .ok d => extendAll is (h.extend i d)

/-- The chronicle of the run on these inputs, if all are survived. -/
def ofInputs (c : Settings) (is : List Input) : Except Crash Chronicle :=
  match Dispatcher.new c with
  | .error e => .error e
  | .ok d => extendAll is { dispatcher := d }

/-- One call at a time, and retries after a tenth of a second or more. -/
def oneSlot : Settings where
  concurrency := 1
  period := .ofSecs 3600
  delays := { base := .ofMillis 100, cap := .ofSecs 1 }

def internalError : Failure :=
  .api { message := "boom", reason := "InternalError", code := 500 }

theorem Leads.trans {h₁ : Chronicle} (hl : h.Leads h₁) (hl' : h₁.Leads h') : h.Leads h' := by
  induction hl' with
  | refl => exact hl
  | step _ hn ih => exact ih.step hn

theorem leads_of_extendAll {is : List Input} (hi : h.extendAll is = .ok h') : h.Leads h' := by
  induction is generalizing h with
  | nil =>
    cases hi
    exact .refl
  | cons i is ih =>
    simp only [extendAll] at hi
    cases hs : h.dispatcher.step i with
    | error e => simp [hs] at hi
    | ok d =>
      rw [hs] at hi
      exact (Leads.refl.step ⟨i, d, hs, rfl⟩).trans (ih hi)

theorem reached_of_ofInputs {is : List Input} (hi : ofInputs c is = .ok h) : Reached c h := by
  unfold ofInputs at hi
  cases hnew : Dispatcher.new c with
  | error e => simp [hnew] at hi
  | ok d =>
    rw [hnew] at hi
    exact ⟨d, hnew, leads_of_extendAll hi⟩

theorem Next.of_stopped (hn : h.Next h') (hs : h.dispatcher.stopped = true) :
    h'.dispatcher.stopped = true ∧ h'.shown = h.shown := by
  obtain ⟨i, d, hstep, rfl⟩ := hn
  obtain ⟨hstopped, htaken⟩ := (Dispatcher.step_taken hstep).2.2 hs
  refine ⟨hstopped, ?_⟩
  rw [extend, htaken]
  exact List.append_nil _

/-- The events `taken` were taken and the calls `new` queued; an outstanding call at most was looked
at. -/
structure Adds (taken : List (Watch.Event Sighting)) (new : List Call) (h h' : Chronicle) :
    Prop where
  shown : h'.shown = h.shown ++ taken
  spawned : h'.spawned = h.spawned ++ new.map (⟨·, h'.shown.length⟩)
  ids : new.map (·.id) = List.range' h.slots.queued new.length
  queued : h'.slots.queued = h.slots.queued + new.length
  outstanding : h'.slots.outstanding ≤ h.slots.outstanding + ↑new
  added : ↑new ≤ h'.slots.outstanding
  account : (↑(h.joined.map (·.1)) : Multiset Call) + h.slots.outstanding + ↑new =
    ↑(h'.joined.map (·.1)) + h'.slots.outstanding

theorem adds_extend (hn : h.slots.Numbered) {i : Input} {d : Dispatcher} {mid : Slots}
    (hout : h.slots.outstanding =
      ↑((h.dispatcher.joined? i).toList.map (·.1)) + mid.outstanding)
    (hqueued : mid.queued = h.slots.queued) (ha : Slots.Appends new mid d.queue.slots) :
    Adds (h.dispatcher.taken? i).toList new h (h.extend i d) := by
  have hmid : mid.Numbered := by
    intro x hx
    rw [hqueued]
    exact hn x (hout ▸ Multiset.mem_add.mpr (.inr hx))
  have hnew : d.queue.slots.queuedSince h.slots.queued = new := hqueued ▸ ha.queuedSince hmid
  have hfinal : (h.extend i d).slots.outstanding = mid.outstanding + ↑new := ha.outstanding
  refine ⟨rfl, ?_, hqueued ▸ ha.ids, hqueued ▸ ha.queued, ?_, ?_, ?_⟩
  · rw [extend, hnew]
  · rw [hfinal, hout, Multiset.add_assoc]
    exact Multiset.le_add_left _ _
  · rw [hfinal]
    exact Multiset.le_add_left _ _
  · rw [hfinal, hout, extend, List.map_append, ← Multiset.coe_add]
    simp only [Multiset.add_assoc]

/-- What one input does to a chronicle. -/
inductive Effect (h h' : Chronicle) : Prop
  /-- No event is taken and nothing that was put off is started. -/
  | quiet {new : List Call} (ha : Adds [] new h h')
      (hnew : ∀ x ∈ new, x.origin ≠ .watch ∧ x.delivery.isDelete = false ∧
        h.dispatcher.cache.get? x.delivery.key = some x.delivery.subject ∧
          h.pending? x.delivery.key = none)
      (hstop : h.dispatcher.stopped = true → new = []) (hp : ∀ k, h'.pending? k = h.pending? k)
  /-- An event without an object is taken. -/
  | noted {e : Watch.Event Sighting} (ha : Adds [e] [] h h') (he : e.object? = none)
      (hp : ∀ k, h'.pending? k = h.pending? k)
  /-- An event is taken and its delivery queued. -/
  | handed {e : Watch.Event Sighting} {x : Call} (ha : Adds [e] [x] h h') (hx : x.origin = .watch)
      (hd : Delivery.ofEvent? h.dispatcher.cache e = some x.delivery)
      (hp : ∀ k, h'.pending? k = if x.delivery.key = k then none else h.pending? k)
  /-- An event is taken and its delivery put off. -/
  | held {e : Watch.Event Sighting} {d : Delivery} (ha : Adds [e] [] h h')
      (hd : Delivery.ofEvent? h.dispatcher.cache e = some d) (hdelete : d.isDelete = false)
      (hp : ∀ k, h'.pending? k = if d.key = k then some d else h.pending? k)
  /-- A delivery that was put off is queued. -/
  | resumed {x : Call} (ha : Adds [] [x] h h') (hx : x.origin = .watch)
      (hd : h.pending? x.delivery.key = some x.delivery)
      (hp : ∀ k, h'.pending? k = if x.delivery.key = k then none else h.pending? k)

theorem Effect.adds (he : Effect h h') : ∃ taken new, Adds taken new h h' := by
  cases he with
  | quiet ha | noted ha | handed ha | held ha | resumed ha => exact ⟨_, _, ha⟩

theorem Effect.silent (ha : Adds [] [] h h') (hp : ∀ k, h'.pending? k = h.pending? k) :
    Effect h h' :=
  .quiet ha (fun _ hx => absurd hx List.not_mem_nil) (fun _ => rfl) hp

section Step
variable {i : Input} {d : Dispatcher}

theorem adds_of_appends (hn : h.slots.Numbered) (ht : h.dispatcher.taken? i = none)
    (hj : h.dispatcher.joined? i = none) (ha : Slots.Appends new h.slots d.queue.slots) :
    Adds [] new h (h.extend i d) := by
  have hadds := adds_extend hn (i := i) (by rw [hj]; exact (Multiset.zero_add _).symm) rfl ha
  rwa [ht] at hadds

theorem effect_observe (hc : h.dispatcher.queue.Coherent) {e : Watch.Event Sighting}
    (ht : h.dispatcher.taken? i = some e) (hj : h.dispatcher.joined? i = none) :
    Effect h (h.extend i (h.dispatcher.observe e)) := by
  have hadds : ∀ {new}, Slots.Appends new h.slots (h.dispatcher.observe e).queue.slots →
      Adds [e] new h (h.extend i (h.dispatcher.observe e)) := by
    intro new ha
    have hadds := adds_extend hc.numbered (i := i) (by rw [hj]; exact (Multiset.zero_add _).symm)
      rfl ha
    rwa [ht] at hadds
  cases hd : Delivery.ofEvent? h.dispatcher.cache e with
  | none =>
    have hqueue : (h.dispatcher.observe e).queue = h.dispatcher.queue := by
      simp only [Dispatcher.observe, hd]
    have ha := Slots.Appends.of_eq (congrArg Queue.slots hqueue)
    refine .noted (hadds ha) (Delivery.object?_of_ofEvent?_none hd) fun k => ?_
    change (h.dispatcher.observe e).queue.pending? k = _
    rw [hqueue]
    rfl
  | some delivery =>
    have hqueue : (h.dispatcher.observe e).queue = h.dispatcher.queue.enqueue delivery := by
      simp only [Dispatcher.observe, hd]
    have hpending : ∀ k, (h.extend i (h.dispatcher.observe e)).pending? k =
        (h.dispatcher.queue.enqueue delivery).pending? k := by
      intro k
      change (h.dispatcher.observe e).queue.pending? k = _
      rw [hqueue]
    rcases Queue.enqueue_cases h.dispatcher.queue delivery with
      ⟨hslots, hp⟩ | ⟨hdelete, -, hslots, hp⟩
    · have ha := Slots.Appends.of_enqueue ((congrArg Queue.slots hqueue).trans hslots)
      exact .handed (hadds ha) rfl hd fun k => (hpending k).trans (hp k)
    · have ha := Slots.Appends.of_eq ((congrArg Queue.slots hqueue).trans hslots)
      exact .held (hadds ha) hd hdelete fun k => (hpending k).trans (hp k)

theorem effect_finish (hc : h.dispatcher.queue.Coherent) {now : Nat} {x : Call} {o : Outcome}
    {slots : Slots} (hj : h.dispatcher.queue.slots.join = some ((x, o), slots)) :
    Effect h (h.extend (.join now) { h.dispatcher with
      queue := { h.dispatcher.queue with slots }.finish now h.dispatcher.cache x o }) := by
  have hjoined : h.dispatcher.joined? (.join now) = some (x, o) := by
    simp only [Dispatcher.joined?, hj, Option.map_some]
  have hout : h.slots.outstanding =
      ↑((h.dispatcher.joined? (.join now)).toList.map (·.1)) + slots.outstanding := by
    rw [hjoined, Chronicle.slots, Slots.outstanding_of_join hj]
    exact (Multiset.singleton_add x _).symm
  have hadds : ∀ {new d}, Slots.Appends new slots d.queue.slots →
      Adds [] new h (h.extend (.join now) d) :=
    fun ha => adds_extend hc.numbered hout (Slots.queued_of_join hj) ha
  rcases Queue.finish_cases hc hj now h.dispatcher.cache with ⟨d, hd, hslots, hp⟩ | ⟨hslots, hp⟩
  · exact .resumed (hadds (.of_enqueue hslots)) rfl hd hp
  · exact .silent (hadds (.of_eq hslots)) hp

theorem effect_step (hc : h.dispatcher.queue.Coherent)
    (hk : h.dispatcher.cache.Keyed Sighting.key) (hu : h.dispatcher.cache.Single)
    (hs : h.dispatcher.step i = .ok d) : Effect h (h.extend i d) := by
  have hsame : ∀ {d'}, h.dispatcher.taken? i = none → h.dispatcher.joined? i = none →
      d'.queue.slots = h.slots → (∀ k, d'.queue.pending? k = h.pending? k) →
      Effect h (h.extend i d') := by
    intro d' ht hj hslots hp
    exact .silent (adds_of_appends hc.numbered ht hj (.of_eq hslots)) hp
  cases i with
  | watch e =>
    rcases Dispatcher.step_watch hs with ⟨hstop, rfl⟩ | ⟨hstop, e', he, rfl⟩
    · exact hsame (by simp [Dispatcher.taken?, hstop]) rfl rfl fun k => rfl
    · exact effect_observe hc (by simp [Dispatcher.taken?, hstop, he]) rfl
  | settled id r millis =>
    obtain ⟨hqueue, -⟩ := Dispatcher.step_settled hs
    have hout : h.slots.outstanding = 0 + d.queue.slots.outstanding := by
      rw [hqueue, Multiset.zero_add]
      exact (Slots.outstanding_settle id r _).symm
    have hqueued : d.queue.slots.queued = h.slots.queued := by rw [hqueue]; rfl
    have hadds := adds_extend hc.numbered (i := .settled id r millis) hout hqueued (.of_eq rfl)
    refine .silent hadds fun k => ?_
    change d.queue.pending? k = _
    rw [hqueue]
    rfl
  | join now =>
    rcases Dispatcher.step_join hs with ⟨hj, rfl⟩ | ⟨x, o, slots, hj, rfl⟩
    · exact hsame rfl (by simp [Dispatcher.joined?, hj]) rfl fun k => rfl
    · exact effect_finish hc hj
  | expire timer =>
    rcases Dispatcher.step_expire hs with rfl | ⟨hstop, t, ht, rfl⟩
    · exact hsame rfl rfl rfl fun k => rfl
    · obtain ⟨hslots, hp⟩ := Queue.expire_cases hc ht hk
      rcases hslots with ⟨s, hget, hslots⟩ | hslots
      · have hkey : s.key = t.key := hk.key_eq hget
        have hidle : h.pending? t.key = none := Queue.pending?_of_waiting (hc.waiting_of_mem ht)
        refine .quiet (adds_of_appends hc.numbered rfl rfl (.of_enqueue hslots)) ?_
          (fun h' => absurd (hstop.symm.trans h') (by decide)) hp
        intro x hx
        rw [List.mem_singleton.mp hx]
        refine ⟨fun h' => Origin.noConfusion h', rfl, ?_, ?_⟩
        · change h.dispatcher.cache.get? s.key = some s
          rw [hkey, hget]
        · change h.pending? s.key = none
          rw [hkey, hidle]
      · exact hsame rfl rfl hslots hp
  | tick =>
    rcases Dispatcher.step_tick hs with rfl | ⟨hstop, rfl⟩
    · exact hsame rfl rfl rfl fun k => rfl
    · obtain ⟨new, ha, hnew⟩ := Queue.resync_appends h.dispatcher.cache.values h.dispatcher.queue
      refine .quiet (adds_of_appends hc.numbered rfl rfl ha) ?_
        (fun h' => absurd (hstop.symm.trans h') (by decide))
        fun k => Queue.pending?_resync _ _
      intro x hx
      obtain ⟨horigin, ⟨s, hmem, hd⟩, hidle⟩ := hnew x hx
      refine ⟨by rw [horigin]; decide, by rw [hd]; rfl, ?_, hidle⟩
      rw [hd]
      exact hu.get?_of_mem_values hk hmem
  | stop =>
    rw [Dispatcher.step_stop hs]
    exact hsame rfl rfl rfl fun k => rfl

end Step

end Chronicle
end GameIngress.Dispatch
