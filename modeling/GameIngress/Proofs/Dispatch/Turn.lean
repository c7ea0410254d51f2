import GameIngress.Proofs.Dispatch.Faithful

/-!
# Runs, turn by turn

A run is told as the list of its turns. A turn is one input: when it came, what it found and what it
left. The turns of a run tell which calls were queued and which timers were set, and when; a call
that is looked at has ended in an earlier turn.
-/
namespace GameIngress.Dispatch

open Watch (Key)

/-- What an input does to the slots: calls are queued, a call ends, or the call that ended first is
looked at, after which calls may be queued too. -/
inductive Slots.Change (s : Slots) : Input → Slots → Prop
  | queued {i : Input} {s' : Slots} {new : List Call} (ha : Appends new s s') : Change s i s'
  | ended (id : Nat) (r : CallResult) (millis : Nat) :
      Change s (.settled id r millis) (s.settle id r)
  | joined {now : Nat} {x : Call} {o : Outcome} {mid s' : Slots} {new : List Call}
      (hj : s.join = some ((x, o), mid)) (ha : Appends new mid s') : Change s (.join now) s'

namespace Dispatcher

variable {d d' : Dispatcher} {i : Input}

/-- The timer that an input makes the dispatcher look at. -/
def expired? (d : Dispatcher) : Input → Option Timer
  | .expire timer => if d.stopped then none else d.queue.timers.find? (·.id = timer)
  | _ => none

theorem step_expired {timer : Nat} (hs : d.step (.expire timer) = .ok d') :
    (d.expired? (.expire timer) = none ∧ d' = d) ∨
    ∃ t ∈ d.queue.timers, t.id = timer ∧ d.stopped = false ∧
      d.expired? (.expire timer) = some t ∧ d' = { d with queue := d.queue.expire d.cache t } := by
  cases hstop : d.stopped with
  | true =>
    simp only [step, hstop, ↓reduceIte, Except.ok.injEq] at hs
    exact .inl ⟨by simp [expired?, hstop], hs.symm⟩
  | false =>
    simp only [step, hstop, Bool.false_eq_true, ↓reduceIte] at hs
    cases ht : d.queue.timers.find? (·.id = timer) with
    | none =>
      simp only [ht, Except.ok.injEq] at hs
      exact .inl ⟨by simp [expired?, hstop, ht], hs.symm⟩
    | some t =>
      simp only [ht, Except.ok.injEq] at hs
      have hid : t.id = timer := by simpa using List.find?_some ht
      exact .inr ⟨t, List.mem_of_find?_eq_some ht, hid, rfl, by simp [expired?, hstop, ht],
        hs.symm⟩

/-- Only the end of a call takes it out of its slot, and only looking at it makes it forgotten. -/
theorem step_slots (hc : d.queue.Coherent) (hk : d.cache.Keyed Sighting.key)
    (hs : d.step i = .ok d') : d.queue.slots.Change i d'.queue.slots := by
  cases i with
  | watch e =>
    rcases step_watch hs with ⟨-, rfl⟩ | ⟨-, e', -, rfl⟩
    · exact .queued (.of_eq rfl)
    · simp only [observe]
      cases Delivery.ofEvent? d.cache e' with
      | none => exact .queued (.of_eq rfl)
      | some delivery =>
        rcases Queue.enqueue_cases d.queue delivery with ⟨hslots, -⟩ | ⟨-, -, hslots, -⟩
        · exact .queued (.of_enqueue hslots)
        · exact .queued (.of_eq hslots)
  | settled id r millis =>
    rw [(step_settled hs).1]
    exact .ended id r millis
  | join now =>
    rcases step_join hs with ⟨-, rfl⟩ | ⟨x, o, slots, hj, rfl⟩
    · exact .queued (.of_eq rfl)
    · rcases Queue.finish_cases hc hj now d.cache with ⟨delivery, -, hslots, -⟩ | ⟨hslots, -⟩
      · exact .joined hj (.of_enqueue hslots)
      · exact .joined hj (.of_eq hslots)
  | expire timer =>
    rcases step_expire hs with rfl | ⟨-, t, ht, rfl⟩
    · exact .queued (.of_eq rfl)
    · rcases (Queue.expire_cases hc ht hk).1 with ⟨s, -, hslots⟩ | hslots
      · exact .queued (.of_enqueue hslots)
      · exact .queued (.of_eq hslots)
  | tick =>
    rcases step_tick hs with rfl | ⟨-, rfl⟩
    · exact .queued (.of_eq rfl)
    · obtain ⟨new, ha, -⟩ := Queue.resync_appends d.cache.values d.queue
      exact .queued ha
  | stop =>
    rw [step_stop hs]
    exact .queued (.of_eq rfl)

end Dispatcher

/-- One input: when it came, what it found and what it left. -/
structure Turn where
  time : Nat
  before : Chronicle
  input : Input
  after : Dispatcher

namespace Turn

def reached (t : Turn) : Chronicle := t.before.extend t.input t.after

def taken? (t : Turn) : Option (Watch.Event Sighting) := t.before.dispatcher.taken? t.input

def joined? (t : Turn) : Option (Call × Outcome) := t.before.dispatcher.joined? t.input

def expired? (t : Turn) : Option Timer := t.before.dispatcher.expired? t.input

def queued (t : Turn) : List Call := t.after.queue.slots.queuedSince t.before.slots.queued

def armed (t : Turn) : List Timer :=
  t.after.queue.timers.filter (t.before.dispatcher.queue.armed ≤ ·.id)

/-- The call ended in this turn, and this is what is to be done about it. -/
def Ends (x : Call) (o : Outcome) (t : Turn) : Prop :=
  ∃ r millis, t.input = .settled x.id r millis ∧ x ∈ t.before.slots.running ∧
    o = Outcome.of x.delivery r

/-- A call is looked at when the clock says so, and a timer not before it is due. -/
def Timely (t : Turn) : Prop :=
  match t.input with
  | .join now => now = t.time
  | .expire timer => ∀ x ∈ t.before.dispatcher.queue.timers, x.id = timer → x.due ≤ t.time
  | .watch _ | .settled _ _ _ | .tick | .stop => True

end Turn

/-- The turns keep to a clock that does not go back. -/
structure OnTime (ts : List Turn) : Prop where
  ordered : ts.Pairwise (·.time ≤ ·.time)
  timely : ∀ t ∈ ts, t.Timely

namespace OnTime

variable {ts us : List Turn} {t u : Turn}

theorem nil : OnTime [] := ⟨List.Pairwise.nil, fun _ ht => absurd ht List.not_mem_nil⟩

theorem concat (h : OnTime ts) (hpast : ∀ u ∈ ts, u.time ≤ t.time) (ht : t.Timely) :
    OnTime (ts ++ [t]) where
  ordered := by
    refine List.pairwise_append.mpr ⟨h.ordered, List.pairwise_singleton _ _, fun u hu v hv => ?_⟩
    rw [List.mem_singleton.mp hv]
    exact hpast u hu
  timely := by
    intro u hu
    rcases List.mem_append.mp hu with hu | hu
    · exact h.timely u hu
    · exact List.mem_singleton.mp hu ▸ ht

theorem left (h : OnTime (ts ++ us)) : OnTime ts where
  ordered := (List.pairwise_append.mp h.ordered).1
  timely := fun t ht => h.timely t (List.mem_append_left us ht)

theorem le (h : OnTime (ts ++ us)) (ht : t ∈ ts) (hu : u ∈ us) : t.time ≤ u.time :=
  (List.pairwise_append.mp h.ordered).2.2 t ht u hu

end OnTime

/-- A run, survived so far, of a dispatcher with these settings, and the chronicle that it leads to.
-/
inductive Run (c : Settings) : List Turn → Chronicle → Prop
  | start {d : Dispatcher} (hnew : Dispatcher.new c = .ok d) : Run c [] { dispatcher := d }
  | turn {ts : List Turn} {h : Chronicle} {i : Input} {d : Dispatcher} (hr : Run c ts h)
      (time : Nat) (hs : h.dispatcher.step i = .ok d) :
      Run c (ts ++ [⟨time, h, i, d⟩]) (h.extend i d)

/-- All of the inputs, one after the other, after the turns `ts`. -/
def playOn : List (Nat × Input) → List Turn → Chronicle → Except Crash (List Turn × Chronicle)
  | [], ts, h => .ok (ts, h)
  | (time, i) :: is, ts, h =>
    match h.dispatcher.step i with
    | .error e => .error e
    | .ok d => playOn is (ts ++ [⟨time, h, i, d⟩]) (h.extend i d)

def play (c : Settings) (is : List (Nat × Input)) : Except Crash (List Turn × Chronicle) :=
  match Dispatcher.new c with
  | .error e => .error e
  | .ok d => playOn is [] { dispatcher := d }

namespace Run

variable {c : Settings} {ts us : List Turn} {t : Turn} {h : Chronicle}

theorem of_playOn {is : List (Nat × Input)} {h₀ : Chronicle} (hr : Run c us h₀)
    (hp : playOn is us h₀ = .ok (ts, h)) : Run c ts h := by
  induction is generalizing us h₀ with
  | nil =>
    cases hp
    exact hr
  | cons e is ih =>
    obtain ⟨time, i⟩ := e
    simp only [playOn] at hp
    cases hs : h₀.dispatcher.step i with
    | error e => simp [hs] at hp
    | ok d =>
      rw [hs] at hp
      exact ih (hr.turn time hs) hp

theorem of_play {is : List (Nat × Input)} (hp : play c is = .ok (ts, h)) : Run c ts h := by
  unfold play at hp
  cases hnew : Dispatcher.new c with
  | error e => simp [hnew] at hp
  | ok d =>
    rw [hnew] at hp
    exact (Run.start hnew).of_playOn hp

theorem inputs_of_playOn {is : List (Nat × Input)} {h₀ : Chronicle}
    (hp : playOn is us h₀ = .ok (ts, h)) :
    ts.map (fun t => (t.time, t.input)) = us.map (fun t => (t.time, t.input)) ++ is := by
  induction is generalizing us h₀ with
  | nil =>
    cases hp
    exact (List.append_nil _).symm
  | cons e is ih =>
    obtain ⟨time, i⟩ := e
    simp only [playOn] at hp
    cases hs : h₀.dispatcher.step i with
    | error e => simp [hs] at hp
    | ok d =>
      rw [hs] at hp
      rw [ih hp, List.map_append, List.append_assoc]
      rfl

theorem inputs_of_play {is : List (Nat × Input)} (hp : play c is = .ok (ts, h)) :
    ts.map (fun t => (t.time, t.input)) = is := by
  unfold play at hp
  cases hnew : Dispatcher.new c with
  | error e => simp [hnew] at hp
  | ok d =>
    rw [hnew] at hp
    exact inputs_of_playOn hp

theorem reached (hr : Run c ts h) : Chronicle.Reached c h := by
  induction hr with
  | start hnew => exact ⟨_, hnew, .refl⟩
  | turn _ _ hs ih => exact ih.step ⟨_, _, hs, rfl⟩

theorem faithful (hr : Run c ts h) : h.Faithful := hr.reached.faithful

theorem nil_inv (hr : Run c [] h) : h = { dispatcher :=
    { queue := { slots := { size := max c.concurrency 1 }, delays := c.delays } } } := by
  generalize hu : [] = us at hr
  cases hr with
  | start hnew => rw [Dispatcher.eq_of_new hnew]
  | turn => simp at hu

theorem concat_inv (hr : Run c (ts ++ [t]) h) :
    Run c ts t.before ∧ t.before.dispatcher.step t.input = .ok t.after ∧ h = t.reached := by
  generalize hu : ts ++ [t] = us at hr
  cases hr with
  | start => simp at hu
  | turn hr time hs =>
    obtain ⟨rfl, ht⟩ := List.append_inj' hu rfl
    cases ht
    exact ⟨hr, hs, rfl⟩

theorem left (hr : Run c (ts ++ us) h) : ∃ h', Run c ts h' := by
  induction us using List.reverseRecOn generalizing h with
  | nil => exact ⟨h, by simpa using hr⟩
  | append_singleton us t ih =>
    rw [← List.append_assoc] at hr
    exact ih hr.concat_inv.1

theorem split (hr : Run c (ts ++ t :: us) h) :
    Run c ts t.before ∧ t.before.dispatcher.step t.input = .ok t.after := by
  rw [← List.singleton_append, ← List.append_assoc] at hr
  obtain ⟨h', hr'⟩ := hr.left
  exact ⟨hr'.concat_inv.1, hr'.concat_inv.2.1⟩

theorem of_mem (hr : Run c ts h) (ht : t ∈ ts) :
    t.before.Faithful ∧ t.before.dispatcher.step t.input = .ok t.after := by
  obtain ⟨us, vs, rfl⟩ := List.append_of_mem ht
  exact ⟨hr.split.1.faithful, hr.split.2⟩

theorem queued_eq (hr : Run c ts h) : ts.flatMap Turn.queued = h.spawned.map (·.call) := by
  induction hr with
  | start => rfl
  | turn _ _ _ ih =>
    rw [List.flatMap_append, ih, Chronicle.extend, List.map_append, List.map_map]
    simp [Turn.queued, Function.comp_def]

theorem shown_eq (hr : Run c ts h) : ts.filterMap Turn.taken? = h.shown := by
  induction hr with
  | start => rfl
  | turn _ _ _ ih =>
    rw [List.filterMap_append, ih, Chronicle.extend]
    cases ht : Dispatcher.taken? _ _ <;> simp [Turn.taken?, ht]

theorem ends_of_ended (hr : Run c ts h) {x : Call} {o : Outcome} (hx : (x, o) ∈ h.slots.ended) :
    ∃ t ∈ ts, t.Ends x o := by
  induction hr with
  | start hnew =>
    rw [Dispatcher.eq_of_new hnew] at hx
    cases hx
  | @turn ts h i d hr time hs ih =>
    have hf := hr.faithful
    have hold : (x, o) ∈ h.slots.ended → ∃ t ∈ ts ++ [⟨time, h, i, d⟩], t.Ends x o := by
      intro hmem
      obtain ⟨t, ht, he⟩ := ih hmem
      exact ⟨t, List.mem_append_left _ ht, he⟩
    have hchange := Dispatcher.step_slots hf.coherent hf.keyed hs
    generalize hslots : d.queue.slots = slots at hchange
    rw [Chronicle.slots, Chronicle.extend, hslots] at hx
    cases hchange with
    | queued ha => exact hold (ha.ended ▸ hx)
    | ended id r millis =>
      rcases List.mem_append.mp hx with hx | hx
      · exact hold hx
      · obtain ⟨y, hy, he⟩ := List.mem_map.mp hx
        cases he
        have hid : x.id = id := by simpa using (List.mem_filter.mp hy).2
        exact ⟨_, List.mem_append_right _ (List.mem_singleton_self _), r, millis, by rw [hid],
          (List.mem_filter.mp hy).1, rfl⟩
    | joined hj ha =>
      rw [ha.ended] at hx
      refine hold ?_
      rw [Chronicle.slots, Slots.ended_of_join hj]
      exact List.mem_cons_of_mem _ hx

end Run

end GameIngress.Dispatch
