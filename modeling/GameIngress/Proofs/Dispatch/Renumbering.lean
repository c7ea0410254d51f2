import GameIngress.Proofs.Dispatch.Delay
import GameIngress.Proofs.Dispatch.Spared

/-!
# New numbers for what belongs to one game server

Calls, timers and events are numbered as they come. With all others left out, those that belong to
one game server have numbers of their own: each is numbered by how many of them there were before.
-/
namespace GameIngress.Dispatch

open Watch (Key)

/-- The event is about the game server, or about none in particular. -/
def concerns (k : Key) (e : Watch.Event Sighting) : Bool := e.object?.all (·.key = k)

/-- New numbers for calls, timers and events. -/
structure Renumbering where
  calls : Nat → Nat
  timers : Nat → Nat
  events : Nat → Nat

namespace Renumbering

def sighting (ν : Renumbering) (s : Sighting) : Sighting := { s with serial := ν.events s.serial }

def delivery (ν : Renumbering) : Delivery → Delivery
  | .add s => .add (ν.sighting s)
  | .update old new => .update (ν.sighting old) (ν.sighting new)
  | .delete s => .delete (ν.sighting s)

def call (ν : Renumbering) (x : Call) : Call :=
  { id := ν.calls x.id, origin := x.origin, delivery := ν.delivery x.delivery }

def timer (ν : Renumbering) (t : Timer) : Timer := { t with id := ν.timers t.id }

def standing (ν : Renumbering) : Standing → Standing
  | .running pending => .running (pending.map ν.delivery)
  | .waiting id => .waiting (ν.timers id)

def event (ν : Renumbering) : Watch.Event Sighting → Watch.Event Sighting
  | .init => .init
  | .initApply s => .initApply (ν.sighting s)
  | .initDone => .initDone
  | .apply s => .apply (ν.sighting s)
  | .delete s => .delete (ν.sighting s)

def input (ν : Renumbering) : Input → Input
  | .watch e => .watch e
  | .settled id r millis => .settled (ν.calls id) r millis
  | .join now => .join now
  | .expire timer => .expire (ν.timers timer)
  | .tick => .tick
  | .stop => .stop

variable {ν : Renumbering} {d : Delivery}

@[simp] theorem key_delivery : (ν.delivery d).key = d.key := by
  cases d <;> rfl

@[simp] theorem isDelete_delivery : (ν.delivery d).isDelete = d.isDelete := by
  cases d <;> rfl

theorem outcome_delivery (r : CallResult) : Outcome.of (ν.delivery d) r = Outcome.of d r := by
  cases r with
  | ok | panicked => rfl
  | failed e => rw [Outcome.of, isDelete_delivery, Outcome.of]

/-- The next number is one more after a number of one's own, and stays after any other. -/
def Counts (f : Nat → Nat) (n : Nat) (p : Prop) [Decidable p] : Prop :=
  f (n + 1) = f n + if p then 1 else 0

namespace Counts

variable {f : Nat → Nat} {n : Nat} {p : Prop} [Decidable p]

theorem own (h : Counts f n p) (hp : p) : f (n + 1) = f n + 1 := by
  rwa [Counts, if_pos hp] at h

theorem other (h : Counts f n p) (hp : ¬ p) : f (n + 1) = f n := by
  rwa [Counts, if_neg hp] at h

end Counts

/-- The new numbers count the calls and timers of `k` among those that came between two queues. -/
structure Fits (ν : Renumbering) (k : Key) (q q' : Queue) : Prop where
  calls : ∀ x ∈ q'.slots.queuedSince q.slots.queued, Counts ν.calls x.id (x.delivery.key = k)
  timers : ∀ t ∈ q'.timers, q.armed ≤ t.id → Counts ν.timers t.id (t.key = k)

namespace Fits

variable {k : Key} {q q₁ q' : Queue} {o : Origin}

theorem later (h : Fits ν k q q') (hq : q.slots.queued ≤ q₁.slots.queued)
    (ha : q.armed ≤ q₁.armed) : Fits ν k q₁ q' where
  calls := by
    intro x hx
    obtain ⟨hmem, hid⟩ := List.mem_filter.mp hx
    refine h.calls x (List.mem_filter.mpr ⟨hmem, decide_eq_true ?_⟩)
    exact hq.trans (of_decide_eq_true hid)
  timers := fun t ht hid => h.timers t ht (ha.trans hid)

theorem first (h : Fits ν k q q') (hmem : ⟨q.slots.queued, o, d⟩ ∈ q'.slots.unfinished) :
    Counts ν.calls q.slots.queued (d.key = k) :=
  h.calls _ (List.mem_filter.mpr ⟨hmem, decide_eq_true (Nat.le_refl _)⟩)

theorem enqueued (h : Fits ν k q q') (hs : q'.slots = q.slots.enqueue o d) :
    Counts ν.calls q.slots.queued (d.key = k) := by
  refine h.first (o := o) ?_
  rw [hs, Slots.unfinished_enqueue]
  exact List.mem_append_right _ (List.mem_singleton_self _)

end Fits

/-- Everything of `k` gets as its number how much of `k` there was before. -/
def ofTurns (k : Key) (ts : List Turn) : Renumbering where
  calls n := ((ts.flatMap Turn.queued).take n).countP (·.delivery.key = k)
  timers n := ((ts.flatMap Turn.armed).take n).countP (·.key = k)
  events n := ((ts.filterMap Turn.taken?).take n).countP (concerns k)

/-- The new numbers count what belongs to `k`, all through the turns. -/
structure Suits (ν : Renumbering) (k : Key) (ts : List Turn) : Prop where
  zero : ν.calls 0 = 0 ∧ ν.timers 0 = 0 ∧ ν.events 0 = 0
  monotone : Monotone ν.calls ∧ Monotone ν.timers
  calls : ∀ t ∈ ts, ∀ x ∈ t.queued, Counts ν.calls x.id (x.delivery.key = k)
  timers : ∀ t ∈ ts, ∀ x ∈ t.armed, Counts ν.timers x.id (x.key = k)
  events : ∀ t ∈ ts, ∀ e ∈ t.taken?,
    Counts ν.events t.before.dispatcher.consumed (concerns k e = true)

section Count
variable {α : Type} {p : α → Prop} [DecidablePred p] {l : List α} {a : α} {f : Nat → Nat} {n : Nat}

theorem monotone_count (p : α → Prop) [DecidablePred p] (l : List α) :
    Monotone fun n => (l.take n).countP fun a => p a :=
  fun _ _ hn => (List.take_sublist_take_left hn).countP_le

theorem counts_take (h : l[n]? = some a) :
    Counts (fun n => (l.take n).countP fun a => p a) n (p a) := by
  simp only [Counts, List.take_add_one, h, Option.toList_some, List.countP_append,
    List.countP_singleton, decide_eq_true_eq]

theorem counts_take_of_ids {id : α → Nat} {m : Nat} (hids : l.map id = List.range m) (ha : a ∈ l) :
    Counts (fun n => (l.take n).countP fun a => p a) (id a) (p a) := by
  obtain ⟨n, hn⟩ := List.mem_iff_getElem?.mp ha
  have hid : id a = n := by
    have hget : (l.map id)[n]? = some (id a) := by rw [List.getElem?_map, hn, Option.map_some]
    rw [hids] at hget
    obtain ⟨hlt, heq⟩ := List.getElem?_eq_some_iff.mp hget
    rw [← heq, List.getElem_range]
  rw [hid]
  exact counts_take hn

theorem count_stays {id : α → Nat} (hids : l.map id = List.range' n l.length)
    (hc : ∀ x ∈ l, Counts f (id x) (p x)) (hnone : l.filter (fun a => p a) = []) :
    f (n + l.length) = f n := by
  induction l generalizing n with
  | nil => rfl
  | cons x rest ih =>
    rw [List.length_cons, List.range'_succ, List.map_cons, List.cons.injEq] at hids
    have hx : ¬ p x := by simpa using List.filter_eq_nil_iff.mp hnone x List.mem_cons_self
    have hrest : rest.filter (fun a => p a) = [] := by
      rwa [List.filter_cons_of_neg (by simpa using hx)] at hnone
    have hcount := (hc x List.mem_cons_self).other hx
    rw [List.length_cons, Nat.add_comm rest.length, ← Nat.add_assoc,
      ih hids.2 (fun y hy => hc y (List.mem_cons_of_mem _ hy)) hrest, ← hids.1, hcount]

/-- What is new is so by the new numbers too, if these keep old ones below the next. -/
theorem filter_map_new {id : α → Nat} {m : α → α} (hid : ∀ x, id (m x) = f (id x)) (hf : Monotone f)
    (h : ∀ x ∈ l, n ≤ id x ∨ f (id x) < f n) :
    (l.map m).filter (f n ≤ id ·) = (l.filter (n ≤ id ·)).map m := by
  rw [List.filter_map]
  congr 1
  refine List.filter_congr fun x hx => decide_eq_decide.mpr ?_
  rw [hid]
  exact ⟨fun hle => (h x hx).resolve_right (Nat.not_lt.mpr hle), fun hle => hf hle⟩

end Count

variable {ν : Renumbering} {k : Key} {ts us : List Turn} {t : Turn}

theorem Suits.left (h : ν.Suits k (ts ++ us)) : ν.Suits k ts :=
  { h with
    calls := fun t ht => h.calls t (List.mem_append_left _ ht)
    timers := fun t ht => h.timers t (List.mem_append_left _ ht)
    events := fun t ht => h.events t (List.mem_append_left _ ht) }

theorem Suits.fits (h : ν.Suits k ts) (ht : t ∈ ts) :
    Fits ν k t.before.dispatcher.queue t.after.queue where
  calls := h.calls t ht
  timers := fun x hx hid => h.timers t ht x (List.mem_filter.mpr ⟨hx, decide_eq_true hid⟩)

end Renumbering

namespace Run

variable {c : Settings} {ts : List Turn} {h : Chronicle}

theorem armed_eq (hr : Run c ts h) :
    (ts.flatMap Turn.armed).map (·.id) = List.range h.dispatcher.queue.armed := by
  induction ts using List.reverseRecOn generalizing h with
  | nil =>
    rw [hr.nil_inv]
    rfl
  | append_singleton ts t ih =>
    obtain ⟨hbefore, hs, rfl⟩ := hr.concat_inv
    obtain ⟨hids, harmed⟩ := Turn.armed_ids hbefore.faithful hs
    change _ = List.range t.after.queue.armed
    rw [List.flatMap_append, List.flatMap_singleton, List.map_append, ih hbefore, hids, harmed,
      List.range_add, List.range'_eq_map_range]

theorem suits (hr : Run c ts h) (k : Key) : (Renumbering.ofTurns k ts).Suits k ts where
  zero := ⟨rfl, rfl, rfl⟩
  monotone := ⟨Renumbering.monotone_count _ _, Renumbering.monotone_count _ _⟩
  calls := by
    intro t ht x hx
    have hids : (ts.flatMap Turn.queued).map (·.id) = List.range h.slots.queued := by
      rw [hr.queued_eq, List.map_map]
      exact hr.faithful.ids
    exact Renumbering.counts_take_of_ids hids (List.mem_flatMap.mpr ⟨t, ht, hx⟩)
  timers := fun t ht x hx =>
    Renumbering.counts_take_of_ids hr.armed_eq (List.mem_flatMap.mpr ⟨t, ht, hx⟩)
  events := by
    intro t ht e he
    obtain ⟨us, vs, rfl⟩ := List.append_of_mem ht
    have hbefore := hr.split.1
    have hlength : t.before.dispatcher.consumed = (us.filterMap Turn.taken?).length := by
      rw [hbefore.shown_eq, hbefore.faithful.consumed]
    have hget :
        ((us ++ t :: vs).filterMap Turn.taken?)[t.before.dispatcher.consumed]? = some e := by
      rw [List.filterMap_append, List.filterMap_cons, show t.taken? = some e from he, hlength]
      simp
    have hcounts := Renumbering.counts_take (p := (concerns k · = true)) hget
    simpa only [Renumbering.ofTurns, Bool.decide_eq_true] using hcounts

end Run

end GameIngress.Dispatch
