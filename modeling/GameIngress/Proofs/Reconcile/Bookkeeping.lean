import GameIngress.Controller
import GameIngress.Proofs.Reconcile.Cancellation
import GameIngress.Proofs.Reconcile.Report

/-!
# Events and counters account for what happened

Over any sequence of notifications and whatever the store answers, the counters are the numbers of
calls that succeeded and of notifications that were gated, and the marker is announced once for each
write of it. The books balance for every step, and balanced books add up.
-/
namespace GameIngress.Reconcile

open Dispatch (Delivery Call)

variable {α : Type} {c : Settings} {gs : GameServer} {kind : ResourceKind} {t t' : Transcript}
  {skips skips' : List SkipReason} {d : Delivery}

def creates (kind : ResourceKind) : Exchange → Bool
  | ⟨.createService _, .ok _⟩ => kind = .service
  | ⟨.createIngress _, .ok _⟩ => kind = .ingress
  | _ => false

def written? : Exchange → Option GameServer
  | ⟨.writeGameServer _, .ok written⟩ => some written
  | _ => none

/-- The game server was read with its marker set. -/
def showsMarker : Exchange → Bool
  | ⟨.readGameServer _ _, .ok current⟩ => current.isMarkedReady
  | _ => false

def creations (kind : ResourceKind) (t : Transcript) : Nat := t.countP (creates kind)

def writes (t : Transcript) : List GameServer := t.filterMap written?

def published (t : Transcript) : List (GameServer × Notice) := t.filterMap (·.request.event?)

def counted (t : Transcript) : List Counter := t.filterMap (·.request.counter?)

/-- The events about markers that were written. -/
def updates (t : Transcript) : List (GameServer × Notice) :=
  (published t).filter (·.2.reason = "Updated")

/-- Everything that is counted and announced happened, and everything that happened is counted and
announced. -/
structure Balanced (skips : List SkipReason) (t : Transcript) : Prop where
  created : ∀ kind : ResourceKind, (counted t).count (.created kind.name) = creations kind t
  ready : (counted t).count .ready = (writes t).length
  skipped : ∀ label, (counted t).count (.skipped label) = skips.countP (·.label = label)
  announced : updates t = (writes t).flatMap announcement

section Append
variable (t t' : Transcript)

theorem creations_append : creations kind (t ++ t') = creations kind t + creations kind t' :=
  List.countP_append

theorem writes_append : writes (t ++ t') = writes t ++ writes t' := List.filterMap_append

theorem published_append : published (t ++ t') = published t ++ published t' :=
  List.filterMap_append

theorem counted_append : counted (t ++ t') = counted t ++ counted t' := List.filterMap_append

theorem updates_append : updates (t ++ t') = updates t ++ updates t' := by
  rw [updates, published_append, List.filter_append, updates, updates]

end Append

theorem Balanced.append (h : Balanced skips t) (h' : Balanced skips' t') :
    Balanced (skips ++ skips') (t ++ t') where
  created kind := by
    rw [counted_append, List.count_append, h.created, h'.created, creations_append]
  ready := by rw [counted_append, List.count_append, h.ready, h'.ready, writes_append,
    List.length_append]
  skipped label := by
    rw [counted_append, List.count_append, h.skipped, h'.skipped, List.countP_append]
  announced := by rw [updates_append, h.announced, h'.announced, writes_append, List.flatMap_append]

theorem balanced_nil : Balanced [] [] := ⟨fun _ => rfl, rfl, fun _ => rfl, rfl⟩

/-- An exchange that no book is kept of. -/
structure Silent (e : Exchange) : Prop where
  uncounted : e.request.counter? = none
  uncreated : ∀ kind, creates kind e = false
  unwritten : written? e = none
  unannounced : ∀ x, e.request.event? = some x → x.2.reason ≠ "Updated"

theorem Silent.balanced {e : Exchange} (h : Silent e) : Balanced [] [e] := by
  have hcounted : counted [e] = [] := List.filterMap_cons_none h.uncounted
  have hwrites : writes [e] = [] := List.filterMap_cons_none h.unwritten
  refine ⟨fun kind => ?_, ?_, fun label => ?_, ?_⟩
  · rw [hcounted, creations, List.countP_singleton, h.uncreated]
    rfl
  · rw [hcounted, hwrites]
    rfl
  · rw [hcounted]
    rfl
  · rw [hwrites, updates, published, List.flatMap_nil, List.filter_eq_nil_iff]
    intro x hx
    obtain ⟨e', he', hevent⟩ := List.mem_filterMap.mp hx
    obtain rfl := List.mem_singleton.mp he'
    simpa using h.unannounced x hevent

theorem Balanced.cons {e : Exchange} (he : Silent e) (h : Balanced skips t) :
    Balanced skips (e :: t) := by
  have happend := he.balanced.append h
  rwa [List.nil_append, List.singleton_append] at happend

theorem silent_told {type : EventType} {reason message : String} (about : GameServer)
    (h : reason ≠ "Updated") : Silent (told about type reason message) := by
  refine ⟨rfl, fun _ => rfl, rfl, fun x hx => ?_⟩
  cases hx
  exact h

theorem silent_of_eq {e : Exchange} (hcounted : e.request.counter? = none)
    (hcreated : ∀ kind, creates kind e = false) (hwritten : written? e = none)
    (hevent : e.request.event? = none) : Silent e := by
  refine ⟨hcounted, hcreated, hwritten, fun x hx => ?_⟩
  rw [hevent] at hx
  cases hx

section Creation
variable {built : Except ValidationError α} {creation : α → Request (Except Failure α)}

/-- A creation is in the books if it succeeds, under the name of its kind. -/
structure CreationOf (kind : ResourceKind) (creation : α → Request (Except Failure α)) : Prop where
  refused : ∀ object e, Silent ⟨creation object, .error e⟩
  created : ∀ object stored,
    Balanced [] [⟨creation object, .ok stored⟩, ⟨.count (.created kind.name), ()⟩]

theorem creationOf_service : CreationOf .service .createService := by
  refine ⟨fun _ _ => silent_of_eq rfl (fun _ => rfl) rfl rfl, fun object stored =>
    ⟨fun kind => ?_, rfl, fun _ => rfl, rfl⟩⟩
  cases kind <;> rfl

theorem creationOf_ingress : CreationOf .ingress .createIngress := by
  refine ⟨fun _ _ => silent_of_eq rfl (fun _ => rfl) rfl rfl, fun object stored =>
    ⟨fun kind => ?_, rfl, fun _ => rfl, rfl⟩⟩
  cases kind <;> rfl

theorem Creates.balanced {r : Except Failure α} (h : Creates gs kind built creation t r)
    (hc : CreationOf kind creation) : Balanced [] t := by
  have hcreating : Silent (told gs .normal "Creating" (creatingMessage gs kind)) :=
    silent_told gs (by decide)
  have hcreated : Silent (told gs .normal "Created" (createdMessage gs kind)) :=
    silent_told gs (by decide)
  have hfailed (e : Failure) : Silent (told gs .warning "Failed" (failedMessage gs kind e)) :=
    silent_told gs (by decide)
  cases h with
  | unbuilt hbuilt => exact .cons hcreating (hfailed _).balanced
  | created hbuilt => exact .cons hcreating ((hc.created _ _).append hcreated.balanced)
  | existing hbuilt hexists => exact .cons hcreating (.cons (hc.refused _ _) hcreated.balanced)
  | refused hbuilt hnew => exact .cons hcreating (.cons (hc.refused _ _) (hfailed _).balanced)

end Creation

theorem service_balanced {r : Except Failure Service} (h : (service gs).Yields t r) :
    Balanced [] t := by
  have hfind (answer : Option Service) : Silent ⟨.findService gs.name gs.ns, answer⟩ :=
    silent_of_eq rfl (fun _ => rfl) rfl rfl
  cases service_ensures h with
  | found s => exact (hfind _).balanced
  | missing h => exact .cons (hfind none) (h.balanced creationOf_service)

theorem ingress_balanced {rewrite : Bool} {r : Except Failure Ingress}
    (h : (ingress rewrite gs).Yields t r) : Balanced [] t := by
  have hfind (answer : Option Ingress) : Silent ⟨.findIngress gs.name gs.ns, answer⟩ :=
    silent_of_eq rfl (fun _ => rfl) rfl rfl
  cases ingress_ensures h with
  | found i => exact (hfind _).balanced
  | missing h => exact .cons (hfind none) (h.balanced creationOf_ingress)

/-- What the attempts leave to be entered: the write, if there was one. -/
structure Leaves (t : Transcript) (r : Except Failure (GameServer × Bool)) : Prop where
  uncounted : counted t = []
  uncreated : ∀ kind, creations kind t = 0
  unpublished : published t = []
  written : writes t = match r with
    | .ok (written, true) => [written]
    | _ => []

theorem Leaves.append {e : Failure} {r : Except Failure (GameServer × Bool)}
    (h : Leaves t (.error e)) (h' : Leaves t' r) : Leaves (t ++ t') r where
  uncounted := by rw [counted_append, h.uncounted, h'.uncounted, List.append_nil]
  uncreated kind := by rw [creations_append, h.uncreated, h'.uncreated]
  unpublished := by rw [published_append, h.unpublished, h'.unpublished, List.append_nil]
  written := by rw [writes_append, h.written, h'.written, List.nil_append]

theorem Misses.leaves {e : Failure} (h : Misses gs e t) (f : Failure) : Leaves t (.error f) := by
  cases h <;> exact ⟨rfl, fun _ => rfl, rfl, rfl⟩

theorem Tries.leaves {r : Except Failure (GameServer × Bool)} (h : Tries gs t r) : Leaves t r := by
  induction h with
  | found | written => exact ⟨rfl, fun _ => rfl, rfl, rfl⟩
  | missed h => exact h.leaves _
  | @again e d _ _ _ hmissed _ _ ih =>
    have hpause : Leaves [⟨.pause d, ()⟩] (.error e) := ⟨rfl, fun _ => rfl, rfl, rfl⟩
    exact (hmissed.leaves e).append (hpause.append ih)

theorem Leaves.balanced {r : Except Failure (GameServer × Bool)} (h : Leaves t r)
    (hwrites : writes t = []) : Balanced [] t where
  created kind := by rw [h.uncounted, h.uncreated, List.count_nil]
  ready := by rw [h.uncounted, hwrites, List.count_nil, List.length_nil]
  skipped label := by rw [h.uncounted, List.count_nil, List.countP_nil]
  announced := by rw [updates, h.unpublished, hwrites, List.filter_nil, List.flatMap_nil]

theorem books_of_publishes (es : List (GameServer × Notice)) :
    let t : Transcript := es.map fun e => ⟨.publish e.1 e.2, ()⟩
    counted t = [] ∧ writes t = [] ∧ (∀ kind, creations kind t = 0) ∧ published t = es := by
  induction es with
  | nil => exact ⟨rfl, rfl, fun _ => rfl, rfl⟩
  | cons e rest ih =>
    obtain ⟨hcounted, hwrites, hcreated, hpublished⟩ := ih
    exact ⟨hcounted, hwrites, hcreated, congrArg (e :: ·) hpublished⟩

theorem filter_announcement (written : GameServer) :
    (announcement written).filter (·.2.reason = "Updated") = announcement written := by
  unfold announcement
  split <;> rfl

theorem Leaves.balanced_announced {written : GameServer} (h : Leaves t (.ok (written, true))) :
    Balanced [] (t ++ ⟨.count .ready, ()⟩ ::
      (announcement written).map fun e => ⟨.publish e.1 e.2, ()⟩) := by
  obtain ⟨hcounted, hwrites, hcreated, hpublished⟩ := books_of_publishes (announcement written)
  generalize ((announcement written).map fun e => ⟨.publish e.1 e.2, ()⟩ : Transcript) = rest at *
  have hcount : counted (t ++ ⟨.count .ready, ()⟩ :: rest) = [.ready] := by
    rw [counted_append, h.uncounted]
    exact congrArg (Counter.ready :: ·) hcounted
  have hwritten : writes (t ++ ⟨.count .ready, ()⟩ :: rest) = [written] := by
    rw [writes_append, h.written]
    exact congrArg (written :: ·) hwrites
  refine ⟨fun kind => ?_, ?_, fun label => ?_, ?_⟩
  · rw [hcount, creations_append, h.uncreated]
    exact (Nat.zero_add _).trans (hcreated kind) |>.symm
  · rw [hcount, hwritten]
    rfl
  · rw [hcount]
    rfl
  · rw [hwritten, updates_append, List.flatMap_singleton, updates, h.unpublished, updates]
    change [] ++ (published rest).filter _ = _
    rw [hpublished, filter_announcement, List.nil_append]

theorem Marks.balanced {r : Except Failure GameServer} (h : Marks gs t r) : Balanced [] t := by
  cases h with
  | failed h | found h => exact h.leaves.balanced h.leaves.written
  | written h => exact h.leaves.balanced_announced

theorem readiness_balanced {b : Backoff} {r : Except Failure GameServer}
    (h : (readiness b gs).Yields t r) : Balanced [] t := by
  have hfailed (message : String) : Silent (told gs .warning "Failed" message) :=
    silent_told gs (by decide)
  cases readies_of_yields h with
  | ready => exact balanced_nil
  | pending _ hmarks => exact hmarks.balanced
  | repaired _ hmarks | unrepaired _ hmarks => exact .cons (hfailed _) hmarks.balanced

theorem Sequenced.balanced {r : Except Failure Unit} (h : Sequenced c gs t r) : Balanced [] t := by
  cases h with
  | service hs => exact service_balanced hs.yields
  | ingress hs hi => exact (service_balanced hs.yields).append (ingress_balanced hi.yields)
  | gameServer hs hi hg | complete hs hi hg =>
    exact ((service_balanced hs.yields).append (ingress_balanced hi.yields)).append
      (readiness_balanced hg.yields)

theorem Tries.found_of_shows {r : Except Failure (GameServer × Bool)} (h : Tries gs t r)
    (hshows : ∃ x ∈ t, showsMarker x = true) : ∃ current, r = .ok (current, false) := by
  have hmissed {e : Failure} {t : Transcript} (h : Misses gs e t) :
      ¬ ∃ x ∈ t, showsMarker x = true := by
    cases h with
    | unread => simp [showsMarker]
    | unwritten hmarked => simp [showsMarker, hmarked]
  induction h with
  | found => exact ⟨_, rfl⟩
  | written hmarked => simp [showsMarker, hmarked] at hshows
  | missed h => exact absurd hshows (hmissed h)
  | again h _ _ ih =>
    obtain ⟨x, hx, hshows⟩ := hshows
    rcases List.mem_append.mp hx with hx | hx
    · exact absurd ⟨x, hx, hshows⟩ (hmissed h)
    · rcases List.mem_cons.mp hx with rfl | hx
      · cases hshows
      · exact ih ⟨x, hx, hshows⟩

theorem Marks.unannounced_of_shows {r : Except Failure GameServer} (h : Marks gs t r)
    (hshows : ∃ x ∈ t, showsMarker x = true) : writes t = [] ∧ updates t = [] := by
  have hnone : writes t = [] := by
    cases h with
    | failed h | found h => exact h.leaves.written
    | written h =>
      obtain ⟨x, hx, hmarker⟩ := hshows
      rcases List.mem_append.mp hx with hx | hx
      · obtain ⟨current, hr⟩ := h.found_of_shows ⟨x, hx, hmarker⟩
        cases hr
      · rcases List.mem_cons.mp hx with rfl | hx
        · cases hmarker
        · obtain ⟨e, -, rfl⟩ := List.mem_map.mp hx
          cases hmarker
  exact ⟨hnone, by rw [h.balanced.announced, hnone, List.flatMap_nil]⟩

theorem Readies.unannounced {r : Except Failure GameServer} (h : Readies gs t r)
    (hset : gs.readiness = .ready ∨ ∃ x ∈ t, showsMarker x = true) :
    writes t = [] ∧ updates t = [] := by
  have hrepair {message : String} {t : Transcript} {r : Except Failure GameServer}
      (hmarks : Marks gs t r)
      (hshows : ∃ x ∈ told gs .warning "Failed" message :: t, showsMarker x = true) :
      writes (told gs .warning "Failed" message :: t) = [] ∧
        updates (told gs .warning "Failed" message :: t) = [] := by
    obtain ⟨x, hx, hmarker⟩ := hshows
    rcases List.mem_cons.mp hx with rfl | hx
    · cases hmarker
    · exact hmarks.unannounced_of_shows ⟨x, hx, hmarker⟩
  cases h with
  | ready => exact ⟨rfl, rfl⟩
  | pending hready hmarks =>
    rw [hready] at hset
    exact hmarks.unannounced_of_shows (hset.resolve_left (by simp))
  | repaired hready hmarks | unrepaired hready hmarks =>
    rw [hready] at hset
    exact hrepair hmarks (hset.resolve_left (by simp))

def attend (c : Settings) : Delivery → Program (Except Failure Unit)
  | .delete _ => return .ok ()
  | .add s | .update _ s =>
    match plan c s.gs with
    | .skip reason => do
      Program.count (.skipped reason.label)
      return .ok ()
    | .run p => p

/-- Why a notification is dropped; the gate is for game servers that are there. -/
def gated? : Delivery → Option SkipReason
  | .delete _ => none
  | .add s | .update _ s => s.gs.skipReason?

def attendAll (c : Settings) : List Delivery → Program (List (Except Failure Unit))
  | [] => return []
  | d :: rest => do
    let r ← attend c d
    let rs ← attendAll c rest
    return r :: rs

/-- A notification that is attended to: a delete asks for nothing, one that is gated is counted, and
the others are reconciled. -/
inductive Attends (c : Settings) : Delivery → Transcript → Except Failure Unit → Prop
  | deleted (s : Dispatch.Sighting) : Attends c (.delete s) [] (.ok ())
  | skipped {d : Delivery} {reason : SkipReason} (hgate : gated? d = some reason) :
      Attends c d [⟨.count (.skipped reason.label), ()⟩] (.ok ())
  | reconciled {d : Delivery} {t : Transcript} {r : Except Failure Unit}
      (hlive : d.isDelete = false) (hgate : gated? d = none)
      (h : Sequenced c d.subject.gs t r) : Attends c d t r

/-- Notifications that are attended to one after the other. -/
inductive AttendsAll (c : Settings) :
    List Delivery → Transcript → List (Except Failure Unit) → Prop
  | nil : AttendsAll c [] [] []
  | cons {d : Delivery} {ds : List Delivery} {t t' : Transcript} {r : Except Failure Unit}
      {rs : List (Except Failure Unit)} (h : Attends c d t r) (hrest : AttendsAll c ds t' rs) :
      AttendsAll c (d :: ds) (t ++ t') (r :: rs)

theorem attend_of_skip {reason : SkipReason} (h : gated? d = some reason) :
    attend c d = .ask (.count (.skipped reason.label)) fun _ => .done (.ok ()) := by
  cases d with
  | delete s => cases h
  | add s | update old s =>
    change (match plan c s.gs with | .skip _ => _ | .run p => p) = _
    rw [plan, show s.gs.skipReason? = some reason from h]
    rfl

theorem attend_of_live (hlive : d.isDelete = false) (h : gated? d = none) :
    attend c d = converge c d.subject.gs := by
  cases d with
  | delete s => cases hlive
  | add s | update old s =>
    change (match plan c s.gs with | .skip _ => _ | .run p => p) = _
    rw [plan, show s.gs.skipReason? = none from h]
    rfl

theorem attends_of_yields {r : Except Failure Unit} (h : (attend c d).Yields t r) :
    Attends c d t r := by
  cases hgate : gated? d with
  | some reason =>
    rw [attend_of_skip hgate] at h
    obtain ⟨_, _, rfl, rfl, rfl⟩ := h
    exact .skipped hgate
  | none =>
    cases hlive : d.isDelete with
    | false =>
      rw [attend_of_live hlive hgate] at h
      exact .reconciled hlive hgate (sequenced_of_yields h)
    | true =>
      cases d with
      | delete s =>
        obtain ⟨rfl, rfl⟩ := h
        exact .deleted s
      | add s | update old s => cases hlive

theorem attendsAll_of_yields {ds : List Delivery} {rs : List (Except Failure Unit)}
    (h : (attendAll c ds).Yields t rs) : AttendsAll c ds t rs := by
  induction ds generalizing t rs with
  | nil =>
    obtain ⟨rfl, rfl⟩ := h
    exact .nil
  | cons d rest ih =>
    obtain ⟨t₁, t₂, r, rfl, hfirst, h⟩ := Program.yields_bind.mp h
    obtain ⟨t₂, t₃, rs, rfl, hrest, rfl, rfl⟩ := Program.yields_bind.mp h
    rw [List.append_nil]
    exact .cons (attends_of_yields hfirst) (ih hrest)

theorem balanced_skip (reason : SkipReason) :
    Balanced [reason] [⟨.count (.skipped reason.label), ()⟩] := by
  refine ⟨fun _ => rfl, rfl, fun label => ?_, rfl⟩
  change [Counter.skipped reason.label].count _ = [reason].countP _
  rw [List.count_singleton, List.countP_singleton]
  simp

theorem Attends.balanced {r : Except Failure Unit} (h : Attends c d t r) :
    Balanced (gated? d).toList t := by
  cases h with
  | deleted s => exact balanced_nil
  | skipped hgate =>
    rw [hgate]
    exact balanced_skip _
  | reconciled _ hgate h =>
    rw [hgate]
    exact h.balanced

theorem AttendsAll.balanced {ds : List Delivery} {rs : List (Except Failure Unit)}
    (h : AttendsAll c ds t rs) : Balanced (ds.filterMap gated?) t := by
  induction h with
  | nil => exact balanced_nil
  | @cons d ds _ _ _ _ h _ ih =>
    have happend := h.balanced.append ih
    cases hgate : gated? d with
    | none => rwa [List.filterMap_cons_none hgate, ← List.nil_append (ds.filterMap _),
        ← Option.toList_none, ← hgate]
    | some reason =>
      rw [List.filterMap_cons_some hgate]
      rwa [hgate] at happend

def handle (c : Settings) (d : Delivery) (m : Memory) : Except Failure Unit × Memory :=
  match d with
  | .delete _ => (.ok (), m)
  | .add s | .update _ s => m.notify c s.gs none

def handleAll (c : Settings) : List Delivery → Memory → List (Except Failure Unit) × Memory
  | [], m => ([], m)
  | d :: rest, m =>
    let (r, m) := handle c d m
    let (rs, m) := handleAll c rest m
    (r :: rs, m)

theorem recorded_append {m m₁ m' : Memory} (h : Memory.Recorded t m m₁)
    (h' : Memory.Recorded t' m₁ m') : Memory.Recorded (t ++ t') m m' where
  log := by rw [h'.log, h.log, List.filterMap_append, List.reverse_append, List.append_assoc]
  events := by
    rw [h'.events, h.events, List.filterMap_append, List.reverse_append, List.append_assoc]
  tally := by rw [h'.tally, h.tally, List.filterMap_append, List.foldl_append]

theorem handle_of_live (hlive : d.isDelete = false) (m : Memory) :
    handle c d m = m.notify c d.subject.gs none := by
  cases d with
  | delete s => cases hlive
  | add s | update old s => rfl

theorem skipReason?_of_gated {reason : SkipReason} (h : gated? d = some reason) :
    d.isDelete = false ∧ d.subject.gs.skipReason? = some reason := by
  cases d with
  | delete s => cases h
  | add s | update old s => exact ⟨rfl, h⟩

theorem skipReason?_of_live (hlive : d.isDelete = false) (h : gated? d = none) :
    d.subject.gs.skipReason? = none := by
  cases d with
  | delete s => cases hlive
  | add s | update old s => exact h

theorem handle_yields (c : Settings) (d : Delivery) {m : Memory} (hm : m.cutAt = none) :
    ∃ t, (attend c d).Yields t (handle c d m).1 ∧ Memory.Recorded t m (handle c d m).2 ∧
      (handle c d m).2.cutAt = none := by
  have hcut : cancelAt? none m = none := by rw [cancelAt?, hm]
  cases hgate : gated? d with
  | some reason =>
    obtain ⟨hlive, hskip⟩ := skipReason?_of_gated hgate
    rw [attend_of_skip hgate, handle_of_live hlive, notify_of_skip hskip, hcut]
    exact ⟨[⟨.count (.skipped reason.label), ()⟩], ⟨(), [], rfl, rfl, rfl⟩, ⟨rfl, rfl, rfl⟩, rfl⟩
  | none =>
    cases hlive : d.isDelete with
    | true =>
      cases d with
      | delete s => exact ⟨[], ⟨rfl, rfl⟩, ⟨rfl, rfl, rfl⟩, hm⟩
      | add s | update old s => cases hlive
    | false =>
      obtain ⟨t, r, whole, hy, hs⟩ := Memory.exists_serves (converge c d.subject.gs) m
      have hrecorded := hs.recorded
      rw [attend_of_live hlive hgate, handle_of_live hlive,
        notify_of_uncut (skipReason?_of_live hlive hgate) hy hs hcut]
      exact ⟨t, hy, ⟨hrecorded.log, hrecorded.events, hrecorded.tally⟩, rfl⟩

theorem handleAll_yields (ds : List Delivery) {m : Memory} (hm : m.cutAt = none) :
    ∃ t, (attendAll c ds).Yields t (handleAll c ds m).1 ∧
      Memory.Recorded t m (handleAll c ds m).2 := by
  induction ds generalizing m with
  | nil => exact ⟨[], ⟨rfl, rfl⟩, rfl, rfl, rfl⟩
  | cons d rest ih =>
    obtain ⟨t, hy, hrec, hcut⟩ := handle_yields c d hm
    obtain ⟨t', hy', hrec'⟩ := ih hcut
    refine ⟨t ++ t', ?_, recorded_append hrec hrec'⟩
    exact Program.yields_bind.mpr ⟨t, t', _, rfl, hy,
      Program.yields_bind.mpr ⟨t', [], _, (List.append_nil t').symm, hy', rfl, rfl⟩⟩

theorem count_foldl_bump (cs : List Counter) (tally : Tally) (counter : Counter) :
    (cs.foldl (fun tally c => tally.bump c) tally).count counter =
      tally.count counter + cs.count counter := by
  induction cs generalizing tally with
  | nil => rfl
  | cons d rest ih =>
    rw [List.foldl_cons, ih, Tally.count_bump, List.count_cons]
    by_cases h : counter = d
    · subst h
      simp only [↓reduceIte, beq_self_eq_true]
      omega
    · have hne : (d == counter) = false := beq_false_of_ne fun heq => h heq.symm
      simp only [h, hne, if_false, Bool.false_eq_true]
      omega

theorem beginCall_eq_attend (call : Call) {w : Cluster.World} (hw : w.isCancelled = false) :
    Controller.beginCall c call w =
      Controller.advanceCall (attend c call.delivery >>= fun r => .done (Controller.callResult r))
        w := by
  obtain ⟨id, origin, d⟩ := call
  unfold Controller.beginCall
  cases d with
  | delete s => rfl
  | add s | update old s =>
    dsimp only [attend]
    cases plan c s.gs with
    | skip reason => rfl
    | run p =>
      dsimp only
      rw [if_neg (by simp [hw])]

/-- A step for a Service or an Ingress reports nothing of an object that it finds, and else the
creation and then how it went; a marker that is found set is neither written nor announced. Over any
notifications and any answers, and over any store in memory with any faults, the books balance:
creations and markers are counted as often as they succeeded, gated notifications under their
reason, and each write of a marker has its announcement, in this order. A delete asks for nothing.
-/
theorem books_balance (c : Settings) :
    (∀ gs t r, (service gs).Yields t r → Ensures gs .service (.findService gs.name gs.ns)
      (Manifest.buildService gs) .createService t r) ∧
    (∀ gs t r, (ingress c.rewrite gs).Yields t r → Ensures gs .ingress
      (.findIngress gs.name gs.ns) (Manifest.buildIngress gs c.rewrite) .createIngress t r) ∧
    (∀ gs t r, (readiness c.backoff gs).Yields t r → Readies gs t r ∧
      (gs.readiness = .ready ∨ (∃ x ∈ t, showsMarker x = true) → writes t = [] ∧ updates t = [])) ∧
    (∀ ds t rs, (attendAll c ds).Yields t rs →
      AttendsAll c ds t rs ∧ Balanced (ds.filterMap gated?) t) ∧
    (∀ ds (w : Responder), ∃ t rs, (attendAll c ds).Yields t rs ∧ w.Gave [] t) ∧
    (∀ ds (m : Memory), m.cutAt = none → ∃ t, (attendAll c ds).Yields t (handleAll c ds m).1 ∧
      Memory.Recorded t m (handleAll c ds m).2 ∧ ∀ counter,
        (handleAll c ds m).2.tally.count counter =
          m.tally.count counter + (counted t).count counter) ∧
    ∀ (call : Call) (w : Cluster.World), w.isCancelled = false →
      Controller.beginCall c call w = Controller.advanceCall
        (attend c call.delivery >>= fun r => .done (Controller.callResult r)) w := by
  refine ⟨fun gs t r h => service_ensures h, fun gs t r h => ingress_ensures h, fun gs t r h => ?_,
    fun ds t rs h => ?_, fun ds w => Program.exists_yields w _ [], fun ds m hm => ?_,
    fun call w hw => beginCall_eq_attend call hw⟩
  · have hreadies := readies_of_yields h
    exact ⟨hreadies, hreadies.unannounced⟩
  · have hattends := attendsAll_of_yields h
    exact ⟨hattends, hattends.balanced⟩
  · obtain ⟨t, hy, hrec⟩ := handleAll_yields (c := c) ds hm
    refine ⟨t, hy, hrec, fun counter => ?_⟩
    rw [hrec.tally]
    exact count_foldl_bump _ _ _

def sighting (gs : GameServer) : Dispatch.Sighting where
  key := { ns := gs.metadata.ns, name := gs.name }
  gs := gs
  serial := 0

/-- A game server that does not ask for routing. -/
def unrouted : GameServer where
  metadata := { name := some "b", ns := some "d" }

/-- A game server that is added, updated and deleted, beside one that does not ask for anything. -/
def shortLife : List Delivery :=
  [.add (sighting Crowd.exposed), .update (sighting Crowd.exposed) (sighting Crowd.exposed),
    .add (sighting unrouted), .delete (sighting Crowd.exposed)]

/-- The first creation of a Service fails. -/
def faultyStore : Memory where
  gameServers := [("d/a", Crowd.exposed)]
  faults := [(.createService,
    [some (.api { message := "boom", reason := "InternalError", code := 500 })])]

theorem books_balance_over_short_life :
    (∃ t r, (service Crowd.exposed).Yields t r ∧ Ensures Crowd.exposed .service
      (.findService "a" "d") (Manifest.buildService Crowd.exposed) .createService t r) ∧
    (∃ t r, (ingress false Crowd.exposed).Yields t r ∧ Ensures Crowd.exposed .ingress
      (.findIngress "a" "d") (Manifest.buildIngress Crowd.exposed false) .createIngress t r) ∧
    (∃ r, (readiness {} Crowd.exposed.markReady).Yields [] r ∧
      Readies Crowd.exposed.markReady [] r) ∧
    (∃ t rs, (attendAll {} shortLife).Yields t rs ∧ AttendsAll {} shortLife t rs ∧
      Balanced [.noRoutingMode] t ∧ creations .service t = 1 ∧ creations .ingress t = 1 ∧
      (writes t).length = 1 ∧ (published t).length = 7 ∧
      rs.map (·.isOk) = [false, true, true, true]) ∧
    ∃ w : Cluster.World, w.isCancelled = false ∧
      Controller.beginCall {} ⟨0, .watch, .delete (sighting Crowd.exposed)⟩ w =
        (.ended .ok, w) := by
  obtain ⟨hservice, hingress, hready, hall, -, hstore, hbegin⟩ := books_balance {}
  refine ⟨?_, ?_, ?_, ?_, ?_⟩
  · obtain ⟨t, r, -, hy, -⟩ := Memory.exists_serves (service Crowd.exposed) {}
    exact ⟨t, r, hy, hservice _ t r hy⟩
  · obtain ⟨t, r, -, hy, -⟩ := Memory.exists_serves (ingress false Crowd.exposed) {}
    exact ⟨t, r, hy, hingress _ t r hy⟩
  · have hy : (readiness {} Crowd.exposed.markReady).Yields [] (.ok Crowd.exposed.markReady) :=
      ⟨rfl, rfl⟩
    exact ⟨_, hy, (hready _ _ _ hy).1⟩
  · obtain ⟨t, hy, hrec, htally⟩ := hstore shortLife faultyStore rfl
    obtain ⟨hattends, hbalanced⟩ := hall _ _ _ hy
    have hresult : (handleAll {} shortLife faultyStore).1.map (·.isOk) =
        [false, true, true, true] := by decide +kernel
    have hevents : (handleAll {} shortLife faultyStore).2.events.length = 7 := by decide +kernel
    have hcounts : ∀ counter ∈ [Counter.created "Service", .created "Ingress", .ready],
        (handleAll {} shortLife faultyStore).2.tally.count counter = 1 := by decide +kernel
    simp only [htally, List.mem_cons, List.not_mem_nil, or_false, forall_eq_or_imp, forall_eq,
      show faultyStore.tally = [] from rfl, Tally.count_nil, Nat.zero_add] at hcounts
    obtain ⟨hservices, hingresses, hmarkers⟩ := hcounts
    refine ⟨t, _, hy, hattends, hbalanced, ?_, ?_, ?_, ?_, hresult⟩
    · exact (hbalanced.created .service).symm.trans hservices
    · exact (hbalanced.created .ingress).symm.trans hingresses
    · exact hbalanced.ready.symm.trans hmarkers
    · rw [hrec.events, List.length_append, List.length_reverse] at hevents
      exact hevents
  · let w : Cluster.World :=
      { server := {}, services := Cluster.World.idle .services,
        ingresses := Cluster.World.idle .ingresses }
    exact ⟨w, rfl, hbegin ⟨0, .watch, .delete (sighting Crowd.exposed)⟩ w rfl⟩

end GameIngress.Reconcile
