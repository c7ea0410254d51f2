import GameIngress.Proofs.Reconcile.Sequence
import GameIngress.Proofs.Store.Repetition
import Mathlib.Data.Bool.Basic

/-!
# What the steps report

For each step of a reconcile, all the transcripts that it can have, whatever it is answered: which
events it publishes, what it counts, and after which calls. An object that is found is not reported.
A creation is announced, and then either its success or its failure is. A marker that was written is
counted and announced; one that was found is not.
-/
namespace GameIngress.Reconcile

variable {α : Type} {gs : GameServer} {kind : ResourceKind} {t : Transcript}

def told (about : GameServer) (type : EventType) (reason message : String) : Exchange :=
  ⟨.publish about ⟨type, reason, message⟩, ()⟩

section Ensured
variable (gs kind) (find : Request (Option α)) (built : Except ValidationError α)
  (creation : α → Request (Except Failure α))

/-- The events before and after a creation, with what was called and counted in between. -/
inductive Creates : Transcript → Except Failure α → Prop
  | unbuilt {e : ValidationError} (hbuilt : built = .error e) :
      Creates [told gs .normal "Creating" (creatingMessage gs kind),
        told gs .warning "Failed" (failedMessage gs kind (.validation e))] (.error (.validation e))
  | created {object stored : α} (hbuilt : built = .ok object) :
      Creates [told gs .normal "Creating" (creatingMessage gs kind),
        ⟨creation object, .ok stored⟩, ⟨.count (.created kind.name), ()⟩,
        told gs .normal "Created" (createdMessage gs kind)] (.ok stored)
  | existing {object : α} {e : Failure} (hbuilt : built = .ok object)
      (hexists : e.isAlreadyExists = true) :
      Creates [told gs .normal "Creating" (creatingMessage gs kind), ⟨creation object, .error e⟩,
        told gs .normal "Created" (createdMessage gs kind)] (.ok object)
  | refused {object : α} {e : Failure} (hbuilt : built = .ok object)
      (hnew : e.isAlreadyExists = false) :
      Creates [told gs .normal "Creating" (creatingMessage gs kind), ⟨creation object, .error e⟩,
        told gs .warning "Failed" (failedMessage gs kind e)] (.error e)

/-- Nothing is reported of an object that the cache knows. -/
inductive Ensures : Transcript → Except Failure α → Prop
  | found (object : α) : Ensures [⟨find, some object⟩] (.ok object)
  | missing {t : Transcript} {r : Except Failure α} (h : Creates gs kind built creation t r) :
      Ensures (⟨find, none⟩ :: t) r

end Ensured

theorem creates_of_yields {built : Except ValidationError α}
    {creation : α → Request (Except Failure α)} {r : Except Failure α}
    (h : (create gs kind built creation).Yields t r) : Creates gs kind built creation t r := by
  obtain ⟨_, t, rfl, h⟩ := h
  cases built with
  | error e =>
    obtain ⟨_, _, rfl, rfl, rfl⟩ := h
    exact .unbuilt rfl
  | ok object =>
    obtain ⟨answer, t, rfl, h⟩ := h
    cases answer with
    | ok stored =>
      obtain ⟨_, t, rfl, _, _, rfl, rfl, rfl⟩ := h
      exact .created rfl
    | error e =>
      change (if e.isAlreadyExists = true then _ else _ : Program _).Yields _ _ at h
      split at h
      · next hexists =>
        obtain ⟨_, _, rfl, rfl, rfl⟩ := h
        exact .existing rfl hexists
      · next hnew =>
        obtain ⟨_, _, rfl, rfl, rfl⟩ := h
        exact .refused rfl (Bool.eq_false_of_not_eq_true hnew)

theorem service_ensures {r : Except Failure Service} (h : (service gs).Yields t r) :
    Ensures gs .service (.findService gs.name gs.ns) (Manifest.buildService gs) .createService
      t r := by
  obtain ⟨found, t, rfl, h⟩ := h
  cases found with
  | some s =>
    obtain ⟨rfl, rfl⟩ := h
    exact .found s
  | none => exact .missing (creates_of_yields h)

theorem ingress_ensures {rewrite : Bool} {r : Except Failure Ingress}
    (h : (ingress rewrite gs).Yields t r) :
    Ensures gs .ingress (.findIngress gs.name gs.ns) (Manifest.buildIngress gs rewrite)
      .createIngress t r := by
  obtain ⟨found, t, rfl, h⟩ := h
  cases found with
  | some i =>
    obtain ⟨rfl, rfl⟩ := h
    exact .found i
  | none => exact .missing (creates_of_yields h)

section Marks
variable (gs)

/-- The events about a marker that was written: one of its own, and one about an outdated annotation
of the game server that was written. -/
def announcement (written : GameServer) : List (GameServer × Notice) :=
  (written, ⟨.normal, "Updated", markedMessage written⟩) ::
    if (written.annotationValue? Annotations.classNameLegacy).isSome then
      [(written, ⟨.normal, "Updated", deprecatedMessage written⟩)]
    else []

/-- The read or the write of an attempt fails. -/
inductive Misses (e : Failure) : Transcript → Prop
  | unread : Misses e [⟨.readGameServer gs.name gs.ns, .error e⟩]
  | unwritten {current : GameServer} (hmarked : current.isMarkedReady = false) :
      Misses e [⟨.readGameServer gs.name gs.ns, .ok current⟩,
        ⟨.writeGameServer current.markReady, .error e⟩]

/-- Attempts are made until one is not missed or none is left. They come to a game server that
carries the marker, and to whether the marker was written for it. -/
inductive Tries : Transcript → Except Failure (GameServer × Bool) → Prop
  | found {current : GameServer} (hmarked : current.isMarkedReady = true) :
      Tries [⟨.readGameServer gs.name gs.ns, .ok current⟩] (.ok (current, false))
  | written {current written : GameServer} (hmarked : current.isMarkedReady = false) :
      Tries [⟨.readGameServer gs.name gs.ns, .ok current⟩,
        ⟨.writeGameServer current.markReady, .ok written⟩] (.ok (written, true))
  | missed {e f : Failure} {t : Transcript} (h : Misses gs e t) (hroot : f.root = e.root) :
      Tries t (.error f)
  | again {e : Failure} {d : Duration} {first t : Transcript}
      {r : Except Failure (GameServer × Bool)} (hmissed : Misses gs e first)
      (hconflict : e.isConflict = true) (h : Tries t r) : Tries (first ++ ⟨.pause d, ()⟩ :: t) r

/-- A marker that was written is counted and announced. -/
inductive Marks : Transcript → Except Failure GameServer → Prop
  | failed {t : Transcript} {f : Failure} (h : Tries gs t (.error f)) : Marks t (.error f)
  | found {t : Transcript} {current : GameServer} (h : Tries gs t (.ok (current, false))) :
      Marks t (.ok current)
  | written {t : Transcript} {written : GameServer} (h : Tries gs t (.ok (written, true))) :
      Marks (t ++ ⟨.count .ready, ()⟩ ::
        (announcement written).map fun e => ⟨.publish e.1 e.2, ()⟩) (.ok written)

/-- What is done about the marker, by what the game server was seen to carry. -/
inductive Readies : Transcript → Except Failure GameServer → Prop
  | ready (hready : gs.readiness = .ready) : Readies [] (.ok gs)
  | pending {t : Transcript} {r : Except Failure GameServer} (hready : gs.readiness = .pending)
      (h : Marks gs t r) : Readies t r
  | repaired {e : ValidationError} {t : Transcript} {marked : GameServer}
      (hready : gs.readiness = .malformed e) (h : Marks gs t (.ok marked)) :
      Readies (told gs .warning "Failed" e.message :: t) (.error (.validation e))
  | unrepaired {e : ValidationError} {t : Transcript} {f : Failure}
      (hready : gs.readiness = .malformed e) (h : Marks gs t (.error f)) :
      Readies (told gs .warning "Failed" e.message :: t) (.error f)

end Marks

theorem tries_or_misses {r : Except Failure (GameServer × Bool)}
    (h : (markOnce gs.name gs.ns).Yields t r) :
    (∃ x, r = .ok x ∧ Tries gs t (.ok x)) ∨ ∃ e, r = .error e ∧ Misses gs e t := by
  obtain ⟨answer, t, rfl, h⟩ := h
  cases answer with
  | error e =>
    obtain ⟨rfl, rfl⟩ := h
    exact .inr ⟨e, rfl, .unread⟩
  | ok current =>
    change (if current.isMarkedReady = true then _ else _ : Program _).Yields _ _ at h
    split at h
    · next hmarked =>
      obtain ⟨rfl, rfl⟩ := h
      exact .inl ⟨_, rfl, .found hmarked⟩
    · next hmarked =>
      rw [Bool.not_eq_true] at hmarked
      obtain ⟨answer, t, rfl, h⟩ := h
      cases answer with
      | ok written =>
        obtain ⟨rfl, rfl⟩ := h
        exact .inl ⟨_, rfl, .written hmarked⟩
      | error e =>
        obtain ⟨rfl, rfl⟩ := h
        exact .inr ⟨e, rfl, .unwritten hmarked⟩

theorem tries_of_series {delay : Nat → Duration} {budget made : Nat}
    {r : Except Failure (GameServer × Bool)}
    (h : Series delay budget (markOnce gs.name gs.ns).Yields made t r) : Tries gs t r := by
  induction h with
  | last hlast hsettles =>
    rcases tries_or_misses hlast with ⟨x, rfl, htries⟩ | ⟨e, rfl, hmissed⟩
    · cases hsettles
      exact htries
    · cases hsettles with
      | failure | exhausted => exact .missed hmissed rfl
  | again hfirst hconflict _ _ ih =>
    rcases tries_or_misses hfirst with ⟨x, hok, -⟩ | ⟨e, herror, hmissed⟩
    · cases hok
    · cases herror
      exact .again hmissed hconflict ih

theorem announce_yields {written : GameServer} {u : Unit} (h : (announce written).Yields t u) :
    t = ⟨.count .ready, ()⟩ :: (announcement written).map fun e => ⟨.publish e.1 e.2, ()⟩ := by
  obtain ⟨_, t, rfl, _, t, rfl, h⟩ := h
  change (if _ then _ else _ : Program Unit).Yields _ _ at h
  unfold announcement
  split at h
  · next hlegacy =>
    obtain ⟨_, _, rfl, rfl, -⟩ := h
    rw [if_pos hlegacy]
    rfl
  · next hlegacy =>
    obtain ⟨rfl, -⟩ := h
    rw [if_neg hlegacy]
    rfl

theorem marks_of_yields {b : Backoff} {r : Except Failure GameServer}
    (h : (mark b gs).Yields t r) : Marks gs t r := by
  obtain ⟨t, rest, r₁, rfl, hloop, h⟩ := Program.yields_bind.mp h
  have htries := tries_of_series ((retryOnConflict_yields_iff fun _ _ => Iff.rfl).mp hloop)
  match r₁ with
  | .error e =>
    obtain ⟨rfl, rfl⟩ := h
    rw [List.append_nil]
    exact .failed htries
  | .ok (current, false) =>
    obtain ⟨rfl, rfl⟩ := h
    rw [List.append_nil]
    exact .found htries
  | .ok (written, true) =>
    obtain ⟨rest, _, u, rfl, hannounce, rfl, rfl⟩ := Program.yields_bind.mp h
    rw [announce_yields hannounce, List.append_nil]
    exact .written htries

theorem readies_of_yields {b : Backoff} {r : Except Failure GameServer}
    (h : (readiness b gs).Yields t r) : Readies gs t r := by
  unfold readiness at h
  split at h
  · next hready =>
    obtain ⟨rfl, rfl⟩ := h
    exact .ready hready
  · next hready => exact .pending hready (marks_of_yields h)
  · next e hready =>
    obtain ⟨_, t, rfl, h⟩ := h
    change (mark b gs >>= _).Yields _ _ at h
    obtain ⟨t, rest, r₁, rfl, hmark, h⟩ := Program.yields_bind.mp h
    have hmarks := marks_of_yields hmark
    cases r₁ with
    | error f =>
      obtain ⟨rfl, rfl⟩ := h
      rw [List.append_nil]
      exact .unrepaired hready hmarks
    | ok marked =>
      obtain ⟨rfl, rfl⟩ := h
      rw [List.append_nil]
      exact .repaired hready hmarks

end GameIngress.Reconcile
