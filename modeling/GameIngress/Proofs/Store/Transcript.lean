import GameIngress.Store.Memory

/-!
# Transcripts

What a program asked and what it was answered. A request may be answered in any way, so what holds
of every transcript of a program holds over every store, whatever it keeps and whichever of its
calls fail. A store in memory is one of those that may answer.
-/
namespace GameIngress

/-- A request and the answer to it. -/
structure Exchange where
  {β : Type}
  request : Request β
  answer : β

abbrev Transcript := List Exchange

/-- Someone who answers any request, in view of all that went before. -/
abbrev Responder := Transcript → {β : Type} → Request β → β

/-- All the answers are those of the responder. -/
def Responder.Gave (w : Responder) : Transcript → Transcript → Prop
  | _, [] => True
  | before, e :: t => e.answer = w before e.request ∧ Gave w (before ++ [e]) t

namespace Program

variable {α β : Type} {p : Program α} {t : Transcript} {a : α}

/-- With the answers of the transcript, the program asks just what the transcript says, and comes to
the result. -/
def Yields : Program α → Transcript → α → Prop
  | done a, t, a' => t = [] ∧ a' = a
  | ask r next, t, a' => ∃ b t', t = ⟨r, b⟩ :: t' ∧ Yields (next b) t' a'

/-- Every request that the program can ever make is of the given kind. -/
def Every (P : {β : Type} → Request β → Prop) : Program α → Prop
  | done _ => True
  | ask r next => P r ∧ ∀ b, Every P (next b)

/-- The program makes at most so many requests. -/
def Within : Nat → Program α → Prop
  | _, done _ => True
  | 0, ask _ _ => False
  | n + 1, ask _ next => ∀ b, Within n (next b)

theorem yields_bind {f : α → Program β} {b : β} :
    (p >>= f).Yields t b ↔
      ∃ t₁ t₂ a, t = t₁ ++ t₂ ∧ p.Yields t₁ a ∧ (f a).Yields t₂ b := by
  induction p generalizing t with
  | done a =>
    rw [done_bind]
    constructor
    · intro h
      exact ⟨[], t, a, rfl, ⟨rfl, rfl⟩, h⟩
    · rintro ⟨_, t₂, _, rfl, ⟨rfl, rfl⟩, h⟩
      exact h
  | ask r next ih =>
    rw [ask_bind]
    constructor
    · rintro ⟨c, t', rfl, h⟩
      obtain ⟨t₁, t₂, a, rfl, hp, hf⟩ := (ih c).mp h
      exact ⟨⟨r, c⟩ :: t₁, t₂, a, rfl, ⟨c, t₁, rfl, hp⟩, hf⟩
    · rintro ⟨_, t₂, a, rfl, ⟨c, t₁, rfl, hp⟩, hf⟩
      exact ⟨c, t₁ ++ t₂, rfl, (ih c).mpr ⟨t₁, t₂, a, rfl, hp, hf⟩⟩

theorem exists_yields (w : Responder) (p : Program α) (before : Transcript) :
    ∃ t a, p.Yields t a ∧ w.Gave before t := by
  induction p generalizing before with
  | done a => exact ⟨[], a, ⟨rfl, rfl⟩, trivial⟩
  | ask r next ih =>
    obtain ⟨t, a, hy, hg⟩ := ih (w before r) (before ++ [⟨r, w before r⟩])
    exact ⟨_, a, ⟨_, t, rfl, hy⟩, rfl, hg⟩

namespace Within

variable {n k : Nat}

theorem mono (h : Within n p) (hn : n ≤ k) : Within k p := by
  induction p generalizing n k with
  | done _ => cases k <;> trivial
  | ask r next ih =>
    obtain _ | n := n
    · exact h.elim
    · obtain ⟨j, rfl⟩ : ∃ j, k = j + 1 := ⟨k - 1, by omega⟩
      exact fun b => ih b (h b) (by omega)

theorem bind {f : α → Program β} (h : Within n p) (hf : ∀ a, Within k (f a)) :
    Within (n + k) (p >>= f) := by
  induction p generalizing n with
  | done a => exact (hf a).mono (by omega)
  | ask r next ih =>
    obtain _ | n := n
    · exact h.elim
    · rw [ask_bind, show n + 1 + k = n + k + 1 by omega]
      exact fun b => ih b (h b)

end Within

namespace Every

variable {P : {β : Type} → Request β → Prop}

theorem bind {f : α → Program β} (h : p.Every P) (hf : ∀ a, (f a).Every P) :
    (p >>= f).Every P := by
  induction p with
  | done a => exact hf a
  | ask r next ih => exact ⟨h.1, fun b => ih b (h.2 b)⟩

theorem imp {Q : {β : Type} → Request β → Prop} (h : p.Every P)
    (hPQ : ∀ {β : Type} (r : Request β), P r → Q r) : p.Every Q := by
  induction p with
  | done _ => trivial
  | ask r next ih => exact ⟨hPQ r h.1, fun b => ih b (h.2 b)⟩

theorem of_mem (h : p.Every P) (hy : p.Yields t a) : ∀ e ∈ t, P e.request := by
  induction p generalizing t with
  | done _ =>
    obtain ⟨rfl, -⟩ := hy
    intro e he
    cases he
  | ask r next ih =>
    obtain ⟨b, t', rfl, hy⟩ := hy
    intro e he
    rcases List.mem_cons.mp he with rfl | he
    · exact h.1
    · exact ih b (h.2 b) hy e he

end Every
end Program

namespace Request

variable {β : Type}

def logEntry? : Request β → Option LogEntry
  | .findService name ns => some (.findService (ns ++ "/" ++ name))
  | .findIngress name ns => some (.findIngress (ns ++ "/" ++ name))
  | .createService s => some (.createService s)
  | .createIngress i => some (.createIngress i)
  | .readGameServer name ns => some (.readGameServer (ns ++ "/" ++ name))
  | .writeGameServer gs => some (.writeGameServer gs)
  | .publish _ _ | .count _ | .pause _ => none

def event? : Request β → Option (GameServer × Notice)
  | .publish gs n => some (gs, n)
  | _ => none

def counter? : Request β → Option Counter
  | .count c => some c
  | _ => none

end Request

namespace Memory

variable {α β : Type} {m m' : Memory} {t : Transcript}

/-- The calls, the events and the counts of the transcript were added, and nothing else was. -/
structure Recorded (t : Transcript) (m m' : Memory) : Prop where
  log : m'.log = (t.filterMap (·.request.logEntry?)).reverse ++ m.log
  events : m'.events = (t.filterMap (·.request.event?)).reverse ++ m.events
  tally : m'.tally = (t.filterMap (·.request.counter?)).foldl (fun tally c => tally.bump c) m.tally

/-- A call that takes time adds its entry to the log, and nothing to the rest of the record. -/
structure Logged (entry : LogEntry) (m m' : Memory) : Prop where
  log : m'.log = entry :: m.log
  events : m'.events = m.events
  tally : m'.tally = m.tally
  cutAt : m'.cutAt = m.cutAt

variable {entry : LogEntry}

theorem logged_takeFault (call : StoreCall) (entry : LogEntry) (m : Memory) :
    Logged entry m (takeFault call { m with log := entry :: m.log }).2 := by
  unfold takeFault
  split <;> exact ⟨rfl, rfl, rfl, rfl⟩

theorem logged_createIn {call : StoreCall} {key : String} {v : α}
    {table : Memory → List (String × α)} {store : List (String × α) → Memory → Memory}
    (hstore : ∀ t m', Logged entry m m' → Logged entry m (store t m')) :
    Logged entry m (createIn call entry key v table store m).2 := by
  have htaken := logged_takeFault call entry m
  unfold createIn
  split
  next fault m₁ htake =>
  rw [htake] at htaken
  split
  · exact htaken
  · split
    · exact htaken
    · exact hstore _ _ htaken

theorem logged_read (key : String) (m : Memory) :
    Logged (.readGameServer key) m (read key m).2 := by
  have htaken := logged_takeFault .readGameServer (.readGameServer key) m
  unfold read
  split
  next fault m₁ htake =>
  rw [htake] at htaken
  split
  · exact htaken
  · split <;> exact htaken

theorem logged_write (gs : GameServer) (m : Memory) :
    Logged (.writeGameServer gs) m (write gs m).2 := by
  obtain ⟨hlog, hevents, htally, hcut⟩ := logged_takeFault .writeGameServer (.writeGameServer gs) m
  unfold write
  split
  next fault m₁ htake =>
  rw [htake] at hlog hevents htally hcut
  split
  · split <;> exact ⟨hlog, hevents, htally, hcut⟩
  · exact ⟨hlog, hevents, htally, hcut⟩
  · exact ⟨hlog, hevents, htally, hcut⟩
  · split <;> exact ⟨hlog, hevents, htally, hcut⟩

theorem Logged.recorded {r : Request β} {b : β} (h : Logged entry m m')
    (hentry : r.logEntry? = some entry) (hevent : r.event? = none) (hcounter : r.counter? = none) :
    Recorded [⟨r, b⟩] m m' ∧ m'.cutAt = m.cutAt := by
  refine ⟨⟨?_, ?_, ?_⟩, h.cutAt⟩
  · rw [h.log, List.filterMap_cons_some (f := fun e : Exchange => e.request.logEntry?) hentry]
    rfl
  · rw [h.events, List.filterMap_cons_none (f := fun e : Exchange => e.request.event?) hevent]
    rfl
  · rw [h.tally, List.filterMap_cons_none (f := fun e : Exchange => e.request.counter?) hcounter]
    rfl

theorem recorded_answer (r : Request β) (m : Memory) :
    Recorded [⟨r, (answer r m).1⟩] m (answer r m).2 ∧ (answer r m).2.cutAt = m.cutAt := by
  cases r with
  | findService _ _ | findIngress _ _ | publish _ _ | count _ | pause _ =>
    exact ⟨⟨rfl, rfl, rfl⟩, rfl⟩
  | createService s =>
    have h : Logged (.createService s) m (answer (.createService s) m).2 :=
      logged_createIn fun _ _ h => ⟨h.log, h.events, h.tally, h.cutAt⟩
    exact h.recorded rfl rfl rfl
  | createIngress i =>
    have h : Logged (.createIngress i) m (answer (.createIngress i) m).2 :=
      logged_createIn fun _ _ h => ⟨h.log, h.events, h.tally, h.cutAt⟩
    exact h.recorded rfl rfl rfl
  | readGameServer name ns => exact (logged_read _ m).recorded rfl rfl rfl
  | writeGameServer gs => exact (logged_write gs m).recorded rfl rfl rfl

theorem Recorded.cons {e : Exchange} {m₁ : Memory} (h : Recorded [e] m m₁)
    (h' : Recorded t m₁ m') : Recorded (e :: t) m m' where
  log := by
    rw [h'.log, h.log, ← List.append_assoc, ← List.reverse_append, ← List.filterMap_append]
    rfl
  events := by
    rw [h'.events, h.events, ← List.append_assoc, ← List.reverse_append, ← List.filterMap_append]
    rfl
  tally := by
    rw [h'.tally, h.tally, ← List.foldl_append, ← List.filterMap_append]
    rfl

theorem wait_ok {millis : Nat} (h : wait millis m = .ok m') : ∃ now, m' = { m with now } := by
  unfold wait at h
  split at h
  · cases h
    exact ⟨m.now, rfl⟩
  · split at h
    · split at h
      · cases h
      · cases h
        exact ⟨_, rfl⟩
    · cases h
      exact ⟨_, rfl⟩

theorem wait_of_uncut (hm : m.cutAt = none) (millis : Nat) : ∃ m', wait millis m = .ok m' := by
  unfold wait
  split
  · exact ⟨m, rfl⟩
  · rw [hm]
    exact ⟨_, rfl⟩

theorem exists_run_of_uncut (p : Program α) (hm : m.cutAt = none) :
    ∃ a, (run p m).1 = some a := by
  induction p generalizing m with
  | done a => exact ⟨a, rfl⟩
  | ask r next ih =>
    obtain ⟨m₁, hwait⟩ := wait_of_uncut hm (m.cost r)
    obtain ⟨now, rfl⟩ := wait_ok hwait
    rw [run, hwait]
    exact ih _ ((recorded_answer r { m with now }).2.trans hm)

/-- A run that comes to a result follows a transcript, and the store keeps what the transcript
says. -/
theorem run_yields {p : Program α} {a : α} (h : (run p m).1 = some a) :
    ∃ t, p.Yields t a ∧ Recorded t m (run p m).2 := by
  induction p generalizing m with
  | done b =>
    cases h
    exact ⟨[], ⟨rfl, rfl⟩, rfl, rfl, rfl⟩
  | ask r next ih =>
    rw [run] at h ⊢
    split at h
    · cases h
    · next m₁ hwait =>
      obtain ⟨now, rfl⟩ := wait_ok hwait
      obtain ⟨t, hy, hrec⟩ := ih _ h
      have hone := (recorded_answer r { m with now }).1
      have hfirst : Recorded [⟨r, (answer r { m with now }).1⟩] m (answer r { m with now }).2 :=
        ⟨hone.log, hone.events, hone.tally⟩
      exact ⟨_, ⟨_, t, rfl, hy⟩, hfirst.cons hrec⟩

end Memory
end GameIngress
