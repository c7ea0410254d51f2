import GameIngress.Proofs.Reconcile.Sharing

/-!
# Which objects there are

A request leaves the Services and Ingresses that are there as they are; at most it creates one where
there is none. Some answers tell that there is one, if a store refuses a creation as a second one
only where it is.
-/
namespace GameIngress

variable {α β : Type}

/-- What a request creates, if the store agrees. -/
def Request.creation? : Request β → Option (ResourceKind × ObjectMeta)
  | .createService s => some (.service, s.metadata)
  | .createIngress i => some (.ingress, i.metadata)
  | _ => none

/-- The answer tells that there is an object of the kind under the key. -/
def Exchange.Shows (kind : ResourceKind) (key : String) : Exchange → Prop
  | ⟨.findService name ns, some _⟩ => kind = .service ∧ ns ++ "/" ++ name = key
  | ⟨.findIngress name ns, some _⟩ => kind = .ingress ∧ ns ++ "/" ++ name = key
  | ⟨.createService s, .ok _⟩ => kind = .service ∧ s.metadata.key = key
  | ⟨.createIngress i, .ok _⟩ => kind = .ingress ∧ i.metadata.key = key
  | ⟨.createService s, .error e⟩ =>
    e.isAlreadyExists = true ∧ kind = .service ∧ s.metadata.key = key
  | ⟨.createIngress i, .error e⟩ =>
    e.isAlreadyExists = true ∧ kind = .ingress ∧ i.metadata.key = key
  | _ => False

namespace Memory

variable {m m' : Memory} {kind : ResourceKind} {key : String}

/-- The metadata of the Service or the Ingress under a key. -/
def metaAt (kind : ResourceKind) (key : String) (m : Memory) : Option ObjectMeta :=
  match kind with
  | .service => (m.services.lookup key).map (·.metadata)
  | .ingress => (m.ingresses.lookup key).map (·.metadata)
  | .gameServer => none

/-- A creation is refused as a second one only where there is an object already. -/
def Truthful (m : Memory) : Exchange → Prop
  | ⟨.createService s, .error e⟩ =>
    e.isAlreadyExists = true → (m.metaAt .service s.metadata.key).isSome = true
  | ⟨.createIngress i, .error e⟩ =>
    e.isAlreadyExists = true → (m.metaAt .ingress i.metadata.key).isSome = true
  | _ => True

theorem lookup_remove (key : String) (es : List (String × α)) (key' : String) :
    (remove key es).lookup key' = if key' = key then none else es.lookup key' := by
  induction es with
  | nil =>
    change none = _
    split <;> rfl
  | cons e rest ih =>
    unfold remove at ih ⊢
    rw [List.filter_cons]
    split
    · next hne =>
      have hkey : e.1 ≠ key := by simpa using hne
      rw [lookup_cons_ite, lookup_cons_ite, ih]
      by_cases hk : key' = e.1
      · rw [if_pos hk, if_pos hk, if_neg (hk ▸ hkey)]
      · rw [if_neg hk, if_neg hk]
    · next heq =>
      have hkey : e.1 = key := by simpa using heq
      rw [ih, lookup_cons_ite]
      by_cases hk : key' = key
      · rw [if_pos hk, if_pos hk]
      · rw [if_neg hk, if_neg hk, if_neg (hkey ▸ hk)]

/-- Take the object of a kind under a key away. -/
def collect (kind : ResourceKind) (key : String) (m : Memory) : Memory :=
  match kind with
  | .service => { m with services := remove key m.services }
  | .ingress => { m with ingresses := remove key m.ingresses }
  | .gameServer => m

theorem metaAt_of_collect {kind' : ResourceKind} {key' : String} {found : ObjectMeta}
    (h : (m.collect kind' key').metaAt kind key = some found) : m.metaAt kind key = some found := by
  cases kind' <;> cases kind <;> first
    | exact h
    | simp only [collect, metaAt, lookup_remove] at h
      split at h
      · cases h
      · exact h

/-- The Services and the Ingresses are the same. -/
structure SameObjects (m m' : Memory) : Prop where
  services : m'.services = m.services
  ingresses : m'.ingresses = m.ingresses

theorem SameObjects.metaAt (h : SameObjects m m') (kind : ResourceKind) (key : String) :
    m'.metaAt kind key = m.metaAt kind key := by
  cases kind <;> simp only [Memory.metaAt, h.services, h.ingresses]

theorem sameObjects_takeFault (call : StoreCall) (m : Memory) :
    SameObjects m (takeFault call m).2 := by
  unfold takeFault
  split <;> exact ⟨rfl, rfl⟩

theorem sameObjects_read (key : String) (m : Memory) : SameObjects m (read key m).2 := by
  have htaken := sameObjects_takeFault .readGameServer
    { m with log := .readGameServer key :: m.log }
  unfold read
  split
  next heq =>
  rw [heq] at htaken
  split
  · exact ⟨htaken.services, htaken.ingresses⟩
  · split <;> exact ⟨htaken.services, htaken.ingresses⟩

theorem sameObjects_write (gs : GameServer) (m : Memory) : SameObjects m (write gs m).2 := by
  have htaken := sameObjects_takeFault .writeGameServer
    { m with log := .writeGameServer gs :: m.log }
  unfold write
  split
  next heq =>
  rw [heq] at htaken
  split
  · split <;> exact ⟨htaken.services, htaken.ingresses⟩
  · exact ⟨htaken.services, htaken.ingresses⟩
  · exact ⟨htaken.services, htaken.ingresses⟩
  · split <;> exact ⟨htaken.services, htaken.ingresses⟩

theorem createIn_cases (call : StoreCall) (entry : LogEntry) (key : String) (v : α)
    {table : Memory → List (String × α)} (store : List (String × α) → Memory → Memory)
    (htable : ∀ m', SameObjects m m' → table m' = table m) :
    ∃ m₁, SameObjects m m₁ ∧
      ((∃ e, createIn call entry key v table store m = (.error e, m₁)) ∨
        (table m).lookup key = none ∧
          createIn call entry key v table store m = (.ok v, store (put key v (table m)) m₁)) := by
  obtain ⟨hservices, hingresses⟩ := sameObjects_takeFault call { m with log := entry :: m.log }
  unfold createIn
  generalize takeFault call { m with log := entry :: m.log } = x at hservices hingresses
  obtain ⟨fault, m₁⟩ := x
  have hsame : SameObjects m m₁ := ⟨hservices, hingresses⟩
  refine ⟨m₁, hsame, ?_⟩
  cases fault with
  | some e => exact .inl ⟨e, rfl⟩
  | none =>
    dsimp only
    rw [htable m₁ hsame]
    cases hlookup : (table m).lookup key with
    | some _ => exact .inl ⟨_, rfl⟩
    | none => exact .inr ⟨rfl, rfl⟩

/-- An object was created where there was none, and all else is as it was. -/
structure Creates (kind : ResourceKind) (created : ObjectMeta) (m m' : Memory) : Prop where
  absent : m.metaAt kind created.key = none
  after : ∀ kind' key, m'.metaAt kind' key =
    if kind' = kind ∧ key = created.key then some created else m.metaAt kind' key

theorem Creates.there {created : ObjectMeta} (h : Creates kind created m m') :
    m'.metaAt kind created.key = some created := by
  rw [h.after, if_pos ⟨rfl, rfl⟩]

theorem answer_createService (s : Service) (m : Memory) :
    (∃ e, (m.answer (.createService s)).1 = .error e ∧
        SameObjects m (m.answer (.createService s)).2) ∨
      Creates .service s.metadata m (m.answer (.createService s)).2 := by
  rw [answer]
  obtain ⟨m₁, hsame, ⟨e, hcreate⟩ | ⟨hnone, hcreate⟩⟩ := createIn_cases (m := m) .createService
    (.createService s) s.metadata.key s (fun t m => { m with services := t }) fun _ h => h.services
  · rw [hcreate]
    exact .inl ⟨e, rfl, hsame⟩
  · rw [hcreate]
    refine .inr ⟨by rw [metaAt, hnone]; rfl, fun kind' key => ?_⟩
    cases kind' with
    | service =>
      simp only [metaAt, lookup_put, true_and]
      split <;> rfl
    | ingress => exact hsame.metaAt .ingress key
    | gameServer => rfl

theorem answer_createIngress (i : Ingress) (m : Memory) :
    (∃ e, (m.answer (.createIngress i)).1 = .error e ∧
        SameObjects m (m.answer (.createIngress i)).2) ∨
      Creates .ingress i.metadata m (m.answer (.createIngress i)).2 := by
  rw [answer]
  obtain ⟨m₁, hsame, ⟨e, hcreate⟩ | ⟨hnone, hcreate⟩⟩ := createIn_cases (m := m) .createIngress
    (.createIngress i) i.metadata.key i (fun t m => { m with ingresses := t })
    fun _ h => h.ingresses
  · rw [hcreate]
    exact .inl ⟨e, rfl, hsame⟩
  · rw [hcreate]
    refine .inr ⟨by rw [metaAt, hnone]; rfl, fun kind' key => ?_⟩
    cases kind' with
    | ingress =>
      simp only [metaAt, lookup_put, true_and]
      split <;> rfl
    | service => exact hsame.metaAt .service key
    | gameServer => rfl

theorem creates_or_same (r : Request β) (m : Memory) :
    (∃ kind created, r.creation? = some (kind, created) ∧ Creates kind created m (m.answer r).2) ∨
      SameObjects m (m.answer r).2 := by
  cases r with
  | findService _ _ | findIngress _ _ | publish _ _ | count _ | pause _ => exact .inr ⟨rfl, rfl⟩
  | readGameServer name ns => exact .inr (sameObjects_read _ m)
  | writeGameServer gs => exact .inr (sameObjects_write gs m)
  | createService s =>
    obtain ⟨e, -, hsame⟩ | hcreates := answer_createService s m
    · exact .inr hsame
    · exact .inl ⟨_, _, rfl, hcreates⟩
  | createIngress i =>
    obtain ⟨e, -, hsame⟩ | hcreates := answer_createIngress i m
    · exact .inr hsame
    · exact .inl ⟨_, _, rfl, hcreates⟩

theorem metaAt_answer (r : Request β) (m : Memory) (kind : ResourceKind) (key : String) :
    (m.answer r).2.metaAt kind key = m.metaAt kind key ∨
      m.metaAt kind key = none ∧ ∃ created, r.creation? = some (kind, created) ∧
        created.key = key ∧ (m.answer r).2.metaAt kind key = some created := by
  obtain ⟨kind', created, hcreation, hcreates⟩ | hsame := creates_or_same r m
  · by_cases hhere : kind = kind' ∧ key = created.key
    · obtain ⟨rfl, rfl⟩ := hhere
      exact .inr ⟨hcreates.absent, created, hcreation, rfl, hcreates.there⟩
    · exact .inl ((hcreates.after kind key).trans (if_neg hhere))
  · exact .inl (hsame.metaAt kind key)

theorem metaAt_answer_of_some {r : Request β} {found : ObjectMeta}
    (h : m.metaAt kind key = some found) : (m.answer r).2.metaAt kind key = some found := by
  rcases metaAt_answer r m kind key with hsame | ⟨hnone, -⟩
  · exact hsame.trans h
  · cases hnone.symm.trans h

open Reconcile in
theorem exists_metaAt_of_shows {r : Request β} {b : β} (hreply : Replies m r b m')
    (htrue : m.Truthful ⟨r, b⟩) (h : Exchange.Shows kind key ⟨r, b⟩) :
    ∃ found, m'.metaAt kind key = some found := by
  obtain ⟨hanswer, rfl⟩ := hreply
  cases r with
  | readGameServer _ _ | writeGameServer _ | publish _ _ | count _ | pause _ => exact h.elim
  | findService name ns =>
    cases b with
    | none => exact h.elim
    | some s =>
      obtain ⟨rfl, rfl⟩ := h
      have hfound : m.services.lookup (ns ++ "/" ++ name) = some s :=
        hanswer.elim (·.symm) fun hunheard => by cases hunheard
      exact ⟨s.metadata, congrArg (Option.map fun s : Service => s.metadata) hfound⟩
  | findIngress name ns =>
    cases b with
    | none => exact h.elim
    | some i =>
      obtain ⟨rfl, rfl⟩ := h
      have hfound : m.ingresses.lookup (ns ++ "/" ++ name) = some i :=
        hanswer.elim (·.symm) fun hunheard => by cases hunheard
      exact ⟨i.metadata, congrArg (Option.map fun i : Ingress => i.metadata) hfound⟩
  | createService s =>
    have hb : b = (m.answer (.createService s)).1 := hanswer.resolve_right id
    cases b with
    | error e =>
      obtain ⟨hexists, rfl, rfl⟩ := h
      obtain ⟨found, hfound⟩ := Option.isSome_iff_exists.mp (htrue hexists)
      exact ⟨found, metaAt_answer_of_some hfound⟩
    | ok a =>
      obtain ⟨rfl, rfl⟩ := h
      obtain ⟨e, herror, -⟩ | hcreates := answer_createService s m
      · cases hb.trans herror
      · exact ⟨s.metadata, hcreates.there⟩
  | createIngress i =>
    have hb : b = (m.answer (.createIngress i)).1 := hanswer.resolve_right id
    cases b with
    | error e =>
      obtain ⟨hexists, rfl, rfl⟩ := h
      obtain ⟨found, hfound⟩ := Option.isSome_iff_exists.mp (htrue hexists)
      exact ⟨found, metaAt_answer_of_some hfound⟩
    | ok a =>
      obtain ⟨rfl, rfl⟩ := h
      obtain ⟨e, herror, -⟩ | hcreates := answer_createIngress i m
      · cases hb.trans herror
      · exact ⟨i.metadata, hcreates.there⟩

end Memory
end GameIngress
