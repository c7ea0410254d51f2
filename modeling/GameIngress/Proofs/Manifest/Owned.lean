import GameIngress.Manifest.Ingress
import GameIngress.Manifest.Service

/-!
# The names of built objects

Build steps change annotations and specifications only, so an object that is built for a game server
has the name and the namespace of the game server.
-/
namespace GameIngress.Manifest

variable {σ α : Type} {gs : GameServer}

theorem build_keeps {P : α → Prop} {apply : σ → α → Stepped α}
    (hstep : ∀ s a, P a → P (apply s a).1) {steps : List σ} {a b : α}
    (h : build apply steps a = .ok b) (ha : P a) : P b := by
  induction steps generalizing a with
  | nil =>
    cases h
    exact ha
  | cons s rest ih =>
    rw [build] at h
    split at h
    · next c hc =>
      have hc' := hstep s a ha
      rw [hc] at hc'
      exact ih h hc'
    · cases h

/-- The metadata are those of an object of the game server, with any annotations. -/
def Owned (gs : GameServer) (m : ObjectMeta) : Prop :=
  ∃ annotations, m = { ownedMeta gs with annotations }

theorem Owned.annotations {m : ObjectMeta} (h : Owned gs m) (annotations : Option TextMap) :
    Owned gs { m with annotations } := by
  obtain ⟨_, rfl⟩ := h
  exact ⟨annotations, rfl⟩

theorem Owned.key {m : ObjectMeta} (h : Owned gs m) : m.key = gs.key := by
  obtain ⟨_, rfl⟩ := h
  rfl

theorem owned_of_buildService {s : Service} (h : buildService gs = .ok s) :
    Owned gs s.metadata :=
  build_keeps (P := fun s : Service => Owned gs s.metadata) (fun _ _ hs => hs.annotations _) h
    ⟨_, rfl⟩

theorem owned_step (step : IngressStep) (i : Ingress) (h : Owned gs i.metadata) :
    Owned gs (step.apply gs i).1.metadata := by
  cases step with
  | literals | templates => exact h.annotations _
  | className =>
    change Owned gs (if _ then _ else _ : Stepped Ingress).1.metadata
    split <;> exact h
  | rules mode rewrite =>
    change Owned gs (applyRules gs mode rewrite i).1.metadata
    unfold applyRules
    split
    · exact h
    · cases mode with
      | domain => exact h
      | path =>
        dsimp only
        split <;> exact h.annotations _
  | tls mode =>
    change Owned gs (applyTls gs mode i).1.metadata
    unfold applyTls
    dsimp only
    split
    · exact h
    · split <;> exact h
  | issuer name =>
    change Owned gs (applyIssuer gs name i).1.metadata
    unfold applyIssuer
    split
    · exact h
    · split
      · exact h
      · exact h
      · split
        · exact h
        · exact h.annotations _

theorem owned_of_buildIngress {rewrite : Bool} {i : Ingress} (h : buildIngress gs rewrite = .ok i) :
    Owned gs i.metadata :=
  build_keeps (P := fun i : Ingress => Owned gs i.metadata) owned_step h ⟨_, rfl⟩

end GameIngress.Manifest
