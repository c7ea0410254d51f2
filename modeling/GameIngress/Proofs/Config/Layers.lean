import GameIngress.Config.Flags
import GameIngress.Proofs.Config.Document

/-!
# Flags over a file over the defaults

The configuration to run with takes every field from the flags if they give it, else from the file
if it is written there, else from the defaults. It has to be valid, and so has the configuration of
the file by itself, without the flags. This is where the layers do not compose: a flag does not make
up for a value of the file that it replaces.
-/
namespace GameIngress

open Config

/-- What the flags give. The path rewrite can only be switched on. -/
def Flags.given (f : Flags) : Partial
  | .ns => f.ns.map some
  | .syncPeriod => f.syncPeriod
  | .maxConcurrentReconciles => f.maxConcurrentReconciles
  | .healthAddress => f.healthAddress
  | .ingressPathRewrite => if f.ingressPathRewrite then some true else none
  | .logFormat => f.logFormat
  | .statusRetrySteps | .requeueBaseDelay | .requeueMaxDelay | .cacheSyncInterval
  | .cacheSyncAttempts | .cacheSyncTimeout | .reporter => none

/-- Each field of the configuration is as the flags give it, or else as it is written in the file,
or else the default. -/
structure Config.Merges (flags file : Partial) (c : Config) : Prop where
  given : ∀ g v, flags g = some v → c.get g = v
  written : ∀ g v, flags g = none → file g = some v → c.get g = v
  default : ∀ g, flags g = none → file g = none → c.get g = ({} : Config).get g

variable {f : Flags} {content : String → Except FileFault String} {flags file : Partial}
  {c c' own : Config} {entries : List (Field × Yaml.Event)}

theorem Config.merges_iff : Merges flags file c ↔
    ∀ g, c.get g = ((flags g).or (file g)).getD (({} : Config).get g) := by
  constructor
  · intro h g
    cases hgiven : flags g with
    | some v => exact h.given g v hgiven
    | none =>
      cases hwritten : file g with
      | some v => exact h.written g v hgiven hwritten
      | none => exact h.default g hgiven hwritten
  · intro h
    refine ⟨fun g v hv => ?_, fun g v hn hv => ?_, fun g hn hn' => ?_⟩
    · rw [h, hv]
      rfl
    · rw [h, hn, hv]
      rfl
    · rw [h, hn, hn']
      rfl

theorem Config.Merges.iff_eq (h : Merges flags file c) : Merges flags file c' ↔ c' = c := by
  constructor
  · intro h'
    rw [merges_iff] at h h'
    exact ext_get fun g => (h' g).trans (h g).symm
  · rintro rfl
    exact h

namespace Flags

theorem get_overlay (f : Flags) (c : Config) (g : Field) :
    (f.overlay c).get g = (f.given g).getD (c.get g) := by
  cases g with
  | ns =>
    change (f.ns <|> c.ns) = (f.ns.map some).getD c.ns
    cases f.ns <;> rfl
  | ingressPathRewrite =>
    change (f.ingressPathRewrite || c.ingressPathRewrite) =
      (if f.ingressPathRewrite then some true else none).getD c.ingressPathRewrite
    cases f.ingressPathRewrite <;> rfl
  | _ => rfl

theorem merges_overlay (h : Merges (fun _ => none) file own) :
    Merges f.given file (f.overlay own) := by
  rw [merges_iff] at h ⊢
  intro g
  rw [get_overlay, h]
  cases f.given g <;> rfl

theorem merges_of_lays (h : Lays entries {} c) : Merges (fun _ => none) (said entries) c :=
  merges_iff.mpr h

/-- What is written in the file that the flags name, if they name one. -/
inductive Starts (f : Flags) (content : String → Except FileFault String) : Partial → Prop
  | bare (unnamed : f.file = none) : Starts f content fun _ => none
  | file {path text : String} {entries : List (Field × Yaml.Event)} (named : f.file = some path)
      (read : content path = .ok text) (writes : Writes text entries) :
      Starts f content (said entries)

/-- The file that the flags name, if they name one, can be read and decodes. -/
def Decodes (f : Flags) (content : String → Except FileFault String) : Prop :=
  ∀ path, f.file = some path → ∃ text c, content path = .ok text ∧ Config.decode text = .ok c

theorem decodes_iff : f.Decodes content ↔ ∃ file, f.Starts content file := by
  constructor
  · intro h
    cases hfile : f.file with
    | none => exact ⟨_, .bare hfile⟩
    | some path =>
      obtain ⟨text, c, htext, hdecode⟩ := h path hfile
      obtain ⟨entries, hwrites, -⟩ := decode_ok_iff.mp hdecode
      exact ⟨_, .file hfile htext hwrites⟩
  · rintro ⟨file, hunnamed | ⟨hnamed, htext, hwrites⟩⟩ path hpath
    · cases hunnamed.symm.trans hpath
    · cases hnamed.symm.trans hpath
      obtain ⟨c, hdecode, -⟩ := hwrites.exists_decode
      exact ⟨_, c, htext, hdecode⟩

theorem Starts.base (h : f.Starts content file) :
    ∃ own, Merges (fun _ => none) file own ∧ f.base content = own.validate := by
  cases h with
  | bare hunnamed =>
    refine ⟨{}, merges_iff.mpr fun _ => rfl, ?_⟩
    rw [Flags.base, hunnamed]
    rfl
  | file hnamed htext hwrites =>
    obtain ⟨own, hdecode, hlays⟩ := hwrites.exists_decode
    refine ⟨own, merges_of_lays hlays, ?_⟩
    simp only [Flags.base, hnamed, htext, Config.ofYaml, hdecode]

theorem base_of_not_decodes (h : ¬ f.Decodes content) :
    ∃ reason, f.base content = .error (.config reason) := by
  simp only [Decodes, not_forall, not_exists, not_and] at h
  obtain ⟨path, hfile, h⟩ := h
  rw [base, hfile]
  dsimp only
  cases htext : content path with
  | error e => exact ⟨_, rfl⟩
  | ok text =>
    cases hdecode : Config.decode text with
    | error e =>
      simp only [Config.ofYaml, hdecode]
      exact ⟨_, rfl⟩
    | ok c => exact absurd hdecode (h text c htext)

theorem resolve_of_base (h : f.base content = own.validate) :
    f.resolve content = match own.fault?.or (f.overlay own).fault? with
      | some fault => .error (.config fault.message)
      | none => .ok (f.overlay own) := by
  rw [resolve, h, validate]
  cases own.fault? with
  | some fault => rfl
  | none => rfl

/-- The result is the configuration itself if it is valid, and otherwise a complaint. -/
structure Decides (merged : Config) (r : Except Failure Config) : Prop where
  valid : merged.fault? = none → r = .ok merged
  faulty : merged.fault? ≠ none → ∃ reason, r = .error (.config reason)

theorem decides_iff (h : f.base content = own.validate) :
    Decides (f.overlay own) (f.resolve content) ↔
      ((f.overlay own).fault? = none → own.fault? = none) := by
  rw [resolve_of_base h]
  cases hown : own.fault? with
  | none =>
    refine iff_of_true ⟨fun hvalid => ?_, fun hfaulty => ?_⟩ fun _ => rfl
    · rw [hvalid]
      rfl
    · obtain ⟨fault, hfault⟩ := Option.ne_none_iff_exists'.mp hfaulty
      rw [hfault]
      exact ⟨_, rfl⟩
  | some fault =>
    constructor
    · intro hdecides hvalid
      cases hdecides.valid hvalid
    · intro hfaulty
      refine ⟨fun hvalid => ?_, fun _ => ⟨_, rfl⟩⟩
      cases hfaulty hvalid

/-- Flags override the file, and the file the defaults, but both the file by itself and the outcome
have to be valid; the first fault is reported, that of the file before that of the outcome. So the
outcome alone decides, except where the flags would replace what is invalid in the file. -/
theorem resolve_layers (f : Flags) (content : String → Except FileFault String) :
    (f.Decodes content ↔ ∃ file, f.Starts content file) ∧
    (∀ file, f.Starts content file → ∃ own merged,
      (∀ c, Merges (fun _ => none) file c ↔ c = own) ∧ (∀ c, Merges f.given file c ↔ c = merged) ∧
      merged.ingressPathRewrite = (f.ingressPathRewrite || own.ingressPathRewrite) ∧
      (∀ c, f.resolve content = .ok c ↔ c = merged ∧ own.fault? = none ∧ merged.fault? = none) ∧
      (∀ fault, own.fault?.or merged.fault? = some fault →
        f.resolve content = .error (.config fault.message)) ∧
      (Decides merged (f.resolve content) ↔ (merged.fault? = none → own.fault? = none))) ∧
    (¬ f.Decodes content → ∃ reason, f.resolve content = .error (.config reason)) := by
  refine ⟨decodes_iff, fun file hstarts => ?_, fun hdecodes => ?_⟩
  · obtain ⟨own, hmerges, hbase⟩ := hstarts.base
    refine ⟨own, f.overlay own, fun _ => hmerges.iff_eq,
      fun _ => (merges_overlay hmerges).iff_eq, rfl,
      fun c => ?_, fun fault hfault => ?_, decides_iff hbase⟩
    · rw [resolve_of_base hbase]
      cases own.fault? with
      | some fault => simp
      | none =>
        cases (f.overlay own).fault? with
        | some fault => simp
        | none => simp [eq_comm]
    · rw [resolve_of_base hbase, hfault]
  · obtain ⟨reason, hbase⟩ := base_of_not_decodes hdecodes
    exact ⟨reason, by rw [resolve, hbase]⟩

theorem eq_ok_of_toOption {ε α : Type} {r : Except ε α} {a : α} (h : r.toOption = some a) :
    r = .ok a := by
  cases r with
  | ok b => rw [Option.some_inj.mp h]
  | error e => cases h

/-- A period from the flags replaces the one in the file, and the rest of the file stays. -/
theorem resolve_layers_override :
    let f : Flags := { file := some "config.yaml", syncPeriod := some (.ofSecs 5) }
    let content (_ : String) : Except FileFault String :=
      .ok "namespace: games\nsyncPeriod: 30s\nmaxConcurrentReconciles: 4\n"
    ∃ file merged, f.Starts content file ∧ Merges f.given file merged ∧
      f.resolve content = .ok merged ∧
      merged = { ns := some "games", syncPeriod := .ofSecs 5, maxConcurrentReconciles := 4 } := by
  intro f content
  let expected : Config :=
    { ns := some "games", syncPeriod := .ofSecs 5, maxConcurrentReconciles := 4 }
  have hresolve : f.resolve content = .ok expected := eq_ok_of_toOption (by decide +kernel)
  obtain ⟨hdecodes, hlayers, -⟩ := resolve_layers f content
  have hfile : f.Decodes content := by
    rintro path -
    exact ⟨_, { ns := some "games", syncPeriod := .ofSecs 30, maxConcurrentReconciles := 4 }, rfl,
      eq_ok_of_toOption (by decide +kernel)⟩
  obtain ⟨file, hstarts⟩ := hdecodes.mp hfile
  obtain ⟨own, merged, -, hmerges, -, hok, -⟩ := hlayers file hstarts
  have heq := ((hok expected).mp hresolve).1
  exact ⟨file, merged, hstarts, (hmerges merged).mpr rfl, heq ▸ hresolve, heq.symm⟩

/-- A limit from the flags does not make up for the one in the file, which is invalid. -/
theorem override_of_invalid_refused :
    let f : Flags := { file := some "config.yaml", maxConcurrentReconciles := some 5 }
    let content (_ : String) : Except FileFault String := .ok "maxConcurrentReconciles: 0\n"
    ∃ file merged, f.Starts content file ∧ Merges f.given file merged ∧
      merged.validate = .ok merged ∧ ¬ Decides merged (f.resolve content) := by
  intro f content
  have hdecode : Config.decode "maxConcurrentReconciles: 0\n" =
      .ok { maxConcurrentReconciles := 0 } := eq_ok_of_toOption (by decide +kernel)
  obtain ⟨entries, hwrites, hlays⟩ := decode_ok_iff.mp hdecode
  refine ⟨_, _, .file rfl rfl hwrites, merges_overlay (merges_of_lays hlays), rfl, ?_⟩
  intro hdecides
  have hrefused : (f.resolve content).toOption = none := by decide +kernel
  rw [hdecides.valid rfl] at hrefused
  cases hrefused

end Flags
end GameIngress
