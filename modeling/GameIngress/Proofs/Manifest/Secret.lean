import GameIngress.Proofs.Manifest.Matching
import Mathlib.Data.List.Forall2

/-!
# Default secrets

The default secret of a listed host is named after the host and the game server, joined by a dash
and with dashes for dots. Two things are lost by that: which of the dashes were dots, and at which
of them the host ends. So hosts that differ in dots and dashes only share a secret, and so do two
game servers if the same part ends the host of the one and begins the name of the other.
-/
namespace GameIngress.Manifest

variable {entry name entry' name' s t : String} {cs ds : List Char}

def IsJoint (c : Char) : Prop := c = '.' ∨ c = '-'

/-- The texts are the same, but for dots in the place of dashes and dashes in the place of dots. -/
def Alike (s t : String) : Prop :=
  List.Forall₂ (fun c d => c = d ∨ IsJoint c ∧ IsJoint d) s.toList t.toList

/-- The first entry goes on for a part where the second one ends, and the second name begins with
that part. -/
def Overlaps (entry name entry' name' : String) : Prop :=
  ∃ part, Alike entry (entry' ++ "-" ++ part) ∧ Alike name' (part ++ "-" ++ name)

/-- An entry and a name that are not told apart from others. -/
inductive Confusable (entry name entry' name' : String) : Prop
  | alike (entries : Alike entry entry') (names : Alike name name')
  | longer (h : Overlaps entry name entry' name')
  | shorter (h : Overlaps entry' name' entry name)

def dashed (cs : List Char) : List Char := cs.map fun c => if c = '.' then '-' else c

theorem dashed_append : dashed (cs ++ ds) = dashed cs ++ dashed ds := List.map_append

theorem dashed_dashed (cs : List Char) : dashed (dashed cs) = dashed cs := by
  have hchar (c : Char) : (if (if c = '.' then '-' else c) = '.' then '-'
      else if c = '.' then '-' else c) = if c = '.' then '-' else c := by
    by_cases hc : c = '.' <;> simp [hc]
  simp only [dashed, List.map_map, Function.comp_def, hchar]

theorem dashed_join : dashed (cs ++ '-' :: ds) = dashed cs ++ '-' :: dashed ds := by
  rw [dashed_append]
  rfl

theorem alike_iff : Alike s t ↔ dashed s.toList = dashed t.toList := by
  have hchar (c d : Char) : (c = d ∨ IsJoint c ∧ IsJoint d) ↔
      (if c = '.' then '-' else c) = if d = '.' then '-' else d := by
    unfold IsJoint
    split <;> split <;> grind
  rw [← List.forall₂_eq_eq_eq, dashed, dashed, List.forall₂_map_left_iff,
    List.forall₂_map_right_iff, Alike]
  simp only [hchar]

theorem toList_tlsSecretName (entry name : String) : (tlsSecretName entry name).toList =
    (dashed entry.toList ++ '-' :: dashed name.toList) ++ ['-', 't', 'l', 's'] := by
  rw [tlsSecretName, String.toList_ofList, ← dashed_join]
  simp [dashed]

theorem overlaps_iff : Overlaps entry name entry' name' ↔ ∃ part,
    dashed entry.toList = dashed entry'.toList ++ '-' :: part ∧
      dashed name'.toList = part ++ '-' :: dashed name.toList := by
  have hjoin (s t : String) : (s ++ "-" ++ t).toList = s.toList ++ '-' :: t.toList := by simp
  simp only [Overlaps, alike_iff, hjoin, dashed_join]
  constructor
  · rintro ⟨part, hentry, hname⟩
    exact ⟨_, hentry, hname⟩
  · rintro ⟨part, hentry, hname⟩
    have hpart : dashed part = part := by
      have hsame := dashed_dashed name'.toList
      rw [hname, dashed_join, dashed_dashed] at hsame
      exact List.append_cancel_right hsame
    refine ⟨String.ofList part, ?_, ?_⟩
    · rw [String.toList_ofList, hpart, hentry]
    · rw [String.toList_ofList, hpart, hname]

/-- Where the same text is joined at two places, they are one, or a part lies between them. -/
theorem append_cons_eq_append_cons_iff {α : Type} {a : α} {xs ys xs' ys' : List α} :
    xs ++ a :: ys = xs' ++ a :: ys' ↔ (xs = xs' ∧ ys = ys') ∨
      (∃ part, xs = xs' ++ a :: part ∧ ys' = part ++ a :: ys) ∨
      ∃ part, xs' = xs ++ a :: part ∧ ys = part ++ a :: ys' := by
  constructor
  · intro h
    rcases List.append_eq_append_iff.mp h with ⟨part, hxs, hys⟩ | ⟨part, hxs, hys⟩
    · cases part with
      | nil => exact .inl ⟨by simpa using hxs.symm, by simpa using hys⟩
      | cons b part =>
        obtain ⟨rfl, rfl⟩ := List.cons.inj hys
        exact .inr (.inr ⟨part, hxs, rfl⟩)
    · cases part with
      | nil => exact .inl ⟨by simpa using hxs, by simpa using hys.symm⟩
      | cons b part =>
        obtain ⟨rfl, rfl⟩ := List.cons.inj hys
        exact .inr (.inl ⟨part, hxs, rfl⟩)
  · rintro (⟨rfl, rfl⟩ | ⟨part, rfl, rfl⟩ | ⟨part, rfl, rfl⟩)
    · rfl
    · simp
    · simp

theorem tlsSecretName_eq_iff : tlsSecretName entry name = tlsSecretName entry' name' ↔
    Confusable entry name entry' name' := by
  rw [← String.toList_inj, toList_tlsSecretName, toList_tlsSecretName, List.append_cancel_right_eq,
    append_cons_eq_append_cons_iff, ← overlaps_iff, ← overlaps_iff, ← alike_iff, ← alike_iff]
  constructor
  · rintro (⟨hentry, hname⟩ | h | h)
    · exact .alike hentry hname
    · exact .longer h
    · exact .shorter h
  · rintro (⟨hentry, hname⟩ | h | h)
    · exact .inl ⟨hentry, hname⟩
    · exact .inr (.inl h)
    · exact .inr (.inr h)

example : tlsSecretName "example.com" "eu-game" = tlsSecretName "example.com.eu" "game" := by
  decide

theorem tlsSecretName_eq_iff_alike (gs : GameServer) (mode : RoutingMode) :
    tlsSecretName entry gs.name = tlsSecretName entry' gs.name ↔
      Alike (ruleHost gs mode entry) (ruleHost gs mode entry') := by
  have hentries : tlsSecretName entry gs.name = tlsSecretName entry' gs.name ↔
      dashed entry.toList = dashed entry'.toList := by
    rw [← String.toList_inj, toList_tlsSecretName, toList_tlsSecretName,
      List.append_cancel_right_eq, List.append_cancel_right_eq]
  rw [hentries, alike_iff]
  cases mode with
  | path => rfl
  | domain =>
    have hhost (entry : String) : dashed (gs.name ++ "." ++ entry).toList =
        dashed (gs.name ++ ".").toList ++ dashed entry.toList := by
      rw [String.toList_append, dashed_append]
    rw [ruleHost, ruleHost, hhost, hhost, List.append_cancel_left_eq]

/-- Two default secrets are the same for confusable entries and names, and for no others, whatever
their modes and hosts are. Those of one Ingress are the same for hosts that are alike, and for no
others. -/
theorem default_secrets_shared_iff :
    (∀ entry name entry' name', tlsSecretName entry name = tlsSecretName entry' name' ↔
      Confusable entry name entry' name') ∧
    ∀ gs rewrite i, buildIngress gs rewrite = .ok i →
      gs.annotationValue? Annotations.tlsSecretName = none →
      ∃ certificates, i.spec.bind (·.tls) = some certificates ∧
        ∀ t ∈ certificates, ∀ t' ∈ certificates, ∃ host host',
          t.hosts = some [host] ∧ t'.hosts = some [host'] ∧
          (t.secretName = t'.secretName ↔ Alike host host') := by
  refine ⟨fun _ _ _ _ => tlsSecretName_eq_iff, fun gs rewrite i hi hgiven => ?_⟩
  obtain ⟨-, rfl⟩ := ingress_of_ok hi
  refine ⟨certificates gs, rfl, fun t ht t' ht' => ?_⟩
  obtain ⟨entry, -, rfl⟩ := List.mem_map.mp ht
  obtain ⟨entry', -, rfl⟩ := List.mem_map.mp ht'
  refine ⟨_, _, rfl, rfl, ?_⟩
  rw [hgiven, Option.getD_none, Option.getD_none, Option.some_inj,
    tlsSecretName_eq_iff_alike gs gs.routingMode]

/-- The two hosts of `twofold` differ in more than dots and dashes, and so do their secrets. -/
theorem secrets_of_twofold : ∃ i t t', buildIngress twofold true = .ok i ∧
    twofold.annotationValue? Annotations.tlsSecretName = none ∧ i.spec.bind (·.tls) = some [t, t'] ∧
    t.hosts = some ["x.org"] ∧ t'.hosts = some ["y.org"] ∧ t.secretName ≠ t'.secretName := by
  have hi : buildIngress twofold true = .ok _ := rfl
  obtain ⟨_, hcertificates, hshared⟩ := default_secrets_shared_iff.2 twofold true _ hi rfl
  cases hcertificates
  refine ⟨_, _, _, hi, rfl, rfl, rfl, rfl, fun heq => ?_⟩
  obtain ⟨host, host', hhost, hhost', hiff⟩ :=
    hshared _ List.mem_cons_self _ (List.mem_cons_of_mem _ List.mem_cons_self)
  cases hhost
  cases hhost'
  have halike := alike_iff.mp (hiff.mp heq)
  revert halike
  decide +kernel

/-- A game server under a path on two hosts that differ in a dot and a dash. -/
def lookalike : GameServer where
  metadata := {
    name := some "g"
    ns := some "d"
    annotations := some ((TextMap.empty.insert Annotations.ingressMode "path").insert
      Annotations.ingressFqdn "a.example.com,a-example.com") }

/-- Different hosts of one Ingress have the same default secret. -/
theorem secret_shared_by_hosts : ∃ i t t', buildIngress lookalike false = .ok i ∧
    lookalike.annotationValue? Annotations.tlsSecretName = none ∧
    i.spec.bind (·.tls) = some [t, t'] ∧
    t.hosts = some [ruleHost lookalike .path "a.example.com"] ∧
    t'.hosts = some [ruleHost lookalike .path "a-example.com"] ∧ t.hosts ≠ t'.hosts ∧
    t.secretName = some (tlsSecretName "a.example.com" lookalike.name) ∧
    t'.secretName = some (tlsSecretName "a-example.com" lookalike.name) ∧
    t.secretName = t'.secretName := by
  have hi : buildIngress lookalike false = .ok _ := rfl
  refine ⟨_, _, _, hi, rfl, rfl, rfl, rfl, ?_, rfl, rfl, ?_⟩
  · decide
  · exact congrArg some (tlsSecretName_eq_iff.mpr
      (.alike (alike_iff.mpr (by decide)) (alike_iff.mpr rfl)))

end GameIngress.Manifest
