import GameIngress.Proofs.Text.Cut
import GameIngress.Routing
import Mathlib.Data.Char

/-!
# Lists of hosts

A list is cut at its commas, and each item is trimmed. So a list is read item by item: what stands
on both sides of a comma is read apart, and a host may be surrounded by blanks and blank items.
-/
namespace GameIngress

namespace Text

variable {cs : List Char} {sep : Char} {item : List Char}

theorem trim_eq_nil_iff : trim cs = [] ↔ ∀ c ∈ cs, isBlank c = true := by
  constructor
  · intro h
    obtain ⟨l, r, hcs, hl, hr, -⟩ := trims_trim cs
    rw [h, List.append_nil] at hcs
    rw [hcs]
    exact List.forall_mem_append.mpr ⟨hl, hr⟩
  · intro h
    exact Trims.trim_eq ⟨cs, [], by simp, h, by simp, by simp, by simp⟩

theorem splitOn_eq (sep : Char) (cs : List Char) : splitOn sep cs = cs.splitOn sep := by
  induction cs with
  | nil => rw [splitOn, List.splitOn_nil]
  | cons c cs ih =>
    rw [splitOn, ih, List.splitOn_cons_eq_if_modifyHead]
    by_cases hc : c = sep
    · simp [hc]
    · cases hparts : cs.splitOn sep with
      | nil => exact absurd hparts (List.splitOn_ne_nil sep cs)
      | cons part parts => simp [hc]

theorem notMem_of_mem_splitOn (h : item ∈ splitOn sep cs) : sep ∉ item := by
  induction cs generalizing item with
  | nil =>
    obtain rfl := List.mem_singleton.mp h
    exact List.not_mem_nil
  | cons c cs ih =>
    rw [splitOn] at h
    split at h
    · obtain rfl | h := List.mem_cons.mp h
      · exact List.not_mem_nil
      · exact ih h
    · next hc =>
      have hsep : sep ≠ c := fun heq => hc heq.symm
      cases hparts : splitOn sep cs with
      | nil => simp_all
      | cons part parts =>
        rw [hparts] at h ih
        obtain rfl | h := List.mem_cons.mp h
        · exact List.not_mem_cons_of_ne_of_not_mem hsep (ih List.mem_cons_self)
        · exact ih (List.mem_cons_of_mem part h)

end Text

/-- Between some two commas of the list stands something other than blanks. -/
def ListsHost (value : String) : Prop :=
  ∃ part ∈ Text.splitOn ',' value.toList, ∃ c ∈ part, Text.isBlank c = false

theorem splitHosts_eq_nil_iff (value : String) : splitHosts value = [] ↔ ¬ ListsHost value := by
  simp [splitHosts, ListsHost, Text.trim_eq_nil_iff]

/-- A host as it is taken from a list: a text without commas, and without blanks at its ends. -/
structure IsEntry (host : String) : Prop where
  ne_empty : host ≠ ""
  bare : Text.Bare host.toList
  comma_notMem : ',' ∉ host.toList

def IsBlank (item : String) : Prop := ∀ c ∈ item.toList, Text.isBlank c = true

/-- The items between the commas are the hosts in their order, each with any blanks around it, and
any number of blank items among them. -/
inductive Lists : (items hosts : List String) → Prop
  | nil : Lists [] []
  | blank {item : String} {items hosts : List String} (hitem : IsBlank item)
      (hrest : Lists items hosts) : Lists (item :: items) hosts
  | entry {before host after : String} {items hosts : List String} (hbefore : IsBlank before)
      (hhost : IsEntry host) (hafter : IsBlank after) (hrest : Lists items hosts) :
      Lists ((before ++ host ++ after) :: items) (host :: hosts)

section Entries
variable {item host : String} {items hosts : List String}

theorem IsBlank.comma_notMem (h : IsBlank item) : ',' ∉ item.toList := fun hcomma =>
  absurd (h ',' hcomma) (by decide)

theorem splitHosts_append (a b : String) :
    splitHosts (a ++ "," ++ b) = splitHosts a ++ splitHosts b := by
  have hcut : (a ++ "," ++ b).toList = a.toList ++ ',' :: b.toList := by simp
  rw [splitHosts, hcut, Text.splitOn_eq, List.splitOn_append_cons_self, ← Text.splitOn_eq,
    ← Text.splitOn_eq, List.map_append, List.filter_append, List.map_append]
  rfl

theorem splitHosts_intercalate_cons (item : String) (items : List String) :
    splitHosts (",".intercalate (item :: items)) =
      splitHosts item ++ splitHosts (",".intercalate items) := by
  by_cases hitems : items = []
  · subst hitems
    have hnone : splitHosts "" = [] := rfl
    rw [String.intercalate_singleton, String.intercalate_nil, hnone, List.append_nil]
  · rw [String.intercalate_cons_of_ne_nil hitems, splitHosts_append]

/-- A text without commas is an item, and is read as what is left of it when it is trimmed. -/
theorem splitHosts_of_notMem (h : ',' ∉ item.toList) :
    splitHosts item = if Text.trim item.toList = [] then [] else [Text.trimmed item] := by
  rw [splitHosts, Text.splitOn_eq, List.splitOn_eq_singleton h]
  split <;> simp_all [Text.trimmed]

theorem IsBlank.splitHosts_eq (h : IsBlank item) : splitHosts item = [] := by
  rw [splitHosts_of_notMem h.comma_notMem, if_pos (Text.trim_eq_nil_iff.mpr h)]

theorem IsEntry.splitHosts_eq {before after : String} (h : IsEntry host) (hbefore : IsBlank before)
    (hafter : IsBlank after) : splitHosts (before ++ host ++ after) = [host] := by
  have htrim : Text.trim (before ++ host ++ after).toList = host.toList :=
    Text.Trims.trim_eq ⟨_, _, by simp, hbefore, hafter, h.bare⟩
  have hcomma : ',' ∉ (before ++ host ++ after).toList := by
    simp [hbefore.comma_notMem, h.comma_notMem, hafter.comma_notMem]
  have hne : host.toList ≠ [] := by simpa using h.ne_empty
  rw [splitHosts_of_notMem hcomma, htrim, if_neg hne, Text.trimmed, htrim, String.ofList_toList]

theorem Lists.splitHosts_eq (h : Lists items hosts) :
    splitHosts (",".intercalate items) = hosts := by
  induction h with
  | nil => rfl
  | blank hitem _ ih => rw [splitHosts_intercalate_cons, hitem.splitHosts_eq, ih, List.nil_append]
  | entry hbefore hhost hafter _ ih =>
    rw [splitHosts_intercalate_cons, hhost.splitHosts_eq hbefore hafter, ih, List.singleton_append]

theorem Lists.isEntry (h : Lists items hosts) : ∀ host ∈ hosts, IsEntry host := by
  induction h with
  | nil => exact fun _ h => absurd h List.not_mem_nil
  | blank _ _ ih => exact ih
  | entry _ hhost _ _ ih => exact List.forall_mem_cons.mpr ⟨hhost, ih⟩

theorem lists_self (h : ∀ host ∈ hosts, IsEntry host) : Lists hosts hosts := by
  have hnone : IsBlank "" := fun _ hc => absurd hc (by simp)
  induction hosts with
  | nil => exact .nil
  | cons host hosts ih =>
    obtain ⟨hhost, hhosts⟩ := List.forall_mem_cons.mp h
    have hitem : "" ++ host ++ "" = host := by simp
    simpa only [hitem] using Lists.entry hnone hhost hnone (ih hhosts)

theorem lists_of_parts {parts : List (List Char)} (h : ∀ part ∈ parts, ',' ∉ part) :
    Lists (parts.map String.ofList)
      (((parts.map Text.trim).filter (· ≠ [])).map String.ofList) := by
  induction parts with
  | nil => exact .nil
  | cons part parts ih =>
    obtain ⟨hcomma, hcommas⟩ := List.forall_mem_cons.mp h
    have hrest := ih hcommas
    rw [List.map_cons, List.map_cons]
    by_cases htrim : Text.trim part = []
    · rw [List.filter_cons_of_neg (by simpa using htrim)]
      have hblank : IsBlank (String.ofList part) := by
        simpa [IsBlank] using Text.trim_eq_nil_iff.mp htrim
      exact .blank hblank hrest
    · rw [List.filter_cons_of_pos (by simpa using htrim), List.map_cons]
      obtain ⟨before, after, hpart, hbefore, hafter, hbare⟩ := Text.trims_trim part
      have hitem : String.ofList part = String.ofList before ++ String.ofList (Text.trim part) ++
          String.ofList after := by
        rw [← String.ofList_append, ← String.ofList_append, ← hpart]
      have hhost : IsEntry (String.ofList (Text.trim part)) := by
        refine ⟨by simpa using htrim, by simpa using hbare, ?_⟩
        rw [hpart, List.mem_append, List.mem_append, not_or, not_or] at hcomma
        simpa using hcomma.1.2
      rw [hitem]
      exact .entry (by simpa [IsBlank] using hbefore) hhost (by simpa [IsBlank] using hafter) hrest

theorem exists_lists (value : String) :
    ∃ items, ",".intercalate items = value ∧ Lists items (splitHosts value) := by
  refine ⟨(Text.splitOn ',' value.toList).map String.ofList, ?_,
    lists_of_parts fun _ => Text.notMem_of_mem_splitOn⟩
  have hjoined : [','].intercalate (Text.splitOn ',' value.toList) = value.toList := by
    rw [Text.splitOn_eq, List.intercalate_splitOn]
  rw [← String.toList_inj, String.toList_intercalate, List.map_map]
  simpa [Function.comp_def] using hjoined

/-- Two lists joined by a comma are read one after the other. What is read are entries, and hosts
that are entries are read back in their order, from a text in which they stand between commas as
they are or with blanks and blank items among them. -/
theorem splitHosts_joined :
    (∀ a b, splitHosts (a ++ "," ++ b) = splitHosts a ++ splitHosts b) ∧
    (∀ value, ∀ host ∈ splitHosts value, IsEntry host) ∧
    (∀ hosts, (∀ host ∈ hosts, IsEntry host) → Lists hosts hosts) ∧
    (∀ items hosts, Lists items hosts → splitHosts (",".intercalate items) = hosts) ∧
    ∀ value, ∃ items, ",".intercalate items = value ∧ Lists items (splitHosts value) := by
  refine ⟨splitHosts_append, fun value => ?_, fun _ => lists_self, fun _ _ => Lists.splitHosts_eq,
    exists_lists⟩
  obtain ⟨_, _, hlists⟩ := exists_lists value
  exact hlists.isEntry

/-- A host that stands in a list twice, with blanks around it and between, is read twice. -/
theorem splitHosts_joined_twice :
    Lists ["a.gg", " ", "\u3000a.gg"] ["a.gg", "a.gg"] ∧
      splitHosts (",".intercalate ["a.gg", " ", "\u3000a.gg"]) = ["a.gg", "a.gg"] ∧
      IsEntry "a.gg" := by
  obtain ⟨-, hentries, -, hread, -⟩ := splitHosts_joined
  have hnone : IsBlank "" := by simp [IsBlank]
  have hspace : IsBlank " " := by simp [IsBlank, Text.isBlank]
  have hwide : IsBlank "\u3000" := by simp [IsBlank, Text.isBlank]
  have hhost : IsEntry "a.gg" :=
    ⟨by decide, ⟨by simp [Text.isBlank], by simp [Text.isBlank]⟩, by simp⟩
  have hlast : Lists ["\u3000a.gg"] ["a.gg"] := by
    simpa using Lists.entry hwide hhost hnone .nil
  have hlists : Lists ["a.gg", " ", "\u3000a.gg"] ["a.gg", "a.gg"] := by
    simpa using Lists.entry hnone hhost hnone (.blank hspace hlast)
  have hhosts := hread _ _ hlists
  exact ⟨hlists, hhosts, hentries _ "a.gg" (hhosts ▸ List.mem_cons_self)⟩

end Entries
end GameIngress
