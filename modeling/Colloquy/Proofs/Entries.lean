import Colloquy.Dictionary
import Colloquy.Json.Value

/-!
# Entries under names

What a list of entries holds under a name. Entries of different names are a map
(`lookup_eq_some_iff_mem`), and entries in the order of their names are told by it
(`IsSorted.ext`). Entries of different names lose none when the last one of each name is kept
(`lastByName_of_nodup`).
-/

set_option autoImplicit false

namespace Colloquy

variable {β : Type} {entries others : List (String × β)}

/-- The first entry is found under its name, and the others under any other. -/
theorem lookup_cons_eq (name : String) (value : β) (entries : List (String × β)) (other : String) :
    ((name, value) :: entries).lookup other =
      if other = name then some value else entries.lookup other := by
  rw [List.lookup_cons]
  by_cases h : other = name
  · simp [h]
  · have hbeq : (other == name) = false := by simpa using h
    simp [h, hbeq]

/-- Under a name that no entry has nothing is found. -/
theorem lookup_eq_none_of_notMem {name : String} (h : name ∉ entries.map (·.1)) :
    entries.lookup name = none := by
  rw [List.lookup_eq_none_iff]
  intro e he
  have hne : name ≠ e.1 := fun heq => h (List.mem_map.2 ⟨e, he, heq.symm⟩)
  simpa using hne

/-- Where no name comes twice, what is found under a name is the entry that is there. -/
theorem lookup_eq_some_iff_mem (hnodup : (entries.map (·.1)).Nodup) {k : String} {v : β} :
    entries.lookup k = some v ↔ (k, v) ∈ entries := by
  induction entries with
  | nil => simp
  | cons e entries ih =>
    obtain ⟨name, held⟩ := e
    rw [List.map_cons, List.nodup_cons] at hnodup
    by_cases hk : k = name
    · subst hk
      have hrest : (k, v) ∉ entries := fun hmem =>
        hnodup.1 (List.mem_map_of_mem (f := (·.1)) hmem)
      simp [hrest, eq_comm]
    · simp [lookup_cons_eq, hk, ih hnodup.2]

/-- Every name is larger than the one before. -/
def IsSorted (entries : List (String × β)) : Prop :=
  entries.Pairwise fun a b => a.1 < b.1

/-- Entries are sorted if their names are. -/
theorem isSorted_of_names (h : (entries.map (·.1)).Pairwise (· < ·)) : IsSorted entries :=
  List.pairwise_map.1 h

/-- The names of sorted entries are all different. -/
theorem IsSorted.nodup (h : IsSorted entries) : (entries.map (·.1)).Nodup :=
  List.pairwise_map.2 (h.imp Std.ne_of_lt)

/-- Entries in order are told by what they hold under each name. -/
theorem IsSorted.ext (hentries : IsSorted entries) (hothers : IsSorted others)
    (h : ∀ name, entries.lookup name = others.lookup name) : entries = others := by
  have hmem : ∀ e, e ∈ entries ↔ e ∈ others := by
    intro e
    rw [← lookup_eq_some_iff_mem hentries.nodup, h, lookup_eq_some_iff_mem hothers.nodup]
  have hdistinct : ∀ {a b : String × β}, a.1 < b.1 → a ≠ b := fun hlt heq =>
    String.lt_irrefl _ (heq ▸ hlt)
  have hperm : entries.Perm others :=
    (List.perm_ext_iff_of_nodup (hentries.imp hdistinct) (hothers.imp hdistinct)).2 hmem
  refine hperm.eq_of_pairwise (fun a b _ _ hab hba => ?_) hentries hothers
  exact absurd (String.lt_trans hab hba) (String.lt_irrefl _)

/-- Where no name comes twice, the member of a name is the one that is there. -/
theorem Json.Value.member?_of_mem {members : List (String × Json.Value)}
    (hnodup : (members.map (·.1)).Nodup) {name : String} {value : Json.Value}
    (h : (name, value) ∈ members) :
    (Json.Value.object members).member? name = some value := by
  show (members.reverse.find? (·.1 = name)).map (·.2) = some value
  cases hfind : members.reverse.find? (·.1 = name) with
  | none =>
    have hnone := List.find?_eq_none.1 hfind _ (List.mem_reverse.2 h)
    exact absurd (decide_eq_true rfl) hnone
  | some e =>
    have hholds := List.find?_some hfind
    have hname : e.1 = name := of_decide_eq_true hholds
    have hmem : e ∈ members := List.mem_reverse.1 (List.mem_of_find?_eq_some hfind)
    have hvalue : members.lookup name = some e.2 :=
      (lookup_eq_some_iff_mem hnodup).2 (hname ▸ hmem)
    have hvalue' : members.lookup name = some value := (lookup_eq_some_iff_mem hnodup).2 h
    exact congrArg some (Option.some.inj (hvalue.symm.trans hvalue'))

/-- Where no name comes twice, the member of a name is what is found under it. -/
theorem Json.Value.member?_eq_lookup {members : List (String × Json.Value)}
    (hnodup : (members.map (·.1)).Nodup) (name : String) :
    (Json.Value.object members).member? name = members.lookup name := by
  cases hlookup : members.lookup name with
  | some value => exact member?_of_mem hnodup ((lookup_eq_some_iff_mem hnodup).1 hlookup)
  | none =>
    have hfind : members.reverse.find? (·.1 = name) = none := by
      rw [List.find?_eq_none]
      intro e he hname
      have hne := List.lookup_eq_none_iff.1 hlookup e (List.mem_reverse.1 he)
      rw [of_decide_eq_true hname] at hne
      exact absurd rfl (bne_iff_ne.1 hne)
    show (members.reverse.find? (·.1 = name)).map (·.2) = none
    rw [hfind]
    rfl

/-- Entries of different names hold the same in any order. -/
theorem lookup_of_perm (hperm : entries.Perm others) (hnodup : (entries.map (·.1)).Nodup)
    (name : String) : entries.lookup name = others.lookup name := by
  have hothers : (others.map (·.1)).Nodup := (hperm.map (·.1)).nodup_iff.1 hnodup
  refine Option.ext fun value => ?_
  rw [lookup_eq_some_iff_mem hnodup, lookup_eq_some_iff_mem hothers, hperm.mem_iff]

/-! ## Keeping the last entry of each name -/

/-- Only entries that were there are kept. -/
theorem mem_of_mem_lastByName {e : String × β} (h : e ∈ lastByName entries) : e ∈ entries :=
  List.mem_mergeSort.1 ((foldr_sorted _ (pairwise_mergeSort_name entries)).1 e h)

/-- Entries of different names are only put in order. -/
theorem lastByName_of_nodup (h : (entries.map (·.1)).Nodup) :
    lastByName entries = entries.mergeSort fun a b => a.1 ≤ b.1 := by
  have hsorted : ((entries.mergeSort fun a b => a.1 ≤ b.1).map (·.1)).Nodup :=
    ((List.mergeSort_perm entries _).map (·.1)).nodup_iff.2 h
  unfold lastByName
  -- Each entry is compared with the one behind it, which has another name.
  generalize entries.mergeSort (fun a b => a.1 ≤ b.1) = sorted at hsorted
  induction sorted with
  | nil => rfl
  | cons e sorted ih =>
    rw [List.map_cons, List.nodup_cons] at hsorted
    rw [List.foldr_cons, ih hsorted.2]
    cases sorted with
    | nil => rfl
    | cons f sorted =>
      have hne : e.1 ≠ f.1 := fun heq => hsorted.1 (heq ▸ List.mem_cons_self)
      exact if_neg hne

/-- Keeping the last entry of each name loses none of entries of different names. -/
theorem member?_lastByName {members : List (String × Json.Value)}
    (hnodup : (members.map (·.1)).Nodup) (name : String) :
    (Json.Value.object (lastByName members)).member? name = members.lookup name := by
  have hperm : (lastByName members).Perm members := by
    rw [lastByName_of_nodup hnodup]
    exact List.mergeSort_perm members _
  have hkept : ((lastByName members).map (·.1)).Nodup := (hperm.map (·.1)).nodup_iff.2 hnodup
  rw [Json.Value.member?_eq_lookup hkept, lookup_of_perm hperm hkept]

/-- Entries that are in order and of different names stay as they are. -/
theorem lastByName_of_sorted (h : IsSorted entries) : lastByName entries = entries := by
  rw [lastByName_of_nodup h.nodup]
  refine List.mergeSort_of_pairwise (h.imp fun hlt => ?_)
  exact decide_eq_true (Std.le_of_lt hlt)

/-- Entries of different names, in whatever order, become those in order. -/
theorem lastByName_of_perm (hperm : entries.Perm others) (hothers : IsSorted others) :
    lastByName entries = others := by
  have hnodup : (entries.map (·.1)).Nodup := (hperm.map (·.1)).nodup_iff.2 hothers.nodup
  have hsame : (lastByName entries).Perm others := by
    rw [lastByName_of_nodup hnodup]
    exact (List.mergeSort_perm entries _).trans hperm
  refine hsame.eq_of_pairwise (fun a b _ _ hab hba => ?_) (pairwise_lastByName entries) hothers
  exact absurd (String.lt_trans hab hba) (String.lt_irrefl _)

end Colloquy
