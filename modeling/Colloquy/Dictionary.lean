/-!
# Dictionaries

A dictionary maps texts to values and is kept as the list of its entries in the order of their
names, each name once. The order is part of the type, so two dictionaries with the same entries
are equal, and what is written from one does not depend on how it was made.
-/

set_option autoImplicit false

namespace Colloquy

/-- The entries, sorted by name, of entries in which a name may come repeatedly: the last one of
a name counts. -/
def lastByName {β : Type} (entries : List (String × β)) : List (String × β) :=
  (entries.mergeSort (fun a b => a.1 ≤ b.1)).foldr
    (fun e kept => match kept with
      | [] => [e]
      | f :: _ => if e.1 = f.1 then kept else e :: kept)
    []

/-- Dropping repeated names from sorted entries keeps entries that were there, in an order in
which every name is larger than the one before. -/
theorem foldr_sorted {β : Type} (entries : List (String × β))
    (h : entries.Pairwise fun a b => a.1 ≤ b.1) :
    let kept := entries.foldr
      (fun e kept => match kept with
        | [] => [e]
        | f :: _ => if e.1 = f.1 then kept else e :: kept) []
    (∀ x ∈ kept, x ∈ entries) ∧ kept.Pairwise fun a b => a.1 < b.1 := by
  induction entries with
  | nil => simp
  | cons e entries ih =>
    obtain ⟨he, ht⟩ := List.pairwise_cons.1 h
    obtain ⟨hmem, hsort⟩ := ih ht
    simp only [List.foldr_cons]
    split
    · simp
    · next f rest hk =>
      simp only [hk] at hmem hsort ⊢
      split
      · exact ⟨fun x hx => List.mem_cons_of_mem _ (hmem x hx), hsort⟩
      · next hne =>
        refine ⟨fun x hx => ?_, List.pairwise_cons.2 ⟨fun x hx => ?_, hsort⟩⟩
        · rcases List.mem_cons.1 hx with rfl | hx
          · exact List.mem_cons_self
          · exact List.mem_cons_of_mem _ (hmem x hx)
        · have hf : e.1 < f.1 :=
            Std.lt_of_le_of_ne (he f (hmem f List.mem_cons_self)) hne
          rcases List.mem_cons.1 hx with rfl | hx
          · exact hf
          · exact String.lt_trans hf ((List.pairwise_cons.1 hsort).1 x hx)

/-- Sorted entries are in the order of their names. -/
theorem pairwise_mergeSort_name {β : Type} (entries : List (String × β)) :
    (entries.mergeSort fun a b => a.1 ≤ b.1).Pairwise fun a b => a.1 ≤ b.1 := by
  have ordered : ∀ l : List (String × β),
      (l.mergeSort fun a b => decide (a.1 ≤ b.1)).Pairwise fun a b => decide (a.1 ≤ b.1) :=
    List.pairwise_mergeSort
      (fun a b c hab hbc => decide_eq_true
        (String.le_trans (of_decide_eq_true hab) (of_decide_eq_true hbc)))
      (fun a b => by simpa using String.le_total a.1 b.1)
  simpa using ordered entries

/-- What is kept is sorted by name, each name once. -/
theorem pairwise_lastByName {β : Type} (entries : List (String × β)) :
    (lastByName entries).Pairwise fun a b => a.1 < b.1 :=
  (foldr_sorted _ (pairwise_mergeSort_name entries)).2

/-- A finite map from texts, as its entries in the order of their names. -/
structure Dictionary (β : Type) where
  entries : List (String × β)
  /-- Every name is larger than the one before. -/
  sorted : entries.Pairwise fun a b => a.1 < b.1

namespace Dictionary

/-- The dictionary of some entries: the last one of a name counts. -/
def ofList {β : Type} (entries : List (String × β)) : Dictionary β :=
  ⟨lastByName entries, pairwise_lastByName entries⟩

/-- The dictionary without entries. -/
def empty {β : Type} : Dictionary β :=
  ⟨[], List.Pairwise.nil⟩

/-- The value of a name. -/
def get? {β : Type} (d : Dictionary β) (name : String) : Option β :=
  d.entries.lookup name

/-- The dictionary with one more entry, in place of the one of that name if there is one. -/
def insert {β : Type} (d : Dictionary β) (name : String) (value : β) : Dictionary β :=
  ofList (d.entries ++ [(name, value)])

/-- A dictionary without entries stands in where any will do. -/
instance {β : Type} : Inhabited (Dictionary β) := ⟨empty⟩

/-- Dictionaries are equal if their entries are. -/
instance {β : Type} [DecidableEq β] : DecidableEq (Dictionary β) := fun a b =>
  if h : a.entries = b.entries then
    .isTrue (by cases a; cases b; simp_all)
  else .isFalse fun hab => h (hab ▸ rfl)

end Dictionary

end Colloquy
