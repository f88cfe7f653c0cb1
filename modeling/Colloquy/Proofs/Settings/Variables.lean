import Colloquy.Proofs.Datum.Layers

/-!
# Settings from variables

The variables that are settings are laid over one another, so what they have at the end of a path is
what the last variable of the path stands for (`Environment.seek_settingsOf`). Where no two are of
one path, their order does not matter (`Environment.last?_perm`).
-/

set_option autoImplicit false

namespace Colloquy.Environment

open Datum

/-- The data that the last variable of a path stands for. -/
def last? (vars : List (String × String)) (path : List String) : Option Datum :=
  (vars.reverse.find? fun v => pathOf? v.1 = some path).map fun v => valueOf v.2

/-- The last variable of a path is the last of the others, or the first if there is none. -/
theorem last?_cons (v : String × String) (vars : List (String × String)) (path : List String) :
    last? (v :: vars) path =
      (last? vars path).or (if pathOf? v.1 = some path then some (valueOf v.2) else none) := by
  unfold last?
  rw [List.reverse_cons, List.find?_append]
  cases List.find? _ vars.reverse with
  | some w => rfl
  | none =>
    by_cases h : pathOf? v.1 = some path
    · simp [h]
    · simp [h]

/-- The settings with a variable laid over them. -/
def withVariable (settings : Datum) (v : String × String) : Datum :=
  match pathOf? v.1 with
  | some path => settings.overlay (nest (valueOf v.2) path)
  | none => settings

/-- Variables are taken in one over the other. -/
theorem settingsOf_eq (vars : List (String × String)) :
    settingsOf vars = vars.foldl withVariable (.group []) :=
  rfl

/-- What some variables lay over settings at the end of a path is what the last variable of the path
stands for. -/
theorem seek_foldl_withVariable {path : List String} {vars : List (String × String)}
    (hvars : ∀ v ∈ vars, ∀ p, pathOf? v.1 = some p →
      (valueOf v.2).IsScalar ∧ (p = path ∨ Apart p path))
    {settings : Datum} {found : Option Datum} (hseek : settings.seek path = some found) :
    (vars.foldl withVariable settings).seek path = some ((last? vars path).or found) := by
  induction vars generalizing settings found with
  | nil => exact hseek
  | cons v vars ih =>
    have hrest := fun w hw => hvars w (List.mem_cons_of_mem v hw)
    have hstep : (withVariable settings v).seek path =
        some ((if pathOf? v.1 = some path then some (valueOf v.2) else none).or found) := by
      unfold withVariable
      cases hpath : pathOf? v.1 with
      | none => simpa using hseek
      | some p =>
        obtain ⟨hscalar, hplace⟩ := hvars v List.mem_cons_self p hpath
        have hord := ordered_nest (.scalar hscalar) p
        rcases hplace with rfl | hapart
        · have hwhole : ∀ d ∈ some (valueOf v.2), d.IsWhole := by
            rintro d ⟨⟩
            exact hscalar.isWhole
          simpa using seek_overlay hord hseek (seek_nest _ p) hwhole
        · have hne : p ≠ path := fun heq => hapart.1 (heq ▸ List.prefix_refl p)
          simpa [hne] using seek_overlay hord hseek (seek_nest_of_apart _ hapart) nofun
    rw [List.foldl_cons, ih hrest hstep, last?_cons, Option.or_assoc]

/-- At a path from which all others part the settings have what its last variable says. -/
theorem seek_settingsOf {path : List String} {vars : List (String × String)}
    (hvars : ∀ v ∈ vars, ∀ p, pathOf? v.1 = some p →
      (valueOf v.2).IsScalar ∧ (p = path ∨ Apart p path)) (hpath : path ≠ []) :
    (settingsOf vars).seek path = some (last? vars path) := by
  obtain ⟨name, rest, rfl⟩ := List.exists_cons_of_ne_nil hpath
  have hempty : (group []).seek (name :: rest) = some none := rfl
  rw [settingsOf_eq, seek_foldl_withVariable hvars hempty, Option.or_none]

/-- Settings from scalars are ordered. -/
theorem ordered_settingsOf {vars : List (String × String)}
    (hvars : ∀ v ∈ vars, ∀ p, pathOf? v.1 = some p → (valueOf v.2).IsScalar) :
    (settingsOf vars).IsOrdered := by
  suffices h : ∀ settings : Datum, settings.IsOrdered →
      (vars.foldl withVariable settings).IsOrdered from h _ (.group .nil nofun)
  induction vars with
  | nil => exact fun settings h => h
  | cons v vars ih =>
    intro settings h
    refine ih (fun w hw => hvars w (List.mem_cons_of_mem v hw)) _ ?_
    unfold withVariable
    cases hpath : pathOf? v.1 with
    | none => exact h
    | some p =>
      have hscalar := hvars v List.mem_cons_self p hpath
      exact ordered_overlay h (ordered_nest (.scalar hscalar) p)

/-- No two variables are of one path. -/
def AreDistinct (vars : List (String × String)) : Prop :=
  vars.Pairwise fun v w => ∀ path, pathOf? v.1 = some path → pathOf? w.1 ≠ some path

/-- What is found for a path is the value of one of its variables. -/
theorem exists_of_last? {vars : List (String × String)} {path : List String} {d : Datum}
    (h : last? vars path = some d) : ∃ v ∈ vars, pathOf? v.1 = some path ∧ valueOf v.2 = d := by
  obtain ⟨v, hv, rfl⟩ := Option.map_eq_some_iff.1 h
  have hpath := List.find?_some hv
  exact ⟨v, List.mem_reverse.1 (List.mem_of_find?_eq_some hv), of_decide_eq_true hpath, rfl⟩

/-- Where no two variables are of one path, the last one of a path is the one of it. -/
theorem last?_of_mem {vars : List (String × String)} (hdistinct : AreDistinct vars)
    {v : String × String} (hv : v ∈ vars) {path : List String} (hpath : pathOf? v.1 = some path) :
    last? vars path = some (valueOf v.2) := by
  induction vars with
  | nil => exact nomatch hv
  | cons w vars ih =>
    rw [last?_cons]
    obtain ⟨hfirst, hrest⟩ := List.pairwise_cons.1 hdistinct
    rcases List.mem_cons.1 hv with rfl | hv
    · have hnone : last? vars path = none := by
        rw [← Option.not_isSome_iff_eq_none]
        intro hsome
        obtain ⟨d, hd⟩ := Option.isSome_iff_exists.1 hsome
        obtain ⟨w, hw, hp, _⟩ := exists_of_last? hd
        exact hfirst w hw path hpath hp
      simp [hnone, hpath]
    · rw [ih hrest hv, Option.some_or]

/-- The order of variables of different paths does not matter. -/
theorem last?_perm {vars others : List (String × String)} (h : others.Perm vars)
    (hdistinct : AreDistinct vars) (path : List String) : last? others path = last? vars path := by
  have hsymm : ∀ {v w : String × String},
      (∀ p, pathOf? v.1 = some p → pathOf? w.1 ≠ some p) →
      ∀ p, pathOf? w.1 = some p → pathOf? v.1 ≠ some p := fun hvw p hw hv => hvw p hv hw
  have hdistinct' : AreDistinct others := (h.pairwise_iff hsymm).2 hdistinct
  ext d
  constructor
  · intro hd
    obtain ⟨v, hv, hpath, rfl⟩ := exists_of_last? hd
    exact last?_of_mem hdistinct (h.mem_iff.1 hv) hpath
  · intro hd
    obtain ⟨v, hv, hpath, rfl⟩ := exists_of_last? hd
    exact last?_of_mem hdistinct' (h.mem_iff.2 hv) hpath

end Colloquy.Environment
