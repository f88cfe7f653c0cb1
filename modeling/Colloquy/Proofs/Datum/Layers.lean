import Colloquy.Proofs.Datum.Groups
import Colloquy.Settings.Environment

/-!
# Layers of data

What a path of names leads to (`Datum.seek`), and how laying data over data changes that: what the
upper data has at the end of a path replaces what the lower one has there, and what it leaves out
stays (`Datum.seek_overlay`). Data at the end of a path has nothing at the end of another one
(`Datum.seek_nest_of_apart`).
-/

set_option autoImplicit false

namespace Colloquy.Datum

/-- What a path of names leads to: nothing, if a group on the way leaves out a name. There is no
answer if something else than a group is in the way. -/
def seek : Datum → (path : List String) → Option (Option Datum)
  | d, [] => some (some d)
  | group members, name :: path =>
    match members.lookup name with
    | none => some none
    | some inner => inner.seek path
  | _, _ :: _ => none

/-- A path into a group leads on from the member of its first name, or to nothing if there is none.
-/
theorem seek_group (members : List (String × Datum)) (name : String) (path : List String) :
    (group members).seek (name :: path) =
      match members.lookup name with
      | none => some none
      | some inner => inner.seek path :=
  rfl

/-- A path goes on in a group only. -/
theorem exists_group_of_seek {d : Datum} {name : String} {path : List String} {found : Option Datum}
    (h : d.seek (name :: path) = some found) : ∃ members, d = .group members := by
  cases d with
  | group members => exact ⟨members, rfl⟩
  | nothing | flag | unsigned | signed | large | real | text | list => exact nomatch h

/-- A path into a group leads on from the member that is found under its first name. -/
theorem seek_of_lookup {members : List (String × Datum)} {name : String} {inner : Datum}
    (h : members.lookup name = some inner) (path : List String) :
    (group members).seek (name :: path) = inner.seek path := by
  rw [seek_group, h]

/-- Where a path leads to data, its first name is that of a member from which the rest leads there.
-/
theorem exists_inner_of_seek {root d : Datum} {name : String} {path : List String}
    (h : root.seek (name :: path) = some (some d)) : ∃ members inner, root = .group members ∧
      members.lookup name = some inner ∧ inner.seek path = some (some d) := by
  obtain ⟨members, rfl⟩ := exists_group_of_seek h
  rw [seek_group] at h
  cases hin : members.lookup name with
  | none =>
    rw [hin] at h
    exact nomatch h
  | some inner =>
    rw [hin] at h
    exact ⟨members, inner, rfl, hin, h⟩

/-- The empty path leads to the data themselves. -/
theorem eq_of_seek_nil {root d : Datum} (h : root.seek [] = some (some d)) : root = d := by
  simpa [seek] using h

/-- A path goes on from where its front leads to. -/
theorem seek_append {root d : Datum} {path : List String} (h : root.seek path = some (some d))
    (rest : List String) : root.seek (path ++ rest) = d.seek rest := by
  induction path generalizing root with
  | nil =>
    obtain rfl := eq_of_seek_nil h
    rfl
  | cons name path ih =>
    obtain ⟨members, inner, rfl, hin, hinner⟩ := exists_inner_of_seek h
    rw [List.cons_append, seek_of_lookup hin]
    exact ih hinner

/-- Where a path leads to data, so does each part of it. -/
theorem exists_of_seek_append {root e : Datum} {path rest : List String}
    (h : root.seek (path ++ rest) = some (some e)) : ∃ d, root.seek path = some (some d) := by
  induction path generalizing root with
  | nil => exact ⟨root, rfl⟩
  | cons name path ih =>
    obtain ⟨members, inner, rfl, hin, hinner⟩ := exists_inner_of_seek h
    rw [seek_of_lookup hin]
    exact ih hinner

/-- Data inside ordered data are ordered. -/
theorem IsOrdered.of_seek {root d : Datum} (hroot : root.IsOrdered) {path : List String}
    (h : root.seek path = some (some d)) : d.IsOrdered := by
  induction path generalizing root with
  | nil => exact eq_of_seek_nil h ▸ hroot
  | cons name path ih =>
    obtain ⟨members, inner, rfl, hin, hinner⟩ := exists_inner_of_seek h
    have hmem := (lookup_eq_some_iff_mem hroot.isSorted.nodup).1 hin
    exact ih (hroot.member _ hmem) hinner

/-- Whether a piece of data is no group, so that it replaces what it is laid over. -/
def IsWhole : Datum → Prop
  | group _ => False
  | _ => True

/-- Scalars are taken as a whole. -/
theorem IsScalar.isWhole {d : Datum} (h : d.IsScalar) : d.IsWhole := by
  cases d with
  | group members => exact h.elim
  | _ => trivial

/-- Data that are taken as a whole hide what is below them. -/
theorem overlay_of_isWhole {upper : Datum} (h : upper.IsWhole) (lower : Datum) :
    overlay lower upper = upper := by
  cases upper with
  | group members => exact h.elim
  | nothing | flag | unsigned | signed | large | real | text | list =>
    unfold overlay
    rfl

/-- A group over a group is the group of the members of both. -/
theorem overlay_group (below above : List (String × Datum)) :
    overlay (group below) (group above) = .group (overlayMembers below above) := by
  unfold overlay
  rfl

/-- Under a name stands what is above, over what is below where both have it. -/
theorem lookup_overlayMembers {above : List (String × Datum)} (hnodup : (above.map (·.1)).Nodup)
    (below : List (String × Datum)) (name : String) :
    (overlayMembers below above).lookup name =
      match above.lookup name with
      | none => below.lookup name
      | some upper =>
        match below.lookup name with
        | none => some upper
        | some lower => some (overlay lower upper) := by
  induction above generalizing below with
  | nil =>
    unfold overlayMembers
    rfl
  | cons m above ih =>
    obtain ⟨first, value⟩ := m
    obtain ⟨hfirst, hrest⟩ := List.nodup_cons.1 hnodup
    unfold overlayMembers
    rw [ih hrest, lookup_cons_eq, lookup_putMember]
    by_cases h : name = first
    · subst h
      have hnone : above.lookup name = none := lookup_eq_none_of_notMem hfirst
      simp only [hnone, if_true]
      cases below.lookup name <;> rfl
    · simp only [if_neg h]

/-- What the upper data has at the end of a path is what both have there together, and what it
leaves out is what the lower data has. -/
theorem seek_overlay {lower upper : Datum} (hupper : upper.IsOrdered) {path : List String}
    {below above : Option Datum} (hbelow : lower.seek path = some below)
    (habove : upper.seek path = some above) (hwhole : ∀ d ∈ above, d.IsWhole) :
    (overlay lower upper).seek path = some (above.or below) := by
  induction path generalizing lower upper with
  | nil =>
    obtain rfl : some upper = above := Option.some.inj habove
    rw [overlay_of_isWhole (hwhole upper rfl)]
    rfl
  | cons name path ih =>
    obtain ⟨members, rfl⟩ := exists_group_of_seek hbelow
    obtain ⟨members', rfl⟩ := exists_group_of_seek habove
    rw [overlay_group, seek_group, lookup_overlayMembers hupper.isSorted.nodup]
    rw [seek_group] at hbelow habove
    -- only where both groups have the name do the layers meet again behind it
    cases hin : members'.lookup name with
    | none =>
      rw [hin] at habove
      obtain rfl : none = above := Option.some.inj habove
      simp only [hbelow, Option.none_or]
    | some inner =>
      rw [hin] at habove
      cases hlow : members.lookup name with
      | none =>
        rw [hlow] at hbelow
        obtain rfl : none = below := Option.some.inj hbelow
        simp only [Option.or_none]
        exact habove
      | some inner' =>
        rw [hlow] at hbelow
        have hmem := (lookup_eq_some_iff_mem hupper.isSorted.nodup).1 hin
        exact ih (hupper.member _ hmem) hbelow habove

/-! ## Data at the end of a path -/

/-- Data that are nested along a path are found behind it. -/
theorem seek_nest (d : Datum) (path : List String) :
    (Environment.nest d path).seek path = some (some d) := by
  induction path with
  | nil => rfl
  | cons name path ih =>
    show seek (.group [(name, Environment.nest d path)]) (name :: path) = _
    rw [seek_group, lookup_cons_eq, if_pos rfl]
    exact ih

/-- Neither of two paths goes on where the other one ends. -/
def Apart (path other : List String) : Prop :=
  ¬path <+: other ∧ ¬other <+: path

/-- Whether two paths part is decided name by name. -/
instance (path other : List String) : Decidable (Apart path other) :=
  inferInstanceAs (Decidable (¬path <+: other ∧ ¬other <+: path))

/-- Data at the end of a path has nothing at the end of another one. -/
theorem seek_nest_of_apart (d : Datum) {path other : List String} (h : Apart path other) :
    (Environment.nest d path).seek other = some none := by
  induction path generalizing other with
  | nil => exact h.1.elim ( List.nil_prefix)
  | cons name path ih =>
    cases other with
    | nil => exact h.2.elim ( List.nil_prefix)
    | cons first other =>
      show seek (.group [(name, Environment.nest d path)]) (first :: other) = _
      rw [seek_group, lookup_cons_eq]
      by_cases heq : first = name
      · subst heq
        simp only [if_true]
        exact ih ⟨fun hp => h.1 (List.cons_prefix_cons.2 ⟨rfl, hp⟩),
          fun hp => h.2 (List.cons_prefix_cons.2 ⟨rfl, hp⟩)⟩
      · rw [if_neg heq]
        rfl

/-- Ordered data stay ordered when they are nested. -/
theorem ordered_nest {d : Datum} (h : d.IsOrdered) (path : List String) :
    (Environment.nest d path).IsOrdered := by
  induction path with
  | nil => exact h
  | cons name path ih =>
    refine .group (List.pairwise_singleton _ _) fun m hm => ?_
    obtain rfl := List.mem_singleton.1 hm
    exact ih

end Colloquy.Datum
