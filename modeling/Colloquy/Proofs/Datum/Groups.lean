import Colloquy.Datum
import Colloquy.Proofs.Entries

/-!
# Groups of data

The members of a group are kept in the order of their names, so the order in which they are written
is lost: data that differ in it alone are arranged to the same data (`Datum.Reordered.arranged_eq`).
Whatever is arranged, made from JSON or laid over other data is in order (`Datum.IsOrdered`).
-/

set_option autoImplicit false

namespace Colloquy

/-! ## One member more -/

section Members

variable {β : Type} {members : List (String × β)}

/-- Under its name the member that is put is found, and under any other what was there. -/
theorem lookup_putMember (name : String) (value : β) (members : List (String × β))
    (other : String) : (putMember name value members).lookup other =
      if other = name then some value else members.lookup other := by
  induction members with
  | nil => exact lookup_cons_eq name value [] other
  | cons m members ih =>
    obtain ⟨first, kept⟩ := m
    unfold putMember
    split
    · exact lookup_cons_eq name value _ other
    · split
      · next heq =>
        subst heq
        simp only [lookup_cons_eq]
        split <;> rfl
      · next hne =>
        simp only [lookup_cons_eq, ih]
        by_cases h : other = name
        · simp [h, hne]
        · simp [h]

/-- A member behind a put is the one that was put or was there. -/
theorem mem_putMember {name : String} {value : β} {m : String × β}
    (h : m ∈ putMember name value members) : m = (name, value) ∨ m ∈ members := by
  induction members with
  | nil => exact .inl (List.mem_singleton.1 h)
  | cons n members ih =>
    obtain ⟨first, kept⟩ := n
    unfold putMember at h
    split at h
    · exact List.mem_cons.1 h
    · split at h
      · exact (List.mem_cons.1 h).imp_right (List.mem_cons_of_mem _)
      · rcases List.mem_cons.1 h with rfl | h
        · exact .inr List.mem_cons_self
        · exact (ih h).imp_right (List.mem_cons_of_mem _)

/-- Members stay sorted when one is put among them. -/
theorem IsSorted.putMember (h : IsSorted members) (name : String) (value : β) :
    IsSorted (putMember name value members) := by
  induction members with
  | nil => exact List.pairwise_singleton _ _
  | cons m members ih =>
    obtain ⟨first, kept⟩ := m
    obtain ⟨hfirst, hrest⟩ := List.pairwise_cons.1 h
    unfold Colloquy.putMember
    split
    · next hlt =>
      refine List.pairwise_cons.2 ⟨fun n hn => ?_, h⟩
      rcases List.mem_cons.1 hn with rfl | hn
      · exact hlt
      · exact String.lt_trans hlt (hfirst n hn)
    · next hnot =>
      split
      · next heq => exact List.pairwise_cons.2 ⟨fun n hn => heq ▸ hfirst n hn, hrest⟩
      · next hne =>
        refine List.pairwise_cons.2 ⟨fun n hn => ?_, ih hrest⟩
        rcases mem_putMember hn with rfl | hn
        · exact Std.lt_of_le_of_ne (Std.not_lt.1 hnot) (Ne.symm hne)
        · exact hfirst n hn

/-- Two members of different names may be put in either order. -/
theorem putMember_comm (h : IsSorted members) {name other : String} (hne : name ≠ other)
    (value held : β) : putMember name value (putMember other held members) =
      putMember other held (putMember name value members) := by
  refine IsSorted.ext ((h.putMember other held).putMember name value)
    ((h.putMember name value).putMember other held) fun k => ?_
  simp only [lookup_putMember]
  by_cases hname : k = name
  · subst hname
    simp [hne]
  · simp [hname]

/-- The members of a group that is made of what is written. -/
def collect (written : List (String × β)) : List (String × β) :=
  written.foldl (fun kept m => putMember m.1 m.2 kept) []

/-- Members stay sorted when others are put among them one by one. -/
theorem isSorted_foldl_putMember (written : List (String × β)) (h : IsSorted members) :
    IsSorted (written.foldl (fun kept m => putMember m.1 m.2 kept) members) := by
  induction written generalizing members with
  | nil => exact h
  | cons m written ih => exact ih (h.putMember m.1 m.2)

/-- Members that are collected are sorted. -/
theorem isSorted_collect (written : List (String × β)) : IsSorted (collect written) :=
  isSorted_foldl_putMember written .nil

/-- Each member behind puts was there or was put. -/
theorem mem_foldl_putMember {written : List (String × β)} {m : String × β}
    (h : m ∈ written.foldl (fun kept m => putMember m.1 m.2 kept) members) :
    m ∈ members ∨ m ∈ written := by
  induction written generalizing members with
  | nil => exact .inl h
  | cons n written ih =>
    rcases ih h with h | h
    · rcases mem_putMember h with rfl | h
      · exact .inr List.mem_cons_self
      · exact .inl h
    · exact .inr (List.mem_cons_of_mem n h)

/-- Members that are collected are some of those that were written. -/
theorem mem_of_mem_collect {written : List (String × β)} {m : String × β}
    (h : m ∈ collect written) : m ∈ written := by
  rcases mem_foldl_putMember h with h | h
  · exact nomatch h
  · exact h

/-- Two neighbours of different names may change places. -/
theorem collect_swap (front back : List (String × β)) {m n : String × β} (hne : m.1 ≠ n.1) :
    collect (front ++ m :: n :: back) = collect (front ++ n :: m :: back) := by
  have hfront : IsSorted (front.foldl (fun kept m => putMember m.1 m.2 kept) []) :=
    isSorted_foldl_putMember front .nil
  have hcomm := putMember_comm hfront hne m.2 n.2
  simp only [collect, List.foldl_append, List.foldl_cons, hcomm]

end Members

namespace Datum

/-! ## Data in order -/

/-- A group of members is the group of those that are collected from them. -/
theorem ofMembers_eq (members : List (String × Datum)) :
    ofMembers members = .group (collect members) :=
  rfl

/-- Whether a piece of data has no parts. -/
def IsScalar : Datum → Prop
  | list _ | group _ => False
  | _ => True

/-- The members of all groups within a piece of data are in the order of their names. -/
inductive IsOrdered : Datum → Prop
  | scalar {d : Datum} : d.IsScalar → IsOrdered d
  | list {items : List Datum} : (∀ item ∈ items, IsOrdered item) → IsOrdered (.list items)
  | group {members : List (String × Datum)} :
    IsSorted members → (∀ m ∈ members, IsOrdered m.2) → IsOrdered (.group members)

/-- The members of an ordered group are sorted. -/
theorem IsOrdered.isSorted {members : List (String × Datum)} (h : IsOrdered (.group members)) :
    IsSorted members := by
  cases h with
  | scalar h => exact h.elim
  | group hsorted _ => exact hsorted

/-- The members of an ordered group are ordered. -/
theorem IsOrdered.member {members : List (String × Datum)} (h : IsOrdered (.group members)) :
    ∀ m ∈ members, m.2.IsOrdered := by
  cases h with
  | scalar h => exact h.elim
  | group _ hmembers => exact hmembers

/-- The items of an ordered list are ordered. -/
theorem IsOrdered.item {items : List Datum} (h : IsOrdered (.list items)) :
    ∀ item ∈ items, item.IsOrdered := by
  cases h with
  | scalar h => exact h.elim
  | list hitems => exact hitems

/-- The group of ordered members is ordered. -/
theorem isOrdered_ofMembers {members : List (String × Datum)} (h : ∀ m ∈ members, m.2.IsOrdered) :
    (ofMembers members).IsOrdered :=
  .group (isSorted_collect members) fun m hm => h m (mem_of_mem_collect hm)

mutual

/-- Data that are arranged are ordered. -/
theorem ordered_arranged : (d : Datum) → d.arranged.IsOrdered
  | nothing | flag _ | unsigned _ | signed _ | large _ | real _ | text _ => .scalar trivial
  | list items => .list (ordered_arrangedItems items)
  | group members => isOrdered_ofMembers (ordered_arrangedMembers members)

/-- Items that are arranged are ordered. -/
theorem ordered_arrangedItems : (items : List Datum) → ∀ d ∈ arrangedItems items, d.IsOrdered
  | [], _, hd => nomatch hd
  | item :: items, _, hd => by
    rcases List.mem_cons.1 hd with rfl | hd
    · exact ordered_arranged item
    · exact ordered_arrangedItems items _ hd

/-- Members that are arranged are ordered. -/
theorem ordered_arrangedMembers : (members : List (String × Datum)) →
    ∀ m ∈ arrangedMembers members, m.2.IsOrdered
  | [], _, hm => nomatch hm
  | (_, value) :: members, _, hm => by
    rcases List.mem_cons.1 hm with rfl | hm
    · exact ordered_arranged value
    · exact ordered_arrangedMembers members _ hm

end

mutual

/-- What is read from a JSON value is ordered. -/
theorem ordered_ofJson : (v : Json.Value) → (ofJson v).IsOrdered
  | .null | .bool _ | .number (.real _) | .text _ => .scalar trivial
  | .number (.integer n) => by
    unfold ofJson
    split <;> exact .scalar trivial
  | .list items => .list (ordered_ofItems items)
  | .object members => isOrdered_ofMembers (ordered_ofNamed members)

/-- What is read from JSON items is ordered. -/
theorem ordered_ofItems : (items : List Json.Value) → ∀ d ∈ ofItems items, d.IsOrdered
  | [], _, hd => nomatch hd
  | item :: items, _, hd => by
    rcases List.mem_cons.1 hd with rfl | hd
    · exact ordered_ofJson item
    · exact ordered_ofItems items _ hd

/-- What is read from JSON members is ordered. -/
theorem ordered_ofNamed : (members : List (String × Json.Value)) →
    ∀ m ∈ ofNamed members, m.2.IsOrdered
  | [], _, hm => nomatch hm
  | (_, value) :: members, _, hm => by
    rcases List.mem_cons.1 hm with rfl | hm
    · exact ordered_ofJson value
    · exact ordered_ofNamed members _ hm

end

mutual

/-- Ordered data over ordered data are ordered. -/
theorem ordered_overlay {lower : Datum} (hlower : lower.IsOrdered) : {upper : Datum} →
    upper.IsOrdered → (overlay lower upper).IsOrdered
  | nothing, h | flag _, h | unsigned _, h | signed _, h | large _, h | real _, h | text _, h
  | list _, h => by
    unfold overlay
    exact h
  | group members, h => by
    unfold overlay
    split
    · exact ordered_overlayMembers hlower.isSorted hlower.member h.member
    · exact h

/-- Ordered members over ordered members are an ordered group. -/
theorem ordered_overlayMembers {below : List (String × Datum)} (hsorted : IsSorted below)
    (hbelow : ∀ m ∈ below, m.2.IsOrdered) : {above : List (String × Datum)} →
    (∀ m ∈ above, m.2.IsOrdered) → (group (overlayMembers below above)).IsOrdered
  | [], _ => by
    unfold overlayMembers
    exact .group hsorted hbelow
  | (name, value) :: above, h => by
    unfold overlayMembers
    have hvalue : value.IsOrdered := h _ List.mem_cons_self
    refine ordered_overlayMembers (hsorted.putMember name _) (fun m hm => ?_)
      fun m hm => h m (List.mem_cons_of_mem _ hm)
    rcases mem_putMember hm with rfl | hm
    -- the member that is put is the value laid over what was there under its name
    · show IsOrdered (match below.lookup name with
        | some lower => overlay lower value
        | none => value)
      split
      · next lower heq =>
        have hlower : (name, lower) ∈ below := (lookup_eq_some_iff_mem hsorted.nodup).1 heq
        exact ordered_overlay (hbelow _ hlower) hvalue
      · exact hvalue
    · exact hbelow m hm

end

/-! ## The order in which members are written -/

/-- Items are arranged one by one. -/
theorem arrangedItems_eq_map (items : List Datum) : arrangedItems items = items.map arranged := by
  induction items with
  | nil => rfl
  | cons item items ih =>
    unfold arrangedItems
    rw [ih, List.map_cons]

/-- Members are arranged one by one, in front of being collected. -/
theorem arrangedMembers_eq_map (members : List (String × Datum)) :
    arrangedMembers members = members.map fun m => (m.1, m.2.arranged) := by
  induction members with
  | nil => rfl
  | cons m members ih =>
    unfold arrangedMembers
    rw [ih, List.map_cons]

/-- A list is arranged by arranging its items. -/
theorem arranged_list (items : List Datum) :
    (list items).arranged = .list (items.map arranged) := by
  show list (arrangedItems items) = _
  rw [arrangedItems_eq_map]

/-- A group is arranged by arranging its members and collecting them. -/
theorem arranged_group (members : List (String × Datum)) :
    (group members).arranged = .group (collect (members.map fun m => (m.1, m.2.arranged))) := by
  show ofMembers (arrangedMembers members) = _
  rw [arrangedMembers_eq_map, ofMembers_eq]

/-- The same data with the members of groups written in another order: those of one name keep
theirs. -/
inductive Reordered : Datum → Datum → Prop
  | refl (d : Datum) : Reordered d d
  | trans {d e f : Datum} : Reordered d e → Reordered e f → Reordered d f
  | swap (front : List (String × Datum)) {m n : String × Datum} (back : List (String × Datum)) :
    m.1 ≠ n.1 → Reordered (.group (front ++ m :: n :: back)) (.group (front ++ n :: m :: back))
  | member (front : List (String × Datum)) (name : String) {d e : Datum}
    (back : List (String × Datum)) : Reordered d e →
    Reordered (.group (front ++ (name, d) :: back)) (.group (front ++ (name, e) :: back))
  | item (front : List Datum) {d e : Datum} (back : List Datum) : Reordered d e →
    Reordered (.list (front ++ d :: back)) (.list (front ++ e :: back))

/-- Members of different names may be written in any order. -/
theorem Reordered.of_perm {members others : List (String × Datum)} (h : members.Perm others)
    (hnodup : (members.map (·.1)).Nodup) : Reordered (.group members) (.group others) := by
  suffices hfront : ∀ front, Reordered (.group (front ++ members)) (.group (front ++ others)) from
    hfront []
  induction h with
  | nil => exact fun front => .refl _
  | cons m _ ih =>
    intro front
    have hrest := ih (List.nodup_cons.1 hnodup).2 (front ++ [m])
    simpa using hrest
  | swap m n rest =>
    intro front
    have hne : n.1 ≠ m.1 := by
      intro heq
      simp [heq] at hnodup
    exact .swap front rest hne
  | trans h _ ih ih' =>
    intro front
    have hnodup' := (h.map (·.1)).nodup_iff.1 hnodup
    exact .trans (ih hnodup front) (ih' hnodup' front)

/-- Data that differ only in the order of their members are arranged alike. -/
theorem Reordered.arranged_eq {d e : Datum} (h : Reordered d e) : d.arranged = e.arranged := by
  induction h with
  | refl d => rfl
  | trans _ _ ih ih' => exact ih.trans ih'
  | swap front back hne =>
    simp only [arranged_group, List.map_append, List.map_cons]
    congr 1
    exact collect_swap _ _ hne
  | member front name back _ ih => simp only [arranged_group, List.map_append, List.map_cons, ih]
  | item front back _ ih => simp only [arranged_list, List.map_append, List.map_cons, ih]

end Datum

end Colloquy
