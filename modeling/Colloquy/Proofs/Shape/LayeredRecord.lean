import Colloquy.Proofs.Datum.Layers
import Colloquy.Proofs.Results
import Colloquy.Proofs.Shape.RoundTrip
import Colloquy.Settings.Layered

/-!
# Records read from groups

The members of a group are read one after the other into the slots of the fields. As no name comes
twice, their order makes no difference: a lenient record is read from a group exactly if each of its
fields has its value from the member of that name, or a blank one if there is none
(`Shape.ofDatum_group_iff`). `Fields.Given.exists_record` says the same of a group at the end of a
path.
-/

set_option autoImplicit false

namespace Colloquy

/-- A shape of values without parts. -/
def Shape.isScalar : Shape → Bool
  | .text _ | .flag | .short | .word => true
  | .optional inner => inner.isScalar
  | _ => false

/-- What is read as a scalar shape is a scalar. -/
theorem Shape.isScalar_of_ofDatum {d : Datum} : {shape : Shape} → shape.isScalar = true →
    {x : shape.Carrier} → shape.ofDatum d = .ok x → d.IsScalar
  | .text _, _, _, h | .flag, _, _, h | .short, _, _, h | .word, _, _, h => by
    cases d with
    | group | list => exact nomatch h
    | _ => trivial
  | .optional inner, hinner, x, h => by
    have hinner : inner.isScalar = true := hinner
    -- nothing at all has no parts, and everything else is read as the inner shape reads it
    cases d with
    | group | list =>
      have h : (inner.ofDatum _).map some = .ok x := h
      obtain ⟨y, hread, -⟩ := map_eq_ok_iff.1 h
      exact isScalar_of_ofDatum hinner hread
    | _ => trivial

/-! ## The slots of the fields -/

/-- What a slot holds once the member of its name, if there is one, has been read into it. -/
def Shape.FillsSlot (shape : Shape) (found : Option Datum)
    (slot last : Option shape.Carrier) : Prop :=
  match found with
  | none => slot = last
  | some d => ∃ x, shape.ofDatum d = .ok x ∧ some x = last

/-- What slots hold once some members have been read into them. -/
def Fields.Fills : (fields : Fields) → (members : List (String × Datum)) →
    (slots last : fields.Slots) → Prop
  | .nil, _, _, _ => True
  | .cons name shape rest, members, (slot, slots), (last, lasts) =>
    shape.FillsSlot (members.lookup name) slot last ∧ rest.Fills members slots lasts

/-- A member of the name of the first field fills it. -/
theorem Fields.fill_same {key : String} {d : Datum} {shape : Shape} {rest : Fields}
    {slot : Option shape.Carrier} {slots : rest.Slots} {next : (Fields.cons key shape rest).Slots} :
    (Fields.cons key shape rest).fill key d (slot, slots) = .ok next ↔
      ∃ x, shape.ofDatum d = .ok x ∧ (some x, slots) = next := by
  unfold Fields.fill
  rw [if_pos rfl]
  cases shape.ofDatum d with
  | error e => exact ⟨nofun, nofun⟩
  | ok x => simp

/-- A member of another name than that of the first field fills one of the others. -/
theorem Fields.fill_other {key name : String} (hne : key ≠ name) {d : Datum} {shape : Shape}
    {rest : Fields} {slot : Option shape.Carrier} {slots : rest.Slots}
    {next : (Fields.cons name shape rest).Slots} :
    (Fields.cons name shape rest).fill key d (slot, slots) = .ok next ↔
      ∃ others, rest.fill key d slots = .ok others ∧ (slot, others) = next := by
  have hfill : (Fields.cons name shape rest).fill key d (slot, slots) =
      (rest.fill key d slots).map fun others => (slot, others) := if_neg hne
  rw [hfill]
  exact map_eq_ok_iff

/-- Members of other names change nothing. -/
theorem Fields.fills_cons_of_notMem {key : String} {d : Datum} {members : List (String × Datum)} :
    {fields : Fields} → {slots last : fields.Slots} → key ∉ fields.names →
    (fields.Fills ((key, d) :: members) slots last ↔ fields.Fills members slots last)
  | .nil, _, _, _ => Iff.rfl
  | .cons name _ rest, (_, slots), (_, lasts), hkey => by
    have hne : name ≠ key := fun heq => hkey (heq ▸ List.mem_cons_self)
    have hrest : rest.Fills ((key, d) :: members) slots lasts ↔ rest.Fills members slots lasts :=
      fills_cons_of_notMem fun hmem => hkey (List.mem_cons_of_mem name hmem)
    unfold Fields.Fills
    rw [hrest, lookup_cons_eq, if_neg hne]

/-- Without members nothing is read. -/
theorem Fields.fills_nil : {fields : Fields} → {slots last : fields.Slots} →
    (fields.Fills [] slots last ↔ slots = last)
  | .nil, _, _ => ⟨fun _ => rfl, fun _ => trivial⟩
  | .cons _ shape rest, (slot, slots), (last, lasts) => by
    have hrest : rest.Fills [] slots lasts ↔ slots = lasts := fills_nil
    show shape.FillsSlot none slot last ∧ rest.Fills [] slots lasts ↔ _
    rw [hrest, Prod.mk.injEq]
    rfl

/-- The first member is read into its slot, and the others into what is then there. -/
theorem Fields.fills_cons {key : String} {d : Datum} {members : List (String × Datum)}
    (hkey : members.lookup key = none) : {fields : Fields} → fields.names.Nodup →
    {slots last : fields.Slots} → (fields.Fills ((key, d) :: members) slots last ↔
      ∃ next, fields.fill key d slots = .ok next ∧ fields.Fills members next last)
  | .nil, _, _, _ => ⟨fun _ => ⟨(), rfl, trivial⟩, fun _ => trivial⟩
  | .cons name shape rest, hnodup, (slot, slots), (last, lasts) => by
    obtain ⟨hname, hnodup⟩ := List.nodup_cons.1 hnodup
    show shape.FillsSlot (((key, d) :: members).lookup name) slot last ∧
      rest.Fills ((key, d) :: members) slots lasts ↔ _
    rw [lookup_cons_eq]
    by_cases heq : name = key
    -- the first field is the one of that name, for which no other member is left
    · subst heq
      rw [if_pos rfl, fills_cons_of_notMem hname]
      constructor
      · rintro ⟨⟨x, hx, hlast⟩, hrest⟩
        refine ⟨(some x, slots), Fields.fill_same.2 ⟨x, hx, rfl⟩, ?_, hrest⟩
        rw [hkey]
        exact hlast
      · rintro ⟨next, hnext, hfills⟩
        obtain ⟨x, hx, rfl⟩ := Fields.fill_same.1 hnext
        obtain ⟨hlast, hrest⟩ := hfills
        rw [hkey] at hlast
        exact ⟨⟨x, hx, hlast⟩, hrest⟩
    -- the first field passes the member over
    · rw [if_neg heq, fills_cons hkey hnodup]
      constructor
      · rintro ⟨hslot, others, hothers, hrest⟩
        exact ⟨(slot, others), (Fields.fill_other (Ne.symm heq)).2 ⟨others, hothers, rfl⟩, hslot,
          hrest⟩
      · rintro ⟨next, hnext, hfills⟩
        obtain ⟨others, hothers, rfl⟩ := (Fields.fill_other (Ne.symm heq)).1 hnext
        exact ⟨hfills.1, others, hothers, hfills.2⟩

/-- Members are taken in one by one exactly if they fill the fields. -/
theorem Fields.foldlM_fill_iff {fields : Fields} (hfields : fields.names.Nodup)
    {members : List (String × Datum)} (hmembers : (members.map (·.1)).Nodup)
    {slots last : fields.Slots} :
    members.foldlM (fun slots m => fields.fill m.1 m.2 slots) slots = .ok last ↔
      fields.Fills members slots last := by
  induction members generalizing slots with
  | nil =>
    rw [Fields.fills_nil]
    exact ⟨Except.ok.inj, congrArg Except.ok⟩
  | cons m members ih =>
    obtain ⟨key, d⟩ := m
    obtain ⟨hkey, hmembers⟩ := List.nodup_cons.1 hmembers
    rw [Fields.fills_cons (lookup_eq_none_of_notMem hkey) hfields, List.foldlM_cons]
    refine bind_eq_ok_iff.trans (exists_congr fun next => ?_)
    rw [ih hmembers]

/-! ## The values of the fields -/

/-- A field has the value of the member of its name, or a blank one if there is none. -/
def Shape.HoldsValue (shape : Shape) (found : Option Datum) (x : shape.Carrier) : Prop :=
  match found with
  | none => shape.blank = x
  | some d => shape.ofDatum d = .ok x

/-- Members hold the values of fields, each under its name. -/
def Fields.Holds : (fields : Fields) → (members : List (String × Datum)) → fields.Carrier → Prop
  | .nil, _, _ => True
  | .cons name shape rest, members, (x, xs) =>
    shape.HoldsValue (members.lookup name) x ∧ rest.Holds members xs

/-- The slots that were empty are filled and completed to the values of the fields. -/
theorem Fields.holds_iff {members : List (String × Datum)} : {fields : Fields} →
    {xs : fields.Carrier} → (fields.Holds members xs ↔ ∃ slots,
      fields.Fills members fields.noSlots slots ∧ fields.complete true slots = .ok xs)
  | .nil, _ => ⟨fun _ => ⟨(), trivial, rfl⟩, fun _ => trivial⟩
  | .cons name shape rest, (x, xs) => by
    have hrest : rest.Holds members xs ↔ ∃ slots,
      rest.Fills members rest.noSlots slots ∧ rest.complete true slots = .ok xs := holds_iff
    have hcomplete : ∀ slot slots, (Fields.cons name shape rest).complete true (slot, slots) =
        (rest.complete true slots).map fun xs => (slot.getD shape.blank, xs) := by
      rintro (_ | y) slots <;> rfl
    have hslot : shape.HoldsValue (members.lookup name) x ↔
        ∃ slot, shape.FillsSlot (members.lookup name) none slot ∧ slot.getD shape.blank = x := by
      cases members.lookup name with
      | none => simp [Shape.HoldsValue, Shape.FillsSlot]
      | some d =>
        constructor
        · exact fun h => ⟨some x, ⟨x, h, rfl⟩, rfl⟩
        · rintro ⟨_, ⟨y, hy, rfl⟩, rfl⟩
          exact hy
    unfold Fields.Holds
    rw [hslot, hrest]
    constructor
    · rintro ⟨⟨slot, hslot, hx⟩, slots, hslots, hxs⟩
      refine ⟨(slot, slots), ⟨hslot, hslots⟩, ?_⟩
      rw [hcomplete, hxs, hx]
      rfl
    · rintro ⟨⟨slot, slots⟩, ⟨hslot, hslots⟩, hxs⟩
      rw [hcomplete, map_eq_ok_iff] at hxs
      obtain ⟨ys, hys, heq⟩ := hxs
      obtain ⟨hx, rfl⟩ := Prod.mk.inj heq
      exact ⟨⟨slot, hslot, hx⟩, slots, hslots, hys⟩

/-- A lenient record is read from a group field by field. -/
theorem Shape.ofDatum_group_iff {name : String} {fields : Fields} (hfields : fields.names.Nodup)
    {members : List (String × Datum)} (hmembers : IsSorted members) {xs : fields.Carrier} :
    (Shape.record name true fields).ofDatum (.group members) = .ok xs ↔
      fields.Holds members xs := by
  have hread : (Shape.record name true fields).ofDatum (.group members) =
      (members.foldlM (fun slots m => fields.fill m.1 m.2 slots) fields.noSlots).bind
        (fields.completed true) := rfl
  rw [hread, bind_eq_ok_iff, Fields.holds_iff]
  refine exists_congr fun slots => ?_
  rw [Fields.foldlM_fill_iff hfields hmembers.nodup]
  exact and_congr_right fun _ => mapError_eq_ok_iff

/-- The items of a list are read one by one. -/
theorem Datum.getElem?_readItems {α : Type} {read : Datum → Except Misfit α} {items : List Datum}
    {xs : List α} {index : Nat} (h : readItems read index items = .ok xs) :
    xs.length = items.length ∧
      ∀ (i : Nat) (d : Datum), items[i]? = some d → ∃ x, xs[i]? = some x ∧ read d = .ok x := by
  induction items generalizing index xs with
  | nil =>
    obtain rfl := Except.ok.inj h
    exact ⟨rfl, nofun⟩
  | cons item items ih =>
    unfold readItems at h
    cases hitem : read item with
    | error e =>
      rw [hitem] at h
      exact nomatch h
    | ok x =>
      rw [hitem] at h
      obtain ⟨ys, hys, rfl⟩ := map_eq_ok_iff.1 h
      obtain ⟨hlength, hrest⟩ := ih hys
      refine ⟨congrArg (· + 1) hlength, fun i d hd => ?_⟩
      cases i with
      | zero =>
        obtain rfl : item = d := Option.some.inj hd
        exact ⟨x, rfl, hitem⟩
      | succ i => exact hrest i d hd

/-- Each field has the value of the data that its name leads to from the end of a path. -/
def Fields.Given (root : Datum) (path : List String) : (fields : Fields) → fields.Carrier → Prop
  | .nil, _ => True
  | .cons name shape rest, (x, xs) =>
    (∃ d, root.seek (path ++ [name]) = some (some d) ∧ shape.ofDatum d = .ok x) ∧
      rest.Given root path xs

/-- Fields that are given behind a path are held by the members of the group there. -/
theorem Fields.Given.holds {root : Datum} {path : List String} {members : List (String × Datum)}
    (hpath : root.seek path = some (some (.group members))) : {fields : Fields} →
    {xs : fields.Carrier} → fields.Given root path xs → fields.Holds members xs
  | .nil, _, _ => trivial
  | .cons name _ _, (_, _), ⟨⟨d, hd, hread⟩, hrest⟩ => by
    refine ⟨?_, hrest.holds hpath⟩
    rw [Datum.seek_append hpath] at hd
    obtain ⟨_, inner, ⟨⟩, hin, hinner⟩ := Datum.exists_inner_of_seek hd
    obtain rfl := Datum.eq_of_seek_nil hinner
    rw [hin]
    exact hread

/-- A lenient record whose fields are all given is at the end of their common path. -/
theorem Fields.Given.exists_record {root : Datum} (hroot : root.IsOrdered) {path : List String}
    {name first : String} {shape : Shape} {rest : Fields}
    (hfields : (Fields.cons first shape rest).names.Nodup)
    {xs : (Fields.cons first shape rest).Carrier}
    (h : (Fields.cons first shape rest).Given root path xs) :
    ∃ d, root.seek path = some (some d) ∧
      (Shape.record name true (.cons first shape rest)).ofDatum d = .ok xs := by
  obtain ⟨⟨inner, hinner, _⟩, _⟩ := id h
  obtain ⟨d, hd⟩ := Datum.exists_of_seek_append hinner
  rw [Datum.seek_append hd] at hinner
  obtain ⟨members, rfl⟩ := Datum.exists_group_of_seek hinner
  have hsorted := (hroot.of_seek hd).isSorted
  exact ⟨.group members, hd, (Shape.ofDatum_group_iff hfields hsorted).2 (h.holds hd)⟩

end Colloquy
