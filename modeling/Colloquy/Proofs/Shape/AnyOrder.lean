import Colloquy.Proofs.Shape.RoundTrip

/-!
# Members in any order

A record is read from an object whose members stand in any order. What has been read of its fields
is told by their names alone (`Fields.filledWhere`): a member adds its name, whatever has been read
before (`Fields.enter_filledWhere`), so an object with one member for each field is read as the
record of their values (`readsBack_members`). A member whose value is refused ends the reading there
(`refuses_members`), whatever stands behind it, and so the object is refused with that member
wherever it stands (`refuses_members_of_mem`).
-/

set_option autoImplicit false

namespace Colloquy

open Json

/-! ## The fields that have been read -/

/-- The fields of a record, of which those of some names have been read. -/
def Fields.filledWhere (read : String → Bool) : (fields : Fields) → fields.Carrier → fields.Slots
  | .nil, _ => ()
  | .cons name _ rest, (x, xs) =>
    (if read name then some x else none, rest.filledWhere read xs)

/-- The field of a name reads its part of a record from a text. -/
def Fields.ReadsField (depth : Nat) (key : String) (text : Bytes) :
    (fields : Fields) → fields.Carrier → Prop
  | .nil, _ => False
  | .cons name shape rest, (x, xs) =>
    if key = name then ReadsBack (shape.reader depth) text x else rest.ReadsField depth key text xs

/-- The field of a name refuses a text. -/
def Fields.RefusesField (depth : Nat) (key : String) (text : Bytes) (cause : Cause)
    (path : List Step) : Fields → Prop
  | .nil => False
  | .cons name shape rest =>
    if key = name then Refuses (shape.reader depth) text cause path
    else rest.RefusesField depth key text cause path

/-- The first field is read from a text that its shape is read from. -/
theorem Fields.ReadsField.head {depth : Nat} {key : String} {text : Bytes} {shape : Shape}
    {rest : Fields} {x : shape.Carrier} {xs : rest.Carrier}
    (h : ReadsBack (shape.reader depth) text x) :
    (Fields.cons key shape rest).ReadsField depth key text (x, xs) := by
  rwa [Fields.ReadsField, if_pos rfl]

/-- A field behind the first is read as it is without that one. -/
theorem Fields.ReadsField.tail {depth : Nat} {key name : String} {text : Bytes} {shape : Shape}
    {rest : Fields} {x : shape.Carrier} {xs : rest.Carrier} (hne : key ≠ name)
    (h : rest.ReadsField depth key text xs) :
    (Fields.cons name shape rest).ReadsField depth key text (x, xs) := by
  rwa [Fields.ReadsField, if_neg hne]

/-- The first field refuses a text that its shape refuses. -/
theorem Fields.RefusesField.head {depth : Nat} {key : String} {text : Bytes} {cause : Cause}
    {path : List Step} {shape : Shape} {rest : Fields}
    (h : Refuses (shape.reader depth) text cause path) :
    (Fields.cons key shape rest).RefusesField depth key text cause path := by
  rwa [Fields.RefusesField, if_pos rfl]

/-- A field behind the first refuses what it refuses without that one. -/
theorem Fields.RefusesField.tail {depth : Nat} {key name : String} {text : Bytes} {cause : Cause}
    {path : List Step} {shape : Shape} {rest : Fields} (hne : key ≠ name)
    (h : rest.RefusesField depth key text cause path) :
    (Fields.cons name shape rest).RefusesField depth key text cause path := by
  rwa [Fields.RefusesField, if_neg hne]

/-- Which fields are filled depends only on whether their own names are read. -/
theorem Fields.filledWhere_congr {read read' : String → Bool} : (fields : Fields) →
    (xs : fields.Carrier) → (∀ name ∈ fields.names, read name = read' name) →
    fields.filledWhere read xs = fields.filledWhere read' xs
  | .nil, _, _ => rfl
  | .cons name _ rest, (x, xs), h => by
    have hname := h name List.mem_cons_self
    have hrest := rest.filledWhere_congr xs fun other hother =>
      h other (List.mem_cons_of_mem _ hother)
    simp only [Fields.filledWhere, hname, hrest]

/-- Where no name is read, no field is filled. -/
theorem Fields.filledWhere_none : (fields : Fields) → (xs : fields.Carrier) →
    fields.filledWhere (fun _ => false) xs = fields.noSlots
  | .nil, _ => rfl
  | .cons _ _ rest, (_, xs) => congrArg (Prod.mk none) (rest.filledWhere_none xs)

/-- Where every name is read, all fields are filled. -/
theorem Fields.filledWhere_all : (fields : Fields) → (xs : fields.Carrier) →
    fields.filledWhere (fun _ => true) xs = fields.filled xs
  | .nil, _ => rfl
  | .cons _ _ rest, (x, xs) => congrArg (Prod.mk (some x)) (rest.filledWhere_all xs)

/-! ## One member -/

/-- A field whose name has not been read is empty. -/
theorem Fields.filledWhere_of_not {key : String} {shape : Shape} {rest : Fields}
    {read : String → Bool} (hkey : read key = false) (x : shape.Carrier) (xs : rest.Carrier) :
    (Fields.cons key shape rest).filledWhere read (x, xs) = (none, rest.filledWhere read xs) := by
  rw [Fields.filledWhere, hkey, if_neg Bool.false_ne_true]

/-- A member adds its name to those that have been read. -/
theorem Fields.enter_filledWhere {depth : Nat} {key : String} {text : Bytes}
    {read : String → Bool} (hkey : read key = false) : (fields : Fields) →
    (xs : fields.Carrier) → fields.names.Nodup → fields.ReadsField depth key text xs →
    ∃ value, fields.enter depth key (fields.filledWhere read xs) = .admitted value ∧
      ReadsBack value text (fields.filledWhere (fun name => read name || name = key) xs)
  | .nil, _, _, h => h.elim
  | .cons name shape rest, (x, xs), hnodup, h => by
    rw [Fields.names, List.nodup_cons] at hnodup
    unfold Fields.ReadsField at h
    by_cases hname : key = name
    · subst hname
      rw [if_pos rfl] at h
      have hothers : rest.filledWhere (fun name => read name || name = key) xs =
          rest.filledWhere read xs := by
        refine rest.filledWhere_congr xs fun other hother => ?_
        have hne : other ≠ key := fun heq => hnodup.1 (heq ▸ hother)
        simp [hne]
      rw [Fields.filledWhere_of_not hkey]
      refine ⟨_, Fields.enter_first _, ?_⟩
      simp only [Fields.filledWhere, hothers, decide_true, Bool.or_true, if_true]
      exact h.map fun x => (some x, rest.filledWhere read xs)
    · rw [if_neg hname] at h
      obtain ⟨value, henter, hread⟩ := rest.enter_filledWhere hkey xs hnodup.2 h
      have hslot : decide (name = key) = false := decide_eq_false (Ne.symm hname)
      refine ⟨_, Fields.enter_other hname henter _, ?_⟩
      simp only [Fields.filledWhere, hslot, Bool.or_false]
      exact hread.map fun slots => (if read name then some x else none, slots)

/-- A refusal is passed on by whatever is done with what is read. -/
theorem Refuses.map {α β : Type} {reader : Reader α} {text : Bytes} {cause : Cause}
    {path : List Step} (h : Refuses reader text cause path) (f : α → β) :
    Refuses (fun s => (reader s).map (·.map f)) text cause path := by
  intro rest hrest
  obtain ⟨left, hread⟩ := h rest hrest
  refine ⟨left, ?_⟩
  show (reader (text ++ rest)).map _ = _
  rw [hread]
  rfl

/-- A member whose value is refused is admitted by its name. -/
theorem Fields.enter_refuses {depth : Nat} {key : String} {text : Bytes} {cause : Cause}
    {path : List Step} (read : String → Bool) (hkey : read key = false) : (fields : Fields) →
    (xs : fields.Carrier) → fields.RefusesField depth key text cause path →
    ∃ value, fields.enter depth key (fields.filledWhere read xs) = .admitted value ∧
      Refuses value text cause path
  | .nil, _, h => h.elim
  | .cons name shape rest, (x, xs), h => by
    unfold Fields.RefusesField at h
    by_cases hname : key = name
    · subst hname
      rw [if_pos rfl] at h
      rw [Fields.filledWhere_of_not hkey]
      exact ⟨_, Fields.enter_first _, h.map _⟩
    · rw [if_neg hname] at h
      obtain ⟨value, henter, hrefuses⟩ := rest.enter_refuses read hkey xs h
      exact ⟨_, Fields.enter_other hname henter _, hrefuses.map _⟩

/-! ## All members -/

/-- The members of an object with their braces. -/
def objectBytes (members : List SpacedMember) : Bytes :=
  Ascii.openBrace :: membersBytes true members []

/-- An object in front of a rest is its opening brace and the rest of it. -/
theorem objectBytes_append (members : List SpacedMember) (rest : Bytes) :
    objectBytes members ++ rest = Ascii.openBrace :: membersBytes true members rest := by
  simp [objectBytes, membersBytes]

variable {fields : Fields} {depth : Nat} {xs : fields.Carrier}

/-- Members of different names add their names, one after the other. -/
theorem Fields.enters_members {members : List (String × Bytes)} (hfields : fields.names.Nodup)
    (hmembers : (members.map Prod.fst).Nodup)
    (hread : ∀ m ∈ members, fields.ReadsField depth m.1 m.2 xs) (read : String → Bool)
    (hnew : ∀ m ∈ members, read m.1 = false) :
    Enters (fun slots key => fields.enter depth key slots) (fields.filledWhere read xs) members
      (fields.filledWhere (fun name => read name || (members.map Prod.fst).contains name) xs) := by
  induction members generalizing read with
  | nil =>
    have hnone : fields.filledWhere
        (fun name => read name || (([] : List (String × Bytes)).map Prod.fst).contains name) xs =
        fields.filledWhere read xs :=
      fields.filledWhere_congr xs fun name _ => Bool.or_false _
    rw [hnone]
    exact .nil _
  | cons m members ih =>
    obtain ⟨key, text⟩ := m
    rw [List.map_cons, List.nodup_cons] at hmembers
    obtain ⟨value, henter, hvalue⟩ := Fields.enter_filledWhere
      (hnew (key, text) List.mem_cons_self) fields xs hfields (hread (key, text) List.mem_cons_self)
    have hnext : ∀ m ∈ members, (read m.1 || decide (m.1 = key)) = false := by
      intro m hm
      have hmem : m.1 ∈ members.map Prod.fst := List.mem_map_of_mem hm
      have hne : m.1 ≠ key := fun heq => hmembers.1 (heq ▸ hmem)
      simp [hnew m (List.mem_cons_of_mem _ hm), hne]
    have hothers := ih hmembers.2 (fun m hm => hread m (List.mem_cons_of_mem _ hm))
      (fun name => read name || name = key) hnext
    have hlast : fields.filledWhere (fun name => read name ||
        (((key, text) :: members).map Prod.fst).contains name) xs =
        fields.filledWhere (fun name => (read name || name = key) ||
          (members.map Prod.fst).contains name) xs := by
      refine fields.filledWhere_congr xs fun name _ => ?_
      rw [List.map_cons, List.contains_cons, Bool.or_assoc]
      rfl
    rw [hlast]
    exact .cons henter hvalue hothers

section Objects

variable {name : String} {lenient : Bool}

/-- An object with one member for each field is read as the record of their values, in any order and
with any blanks. -/
theorem readsBack_members {members : List SpacedMember} (front : Blanks) (hdepth : depth ≠ 0)
    (hfields : fields.names.Nodup)
    (hmembers : ((members.map SpacedMember.entry).map Prod.fst).Perm fields.names)
    (hread : ∀ m ∈ members.map SpacedMember.entry, fields.ReadsField (depth - 1) m.1 m.2 xs) :
    ReadsBack ((Shape.record name lenient fields).reader depth)
      (front.bytes ++ objectBytes members) xs := by
  have henters := Fields.enters_members hfields (hmembers.nodup_iff.2 hfields) hread
    (fun _ => false) (fun _ _ => rfl)
  have hall : fields.filledWhere
      (fun name => false || ((members.map SpacedMember.entry).map Prod.fst).contains name) xs =
      fields.filled xs := by
    rw [← fields.filledWhere_all]
    refine fields.filledWhere_congr xs fun name hname => ?_
    rw [Bool.false_or, List.contains_iff_mem]
    exact hmembers.mem_iff.2 hname
  rw [hall, fields.filledWhere_none] at henters
  intro rest _
  rw [List.append_assoc, objectBytes_append, Shape.reader]
  refine reads_spaced front (by decide) fun bound h => ?_
  obtain ⟨h', hobject⟩ := readMembers_spaced henters bound true .none rest h
  refine ⟨h', ?_⟩
  simp only [if_true, if_neg hdepth]
  unfold readRecord
  have hobject : readMembers (fun slots key => fields.enter (depth - 1) key slots) bound true
      fields.noSlots (membersBytes true members rest) h =
    .ok ⟨fields.filled xs, rest, h'⟩ := hobject
  simp only [hobject, fields.complete_filled]
  rfl

/-! ## A member that is refused -/

/-- A value behind blanks is refused as it is from its first byte on. -/
theorem refuses_spaced {α : Type} (blanks : Blanks) {b : UInt8} {tail : Bytes} {failure : Failure}
    {read : (bound : Nat) → (b : UInt8) → (rest : Bytes) → rest.length < bound →
      Except Failure (Scanned α bound)}
    (hb : isBlank b = false) (hread : ∀ bound h, read bound b tail h = .error failure) :
    atValue read (blanks.bytes ++ b :: tail) = .error failure := by
  have hblank := (blanks.skip (b :: tail)).trans (skipBlank_of_not hb tail)
  unfold atValue
  split
  · next hs => exact absurd (hblank.symm.trans hs) (List.cons_ne_nil _ _)
  · next hs =>
    obtain ⟨rfl, rfl⟩ := List.cons.inj (hblank.symm.trans hs)
    exact hread _ _

/-- What is refused is refused where something may be missing. -/
theorem refuses_some_spaced {α : Type} {inner : Reader α} (blanks : Blanks) {b : UInt8}
    {tail : Bytes} {failure : Failure} (hb : isBlank b = false) (hnull : b ≠ 0x6e)
    (h : inner (b :: tail) = .error failure) :
    readOptional inner (blanks.bytes ++ b :: tail) = .error failure := by
  have hblank := (blanks.skip (b :: tail)).trans (skipBlank_of_not hb tail)
  unfold readOptional
  split
  · next hs => exact absurd (hblank.symm.trans hs) (List.cons_ne_nil _ _)
  · next hs =>
    obtain ⟨rfl, rfl⟩ := List.cons.inj (hblank.symm.trans hs)
    simp only [if_neg hnull, h]
    rfl

/-- An object is refused with the first of its members whose value is. -/
theorem refuses_members {before after : List SpacedMember} {m : SpacedMember} {cause : Cause}
    {path : List Step} (front : Blanks) (hdepth : depth ≠ 0) (hfields : fields.names.Nodup)
    (hbefore : ((before.map SpacedMember.entry).map Prod.fst).Nodup)
    (hread : ∀ m ∈ before.map SpacedMember.entry, fields.ReadsField (depth - 1) m.1 m.2 xs)
    (hname : m.name ∉ (before.map SpacedMember.entry).map Prod.fst)
    (hrefused : fields.RefusesField (depth - 1) m.name m.text cause path) :
    Refuses ((Shape.record name lenient fields).reader depth)
      (front.bytes ++ objectBytes (before ++ m :: after)) cause (.member m.name :: path) := by
  have henters := Fields.enters_members hfields hbefore hread (fun _ => false) (fun _ _ => rfl)
  rw [fields.filledWhere_none] at henters
  have hnew :
      (false || ((before.map SpacedMember.entry).map Prod.fst).contains m.name) = false := by
    simpa using hname
  obtain ⟨value, henter, hvalue⟩ := Fields.enter_refuses
    (fun name => false || ((before.map SpacedMember.entry).map Prod.fst).contains name) hnew fields
    xs hrefused
  intro rest _
  obtain ⟨left, hobject⟩ := readMembers_refuses henters henter hvalue after true .none rest
  refine ⟨left, ?_⟩
  rw [List.append_assoc, objectBytes_append, Shape.reader]
  refine refuses_spaced front (by decide) fun bound h => ?_
  simp only [if_true, if_neg hdepth]
  unfold readRecord
  have hobject : readMembers (fun slots key => fields.enter (depth - 1) key slots) bound true
      fields.noSlots (membersBytes true (before ++ m :: after) rest) h =
    .error ⟨cause, left, .member m.name :: path⟩ := hobject bound h
  simp only [hobject]

/-- An object is refused with its one member whose value is, wherever that stands. -/
theorem refuses_members_of_mem {members : List SpacedMember} {m : SpacedMember} {cause : Cause}
    {path : List Step} (front : Blanks) (hdepth : depth ≠ 0) (hfields : fields.names.Nodup)
    (hmembers : ((members.map SpacedMember.entry).map Prod.fst).Nodup) (hm : m ∈ members)
    (hread : ∀ entry ∈ members.map SpacedMember.entry, entry.1 ≠ m.name →
      fields.ReadsField (depth - 1) entry.1 entry.2 xs)
    (hrefused : fields.RefusesField (depth - 1) m.name m.text cause path) :
    Refuses ((Shape.record name lenient fields).reader depth)
      (front.bytes ++ objectBytes members) cause (.member m.name :: path) := by
  obtain ⟨before, after, rfl⟩ := List.append_of_mem hm
  rw [List.map_append, List.map_append, List.nodup_append] at hmembers
  obtain ⟨hbefore, _, hapart⟩ := hmembers
  have hne : ∀ key ∈ (before.map SpacedMember.entry).map Prod.fst, key ≠ m.name :=
    fun key hkey => hapart key hkey m.name List.mem_cons_self
  have hreadBefore : ∀ entry ∈ before.map SpacedMember.entry,
      fields.ReadsField (depth - 1) entry.1 entry.2 xs := by
    intro entry hentry
    refine hread entry ?_ (hne entry.1 (List.mem_map_of_mem hentry))
    rw [List.map_append]
    exact List.mem_append_left _ hentry
  exact refuses_members front hdepth hfields hbefore hreadBefore (fun hmem => hne _ hmem rfl)
    hrefused

end Objects

/-- A text that is refused is no value of a type, whether it is read to its end or not. -/
theorem decode_of_refuses {α : Type} [Encoded α] {text rest : Bytes} {cause : Cause}
    {path : List Step}
    (h : Refuses ((Encoded.shape α).reader depthLimit) text cause path) (hrest : Ends rest) :
    ∃ error : Json.Error, error.cause = cause ∧ error.path = path ∧
      (Encoded.decode (text ++ rest) : Except Json.Error α) = .error error ∧
      (Encoded.decodeFirst (text ++ rest) : Except Json.Error α) = .error error := by
  obtain ⟨left, hread⟩ := h rest hrest
  have hreader : Encoded.reader α (text ++ rest) = .error ⟨cause, left, path⟩ := by
    unfold Encoded.reader
    rw [hread]
    rfl
  refine ⟨Failure.locate (text ++ rest) ⟨cause, left, path⟩, rfl, rfl, ?_, ?_⟩
  · unfold Encoded.decode Json.decode
    rw [hreader]
  · unfold Encoded.decodeFirst Json.decodeFirst
    rw [hreader]

end Colloquy
