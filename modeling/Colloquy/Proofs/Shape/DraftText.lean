import Colloquy.Proofs.Payload.BodyKinds

/-!
# Drafts that are read from objects

The converse of `Colloquy.Proofs.Shape.RecordText`: a text that is an object in which the names of
the fields have the values of a draft is decoded to that draft (`Shape.decode_of_isObjectOf`). So a
text that begins with a brace is decoded to a draft exactly if it is such an object
(`Encoded.decode_eq_ok_iff`). This needs that a field that holds something is never written as
`null` (`Shape.isDefinite`).

A plain shape reads its value where the reader of values does (`Shape.reads_of_value`). The members
are put together again field by field: what the first field reads among them and what the others
read (`Fields.join_members`).
-/

set_option autoImplicit false

namespace Colloquy

open Json

/-! ## Plain shapes -/

section Plain

variable {inner : Option (Reader Value)} {s rest : Bytes}

/-- Where a value begins with a byte, it is read from behind that. -/
theorem reads_atValue_of_skipBlank {α : Type} {b : UInt8} {tail : Bytes} {value : α}
    {read : (bound : Nat) → (b : UInt8) → (rest : Bytes) → rest.length < bound →
      Except Failure (Scanned α bound)} (hs : skipBlank s = b :: tail)
    (hread : ∀ h, ∃ h', read s.length b tail h = .ok ⟨value, rest, h'⟩) :
    Reads (atValue read) s value rest := by
  obtain ⟨hrest, hread⟩ := hread (length_lt_of_skipBlank hs)
  refine ⟨hrest, ?_⟩
  unfold atValue
  split
  · next hnil => exact absurd (hs.symm.trans hnil) (List.cons_ne_nil _ _)
  · next hcons =>
    obtain ⟨rfl, rfl⟩ := List.cons.inj (hs.symm.trans hcons)
    exact hread

/-- A text that is a value is read as a text. -/
theorem readText_of_reads {expected text : String}
    (h : Reads (readValueWith inner) s (.text text) rest) :
    Reads (readText expected) s text rest := by
  cases valueAt_of_reads h with
  | @text _ _ _ _ hrest hs hstring =>
    refine reads_atValue_of_skipBlank hs fun _ => ⟨hrest, ?_⟩
    rw [if_pos rfl]
    exact hstring

/-- A truth value is read as one. -/
theorem readFlag_of_reads {flag : Bool} (h : Reads (readValueWith inner) s (.bool flag) rest) :
    Reads readFlag s flag rest := by
  cases valueAt_of_reads h with
  | yes hs hword =>
    refine reads_atValue_of_skipBlank hs fun hlt => ?_
    obtain ⟨hrest, hword⟩ := hword _ hlt
    refine ⟨hrest, ?_⟩
    simp only at hword
    simp only [if_true, hword]
    rfl
  | no hs hword =>
    have htrue : (0x66 : UInt8) ≠ 0x74 := by decide
    refine reads_atValue_of_skipBlank hs fun hlt => ?_
    obtain ⟨hrest, hword⟩ := hword _ hlt
    refine ⟨hrest, ?_⟩
    simp only at hword
    simp only [if_neg htrue, if_true, hword]
    rfl

/-- A number that is a value is read as a number. -/
theorem readNumber_of_reads {number : Number} (depth : Nat)
    (h : Reads (readValueWith inner) s (.number number) rest) :
    Reads (readNumber depth) s number rest := by
  cases valueAt_of_reads h with
  | number hs hstarts hnumeral =>
    obtain ⟨hrest, hnumeral⟩ := hnumeral
    refine reads_atValue_of_skipBlank hs fun hlt => ⟨Nat.lt_of_lt_of_le hrest hlt, ?_⟩
    rw [if_pos hstarts, hnumeral]
    rfl

end Plain

/-- Items whose values are written of others are read as those. -/
theorem ReadsItems.of_map {α β : Type} {item : Reader α} {other : Reader β} {f : α → β}
    (hitem : ∀ s x rest, Reads other s (f x) rest → Reads item s x rest) {first : Bool}
    {s rest : Bytes} {xs : List α} (h : ReadsItems other first s (xs.map f) rest) :
    ReadsItems item first s xs rest := by
  induction xs generalizing first s with
  | nil =>
    cases h with
    | closed hs => exact .closed hs
  | cons x xs ih =>
    cases h with
    | item hnext hopen hread hothers => exact .item hnext hopen (hitem _ _ _ hread) (ih hothers)

/-- A plain shape reads what is read as the value that it writes. -/
theorem Shape.reads_of_value : (shape : Shape) → shape.isPlain = true → (depth : Nat) →
    {s rest : Bytes} → {x : shape.Carrier} → Reads (readValue depth) s (shape.toJson x) rest →
      Reads (shape.reader depth) s x rest
  | .text expected, _, depth, s, rest, x, h => by
    obtain ⟨inner, hinner⟩ := exists_readValueWith depth
    rw [hinner, Shape.toJson] at h
    rw [Shape.reader]
    exact readText_of_reads h
  | .flag, _, depth, s, rest, x, h => by
    obtain ⟨inner, hinner⟩ := exists_readValueWith depth
    rw [hinner, Shape.toJson] at h
    rw [Shape.reader]
    exact readFlag_of_reads h
  | .number, _, depth, s, rest, x, h => by
    obtain ⟨inner, hinner⟩ := exists_readValueWith depth
    rw [hinner, Shape.toJson] at h
    rw [Shape.reader]
    exact readNumber_of_reads depth h
  | .value, _, depth, s, rest, x, h => by
    rw [Shape.toJson] at h
    rw [Shape.reader]
    exact h
  | .list item, hplain, depth, s, rest, xs, h => by
    rw [Shape.toJson] at h
    rw [Shape.reader]
    cases depth with
    | zero =>
      cases valueAt_of_reads h with
      | list hs hinner hitems => cases hinner
    | succ depth =>
      cases valueAt_of_reads h with
      | list hs hinner hitems =>
        obtain rfl := Option.some.inj hinner
        have hlist : ReadsItems (item.reader depth) ([] : List item.Carrier).isEmpty _ xs rest :=
          ReadsItems.of_map (fun s x rest hx => item.reads_of_value hplain depth hx) hitems
        refine reads_atValue_of_skipBlank hs fun hlt => ?_
        rw [if_pos rfl, if_neg (Nat.succ_ne_zero depth)]
        exact readItems_of_readsItems hlist 0 hlt

/-! ## What may be missing -/

/-- Whether a shape is plain and writes no value as `null`. -/
def Shape.isDefinite : Shape → Bool
  | .value => false
  | shape => shape.isPlain

/-- A shape whose values are never null is plain. -/
theorem Shape.isPlain_of_isDefinite {shape : Shape} (h : shape.isDefinite = true) :
    shape.isPlain = true := by
  cases shape with
  | value => cases h
  | _ => exact h

/-- A value of a definite shape is not written as null. -/
theorem Shape.toJson_ne_null {shape : Shape} (h : shape.isDefinite = true) (x : shape.Carrier) :
    shape.toJson x ≠ .null := by
  cases shape with
  | value => cases h
  | text expected => rw [Shape.toJson]; exact nofun
  | flag => rw [Shape.toJson]; exact nofun
  | number => rw [Shape.toJson]; exact nofun
  | list item => rw [Shape.toJson]; exact nofun
  | short => cases h
  | word => cases h
  | optional inner => cases h
  | dictionary item => cases h
  | record name lenient fields => cases h

/-- Only what is missing is written as `null`. -/
theorem Shape.eq_none_of_toJson {inner : Shape} (h : inner.isDefinite = true)
    {x : Option inner.Carrier} (hnull : (Shape.optional inner).toJson x = .null) : x = none := by
  cases x with
  | none => rfl
  | some y =>
    rw [Shape.toJson] at hnull
    exact absurd hnull (inner.toJson_ne_null h y)

section Optional

variable {s tail rest : Bytes}

/-- Whatever begins as `null` does is read as nothing else. -/
theorem eq_null_of_reads {inner : Option (Reader Value)} {v : Value}
    (hs : skipBlank s = 0x6e :: tail) (h : Reads (readValueWith inner) s v rest) : v = .null := by
  obtain ⟨hrest, hread⟩ := h
  unfold readValueWith at hread
  split at hread
  · cases hread
  · next hcons =>
    obtain ⟨rfl, rfl⟩ := List.cons.inj (hs.symm.trans hcons)
    obtain ⟨_, _, _, hv⟩ := Reads.of_map ⟨hrest, hread⟩
    exact hv.symm

variable {α : Type} {reader : Reader α}

/-- Null is read as what is missing. -/
theorem readOptional_null (hs : skipBlank s = 0x6e :: tail)
    (hword : Passes (fun bound => readWord bound nullTail) tail rest) :
    Reads (readOptional reader) s none rest := by
  obtain ⟨hrest, hword⟩ := hword _ (length_lt_of_skipBlank hs)
  refine ⟨hrest, ?_⟩
  unfold readOptional
  split
  · next hnil => exact absurd (hs.symm.trans hnil) (List.cons_ne_nil _ _)
  · next hcons =>
    obtain ⟨rfl, rfl⟩ := List.cons.inj (hs.symm.trans hcons)
    simp only at hword
    simp only [if_true, hword]
    rfl

/-- What is not null is read as it is where it may be missing. -/
theorem readOptional_some {b : UInt8} {x : α} (hs : skipBlank s = b :: tail) (hb : b ≠ 0x6e)
    (hread : Reads reader (b :: tail) x rest) : Reads (readOptional reader) s (some x) rest := by
  obtain ⟨hrest, hread⟩ := hread
  refine ⟨Nat.lt_of_lt_of_le hrest (length_lt_of_skipBlank hs), ?_⟩
  unfold readOptional
  split
  · next hnil => exact absurd (hs.symm.trans hnil) (List.cons_ne_nil _ _)
  · next hcons =>
    obtain ⟨rfl, rfl⟩ := List.cons.inj (hs.symm.trans hcons)
    simp only [if_neg hb, hread]
    rfl

end Optional

/-- What is read as the value that is written where something may be missing is read so. -/
theorem Shape.reads_optional_of_value {inner : Shape} (hdefinite : inner.isDefinite = true)
    {depth : Nat} {s rest : Bytes} {x : Option inner.Carrier}
    (h : Reads (readValue depth) (skipBlank s) ((Shape.optional inner).toJson x) rest) :
    Reads ((Shape.optional inner).reader depth) s x rest := by
  obtain ⟨outer, houter⟩ := exists_readValueWith depth
  rw [Shape.reader]
  cases x with
  | none =>
    rw [Shape.toJson, houter] at h
    cases valueAt_of_reads h with
    | null hs hword =>
      rw [skipBlank_skipBlank] at hs
      exact readOptional_null hs hword
  | some y =>
    rw [Shape.toJson] at h
    cases hs : skipBlank s with
    | nil =>
      rw [hs, houter] at h
      obtain ⟨_, h⟩ := h
      cases h
    | cons b tail =>
      rw [hs] at h
      refine readOptional_some hs ?_
        (inner.reads_of_value (Shape.isPlain_of_isDefinite hdefinite) depth h)
      rintro rfl
      rw [houter] at h
      exact inner.toJson_ne_null hdefinite y (eq_null_of_reads (skipBlank_of_skipBlank hs) h)

/-! ## One field among the members -/

section Slots

variable {α : Type} {reader : Reader α} {name : String} {members : List (String × Bytes)}

/-- A name that does not come leaves a field as it is. -/
theorem SlotReads.of_notMem (slot : Option α) (hname : name ∉ members.map Prod.fst) :
    SlotReads reader name slot members slot := by
  induction members with
  | nil => exact .done slot
  | cons m members ih =>
    rw [List.map_cons, List.mem_cons, not_or] at hname
    exact .other (Ne.symm hname.1) (ih hname.2)

/-- A field is read from the one member of its name. -/
theorem SlotReads.of_append {before after : List (String × Bytes)} {text rest : Bytes} {x : α}
    (hbefore : name ∉ before.map Prod.fst) (hafter : name ∉ after.map Prod.fst)
    (hread : Reads reader text x rest) :
    SlotReads reader name none (before ++ (name, text) :: after) (some x) := by
  induction before with
  | nil => exact .field hread (.of_notMem (some x) hafter)
  | cons m before ih =>
    rw [List.map_cons, List.mem_cons, not_or] at hbefore
    exact .other (Ne.symm hbefore.1) (ih hbefore.2)

/-- A field has the value of its member. -/
theorem SlotReads.of_memberIs {inner : Shape} (hdefinite : inner.isDefinite = true) {depth : Nat}
    {x : Option inner.Carrier}
    (h : MemberIs depth members name ((Shape.optional inner).toJson x)) :
    ∃ last, SlotReads ((Shape.optional inner).reader depth) name none members last ∧
      last.getD none = x := by
  generalize hv : (Shape.optional inner).toJson x = v at h
  cases h with
  | absent hname =>
    obtain rfl := Shape.eq_none_of_toJson hdefinite hv
    exact ⟨none, .of_notMem none hname, rfl⟩
  | present hmembers hbefore hafter hread =>
    subst hv hmembers
    exact ⟨some x, .of_append hbefore hafter (Shape.reads_optional_of_value hdefinite hread), rfl⟩

end Slots

/-! ## All fields among the members -/

/-- The fields may all be missing, and what they hold is never written as `null`. -/
def Fields.areDefinite : Fields → Bool
  | .nil => true
  | .cons _ (.optional inner) rest => inner.isDefinite && rest.areDefinite
  | .cons _ _ _ => false

/-- Definite fields may all be missing and are never null otherwise. -/
theorem Fields.areDefinite_cons {name : String} {shape : Shape} {rest : Fields}
    (h : (Fields.cons name shape rest).areDefinite = true) :
    ∃ inner, shape = .optional inner ∧ inner.isDefinite = true ∧ rest.areDefinite = true := by
  cases shape with
  | optional inner =>
    rw [Fields.areDefinite, Bool.and_eq_true] at h
    exact ⟨inner, rfl, h⟩
  | _ => cases h

section Members

variable {depth : Nat} {name : String} {shape : Shape} {rest : Fields}

/-- The first field reads a member of its name where the others pass over it. -/
theorem Fields.join_members (hname : name ∉ rest.names)
    (hpass : ∀ s x left, Reads (shape.reader depth) s x left → Reads skipValue s () left)
    {first : Bool} {slot lastSlot : Option shape.Carrier} {slots last : rest.Slots}
    {s left : Bytes} {members : List (String × Bytes)}
    (hslot : SlotReads (shape.reader depth) name slot members lastSlot)
    (h : ReadsMembers (fun slots key => rest.enter depth key slots) first slots s members last
      left) :
    ReadsMembers (fun slots key => (Fields.cons name shape rest).enter depth key slots) first
      (slot, slots) s members (lastSlot, last) left := by
  induction h generalizing slot with
  | closed hs =>
    cases hslot with
    | done => exact .closed hs
  | member hnext hkey hcolon henter hvalue _ ih =>
    cases hslot with
    | other hne hslot =>
      obtain ⟨hleft, hvalue⟩ := hvalue
      refine .member hnext hkey hcolon (Fields.enter_other hne henter slot) ⟨hleft, ?_⟩ (ih hslot)
      simp only [hvalue]
      rfl
    | field hread hslot =>
      -- The others leave the same behind the member as the field does, since both pass over it.
      obtain ⟨other, hother, hskip⟩ := rest.enter_unknown (hpass _ _ _ hread) hname _
      obtain rfl := Admission.admitted.inj (hother.symm.trans henter)
      obtain ⟨rfl, rfl⟩ := Reads.unique hskip hvalue
      obtain ⟨hleft, hread⟩ := hread
      refine .member hnext hkey hcolon (Fields.enter_first _) ⟨hleft, ?_⟩ (ih hslot)
      simp only [hread]
      rfl

/-- A lenient record is complete with whatever its fields hold. -/
theorem Fields.complete_of_cons {inner : Shape} {slot : Option (Option inner.Carrier)}
    {slots : rest.Slots} {xs : rest.Carrier} (h : rest.complete true slots = .ok xs) :
    (Fields.cons name (.optional inner) rest).complete true (slot, slots) =
      .ok (slot.getD none, xs) := by
  cases slot with
  | none => exact map_eq_ok_iff.2 ⟨xs, h, rfl⟩
  | some x => exact map_eq_ok_iff.2 ⟨xs, h, rfl⟩

/-- The fields of a lenient record are read from the members that have their values. -/
theorem Fields.readsMembers {first : Bool} {s left : Bytes} {members : List (String × Bytes)}
    (hobject : ReadsMembers passOver first () s members () left) :
    (fields : Fields) → fields.areDefinite = true → fields.names.Nodup → (xs : fields.Carrier) →
      (∀ entry ∈ fields.toMembers xs, MemberIs depth members entry.1 entry.2) →
      ∃ last, ReadsMembers (fun slots key => fields.enter depth key slots) first fields.noSlots s
        members last left ∧ fields.complete true last = .ok xs
  | .nil, _, _, _, _ => ⟨(), hobject, rfl⟩
  | .cons name shape rest, hdefinite, hnames, (x, xs), h => by
    obtain ⟨inner, rfl, hinner, hrest⟩ := Fields.areDefinite_cons hdefinite
    rw [Fields.names, List.nodup_cons] at hnames
    rw [Fields.toMembers] at h
    obtain ⟨lastSlot, hslot, hx⟩ :=
      SlotReads.of_memberIs hinner (h (name, (Shape.optional inner).toJson x) List.mem_cons_self)
    obtain ⟨last, hothers, hcomplete⟩ := rest.readsMembers hobject hrest hnames.2 xs
      fun entry hentry => h entry (List.mem_cons_of_mem _ hentry)
    refine ⟨(lastSlot, last), Fields.join_members hnames.1 ?_ hslot hothers, ?_⟩
    · exact fun s x left => Shape.passes_optional (Shape.isPlain_of_isDefinite hinner)
    · rw [Fields.complete_of_cons hcomplete, hx]

end Members

/-- Definite fields may all be missing. -/
theorem Fields.areOptional_of_areDefinite : (fields : Fields) → fields.areDefinite = true →
    fields.areOptional = true
  | .nil, _ => rfl
  | .cons name shape rest, h => by
    obtain ⟨inner, rfl, hinner, hrest⟩ := Fields.areDefinite_cons h
    rw [Fields.areOptional, Bool.and_eq_true]
    exact ⟨Shape.isPlain_of_isDefinite hinner, rest.areOptional_of_areDefinite hrest⟩

/-- A lenient record is read from an object whose members have the values of its fields. -/
theorem reads_record_of_members {name : String} {fields : Fields} {xs : fields.Carrier}
    (hdefinite : fields.areDefinite = true) (hnames : fields.names.Nodup) {depth : Nat}
    (hdepth : depth ≠ 0) {body inside rest : Bytes} {members : List (String × Bytes)}
    (hopens : skipBlank body = Ascii.openBrace :: inside)
    (hobject : ReadsMembers passOver true () inside members () rest)
    (hmembers : ∀ entry ∈ fields.toMembers xs, MemberIs (depth - 1) members entry.1 entry.2) :
    Reads ((Shape.record name true fields).reader depth) body xs rest := by
  obtain ⟨last, hread, hcomplete⟩ := fields.readsMembers hobject hdefinite hnames xs hmembers
  rw [Shape.reader]
  refine reads_atValue_of_skipBlank hopens fun hlt => ?_
  obtain ⟨hrest, hread⟩ := readMembers_of_readsMembers hread hlt
  refine ⟨hrest, ?_⟩
  unfold readRecord
  rw [if_pos rfl, if_neg hdepth]
  simp only [hread, hcomplete]
  rfl

/-! ## Drafts -/

/-- A draft whose fields are never written as `null` when they hold something. -/
def Shape.isDefiniteDraft : Shape → Bool
  | .record _ lenient fields => lenient && fields.areDefinite && decide fields.names.Nodup
  | _ => false

/-- A definite draft is a record of definite fields with different names. -/
theorem Shape.eq_record_of_isDefiniteDraft {shape : Shape} (h : shape.isDefiniteDraft = true) :
    ∃ name fields, shape = .record name true fields ∧ fields.areDefinite = true ∧
      fields.names.Nodup := by
  cases shape with
  | record name lenient fields =>
    rw [Shape.isDefiniteDraft, Bool.and_eq_true, Bool.and_eq_true, decide_eq_true_eq] at h
    obtain ⟨⟨rfl, hdefinite⟩, hnames⟩ := h
    exact ⟨name, fields, rfl, hdefinite, hnames⟩
  | _ => cases h

/-- A definite draft is a draft. -/
theorem Shape.isDraft_of_isDefiniteDraft {shape : Shape} (h : shape.isDefiniteDraft = true) :
    shape.isDraft = true := by
  obtain ⟨name, fields, rfl, hdefinite, hnames⟩ := Shape.eq_record_of_isDefiniteDraft h
  rw [Shape.isDraft, Bool.and_eq_true, Bool.and_eq_true, decide_eq_true_eq]
  exact ⟨⟨rfl, fields.areOptional_of_areDefinite hdefinite⟩, hnames⟩

/-- A text that is an object of the values of a draft is decoded to the draft. -/
theorem Shape.decode_of_isObjectOf {shape : Shape} (hdraft : shape.isDefiniteDraft = true)
    {body : Bytes} {x : shape.Carrier} {entries : List (String × Value)}
    (hentries : shape.toJson x = .object entries) (h : IsObjectOf body entries) :
    Json.decode (shape.reader depthLimit) body = .ok x := by
  obtain ⟨name, fields, rfl, hdefinite, hnames⟩ := Shape.eq_record_of_isDefiniteDraft hdraft
  rw [Shape.toJson] at hentries
  obtain rfl := Value.object.inj hentries
  obtain ⟨members, ⟨inside, rest, hopens, hobject, hblank⟩, hmembers⟩ := h
  exact decode_eq_ok_iff.2 ⟨rest, reads_record_of_members hdefinite hnames (by decide) hopens
    hobject hmembers, hblank⟩

/-- A text that begins as an object is decoded to a draft exactly if it is an object of what is
written of the draft. -/
theorem Encoded.decode_eq_ok_iff {α : Type} [Encoded α]
    (hdraft : (shape α).isDefiniteDraft = true)
    (hpack : ∀ x : (shape α).Carrier, pack (unpack x : α) = x) {body inside : Bytes}
    (hopens : skipBlank body = Ascii.openBrace :: inside) {a : α} :
    decode body = .ok a ↔ ∃ entries, toJson a = .object entries ∧ IsObjectOf body entries := by
  constructor
  · intro h
    obtain ⟨entries, hentries, hobject | hlist⟩ :=
      isObjectOf_or_isListOf (Shape.isDraft_of_isDefiniteDraft hdraft) hpack h
    · exact ⟨entries, hentries, hobject⟩
    · -- A list begins with its bracket.
      obtain ⟨items, leftOut, hparse, _⟩ := hlist
      obtain ⟨rest, hread, _⟩ := Colloquy.decode_eq_ok_iff.1 hparse
      obtain ⟨outer, houter⟩ := exists_readValueWith depthLimit
      rw [houter] at hread
      cases valueAt_of_reads hread with
      | list hs _ _ => exact absurd (List.cons.inj (hopens.symm.trans hs)).1 (by decide)
  · rintro ⟨entries, hentries, hobject⟩
    have hdecode : Json.decode ((shape α).reader depthLimit) body = .ok (pack a) :=
      Shape.decode_of_isObjectOf hdraft hentries hobject
    obtain ⟨rest, ⟨hrest, hread⟩, hblank⟩ := Colloquy.decode_eq_ok_iff.1 hdecode
    refine Colloquy.decode_eq_ok_iff.2 ⟨rest, ⟨hrest, ?_⟩, hblank⟩
    unfold reader
    simp only [hread, Except.map, Scanned.map, unpack_pack]

end Colloquy
