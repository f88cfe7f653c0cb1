import Colloquy.Proofs.Shape.PlainReads
import Colloquy.Proofs.Shape.RoundTrip

/-!
# The texts of a record

What a text is that has been read as a record whose fields may all be missing: an object, or the
list of the fields. In an object every field has the value of the one member of its name, or `null`
if there is none (`Json.IsObjectOf`); in a list the fields have the values of the items in order,
and `null` once those have ended (`Json.IsListOf`). Nothing else is read
(`Shape.isObjectOf_or_isListOf`, `Shape.decode_eq_error`).

The members of an object are taken apart field by field: as the first field reads them and as the
others do, for which the members of the first are unknown (`Fields.split_members`). Once no field is
left all members are passed over, and the text is an object whatever its fields are.
-/

set_option autoImplicit false

namespace Colloquy

open Json

namespace Json

/-- Any member of an object is passed over. -/
def passOver (_ : Unit) (_ : String) : Admission Unit :=
  .admitted skipValue

/-- A text is an object: its members, each the name with the text from its value on. -/
def IsObject (body : Bytes) (members : List (String × Bytes)) : Prop :=
  ∃ inside rest, skipBlank body = Ascii.openBrace :: inside ∧
    ReadsMembers passOver true () inside members () rest ∧ skipBlank rest = []

/-- The value of a name among the members of an object. -/
inductive MemberIs (depth : Nat) (members : List (String × Bytes)) (name : String) : Value → Prop
  | absent (hname : name ∉ members.map Prod.fst) : MemberIs depth members name .null
  /-- The one member of the name is read as the value. -/
  | present {before after : List (String × Bytes)} {text rest : Bytes} {v : Value}
      (hmembers : members = before ++ (name, text) :: after)
      (hbefore : name ∉ before.map Prod.fst) (hafter : name ∉ after.map Prod.fst)
      (hread : Reads (readValue depth) (skipBlank text) v rest) : MemberIs depth members name v

/-- A text is an object in which some names have some values. -/
def IsObjectOf (body : Bytes) (entries : List (String × Value)) : Prop :=
  ∃ members, IsObject body members ∧
    ∀ entry ∈ entries, MemberIs (depthLimit - 1) members entry.1 entry.2

/-- A text is the list of some values, of which the last ones may be left out if they are `null`. -/
def IsListOf (body : Bytes) (entries : List (String × Value)) : Prop :=
  ∃ items leftOut, Value.parse body = .ok (.list items) ∧
    entries.map Prod.snd = items ++ List.replicate leftOut .null

end Json

/-! ## One field among the members -/

/-- What the members of an object make of a field: it is read from the one of its name, if there is
one. -/
inductive SlotReads {α : Type} (reader : Reader α) (name : String) :
    (slot : Option α) → (members : List (String × Bytes)) → (last : Option α) → Prop
  | done (slot : Option α) : SlotReads reader name slot [] slot
  | other {slot last : Option α} {key : String} {text : Bytes} {members : List (String × Bytes)}
      (hkey : key ≠ name) (h : SlotReads reader name slot members last) :
      SlotReads reader name slot ((key, text) :: members) last
  | field {x : α} {last : Option α} {text rest : Bytes} {members : List (String × Bytes)}
      (hread : Reads reader text x rest) (h : SlotReads reader name (some x) members last) :
      SlotReads reader name none ((name, text) :: members) last

section Slots

variable {α : Type} {reader : Reader α} {name : String} {members : List (String × Bytes)}
  {last : Option α}

/-- A field that has been read stays as it is, and its name does not come again. -/
theorem SlotReads.of_some {x : α} (h : SlotReads reader name (some x) members last) :
    last = some x ∧ name ∉ members.map Prod.fst := by
  generalize hslot : some x = slot at h
  induction h with
  | done slot => exact ⟨rfl, List.not_mem_nil⟩
  | other hkey _ ih =>
    obtain ⟨hlast, hname⟩ := ih hslot
    exact ⟨hlast, List.not_mem_cons_of_ne_of_not_mem hkey.symm hname⟩
  | field _ _ => cases hslot

/-- A field is read from no member or from one. -/
theorem SlotReads.of_none (h : SlotReads reader name none members last) :
    (last = none ∧ name ∉ members.map Prod.fst) ∨
      ∃ x before text after rest, last = some x ∧ members = before ++ (name, text) :: after ∧
        name ∉ before.map Prod.fst ∧ name ∉ after.map Prod.fst ∧ Reads reader text x rest := by
  generalize hslot : (none : Option α) = slot at h
  induction h with
  | done slot => exact .inl ⟨rfl, List.not_mem_nil⟩
  | @other _ _ key text _ hkey _ ih =>
    have hcons {names : List String} (hname : name ∉ names) : name ∉ key :: names :=
      List.not_mem_cons_of_ne_of_not_mem hkey.symm hname
    rcases ih hslot with ⟨hlast, hname⟩ | ⟨x, before, value, after, rest, hlast, rfl, hbefore, h⟩
    · exact .inl ⟨hlast, hcons hname⟩
    · exact .inr ⟨x, (key, text) :: before, value, after, rest, hlast, rfl, hcons hbefore, h⟩
  | @field x _ text rest members hread h _ =>
    obtain ⟨hlast, hname⟩ := h.of_some
    exact .inr ⟨x, [], text, members, rest, hlast, rfl, List.not_mem_nil, hname, hread⟩

/-- A field that may be missing has the value of its member. -/
theorem SlotReads.memberIs {inner : Shape} (hplain : inner.isPlain = true) {depth : Nat}
    {last : Option (Option inner.Carrier)}
    (h : SlotReads ((Shape.optional inner).reader depth) name none members last) :
    MemberIs depth members name ((Shape.optional inner).toJson (last.getD none)) := by
  rcases h.of_none with
    ⟨rfl, hname⟩ | ⟨x, before, text, after, rest, rfl, hmembers, hbefore, hafter, hread⟩
  · rw [Option.getD_none, Shape.toJson]
    exact .absent hname
  · rw [Option.getD_some]
    exact .present hmembers hbefore hafter (Shape.reads_optional_value hplain hread)

end Slots

/-! ## All fields among the members -/

/-- The fields may all be missing and are else of plain shapes. -/
def Fields.areOptional : Fields → Bool
  | .nil => true
  | .cons _ (.optional inner) rest => inner.isPlain && rest.areOptional
  | .cons _ _ _ => false

/-- Optional fields may all be missing. -/
theorem Fields.areOptional_cons {name : String} {shape : Shape} {rest : Fields}
    (h : (Fields.cons name shape rest).areOptional = true) :
    ∃ inner, shape = .optional inner ∧ inner.isPlain = true ∧ rest.areOptional = true := by
  cases shape with
  | optional inner =>
    rw [Fields.areOptional, Bool.and_eq_true] at h
    exact ⟨inner, rfl, h⟩
  | _ => cases h

/-- What is read where a plain shape may be missing is passed over where nobody asks for it. -/
theorem Shape.passes_optional {inner : Shape} (hplain : inner.isPlain = true) {depth : Nat}
    {s rest : Bytes} {x : Option inner.Carrier}
    (h : Reads ((Shape.optional inner).reader depth) s x rest) : Reads skipValue s () rest := by
  have hspans : Spans (skipBlank s) rest :=
    spans_of_readValue (Shape.reads_optional_value hplain h)
  exact (hspans.congr (skipBlank_skipBlank s).symm).reads_skipValue

section Members

variable {depth : Nat} {name key : String} {shape : Shape} {rest : Fields}

/-- A member of an unknown name leaves the fields as they are. -/
theorem Fields.enter_unknown {text left : Bytes} (hskip : Reads skipValue text () left) :
    (fields : Fields) → key ∉ fields.names → (slots : fields.Slots) →
      ∃ reader, fields.enter depth key slots = .admitted reader ∧ Reads reader text slots left
  | .nil, _, slots => ⟨_, rfl, hskip⟩
  | .cons name shape rest, hkey, (slot, slots) => by
    rw [Fields.names, List.mem_cons, not_or] at hkey
    obtain ⟨reader, henter, hleft, hread⟩ := rest.enter_unknown hskip hkey.2 slots
    refine ⟨_, Fields.enter_other hkey.1 henter slot, hleft, ?_⟩
    simp only [hread]
    rfl

/-- What a member does to the first field, which it is read into if it is of its name and nothing
has been. -/
theorem Fields.enter_cons {state next : (Fields.cons name shape rest).Slots}
    {reader : Reader (Fields.cons name shape rest).Slots} {text left : Bytes}
    (henter : (Fields.cons name shape rest).enter depth key state = .admitted reader)
    (hread : Reads reader text next left) :
    (key = name ∧ state.1 = none ∧
        ∃ x, Reads (shape.reader depth) text x left ∧ next = (some x, state.2)) ∨
      (key ≠ name ∧ ∃ other, rest.enter depth key state.2 = .admitted other ∧
        ∃ slots, Reads other text slots left ∧ next = (state.1, slots)) := by
  obtain ⟨slot, slots⟩ := state
  rw [Fields.enter] at henter
  split at henter
  · next hkey =>
    split at henter
    · cases henter
    · next hslot =>
      obtain rfl := Admission.admitted.inj henter
      obtain ⟨x, hleft, hx, rfl⟩ := Reads.of_map hread
      exact .inl ⟨hkey, by simpa using hslot, x, ⟨hleft, hx⟩, rfl⟩
  · next hkey =>
    split at henter
    · cases henter
    · next other hother =>
      obtain rfl := Admission.admitted.inj henter
      obtain ⟨slots, hleft, hslots, rfl⟩ := Reads.of_map hread
      exact .inr ⟨hkey, other, hother, slots, ⟨hleft, hslots⟩, rfl⟩

/-- The members of a record as its first field takes them, and as the others do. -/
theorem Fields.split_members (hname : name ∉ rest.names)
    (hpass : ∀ s x left, Reads (shape.reader depth) s x left → Reads skipValue s () left)
    {first : Bool} {state last : (Fields.cons name shape rest).Slots} {s left : Bytes}
    {members : List (String × Bytes)}
    (h : ReadsMembers (fun slots key => (Fields.cons name shape rest).enter depth key slots) first
      state s members last left) :
    SlotReads (shape.reader depth) name state.1 members last.1 ∧
      ReadsMembers (fun slots key => rest.enter depth key slots) first state.2 s members last.2
        left := by
  induction h with
  | closed hs => exact ⟨.done _, .closed hs⟩
  | member hnext hkey hcolon henter hvalue _ ih =>
    obtain ⟨hslot, hothers⟩ := ih
    rcases Fields.enter_cons henter hvalue with
      ⟨rfl, hnone, x, hx, rfl⟩ | ⟨hne, other, hother, slots, hslots, rfl⟩
    -- The member of the first field is unknown to the others, which pass over it.
    · obtain ⟨other, hother, hskip⟩ := rest.enter_unknown (hpass _ _ _ hx) hname _
      rw [hnone]
      exact ⟨.field hx hslot, .member hnext hkey hcolon hother hskip hothers⟩
    · exact ⟨.other hne hslot, .member hnext hkey hcolon hother hslots hothers⟩

/-- A field that may be missing holds nothing once its object has ended without it. -/
theorem Fields.complete_cons {inner : Shape} {slot : Option (Option inner.Carrier)}
    {slots : rest.Slots} {x : Option inner.Carrier} {xs : rest.Carrier}
    (h : (Fields.cons name (.optional inner) rest).complete true (slot, slots) = .ok (x, xs)) :
    slot.getD none = x ∧ rest.complete true slots = .ok xs := by
  have hmap : ∃ ys, rest.complete true slots = .ok ys ∧ (slot.getD none, ys) = (x, xs) := by
    cases slot with
    | none => exact map_eq_ok_iff.1 h
    | some y => exact map_eq_ok_iff.1 h
  obtain ⟨ys, hys, hxs⟩ := hmap
  obtain ⟨rfl, rfl⟩ := Prod.mk.inj hxs
  exact ⟨rfl, hys⟩

/-- The fields of a lenient record have the values of the members, which are passed over where
nobody asks for them. -/
theorem Fields.membersAre {first : Bool} {s left : Bytes} {members : List (String × Bytes)} :
    (fields : Fields) → fields.areOptional = true → fields.names.Nodup →
      {last : fields.Slots} → {xs : fields.Carrier} →
      ReadsMembers (fun slots key => fields.enter depth key slots) first fields.noSlots s members
        last left →
      fields.complete true last = .ok xs →
      ReadsMembers passOver first () s members () left ∧
        ∀ entry ∈ fields.toMembers xs, MemberIs depth members entry.1 entry.2
  | .nil, _, _, _, _, h, _ => ⟨h, fun entry hentry => nomatch hentry⟩
  | .cons name shape rest, hoptional, hnames, (slot, slots), (x, xs), h, hcomplete => by
    obtain ⟨inner, rfl, hplain, hrest⟩ := Fields.areOptional_cons hoptional
    rw [Fields.names, List.nodup_cons] at hnames
    obtain ⟨hslot, hothers⟩ := Fields.split_members hnames.1
      (fun s x left hread => Shape.passes_optional hplain hread) h
    obtain ⟨rfl, hcompleted⟩ := Fields.complete_cons hcomplete
    obtain ⟨hobject, hmembers⟩ := rest.membersAre hrest hnames.2 hothers hcompleted
    refine ⟨hobject, fun entry hentry => ?_⟩
    rw [Fields.toMembers] at hentry
    rcases List.mem_cons.1 hentry with rfl | hentry
    · exact SlotReads.memberIs hplain hslot
    · exact hmembers entry hentry

end Members

/-! ## All fields among the items -/

/-- Fields that are left out hold nothing. -/
theorem Fields.toMembers_blank : (fields : Fields) → fields.areOptional = true →
    (fields.toMembers fields.blank).map Prod.snd = List.replicate fields.count .null
  | .nil, _ => rfl
  | .cons name shape rest, hoptional => by
    obtain ⟨inner, rfl, _, hrest⟩ := Fields.areOptional_cons hoptional
    have hothers := rest.toMembers_blank hrest
    rw [Fields.blank, Fields.toMembers, List.map_cons, hothers, Shape.blank, Shape.toJson]
    rfl

/-- The next part of a container begins with no blank. -/
theorem NextPart.skipBlank_eq {first : Bool} {s tail : Bytes} {b : UInt8}
    (h : NextPart first s b tail) : skipBlank (b :: tail) = b :: tail := by
  cases h with
  | first hs => exact skipBlank_of_skipBlank hs
  | other _ ht => exact skipBlank_of_skipBlank ht

/-- The list of a record that ends has its closing bracket behind the blanks. -/
theorem endRecordList_eq_ok {bound : Nat} {s : Bytes} {h : s.length < bound}
    {x : Scanned Unit bound} (hread : endRecordList bound s h = .ok x) :
    skipBlank s = Ascii.closeBracket :: x.rest := by
  unfold endRecordList at hread
  split at hread
  · cases hread
  · next b rest hs =>
    split at hread
    · next hb =>
      obtain rfl := Except.ok.inj hread
      subst hb
      exact hs
    · split at hread
      · split at hread
        · split at hread <;> cases hread
        · cases hread
      · cases hread

/-- The fields of a lenient record have the values of the items of a list, in order. -/
theorem Fields.itemsAre {expected : String} {depth bound : Nat} : (fields : Fields) →
    fields.areOptional = true → {index : Nat} → {s : Bytes} → {h : s.length < bound} →
      {x : Scanned fields.Carrier bound} →
      fields.readList true expected depth index bound s h = .ok x →
      ∃ items leftOut, ReadsItems (readValue depth) (index == 0) s items x.rest ∧
        (fields.toMembers x.value).map Prod.snd = items ++ List.replicate leftOut .null
  | .nil, _, index, s, h, x, hread => ⟨[], 0, .closed (endRecordList_eq_ok hread), rfl⟩
  | .cons name shape rest, hoptional, index, s, h, x, hread => by
    -- One step of the reader is computed, up to the item that it meets.
    conv at hread => lhs; whnf
    split at hread
    · cases hread
    · next hnext =>
      obtain rfl := Except.ok.inj hread
      exact ⟨[], rest.count + 1, .closed (nextItem_eq_closed hnext),
        (Fields.cons name shape rest).toMembers_blank hoptional⟩
    · next start hstart hnext =>
      obtain ⟨b, tail, rfl, hpart, hopen⟩ := nextItem_eq_item hnext
      split at hread
      · cases hread
      · next y hitem =>
        split at hread
        · cases hread
        · next ys hothers =>
          obtain rfl := Except.ok.inj hread
          obtain ⟨inner, rfl, hplain, hrest⟩ := Fields.areOptional_cons hoptional
          obtain ⟨items, leftOut, hitems, hvalues⟩ := rest.itemsAre hrest hothers
          -- An item begins without blanks, so its value is read from the same place.
          have hvalue := Shape.reads_optional_value hplain ⟨y.shorter, hitem⟩
          rw [hpart.skipBlank_eq] at hvalue
          refine ⟨_ :: items, leftOut, .item hpart hopen hvalue hitems, ?_⟩
          rw [List.cons_append, ← hvalues]
          rfl

/-! ## Records -/

section Records

variable {name : String} {fields : Fields} {xs : fields.Carrier}

/-- What is in front of a lenient record that is read: the brace of an object, or the bracket of a
list. -/
inductive RecordReads (fields : Fields) (depth : Nat) (body : Bytes) (xs : fields.Carrier)
    (rest : Bytes) : Prop
  | object {inside : Bytes} {members : List (String × Bytes)}
      (hopens : skipBlank body = Ascii.openBrace :: inside)
      (hobject : ReadsMembers passOver true () inside members () rest)
      (hmembers : ∀ entry ∈ fields.toMembers xs, MemberIs depth members entry.1 entry.2)
  | list {inside : Bytes} {items : List Value} {leftOut : Nat}
      (hopens : skipBlank body = Ascii.openBracket :: inside)
      (hlist : ReadsItems (readValue depth) true inside items rest)
      (hitems : (fields.toMembers xs).map Prod.snd = items ++ List.replicate leftOut .null)

/-- A record is read from an object or from a list. -/
theorem recordReads (hoptional : fields.areOptional = true) (hnames : fields.names.Nodup)
    {depth : Nat} {body rest : Bytes}
    (h : Reads ((Shape.record name true fields).reader depth) body xs rest) :
    RecordReads fields (depth - 1) body xs rest := by
  rw [Shape.reader] at h
  obtain ⟨b, inside, hopens, hlt, hrest, hread⟩ := eq_ok_of_reads_atValue h
  split at hread
  · next hbrace =>
    subst hbrace
    split at hread
    · cases hread
    · unfold readRecord at hread
      split at hread
      · cases hread
      · next x hmembers =>
        split at hread
        · cases hread
        · next ys hcomplete =>
          obtain ⟨rfl, rfl⟩ := Scanned.mk.inj (Except.ok.inj hread)
          obtain ⟨members, hmembers⟩ := readsMembers_of_readMembers hmembers
          obtain ⟨hobject, hvalues⟩ := fields.membersAre hoptional hnames hmembers hcomplete
          exact .object hopens hobject hvalues
  · split at hread
    · next hbracket =>
      subst hbracket
      split at hread
      · cases hread
      · obtain ⟨items, leftOut, hlist, hitems⟩ := fields.itemsAre hoptional hread
        exact .list hopens hlist hitems
    · exact absurd hread (refuseValue_ne_ok _ _ _ _)

/-- A whole text is decoded to a value if a reader reads that and leaves only blanks. -/
theorem decode_eq_ok_iff {α : Type} {reader : Reader α} {body : Bytes} {x : α} :
    Json.decode reader body = .ok x ↔ ∃ rest, Reads reader body x rest ∧ skipBlank rest = [] := by
  unfold Json.decode
  constructor
  · intro h
    split at h
    · cases h
    · next y hread =>
      split at h
      · next hblank =>
        obtain rfl := Except.ok.inj h
        exact ⟨y.rest, ⟨y.shorter, hread⟩, hblank⟩
      · cases h
  · rintro ⟨rest, ⟨h', hread⟩, hblank⟩
    simp only [hread]
    split
    · rfl
    · next hcons => exact absurd (hcons.symm.trans hblank) (List.cons_ne_nil _ _)

end Records

/-! ## Drafts -/

/-- A draft: a record of which every field may be missing, with a name of its own. -/
def Shape.isDraft : Shape → Bool
  | .record _ lenient fields => lenient && fields.areOptional && decide fields.names.Nodup
  | _ => false

/-- A draft is a record of optional fields with different names. -/
theorem Shape.eq_record_of_isDraft {shape : Shape} (h : shape.isDraft = true) :
    ∃ name fields, shape = .record name true fields ∧ fields.areOptional = true ∧
      fields.names.Nodup := by
  cases shape with
  | record name lenient fields =>
    rw [Shape.isDraft, Bool.and_eq_true, Bool.and_eq_true, decide_eq_true_eq] at h
    obtain ⟨⟨rfl, hoptional⟩, hnames⟩ := h
    exact ⟨name, fields, rfl, hoptional, hnames⟩
  | _ => cases h

section Drafts

variable {shape : Shape} (hdraft : shape.isDraft = true) {body : Bytes}

include hdraft

/-- A text that is decoded to a draft is an object or a list of the values of its fields. -/
theorem Shape.isObjectOf_or_isListOf {x : shape.Carrier}
    (h : Json.decode (shape.reader depthLimit) body = .ok x) :
    ∃ entries, shape.toJson x = .object entries ∧
      (IsObjectOf body entries ∨ IsListOf body entries) := by
  obtain ⟨name, fields, rfl, hoptional, hnames⟩ := Shape.eq_record_of_isDraft hdraft
  obtain ⟨rest, hread, hblank⟩ := decode_eq_ok_iff.1 h
  refine ⟨fields.toMembers x, by rw [Shape.toJson], ?_⟩
  cases recordReads hoptional hnames hread with
  | object hopens hobject hmembers =>
    exact .inl ⟨_, ⟨_, rest, hopens, hobject, hblank⟩, hmembers⟩
  | list hopens hlist hitems =>
    exact .inr ⟨_, _, decode_eq_ok_iff.2 ⟨rest, reads_list hopens hlist, hblank⟩, hitems⟩

/-- A text that begins neither an object nor a list is not decoded to a draft. -/
theorem Shape.decode_eq_error (hbrace : ∀ inside, skipBlank body ≠ Ascii.openBrace :: inside)
    (hbracket : ∀ inside, skipBlank body ≠ Ascii.openBracket :: inside) :
    ∃ error, Json.decode (shape.reader depthLimit) body = .error error := by
  obtain ⟨name, fields, rfl, hoptional, hnames⟩ := Shape.eq_record_of_isDraft hdraft
  cases hdecode : Json.decode ((Shape.record name true fields).reader depthLimit) body with
  | error error => exact ⟨error, rfl⟩
  | ok xs =>
    obtain ⟨rest, hread, _⟩ := decode_eq_ok_iff.1 hdecode
    cases recordReads hoptional hnames hread with
    | object hopens _ _ => exact absurd hopens (hbrace _)
    | list hopens _ _ => exact absurd hopens (hbracket _)

end Drafts

end Colloquy
