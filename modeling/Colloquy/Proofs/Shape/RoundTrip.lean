import Colloquy.Proofs.Entries
import Colloquy.Proofs.Json.NumberText
import Colloquy.Proofs.Json.WrittenValue
import Colloquy.Proofs.Shape.ListedRecord
import Colloquy.Shape.Writer

/-!
# Reading back what is written

What is written of a value of a shape is read back as that value. There is one lemma for each kind
of shape, on the readers alone; `Shape.readsBack` and `Fields.enters` put them together by one
induction over shapes and fields. It takes a shape that keeps its fields and what is missing apart
(`Shape.isFaithful`), not more containers inside one another than are read, and a value in which the
parts of no fixed shape are texts or truth values (`Shape.Exact`).
-/

set_option autoImplicit false

namespace Colloquy

open Json

/-- What is read back is read back through a function. -/
theorem ReadsBack.map {α β : Type} {reader : Reader α} {text : Bytes} {value : α}
    (h : ReadsBack reader text value) (f : α → β) :
    ReadsBack (fun s => (reader s).map (·.map f)) text (f value) := by
  intro rest hrest
  obtain ⟨hshorter, hread⟩ := h rest hrest
  refine ⟨hshorter, ?_⟩
  show (reader (text ++ rest)).map _ = _
  rw [hread]
  rfl

/-! ## Parts that are no containers -/

/-- A written text is read back. -/
theorem readsBack_text (expected text : String) :
    ReadsBack (readText expected) (quoted text) text := by
  intro rest _
  rw [quoted_append]
  refine reads_atValue (by decide) fun bound h => ?_
  simp only [if_true]
  exact readStringFrom_content text bound rest (le_of_length_lt h)

/-- A written truth value is read back. -/
theorem readsBack_flag (flag : Bool) : ReadsBack readFlag (Value.bool flag).bytes flag := by
  intro rest _
  cases flag with
  | true => exact ⟨_, rfl⟩
  | false => exact ⟨_, rfl⟩

/-- A natural number below a limit that fits sixty-four bits. -/
theorem readsBack_natural (limit : Nat) {n : Nat} (hlimit : limit ≤ maxWord + 1) (hn : n < limit)
    (expected : String) : ReadsBack (readNatural limit expected) (decimal n) n := by
  intro rest hrest
  have hnumeral := readsBack_decimal (n := n) (by omega) rest hrest
  obtain ⟨d, tail, hdecimal, hdigit, _⟩ := decimal_cons n
  have hstarts := startsNumeral_of_isDigit hdigit
  obtain ⟨hblank, _⟩ := not_blank_of_startsNumeral hstarts
  rw [hdecimal, List.cons_append] at hnumeral ⊢
  obtain ⟨hshorter, hread⟩ := hnumeral
  refine reads_atValue hblank fun bound h => ?_
  have hrange : (0 : Int) ≤ n ∧ (n : Int) < limit := by omega
  refine ⟨Nat.lt_of_lt_of_le hshorter h, ?_⟩
  simp only [hstarts, if_true, hread, if_pos hrange]
  rfl

/-- Nothing is written as `null`. -/
theorem readsBack_none_spaced {α : Type} (inner : Reader α) (blanks : Blanks) :
    ReadsBack (readOptional inner) (blanks.bytes ++ Value.null.bytes) none := by
  intro rest _
  have hblank : skipBlank (blanks.bytes ++ Value.null.bytes ++ rest) =
      0x6e :: (nullTail ++ rest) := by
    rw [List.append_assoc, blanks.skip]
    rfl
  have hword (bound : Nat) (h : (nullTail ++ rest).length < bound) :
      ∃ h', readWord bound nullTail (nullTail ++ rest) h = .ok ⟨(), rest, h'⟩ :=
    ⟨_, rfl⟩
  obtain ⟨h', hword⟩ := hword _ (length_lt_of_skipBlank hblank)
  refine ⟨h', ?_⟩
  unfold readOptional
  split
  · next hs => exact absurd (hblank.symm.trans hs) (List.cons_ne_nil _ _)
  · next hs =>
    obtain ⟨rfl, rfl⟩ := List.cons.inj (hblank.symm.trans hs)
    simp only [if_true, hword]
    rfl

/-- Null is read back as what is missing. -/
theorem readsBack_none {α : Type} (inner : Reader α) :
    ReadsBack (readOptional inner) Value.null.bytes none :=
  readsBack_none_spaced inner .none

/-- What is not written as `null`. -/
theorem readsBack_some {α : Type} {inner : Reader α} {text : Bytes} {value : α}
    (hstarts : ∃ b tail, text = b :: tail ∧ isBlank b = false ∧ b ≠ 0x6e)
    (h : ReadsBack inner text value) : ReadsBack (readOptional inner) text (some value) := by
  intro rest hrest
  obtain ⟨b, tail, rfl, hblank, hnull⟩ := hstarts
  exact reads_some hblank hnull (h rest hrest)

/-! ## Lists and dictionaries -/

/-- A written list is read back if its items are. -/
theorem readsBack_list {α : Type} {item : Reader α} {write : α → Bytes} {xs : List α}
    (hstarts : ∀ x ∈ xs, Starts (write x)) (hitem : ∀ x ∈ xs, ReadsBack item (write x) x)
    {depth : Nat} (hdepth : depth ≠ 0) :
    ReadsBack (readList depth item)
      (Ascii.openBracket :: (separated true (xs.map write) ++ [Ascii.closeBracket])) xs := by
  intro rest _
  simp only [List.cons_append, List.append_assoc, List.nil_append]
  refine reads_atValue (by decide) fun bound h => ?_
  simp only [if_true, if_neg hdepth]
  exact readItems_separated hstarts hitem bound 0 [] rest h

/-- A dictionary is made of its entries. -/
theorem Dictionary.ofList_entries {β : Type} (d : Dictionary β) :
    Dictionary.ofList d.entries = d := by
  obtain ⟨entries, hsorted⟩ := d
  unfold Dictionary.ofList
  simp only [lastByName_of_sorted hsorted]

/-- The members of an object with any names make the list of its entries, the last one first. -/
theorem enters_entries {α : Type} {item : Reader α} {write : α → Bytes}
    {entries : List (String × α)} (hitem : ∀ e ∈ entries, ReadsBack item (write e.2) e.2)
    (before : List (String × α)) :
    Enters (fun entries name => .admitted fun s =>
        (item s).map (·.map fun x => (name, x) :: entries)) before
      (entries.map fun e => (e.1, write e.2)) (entries.reverse ++ before) := by
  induction entries generalizing before with
  | nil => exact .nil before
  | cons e entries ih =>
    have hfirst := (hitem e List.mem_cons_self).map fun x => (e.1, x) :: before
    have hothers := ih (fun f hf => hitem f (List.mem_cons_of_mem e hf)) (e :: before)
    have hlast : (e :: entries).reverse ++ before = entries.reverse ++ e :: before := by simp
    rw [hlast]
    exact .cons rfl hfirst hothers

/-- A written dictionary is read back if its values are. -/
theorem readsBack_dictionary {α : Type} {item : Reader α} (write : α → Bytes) {d : Dictionary α}
    (hitem : ∀ e ∈ d.entries, ReadsBack item (write e.2) e.2) {depth : Nat} (hdepth : depth ≠ 0) :
    ReadsBack (readDictionary depth item)
      (Ascii.openBrace :: (separated true (d.entries.map fun e => memberBytes e.1 (write e.2)) ++
        [Ascii.closeBrace])) d := by
  intro rest _
  have hparts : d.entries.map (fun e => memberBytes e.1 (write e.2)) =
      (d.entries.map fun e => (e.1, write e.2)).map fun m => memberBytes m.1 m.2 := by
    rw [List.map_map]
    rfl
  simp only [hparts, List.cons_append, List.append_assoc, List.nil_append]
  refine reads_atValue (by decide) fun bound h => ?_
  obtain ⟨h', hread⟩ := readMembers_separated (enters_entries hitem []) bound true rest h
  refine ⟨h', ?_⟩
  simp only [if_true, if_neg hdepth, hread]
  show Except.ok (Scanned.map _ _) = _
  simp only [Scanned.map, List.append_nil, List.reverse_reverse, d.ofList_entries]

/-! ## Records -/

/-- The names of the fields of a record. -/
def Fields.names : Fields → List String
  | .nil => []
  | .cons name _ rest => name :: rest.names

/-- The fields of a record, of which all have been read. -/
def Fields.filled : (fields : Fields) → fields.Carrier → fields.Slots
  | .nil, _ => ()
  | .cons _ _ rest, (x, xs) => (some x, rest.filled xs)

/-- Filled fields are complete. -/
theorem Fields.complete_filled (lenient : Bool) : (fields : Fields) → (xs : fields.Carrier) →
    fields.complete lenient (fields.filled xs) = .ok xs
  | .nil, _ => rfl
  | .cons _ _ rest, (x, xs) => by
    show (rest.complete lenient (rest.filled xs)).map (fun xs => (x, xs)) = _
    rw [rest.complete_filled lenient xs]
    rfl

/-- The bytes of the members that the fields of a record are written as. -/
def Fields.written (fields : Fields) (xs : fields.Carrier) : List (String × Bytes) :=
  (fields.toMembers xs).map fun m => (m.1, m.2.bytes)

/-- A state that is a part of another one takes its members as it does alone. -/
theorem Enters.lift {σ τ : Type} {enter : σ → String → Admission σ}
    {enter' : τ → String → Admission τ} {state last : σ} {members : List (String × Bytes)}
    (h : Enters enter state members last) (f : σ → τ)
    (hlift : ∀ m ∈ members, ∀ state value, enter state m.1 = .admitted value →
      enter' (f state) m.1 = .admitted fun s => (value s).map (·.map f)) :
    Enters enter' (f state) members (f last) := by
  induction h with
  | nil state => exact .nil (f state)
  | cons henter hvalue _ ih =>
    exact .cons (hlift _ List.mem_cons_self _ _ henter) (hvalue.map f)
      (ih fun m hm => hlift m (List.mem_cons_of_mem _ hm))

/-- Fields are written under their names, in their order. -/
theorem Fields.names_toMembers : (fields : Fields) → (xs : fields.Carrier) →
    (fields.toMembers xs).map Prod.fst = fields.names
  | .nil, _ => rfl
  | .cons name _ rest, (_, xs) => congrArg (name :: ·) (rest.names_toMembers xs)

/-- A member of the name of the first field is read into it, if that is still empty. -/
theorem Fields.enter_first {name : String} {shape : Shape} {rest : Fields} {depth : Nat}
    (slots : rest.Slots) : (Fields.cons name shape rest).enter depth name (none, slots) =
      .admitted fun s => (shape.reader depth s).map (·.map fun x => (some x, slots)) := by
  rw [Fields.enter, if_pos rfl]
  rfl

/-- A member of another name is read into the other fields. -/
theorem Fields.enter_other {name key : String} {shape : Shape} {rest : Fields} {depth : Nat}
    {slots : rest.Slots} {value : Reader rest.Slots} (hkey : key ≠ name)
    (henter : rest.enter depth key slots = .admitted value) (slot : Option shape.Carrier) :
    (Fields.cons name shape rest).enter depth key (slot, slots) =
      .admitted fun s => (value s).map (·.map fun slots => (slot, slots)) := by
  rw [Fields.enter, if_neg hkey, henter]

/-- A record takes its first field from the first member and the others from the others. -/
theorem Fields.enters_cons {name : String} {shape : Shape} {rest : Fields} {depth : Nat}
    {x : shape.Carrier} {xs : rest.Carrier} (hname : name ∉ rest.names)
    (hfirst : ReadsBack (shape.reader depth) (shape.toJson x).bytes x)
    (hothers : Enters (fun slots key => rest.enter depth key slots) rest.noSlots (rest.written xs)
      (rest.filled xs)) :
    Enters (fun slots key => (Fields.cons name shape rest).enter depth key slots)
      (Fields.cons name shape rest).noSlots ((Fields.cons name shape rest).written (x, xs))
      ((Fields.cons name shape rest).filled (x, xs)) := by
  refine .cons (Fields.enter_first rest.noSlots) (hfirst.map fun x => (some x, rest.noSlots)) ?_
  refine hothers.lift (fun slots => (some x, slots)) ?_
  intro m hm slots value henter
  have hother : m.1 ≠ name := by
    rintro rfl
    have hmem : m.1 ∈ (rest.toMembers xs).map Prod.fst := by
      obtain ⟨member, hmember, rfl⟩ := List.mem_map.1 hm
      exact List.mem_map_of_mem hmember
    rw [rest.names_toMembers xs] at hmem
    exact hname hmem
  exact Fields.enter_other hother henter (some x)

/-- The bytes of a record are those of its members. -/
theorem Fields.bytes_object (fields : Fields) (xs : fields.Carrier) :
    (Value.object (fields.toMembers xs)).bytes = Ascii.openBrace ::
      (separated true ((fields.written xs).map fun m => memberBytes m.1 m.2) ++
        [Ascii.closeBrace]) := by
  simp [Value.bytes, allMemberBytes_eq_map, Fields.written, Function.comp_def]

/-- A written record is read back if its fields are entered one by one. -/
theorem readsBack_record {name : String} {lenient : Bool} {fields : Fields} {depth : Nat}
    {xs : fields.Carrier} (hdepth : depth ≠ 0)
    (hfields : Enters (fun slots key => fields.enter (depth - 1) key slots) fields.noSlots
      (fields.written xs) (fields.filled xs)) :
    ReadsBack ((Shape.record name lenient fields).reader depth)
      (Value.object (fields.toMembers xs)).bytes xs := by
  intro rest _
  rw [fields.bytes_object, List.cons_append, List.append_assoc, Shape.reader]
  refine reads_atValue (by decide) fun bound h => ?_
  obtain ⟨h', hread⟩ := readMembers_separated hfields bound true rest h
  refine ⟨h', ?_⟩
  simp only [if_true, if_neg hdepth]
  unfold readRecord
  simp only [List.cons_append, List.nil_append, hread, fields.complete_filled]
  rfl

/-! ## All shapes -/

mutual

/-- How many containers stand inside one another in a value at most. -/
def Shape.depth : Shape → Nat
  | .text _ | .flag | .short | .word | .number | .value => 0
  | .optional inner => inner.depth
  | .list item | .dictionary item => item.depth + 1
  | .record _ _ fields => fields.depth + 1

/-- How many containers stand inside one another in a field at most. -/
def Fields.depth : Fields → Nat
  | .nil => 0
  | .cons _ shape rest => max shape.depth rest.depth

end

/-- Whether a value may be written as `null`. -/
def Shape.isNullable : Shape → Bool
  | .optional _ | .value => true
  | _ => false

mutual

/-- Whether different values are written differently: no record has two fields of one name, and what
may be missing is not `null` when it is there. -/
def Shape.isFaithful : Shape → Bool
  | .text _ | .flag | .short | .word | .number | .value => true
  | .optional inner => !inner.isNullable && inner.isFaithful
  | .list item | .dictionary item => item.isFaithful
  | .record _ _ fields => fields.isFaithful

/-- Whether that holds of a record of some fields. -/
def Fields.isFaithful : Fields → Bool
  | .nil => true
  | .cons name shape rest => !rest.names.contains name && shape.isFaithful && rest.isFaithful

end

mutual

/-- A value whose parts of no fixed shape are texts or truth values. -/
def Shape.Exact : (shape : Shape) → shape.Carrier → Prop
  | .text _, _ | .flag, _ | .short, _ | .word, _ => True
  | .number, _ => False
  | .value, v => (∃ text, v = .text text) ∨ ∃ flag, v = .bool flag
  | .optional _, none => True
  | .optional inner, some x => inner.Exact x
  | .list item, xs => ∀ x ∈ xs, item.Exact x
  | .dictionary item, d => ∀ e ∈ d.entries, item.Exact e.2
  | .record _ _ fields, xs => fields.Exact xs

/-- Fields whose parts of no fixed shape are texts or truth values. -/
def Fields.Exact : (fields : Fields) → fields.Carrier → Prop
  | .nil, _ => True
  | .cons _ shape rest, (x, xs) => shape.Exact x ∧ rest.Exact xs

end

/-- A natural number is written with its decimal digits. -/
theorem bytes_natural (n : Nat) : (Value.number (.integer n)).bytes = decimal n :=
  encode_toString n

/-- A natural number begins with a digit. -/
theorem starts_natural (n : Nat) : ∃ b tail, (Value.number (.integer n)).bytes = b :: tail ∧
    isBlank b = false ∧ b ≠ Ascii.closeBracket ∧ b ≠ 0x6e := by
  obtain ⟨d, tail, hdecimal, hdigit, _⟩ := decimal_cons n
  exact ⟨d, tail, (bytes_natural n).trans hdecimal,
    not_blank_of_startsNumeral (startsNumeral_of_isDigit hdigit)⟩

/-- A value begins with a byte that begins a value, and with the letter of `null` only if it may be
missing. -/
theorem Shape.starts : (shape : Shape) → (x : shape.Carrier) → shape.Exact x →
    ∃ b tail, (shape.toJson x).bytes = b :: tail ∧ isBlank b = false ∧ b ≠ Ascii.closeBracket ∧
      (shape.isNullable = false → b ≠ 0x6e)
  | .text _, _, _ => ⟨Ascii.quote, _, rfl, rfl, by decide, fun _ => by decide⟩
  | .flag, true, _ => ⟨0x74, _, rfl, rfl, by decide, fun _ => by decide⟩
  | .flag, false, _ => ⟨0x66, _, rfl, rfl, by decide, fun _ => by decide⟩
  | .short, n, _ => by
    obtain ⟨b, tail, hbytes, hblank, hclose, hnull⟩ := starts_natural n.toNat
    exact ⟨b, tail, hbytes, hblank, hclose, fun _ => hnull⟩
  | .word, n, _ => by
    obtain ⟨b, tail, hbytes, hblank, hclose, hnull⟩ := starts_natural n.toNat
    exact ⟨b, tail, hbytes, hblank, hclose, fun _ => hnull⟩
  | .number, _, h => h.elim
  | .value, _, .inl ⟨_, rfl⟩ => ⟨Ascii.quote, _, rfl, rfl, by decide, fun _ => by decide⟩
  | .value, _, .inr ⟨true, rfl⟩ => ⟨0x74, _, rfl, rfl, by decide, fun _ => by decide⟩
  | .value, _, .inr ⟨false, rfl⟩ => ⟨0x66, _, rfl, rfl, by decide, fun _ => by decide⟩
  | .optional _, none, _ => ⟨0x6e, _, rfl, rfl, by decide, nofun⟩
  | .optional inner, some x, h => by
    obtain ⟨b, tail, hbytes, hblank, hclose, _⟩ := inner.starts x h
    exact ⟨b, tail, hbytes, hblank, hclose, nofun⟩
  | .list _, _, _ => ⟨Ascii.openBracket, _, rfl, rfl, by decide, fun _ => by decide⟩
  | .dictionary _, _, _ => ⟨Ascii.openBrace, _, rfl, rfl, by decide, fun _ => by decide⟩
  | .record _ _ _, _, _ => ⟨Ascii.openBrace, _, rfl, rfl, by decide, fun _ => by decide⟩

/-- The number of the bits of a number below the limit of its shape. -/
theorem readsBack_short (n : UInt16) (depth : Nat) :
    ReadsBack (Shape.short.reader depth) (Shape.short.toJson n).bytes n := by
  have hnatural := (readsBack_natural (Nat.pow 2 16) (by decide) n.toNat_lt "u16").map
    UInt16.ofNat
  rw [UInt16.ofNat_toNat, ← bytes_natural] at hnatural
  exact hnatural

/-- A written word is read back. -/
theorem readsBack_word (n : UInt64) (depth : Nat) :
    ReadsBack (Shape.word.reader depth) (Shape.word.toJson n).bytes n := by
  have hnatural := (readsBack_natural (Nat.pow 2 64) (by decide) n.toNat_lt "usize").map
    UInt64.ofNat
  rw [UInt64.ofNat_toNat, ← bytes_natural] at hnatural
  exact hnatural

/-- A text is read back where a value of any form may stand. -/
theorem readsBack_anyText (inner : Option (Reader Value)) (text : String) :
    ReadsBack (readValueWith inner) (quoted text) (.text text) := by
  intro rest _
  rw [quoted_append]
  obtain ⟨h', hread⟩ := readStringFrom_content text
    (Ascii.quote :: (escaped text.toList ++ Ascii.quote :: rest)).length rest (Nat.le_succ _)
  refine ⟨h', ?_⟩
  unfold readValueWith
  split
  · next hs => exact absurd hs (skipBlank_ne_nil (by decide) _)
  · next hs =>
    obtain ⟨rfl, rfl⟩ := eq_of_skipBlank (by decide) hs
    have hnull : Ascii.quote ≠ 0x6e := by decide
    have htrue : Ascii.quote ≠ 0x74 := by decide
    have hfalse : Ascii.quote ≠ 0x66 := by decide
    simp only [if_neg hnull, if_neg htrue, if_neg hfalse, if_true, hread]
    rfl

/-- A text or a truth value is read back where a value of any form may stand. -/
theorem readsBack_value {v : Value} (hv : (∃ text, v = .text text) ∨ ∃ flag, v = .bool flag)
    (depth : Nat) : ReadsBack (readValue depth) v.bytes v := by
  have hwith : ∃ inner, readValue depth = readValueWith inner := by
    cases depth with
    | zero => exact ⟨none, rfl⟩
    | succ depth => exact ⟨some (readValue depth), rfl⟩
  obtain ⟨inner, hwith⟩ := hwith
  rw [hwith]
  rcases hv with ⟨text, rfl⟩ | ⟨flag, rfl⟩
  · exact readsBack_anyText inner text
  · intro rest _
    cases flag with
    | true => exact ⟨_, rfl⟩
    | false => exact ⟨_, rfl⟩

mutual

/-- What is written of a value of a shape is read back as that value. -/
theorem Shape.readsBack : (shape : Shape) → shape.isFaithful = true → (depth : Nat) →
    shape.depth ≤ depth → (x : shape.Carrier) → shape.Exact x →
    ReadsBack (shape.reader depth) (shape.toJson x).bytes x
  | .text expected, _, _, _, text, _ => readsBack_text expected text
  | .flag, _, _, _, flag, _ => readsBack_flag flag
  | .short, _, depth, _, n, _ => readsBack_short n depth
  | .word, _, depth, _, n, _ => readsBack_word n depth
  | .number, _, _, _, _, h => h.elim
  | .value, _, depth, _, _, h => readsBack_value h depth
  | .optional inner, _, depth, _, none, _ => readsBack_none (inner.reader depth)
  | .optional inner, hfaithful, depth, hdepth, some x, h => by
    simp only [Shape.isFaithful, Bool.and_eq_true, Bool.not_eq_true'] at hfaithful
    obtain ⟨b, tail, hbytes, hblank, _, hnull⟩ := inner.starts x h
    exact readsBack_some ⟨b, tail, hbytes, hblank, hnull hfaithful.1⟩
      (inner.readsBack hfaithful.2 depth hdepth x h)
  | .list item, hfaithful, depth, hdepth, xs, h => by
    have hpositive : depth ≠ 0 := Nat.ne_zero_of_lt hdepth
    have hitem : ∀ x ∈ xs, ReadsBack (item.reader (depth - 1)) (item.toJson x).bytes x :=
      fun x hx => item.readsBack hfaithful (depth - 1) (Nat.le_sub_one_of_lt hdepth) x (h x hx)
    have hstarts : ∀ x ∈ xs, Starts (item.toJson x).bytes := by
      intro x hx
      obtain ⟨b, tail, hbytes, hblank, hclose, _⟩ := item.starts x (h x hx)
      exact ⟨b, tail, hbytes, hblank, hclose⟩
    have hlist := readsBack_list hstarts hitem hpositive
    have hbytes : (Shape.toJson (.list item) xs).bytes = Ascii.openBracket ::
        (separated true (xs.map fun x => (item.toJson x).bytes) ++ [Ascii.closeBracket]) := by
      simp [Shape.toJson, Value.bytes, itemBytes_eq_map, Function.comp_def]
    rw [hbytes]
    exact hlist
  | .dictionary item, hfaithful, depth, hdepth, d, h => by
    have hpositive : depth ≠ 0 := Nat.ne_zero_of_lt hdepth
    have hitem : ∀ e ∈ d.entries, ReadsBack (item.reader (depth - 1)) (item.toJson e.2).bytes e.2 :=
      fun e he => item.readsBack hfaithful (depth - 1) (Nat.le_sub_one_of_lt hdepth) e.2 (h e he)
    have hdictionary := readsBack_dictionary (fun x => (item.toJson x).bytes) hitem hpositive
    have hbytes : (Shape.toJson (.dictionary item) d).bytes = Ascii.openBrace ::
        (separated true (d.entries.map fun e => memberBytes e.1 (item.toJson e.2).bytes) ++
          [Ascii.closeBrace]) := by
      simp [Shape.toJson, Value.bytes, allMemberBytes_eq_map, Function.comp_def]
    rw [hbytes]
    exact hdictionary
  | .record name lenient fields, hfaithful, depth, hdepth, xs, h =>
    readsBack_record (Nat.ne_zero_of_lt hdepth)
      (fields.enters hfaithful (depth - 1) (Nat.le_sub_one_of_lt hdepth) xs h)

/-- What is written of the fields of a record fills them. -/
theorem Fields.enters : (fields : Fields) → fields.isFaithful = true → (depth : Nat) →
    fields.depth ≤ depth → (xs : fields.Carrier) → fields.Exact xs →
    Enters (fun slots key => fields.enter depth key slots) fields.noSlots (fields.written xs)
      (fields.filled xs)
  | .nil, _, _, _, _, _ => .nil ()
  | .cons name shape rest, hfaithful, depth, hdepth, (x, xs), h => by
    simp only [Fields.isFaithful, Bool.and_eq_true, Bool.not_eq_true', List.contains_eq_mem,
      decide_eq_false_iff_not] at hfaithful
    obtain ⟨⟨hname, hshape⟩, hrest⟩ := hfaithful
    have hdepths : shape.depth ≤ depth ∧ rest.depth ≤ depth := Nat.max_le.1 hdepth
    exact Fields.enters_cons hname (shape.readsBack hshape depth hdepths.1 x h.1)
      (rest.enters hrest depth hdepths.2 xs h.2)

end

/-! ## Types -/

mutual

/-- Whether every part of a value has a fixed shape other than that of a number of any form. -/
def Shape.isFixed : Shape → Bool
  | .number | .value => false
  | .text _ | .flag | .short | .word => true
  | .optional inner => inner.isFixed
  | .list item | .dictionary item => item.isFixed
  | .record _ _ fields => fields.isFixed

/-- Whether that holds of every field of a record. -/
def Fields.isFixed : Fields → Bool
  | .nil => true
  | .cons _ shape rest => shape.isFixed && rest.isFixed

end

mutual

/-- Every value of a fixed shape is exact. -/
theorem Shape.exact_of_isFixed : (shape : Shape) → shape.isFixed = true → (x : shape.Carrier) →
    shape.Exact x
  | .text _, _, _ => trivial
  | .flag, _, _ => trivial
  | .short, _, _ => trivial
  | .word, _, _ => trivial
  | .optional _, _, none => trivial
  | .optional inner, h, some x => inner.exact_of_isFixed h x
  | .list item, h, _ => fun x _ => item.exact_of_isFixed h x
  | .dictionary item, h, _ => fun e _ => item.exact_of_isFixed h e.2
  | .record _ _ fields, h, xs => fields.exact_of_isFixed h xs

/-- All values of fixed fields are exact. -/
theorem Fields.exact_of_isFixed : (fields : Fields) → fields.isFixed = true →
    (xs : fields.Carrier) → fields.Exact xs
  | .nil, _, _ => trivial
  | .cons _ shape rest, h, (x, xs) => by
    simp only [Fields.isFixed, Bool.and_eq_true] at h
    exact ⟨shape.exact_of_isFixed h.1 x, rest.exact_of_isFixed h.2 xs⟩

end

/-- A text that is read back is read to the blanks behind it. -/
theorem decode_spaced {α : Type} {reader : Reader α} {text : Bytes} {value : α}
    (h : ReadsBack reader text value) (behind : Blanks) :
    Json.decode reader (text ++ behind.bytes) = .ok value := by
  have hblank : skipBlank behind.bytes = [] := by
    simpa [skipBlank] using behind.skip []
  obtain ⟨_, hread⟩ := h behind.bytes behind.ends_nil
  unfold Json.decode
  simp only [hread]
  split
  · rfl
  · next hs => exact absurd (hs.symm.trans hblank) (List.cons_ne_nil _ _)

/-- A text that is read back is read to its end. -/
theorem decode_of_readsBack {α : Type} {reader : Reader α} {text : Bytes} {value : α}
    (h : ReadsBack reader text value) : Json.decode reader text = .ok value := by
  have hdecode := decode_spaced h .none
  rwa [Blanks.none, List.append_nil] at hdecode

namespace Encoded

variable {α : Type} [Encoded α]

/-- What is written of a value is read as the value, to its end. -/
theorem decode_encode_of_exact (hfaithful : (shape α).isFaithful = true)
    (hdepth : (shape α).depth ≤ depthLimit) {a : α} (ha : (shape α).Exact (pack a)) :
    decode (Utf8.encode (encode a)) = .ok a := by
  have hbytes : Utf8.encode (encode a) = ((shape α).toJson (pack a)).bytes := encode_render _
  have hback := ((shape α).readsBack hfaithful depthLimit hdepth (pack a) ha).map unpack
  rw [unpack_pack, ← hbytes] at hback
  exact decode_of_readsBack hback

end Encoded

end Colloquy
