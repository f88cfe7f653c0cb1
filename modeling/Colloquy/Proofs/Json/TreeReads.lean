import Colloquy.Proofs.Json.SyntaxTree
import Colloquy.Proofs.Shape.PlainReads

/-!
# Trees that are read

What the reader of values delivers in front of a text that is written of a tree is the value of the
tree, and nothing if it has none (`denotes_of_writes`): so blanks do not matter to a value. A scalar
comes to its value by its first byte (`Comes`), and a container by its parts, since what it is read
to is told by what they are read to (`reads_list_iff`, `reads_object_iff`).
-/

set_option autoImplicit false

namespace Colloquy

open Json

/-! ## Values by their first byte -/

/-- What reading comes to is put through a function. -/
theorem Comes.map {α β : Type} {bound : Nat} {rest : Bytes} {value? : Option α}
    {result : Except Failure (Scanned α bound)} (h : Comes rest value? result) (f : α → β) :
    Comes rest (value?.map f) (result.map (·.map f)) := by
  cases h with
  | read h => exact .read h
  | refused failure => exact .refused failure

/-- A word is read to its end. -/
theorem comes_readWord {bound : Nat} (word rest : Bytes) (h : (word ++ rest).length < bound) :
    Comes rest (some ()) (readWord bound word (word ++ rest) h) := by
  induction word with
  | nil => exact .read h
  | cons w word ih =>
    simp only [List.cons_append] at h ⊢
    rw [readWord, if_pos rfl]
    exact ih _

/-- A number comes to what is delivered for it. -/
theorem Json.Delivers.comes {bound : Nat} {rest : Bytes} {number? : Option Number}
    {result : Except Failure (Scanned Number bound)} (h : Delivers rest number? result) :
    Comes rest number? result := by
  cases h with
  | read h => exact .read h
  | refused left => exact .refused _

section Values

variable {inner : Option (Reader Value)} {s tail rest left : Bytes} {v : Value}

/-- `null` comes to null. -/
theorem comes_null (hs : skipBlank s = 0x6e :: (nullTail ++ rest)) :
    Comes rest (some .null) (readValueWith inner s) := by
  unfold readValueWith
  split
  · next hnil => exact absurd (hs.symm.trans hnil) (List.cons_ne_nil _ _)
  · next hcons =>
    obtain ⟨rfl, rfl⟩ := List.cons.inj (hs.symm.trans hcons)
    simp only [if_true]
    exact (comes_readWord nullTail rest _).map fun _ => Value.null

/-- `true` comes to a truth value. -/
theorem comes_true (hs : skipBlank s = 0x74 :: (trueTail ++ rest)) :
    Comes rest (some (.bool true)) (readValueWith inner s) := by
  have hnull : (0x74 : UInt8) ≠ 0x6e := by decide
  unfold readValueWith
  split
  · next hnil => exact absurd (hs.symm.trans hnil) (List.cons_ne_nil _ _)
  · next hcons =>
    obtain ⟨rfl, rfl⟩ := List.cons.inj (hs.symm.trans hcons)
    simp only [if_neg hnull, if_true]
    exact (comes_readWord trueTail rest _).map fun _ => Value.bool true

/-- `false` comes to the other one. -/
theorem comes_false (hs : skipBlank s = 0x66 :: (falseTail ++ rest)) :
    Comes rest (some (.bool false)) (readValueWith inner s) := by
  have hnull : (0x66 : UInt8) ≠ 0x6e := by decide
  have htrue : (0x66 : UInt8) ≠ 0x74 := by decide
  unfold readValueWith
  split
  · next hnil => exact absurd (hs.symm.trans hnil) (List.cons_ne_nil _ _)
  · next hcons =>
    obtain ⟨rfl, rfl⟩ := List.cons.inj (hs.symm.trans hcons)
    simp only [if_neg hnull, if_neg htrue, if_true]
    exact (comes_readWord falseTail rest _).map fun _ => Value.bool false

/-- A string comes to its content, if it has any. -/
theorem comes_string {text : StringText} (hs : skipBlank s = text.quoted ++ rest) :
    Comes rest (text.content?.map .text) (readValueWith inner s) := by
  have hquoted : skipBlank s = Ascii.quote :: (text.bytes ++ Ascii.quote :: rest) := by
    rw [hs, StringText.quoted, List.cons_append, List.append_assoc, List.singleton_append]
  have hnull : Ascii.quote ≠ 0x6e := by decide
  have htrue : Ascii.quote ≠ 0x74 := by decide
  have hfalse : Ascii.quote ≠ 0x66 := by decide
  unfold readValueWith
  split
  · next hnil => exact absurd (hquoted.symm.trans hnil) (List.cons_ne_nil _ _)
  · next hcons =>
    obtain ⟨rfl, rfl⟩ := List.cons.inj (hquoted.symm.trans hcons)
    simp only [if_neg hnull, if_neg htrue, if_neg hfalse, if_true]
    exact (comes_readStringFrom ByteArray.empty text rest _).map _

/-- A number comes to what its text is read as, if that is in range. -/
theorem comes_number {text : NumberText} (hs : skipBlank s = text.text ++ rest)
    (hrest : Ends rest) : Comes rest (text.number?.map .number) (readValueWith inner s) := by
  obtain ⟨b, tail, htext, hstarts⟩ := text.exists_cons
  obtain ⟨hnull, htrue, hfalse, hquote, _⟩ := startsNumeral_cases hstarts
  have hcome := (delivers_readNumeral hrest text).comes
  rw [htext, List.cons_append] at hs hcome
  unfold readValueWith
  split
  · next hnil => exact absurd (hs.symm.trans hnil) (List.cons_ne_nil _ _)
  · next hcons =>
    obtain ⟨rfl, rfl⟩ := List.cons.inj (hs.symm.trans hcons)
    simp only [if_neg hnull, if_neg htrue, if_neg hfalse, if_neg hquote, if_pos hstarts]
    generalize readNumeral (b :: (tail ++ rest)) = result at hcome
    generalize text.number? = number? at hcome
    cases hcome with
    | read h => exact .read _
    | refused failure => exact .refused failure

end Values

/-! ## Containers by their parts -/

section Containers

variable {s tail left : Bytes} {v : Value}

/-- Where containers may not stand any deeper, none is read. -/
theorem not_reads_container {b : UInt8} (hb : b = Ascii.openBracket ∨ b = Ascii.openBrace)
    (hs : skipBlank s = b :: tail) : ¬Reads (readValueWith none) s v left := by
  rintro ⟨_, hread⟩
  unfold readValueWith at hread
  split at hread
  · cases hread
  · next hcons =>
    obtain ⟨rfl, rfl⟩ := List.cons.inj (hs.symm.trans hcons)
    rcases hb with rfl | rfl <;> cases hread

/-- A value that begins with a bracket is the list of the items that are read. -/
theorem reads_list_iff {reader : Reader Value} (hs : skipBlank s = Ascii.openBracket :: tail) :
    Reads (readValueWith (some reader)) s v left ↔
      ∃ items, ReadsItems reader true tail items left ∧ .list items = v := by
  constructor
  · rintro ⟨hrest, hread⟩
    unfold readValueWith at hread
    split at hread
    · cases hread
    · next hcons =>
      obtain ⟨rfl, rfl⟩ := List.cons.inj (hs.symm.trans hcons)
      obtain ⟨items, _, hlist, rfl⟩ := Reads.of_map ⟨hrest, hread⟩
      obtain ⟨_, rfl, hitems⟩ := readsItems_of_readItems hlist
      exact ⟨_, hitems, rfl⟩
  · rintro ⟨items, hitems, rfl⟩
    exact reads_list hs hitems

/-- A member of an object of any names. -/
def readEntry (reader : Reader Value) (entries : List (String × Value)) (name : String) :
    Admission (List (String × Value)) :=
  .admitted fun s => (reader s).map (·.map fun v => (name, v) :: entries)

/-- A value that begins with a brace is the object of the members that are read, the last of each
name. -/
theorem reads_object_iff {reader : Reader Value} (hs : skipBlank s = Ascii.openBrace :: tail) :
    Reads (readValueWith (some reader)) s v left ↔
      ∃ entries members, ReadsMembers (readEntry reader) true [] tail members entries left ∧
        .object (lastByName entries.reverse) = v := by
  constructor
  · rintro ⟨hrest, hread⟩
    unfold readValueWith at hread
    split at hread
    · cases hread
    · next hcons =>
      obtain ⟨rfl, rfl⟩ := List.cons.inj (hs.symm.trans hcons)
      obtain ⟨entries, _, hobject, rfl⟩ := Reads.of_map ⟨hrest, hread⟩
      obtain ⟨members, hmembers⟩ := readsMembers_of_readMembers hobject
      exact ⟨entries, members, hmembers, rfl⟩
  · rintro ⟨entries, members, hmembers, rfl⟩
    obtain ⟨hrest, hread⟩ := readMembers_of_readsMembers hmembers (length_lt_of_skipBlank hs)
    refine ⟨hrest, ?_⟩
    unfold readValueWith
    split
    · next hnil => exact absurd (hs.symm.trans hnil) (List.cons_ne_nil _ _)
    · next hcons =>
      obtain ⟨rfl, rfl⟩ := List.cons.inj (hs.symm.trans hcons)
      unfold readEntry at hread
      have hnull : Ascii.openBrace ≠ 0x6e := by decide
      have htrue : Ascii.openBrace ≠ 0x74 := by decide
      have hfalse : Ascii.openBrace ≠ 0x66 := by decide
      have hquote : Ascii.openBrace ≠ Ascii.quote := by decide
      have hnumeral : ¬startsNumeral Ascii.openBrace = true := by decide
      have hbracket : Ascii.openBrace ≠ Ascii.openBracket := by decide
      simp only [if_neg hnull, if_neg htrue, if_neg hfalse, if_neg hquote, if_neg hnumeral,
        if_neg hbracket, if_true, hread]
      rfl

end Containers

/-- The value of a member is put in front of the entries that were read before it. -/
theorem reads_readEntry_iff {reader : Reader Value} {entries next : List (String × Value)}
    {name : String} {admitted : Reader (List (String × Value))} {s left : Bytes}
    (henter : readEntry reader entries name = .admitted admitted) :
    Reads admitted s next left ↔ ∃ v, Reads reader s v left ∧ (name, v) :: entries = next := by
  obtain rfl := Admission.admitted.inj henter
  constructor
  · intro h
    obtain ⟨v, hleft, hread, hnext⟩ := Reads.of_map h
    exact ⟨v, ⟨hleft, hread⟩, hnext⟩
  · rintro ⟨v, ⟨hleft, hread⟩, rfl⟩
    refine ⟨hleft, ?_⟩
    simp only [hread]
    rfl

/-! ## Trees -/

/-- Behind any blanks a reader delivers the value of a text, and nothing if it has none. -/
def Denotes (reader : Reader Value) (text : Bytes) (value? : Option Value) : Prop :=
  ∀ {s rest : Bytes}, skipBlank s = text ++ rest → Ends rest → ∀ {v : Value} {left : Bytes},
    Reads reader s v left ↔ value? = some v ∧ left = rest

/-- The rest of a list is read to its values, and not at all if one has none. -/
def DenotesItems (reader : Reader Value) (first : Bool) (inside : Bytes)
    (values? : Option (List Value)) : Prop :=
  ∀ {rest left : Bytes} {values : List Value},
    ReadsItems reader first (inside ++ rest) values left ↔ values? = some values ∧ left = rest

/-- The rest of an object is read to its names and values, and not at all if there is one without
either. -/
def DenotesMembers (reader : Reader Value) (first : Bool) (inside : Bytes)
    (entries? : Option (List (String × Value))) : Prop :=
  ∀ {rest left : Bytes} {before last : List (String × Value)},
    (∃ texts, ReadsMembers (readEntry reader) first before (inside ++ rest) texts last left) ↔
      ∃ entries, entries? = some entries ∧ entries.reverse ++ before = last ∧ left = rest

section Parts

variable {reader : Reader Value} {first : Bool} {tree : Tree} {text inside : Bytes}

/-- A closing bracket denotes that there are no more items. -/
theorem denotesItems_closed (blanks : Blanks) :
    DenotesItems reader first (blanks.bytes ++ [Ascii.closeBracket]) (some []) := by
  intro rest left values
  have hclosed := skipBlank_closing (b := Ascii.closeBracket) (by decide) blanks rest
  constructor
  · intro h
    cases h with
    | closed hs => exact ⟨rfl, (List.cons.inj (hs.symm.trans hclosed)).2⟩
    | item hnext hopen _ _ => exact absurd hclosed (hnext.not_closed hopen (by decide))
  · rintro ⟨hvalues, rfl⟩
    obtain rfl := Option.some.inj hvalues
    exact .closed hclosed

/-- An item and the others behind it denote the value of the one in front of those of the others. -/
theorem denotesItems_item (first : Bool) {value? : Option Value} {values? : Option (List Value)}
    (htext : Starts text) (hitem : Denotes reader text value?)
    (hothers : DenotesItems reader false inside values?) (hends : ∀ rest, Ends (inside ++ rest))
    (before after : Blanks) :
    DenotesItems reader first (leadBytes first before after ++ (text ++ inside))
      (value?.bind fun value => values?.map (value :: ·)) := by
  obtain ⟨b, tail, rfl, hblank, hclose⟩ := htext
  intro rest left values
  have hnext := nextPart_item hblank first before after tail inside rest
  have hread {x : Value} {middle : Bytes} :
      Reads reader (b :: (tail ++ (inside ++ rest))) x middle ↔
        value? = some x ∧ middle = inside ++ rest :=
    hitem (skipBlank_of_not hblank _) (hends rest)
  constructor
  · intro h
    cases h with
    | closed hs => exact absurd hs (hnext.not_closed hclose (by decide))
    | item hnext' _ hx hxs =>
      obtain ⟨rfl, rfl⟩ := hnext.unique hnext'
      obtain ⟨rfl, rfl⟩ := hread.1 hx
      obtain ⟨rfl, rfl⟩ := hothers.1 hxs
      exact ⟨rfl, rfl⟩
  · rintro ⟨hvalues, rfl⟩
    obtain ⟨x, hx, hvalues⟩ := Option.bind_eq_some_iff.1 hvalues
    obtain ⟨xs, hxs, rfl⟩ := Option.map_eq_some_iff.1 hvalues
    exact .item hnext hclose (hread.2 ⟨hx, rfl⟩) (hothers.2 ⟨hxs, rfl⟩)

/-- A closing brace denotes that there are no more members. -/
theorem denotesMembers_closed (blanks : Blanks) :
    DenotesMembers reader first (blanks.bytes ++ [Ascii.closeBrace]) (some []) := by
  intro rest left before last
  have hclosed := skipBlank_closing (b := Ascii.closeBrace) (by decide) blanks rest
  constructor
  · rintro ⟨texts, h⟩
    cases h with
    | closed hs => exact ⟨[], rfl, rfl, (List.cons.inj (hs.symm.trans hclosed)).2⟩
    | member hnext _ _ _ _ _ =>
      exact absurd hclosed (hnext.not_closed (by decide) (by decide))
  · rintro ⟨entries, hentries, rfl, rfl⟩
    obtain rfl := Option.some.inj hentries
    exact ⟨[], .closed hclosed⟩

/-- A member and the others behind it denote its name and value in front of those of the others. -/
theorem denotesMembers_member (first : Bool) {value? : Option Value}
    {entries? : Option (List (String × Value))} (htext : Starts text)
    (hvalue : Denotes reader text value?) (hothers : DenotesMembers reader false inside entries?)
    (hends : ∀ rest, Ends (inside ++ rest)) (name : StringText)
    (before after middle behind : Blanks) :
    DenotesMembers reader first (leadBytes first before after ++ (name.quoted ++
        (middle.bytes ++ Ascii.colon :: (behind.bytes ++ (text ++ inside)))))
      (name.content?.bind fun name => value?.bind fun value =>
        entries?.map ((name, value) :: ·)) := by
  intro rest left entries last
  obtain ⟨start, value, hnext, hcolon, hstart⟩ :=
    nextPart_member htext first name before after middle behind inside rest
  have hread {x : Value} {left : Bytes} :
      Reads reader value x left ↔ value? = some x ∧ left = inside ++ rest :=
    hvalue hstart (hends rest)
  constructor
  · rintro ⟨texts, h⟩
    cases h with
    | closed hs => exact absurd hs (hnext.not_closed (by decide) (by decide))
    | member hnext' hname hcolon' henter hx hxs =>
      obtain ⟨_, rfl⟩ := hnext.unique hnext'
      obtain ⟨hcontent, rfl⟩ := (reads_stringText name).1 hname
      obtain ⟨_, rfl⟩ := List.cons.inj (hcolon.symm.trans hcolon')
      obtain ⟨x, hvalue, rfl⟩ := (reads_readEntry_iff henter).1 hx
      obtain ⟨rfl, rfl⟩ := hread.1 hvalue
      obtain ⟨added, rfl, rfl, rfl⟩ := hothers.1 ⟨_, hxs⟩
      rw [hcontent]
      exact ⟨_, rfl, by simp, rfl⟩
  · rintro ⟨added, hadded, rfl, rfl⟩
    obtain ⟨key, hkey, hadded⟩ := Option.bind_eq_some_iff.1 hadded
    obtain ⟨x, hx, hadded⟩ := Option.bind_eq_some_iff.1 hadded
    obtain ⟨others, hxs, rfl⟩ := Option.map_eq_some_iff.1 hadded
    have hname : Reads readString (name.bytes ++ Ascii.quote :: start) key start :=
      (reads_stringText name).2 ⟨hkey, rfl⟩
    have hmembers : ∃ texts, ReadsMembers (readEntry reader) false ((key, x) :: entries)
        (inside ++ left) texts (others.reverse ++ (key, x) :: entries) left :=
      hothers.2 ⟨others, hxs, rfl, rfl⟩
    obtain ⟨texts, hmembers⟩ := hmembers
    have hlast :
        ((key, x) :: others).reverse ++ entries = others.reverse ++ (key, x) :: entries := by
      rw [List.reverse_cons, List.append_assoc, List.singleton_append]
    rw [hlast]
    exact ⟨_, .member hnext hname hcolon rfl
      ((reads_readEntry_iff rfl).2 ⟨x, hread.2 ⟨hx, rfl⟩, rfl⟩) hmembers⟩

/-- What a text comes to does not depend on how deep containers may nest. -/
theorem denotes_scalar {value? : Option Value}
    (h : ∀ inner s rest, skipBlank s = text ++ rest → Ends rest →
      Comes rest value? (readValueWith inner s)) (depth : Nat) :
    Denotes (readValue depth) text value? := by
  intro s rest hs hrest v left
  obtain ⟨inner, hinner⟩ := exists_readValueWith depth
  rw [hinner]
  exact (h inner s rest hs hrest).eq_ok_iff

/-- The items of a list denote the list. -/
theorem denotes_list {values? : Option (List Value)}
    (h : DenotesItems reader true inside values?) :
    Denotes (readValueWith (some reader)) (Ascii.openBracket :: inside) (values?.map .list) := by
  intro s rest hs _ v left
  rw [reads_list_iff hs, Option.map_eq_some_iff]
  constructor
  · rintro ⟨values, hread, rfl⟩
    obtain ⟨hvalues, rfl⟩ := h.1 hread
    exact ⟨⟨values, hvalues, rfl⟩, rfl⟩
  · rintro ⟨⟨values, hvalues, rfl⟩, rfl⟩
    exact ⟨values, h.2 ⟨hvalues, rfl⟩, rfl⟩

/-- The members of an object denote the object, in which the last of each name is kept. -/
theorem denotes_object {entries? : Option (List (String × Value))}
    (h : DenotesMembers reader true inside entries?) :
    Denotes (readValueWith (some reader)) (Ascii.openBrace :: inside)
      (entries?.map fun entries => .object (lastByName entries)) := by
  intro s rest hs _ v left
  rw [reads_object_iff hs, Option.map_eq_some_iff]
  constructor
  · rintro ⟨last, texts, hread, rfl⟩
    obtain ⟨entries, hentries, rfl, rfl⟩ := h.1 ⟨texts, hread⟩
    rw [List.append_nil, List.reverse_reverse]
    exact ⟨⟨entries, hentries, rfl⟩, rfl⟩
  · rintro ⟨⟨entries, hentries, rfl⟩, rfl⟩
    obtain ⟨texts, hread⟩ := h.2 ⟨entries, hentries, rfl, rfl⟩
    refine ⟨_, texts, hread, ?_⟩
    rw [List.append_nil, List.reverse_reverse]

/-- Where containers may not stand any deeper, none is read. -/
theorem denotes_tooDeep {b : UInt8} (hb : b = Ascii.openBracket ∨ b = Ascii.openBrace) :
    Denotes (readValueWith none) (b :: inside) none := by
  intro s rest hs _ v left
  constructor
  · exact fun h => absurd h (not_reads_container hb hs)
  · exact fun h => nomatch h.1

end Parts

-- By the tree. A container takes one from the depth, and its parts are read with what is left.
mutual

/-- What is read in front of a text of a tree is the value of the tree, if it has one. -/
theorem denotes_of_writes : (tree : Tree) → {text : Bytes} → Writes tree text → (depth : Nat) →
    Denotes (readValue depth) text (tree.read? depth)
  | .null, _, h, depth => by
    cases h with
    | null =>
      rw [Tree.read?]
      exact denotes_scalar (fun _ _ _ hs _ => comes_null hs) depth
  | .flag true, _, h, depth => by
    cases h with
    | yes =>
      rw [Tree.read?]
      exact denotes_scalar (fun _ _ _ hs _ => comes_true hs) depth
  | .flag false, _, h, depth => by
    cases h with
    | no =>
      rw [Tree.read?]
      exact denotes_scalar (fun _ _ _ hs _ => comes_false hs) depth
  | .number text, _, h, depth => by
    cases h with
    | number =>
      rw [Tree.read?]
      exact denotes_scalar (fun _ _ _ hs hrest => comes_number hs hrest) depth
  | .string text, _, h, depth => by
    cases h with
    | string =>
      rw [Tree.read?]
      exact denotes_scalar (fun _ _ _ hs _ => comes_string hs) depth
  | .list items, _, h, depth => by
    cases h with
    | list hitems =>
      cases depth with
      | zero =>
        rw [readValue, Tree.read?]
        exact denotes_tooDeep (.inl rfl)
      | succ depth =>
        rw [readValue, Tree.read?]
        exact denotes_list (denotesItems_of_writes items hitems depth)
  | .object members, _, h, depth => by
    cases h with
    | object hmembers =>
      cases depth with
      | zero =>
        rw [readValue, Tree.read?]
        exact denotes_tooDeep (.inr rfl)
      | succ depth =>
        rw [readValue, Tree.read?]
        exact denotes_object (denotesMembers_of_writes members hmembers depth)

/-- What is read of a list are the values of its items. -/
theorem denotesItems_of_writes : (items : List Tree) → {first : Bool} → {inside : Bytes} →
    WritesItems first items inside → (depth : Nat) →
      DenotesItems (readValue depth) first inside (readItems? items depth)
  | [], first, inside, h, depth => by
    cases h with
    | closed blanks =>
      rw [readItems?]
      exact denotesItems_closed blanks
  | tree :: items, first, inside, h, depth => by
    cases h with
    | item before after hitem hothers =>
      rw [readItems?]
      exact denotesItems_item first hitem.starts (denotes_of_writes tree hitem depth)
        (denotesItems_of_writes items hothers depth) hothers.ends before after

/-- What is read of an object are the names and values of its members. -/
theorem denotesMembers_of_writes : (members : List (StringText × Tree)) → {first : Bool} →
    {inside : Bytes} → WritesMembers first members inside → (depth : Nat) →
      DenotesMembers (readValue depth) first inside (readMembers? members depth)
  | [], first, inside, h, depth => by
    cases h with
    | closed blanks =>
      rw [readMembers?]
      exact denotesMembers_closed blanks
  | (name, tree) :: members, first, inside, h, depth => by
    cases h with
    | member before after middle behind hvalue hothers =>
      rw [readMembers?]
      exact denotesMembers_member first hvalue.starts (denotes_of_writes tree hvalue depth)
        (denotesMembers_of_writes members hothers depth) hothers.ends name before after middle
        behind

end

end Colloquy
