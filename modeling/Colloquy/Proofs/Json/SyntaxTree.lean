import Colloquy.Proofs.Json.NumberText
import Colloquy.Proofs.Json.StringParts

/-!
# Syntax trees

A JSON text without its blanks is a tree (`Tree`), and `Writes` is the grammar: it says which texts
are written of a tree, with any blanks between the tokens. `Tree.read?` is the value of a tree in
which containers nest to a limited depth. It has none where a number is out of range or a string has
no content, and of the members of one name it keeps the last. Every tree is written
(`writes_bytes`).
-/

set_option autoImplicit false

namespace Colloquy

open Json

namespace Json

/-- A JSON text without its blanks. -/
inductive Tree
  | null
  | flag (value : Bool)
  | number (text : NumberText)
  | string (text : StringText)
  | list (items : List Tree)
  | object (members : List (StringText × Tree))

/-- The blanks in front of a part of a container; those of any part but the first are around a
comma. -/
def leadBytes (first : Bool) (before after : Blanks) : Bytes :=
  (if first then [] else before.bytes ++ [Ascii.comma]) ++ after.bytes

mutual

/-- A text is written of a tree, from its first byte to its last. -/
inductive Writes : Tree → Bytes → Prop
  | null : Writes .null (0x6e :: nullTail)
  | yes : Writes (.flag true) (0x74 :: trueTail)
  | no : Writes (.flag false) (0x66 :: falseTail)
  | number (text : NumberText) : Writes (.number text) text.text
  | string (text : StringText) : Writes (.string text) text.quoted
  | list {items : List Tree} {inside : Bytes} (h : WritesItems true items inside) :
    Writes (.list items) (Ascii.openBracket :: inside)
  | object {members : List (StringText × Tree)} {inside : Bytes}
    (h : WritesMembers true members inside) : Writes (.object members) (Ascii.openBrace :: inside)

/-- The rest of a list is written of its items. -/
inductive WritesItems : Bool → List Tree → Bytes → Prop
  | closed {first : Bool} (blanks : Blanks) :
    WritesItems first [] (blanks.bytes ++ [Ascii.closeBracket])
  | item {first : Bool} {tree : Tree} {items : List Tree} {text inside : Bytes}
    (before after : Blanks) (hitem : Writes tree text) (hothers : WritesItems false items inside) :
    WritesItems first (tree :: items) (leadBytes first before after ++ (text ++ inside))

/-- The rest of an object is written of its members. -/
inductive WritesMembers : Bool → List (StringText × Tree) → Bytes → Prop
  | closed {first : Bool} (blanks : Blanks) :
    WritesMembers first [] (blanks.bytes ++ [Ascii.closeBrace])
  | member {first : Bool} {name : StringText} {tree : Tree} {members : List (StringText × Tree)}
    {text inside : Bytes} (before after middle behind : Blanks) (hvalue : Writes tree text)
    (hothers : WritesMembers false members inside) :
    WritesMembers first ((name, tree) :: members)
      (leadBytes first before after ++ (name.quoted ++ (middle.bytes ++ Ascii.colon ::
        (behind.bytes ++ (text ++ inside)))))

end

mutual

/-- The value of a tree in which at most `depth` containers stand inside one another. -/
def Tree.read? : Tree → (depth : Nat) → Option Value
  | .null, _ => some .null
  | .flag value, _ => some (.bool value)
  | .number text, _ => text.number?.map .number
  | .string text, _ => text.content?.map .text
  | .list _, 0 => none
  | .list items, depth + 1 => (readItems? items depth).map .list
  | .object _, 0 => none
  | .object members, depth + 1 =>
    (readMembers? members depth).map fun entries => .object (lastByName entries)

/-- The values of trees. -/
def readItems? : List Tree → (depth : Nat) → Option (List Value)
  | [], _ => some []
  | tree :: items, depth =>
    (tree.read? depth).bind fun value => (readItems? items depth).map (value :: ·)

/-- The names and values of members. -/
def readMembers? : List (StringText × Tree) → (depth : Nat) → Option (List (String × Value))
  | [], _ => some []
  | (name, tree) :: members, depth =>
    name.content?.bind fun name => (tree.read? depth).bind fun value =>
      (readMembers? members depth).map ((name, value) :: ·)

end

mutual

/-- A tree as it is written with the same blanks at every place where there may be any. -/
def Tree.bytes (gap : Blanks) : Tree → Bytes
  | .null => 0x6e :: nullTail
  | .flag true => 0x74 :: trueTail
  | .flag false => 0x66 :: falseTail
  | .number text => text.text
  | .string text => text.quoted
  | .list items => Ascii.openBracket :: Tree.itemsBytes gap true items
  | .object members => Ascii.openBrace :: Tree.membersBytes gap true members

/-- The rest of a list as it is written. -/
def Tree.itemsBytes (gap : Blanks) (first : Bool) : List Tree → Bytes
  | [] => gap.bytes ++ [Ascii.closeBracket]
  | tree :: items =>
    leadBytes first gap gap ++ (tree.bytes gap ++ Tree.itemsBytes gap false items)

/-- The rest of an object as it is written. -/
def Tree.membersBytes (gap : Blanks) (first : Bool) : List (StringText × Tree) → Bytes
  | [] => gap.bytes ++ [Ascii.closeBrace]
  | (name, tree) :: members =>
    leadBytes first gap gap ++ (name.quoted ++ (gap.bytes ++ Ascii.colon ::
      (gap.bytes ++ (tree.bytes gap ++ Tree.membersBytes gap false members))))

end

mutual

/-- Any tree is written, with any blanks. -/
theorem writes_bytes (gap : Blanks) : (tree : Tree) → Writes tree (tree.bytes gap)
  | .null => .null
  | .flag true => .yes
  | .flag false => .no
  | .number text => .number text
  | .string text => .string text
  | .list items => .list (writesItems_bytes gap true items)
  | .object members => .object (writesMembers_bytes gap true members)

/-- The rest of any list is written, with any blanks. -/
theorem writesItems_bytes (gap : Blanks) (first : Bool) :
    (items : List Tree) → WritesItems first items (Tree.itemsBytes gap first items)
  | [] => .closed gap
  | tree :: items => .item gap gap (writes_bytes gap tree) (writesItems_bytes gap false items)

/-- The rest of any object is written, with any blanks. -/
theorem writesMembers_bytes (gap : Blanks) (first : Bool) :
    (members : List (StringText × Tree)) →
      WritesMembers first members (Tree.membersBytes gap first members)
  | [] => .closed gap
  | (_, tree) :: members =>
    .member gap gap gap gap (writes_bytes gap tree) (writesMembers_bytes gap false members)

end

end Json

/-! ## What a text of a tree begins with -/

/-- A byte that is no part of a number ends one. -/
theorem ends_cons {b : UInt8} (hdigit : Ascii.isDigit b = false) (hpoint : b ≠ Ascii.point)
    (hmark : isExponentMark b = false) (rest : Bytes) : Ends (b :: rest) := by
  intro c hc
  obtain rfl : b = c := Option.some.inj hc
  exact ⟨hdigit, hpoint, hmark⟩

/-- A part of a container is next behind its blanks. -/
theorem nextPart_leadBytes {b : UInt8} (hb : isBlank b = false) (first : Bool)
    (before after : Blanks) (tail : Bytes) :
    NextPart first (leadBytes first before after ++ b :: tail) b tail := by
  cases first with
  | true => exact .first ((after.skip _).trans (skipBlank_of_not hb tail))
  | false =>
    have hcomma : skipBlank (leadBytes false before after ++ b :: tail) =
        Ascii.comma :: (after.bytes ++ b :: tail) := by
      simp only [leadBytes, Bool.false_eq_true, if_false, List.append_assoc, List.singleton_append]
      exact (before.skip _).trans (skipBlank_of_not (by decide) _)
    exact .other hcomma ((after.skip _).trans (skipBlank_of_not hb tail))

/-- Where an item stands. -/
theorem nextPart_item {b : UInt8} (hb : isBlank b = false) (first : Bool) (before after : Blanks)
    (tail inside rest : Bytes) :
    NextPart first (leadBytes first before after ++ (b :: tail ++ inside) ++ rest) b
      (tail ++ (inside ++ rest)) := by
  have hpart := nextPart_leadBytes hb first before after (tail ++ (inside ++ rest))
  simpa only [List.append_assoc, List.cons_append] using hpart

/-- Where a member stands: its name is next, behind that its colon, and then its value. -/
theorem nextPart_member {text : Bytes} (htext : Starts text) (first : Bool) (name : StringText)
    (before after middle behind : Blanks) (inside rest : Bytes) :
    ∃ start value, NextPart first (leadBytes first before after ++ (name.quoted ++
        (middle.bytes ++ Ascii.colon :: (behind.bytes ++ (text ++ inside)))) ++ rest)
        Ascii.quote (name.bytes ++ Ascii.quote :: start) ∧
      skipBlank start = Ascii.colon :: value ∧ skipBlank value = text ++ (inside ++ rest) := by
  obtain ⟨b, tail, rfl, hblank, _⟩ := htext
  refine ⟨middle.bytes ++ Ascii.colon :: (behind.bytes ++ (b :: tail ++ (inside ++ rest))),
    behind.bytes ++ (b :: tail ++ (inside ++ rest)), ?_, ?_, ?_⟩
  · have hquote : isBlank Ascii.quote = false := by decide
    have hpart := nextPart_leadBytes hquote first before after
      (name.bytes ++ Ascii.quote :: (middle.bytes ++ Ascii.colon ::
        (behind.bytes ++ (b :: tail ++ (inside ++ rest)))))
    simpa only [StringText.quoted, List.append_assoc, List.cons_append, List.nil_append]
      using hpart
  · exact (middle.skip _).trans (skipBlank_of_not (by decide) _)
  · exact (behind.skip _).trans (skipBlank_of_not hblank _)

/-- A bracket that closes stands behind the last blanks. -/
theorem skipBlank_closing {b : UInt8} (hb : isBlank b = false) (blanks : Blanks) (rest : Bytes) :
    skipBlank (blanks.bytes ++ [b] ++ rest) = b :: rest := by
  rw [List.append_assoc]
  exact (blanks.skip _).trans (skipBlank_of_not hb rest)

/-- What is behind a part ends it. -/
theorem ends_leadBytes (before after : Blanks) (rest : Bytes) :
    Ends (leadBytes false before after ++ rest) := by
  simp only [leadBytes, Bool.false_eq_true, if_false, List.append_assoc, List.singleton_append]
  exact before.ends (ends_cons (by decide) (by decide) (by decide) _)

/-- A text of a tree begins with no blank and no bracket that closes. -/
theorem Json.Writes.starts {tree : Tree} {text : Bytes} (h : Writes tree text) : Starts text := by
  cases h with
  | null => exact ⟨_, _, rfl, by decide, by decide⟩
  | yes => exact ⟨_, _, rfl, by decide, by decide⟩
  | no => exact ⟨_, _, rfl, by decide, by decide⟩
  | number text =>
    obtain ⟨b, tail, htext, hb⟩ := text.exists_cons
    obtain ⟨hblank, hclose, _⟩ := not_blank_of_startsNumeral hb
    exact ⟨b, tail, htext, hblank, hclose⟩
  | string text => exact ⟨_, _, rfl, by decide, by decide⟩
  | list h => exact ⟨_, _, rfl, by decide, by decide⟩
  | object h => exact ⟨_, _, rfl, by decide, by decide⟩

/-- What follows an item ends it. -/
theorem Json.WritesItems.ends {items : List Tree} {inside : Bytes}
    (h : WritesItems false items inside) (rest : Bytes) : Ends (inside ++ rest) := by
  cases h with
  | closed blanks =>
    rw [List.append_assoc]
    exact blanks.ends (ends_cons (by decide) (by decide) (by decide) rest)
  | item before after hitem hothers =>
    rw [List.append_assoc]
    exact ends_leadBytes before after _

/-- What follows the value of a member ends it. -/
theorem Json.WritesMembers.ends {members : List (StringText × Tree)} {inside : Bytes}
    (h : WritesMembers false members inside) (rest : Bytes) : Ends (inside ++ rest) := by
  cases h with
  | closed blanks =>
    rw [List.append_assoc]
    exact blanks.ends (ends_cons (by decide) (by decide) (by decide) rest)
  | member before after middle behind hvalue hothers =>
    rw [List.append_assoc]
    exact ends_leadBytes before after _

end Colloquy
