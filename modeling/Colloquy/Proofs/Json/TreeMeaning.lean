import Colloquy.Proofs.Json.IntegerText
import Colloquy.Proofs.Json.RealText
import Colloquy.Proofs.Json.SyntaxTree
import Colloquy.Proofs.Json.WrittenValue

/-!
# The text of a value

What a syntax tree means is told by its own text (`Tree.Means`): a string the characters that its
escapes and bytes stand for, digits alone an integer, any other number the number of double
precision that none is nearer than, a list its items and an object its members, in their order. The
compact text of every value is written of a tree that means it (`isTextOf_render`).
-/

set_option autoImplicit false

namespace Colloquy.Json

/-! ## What a tree means -/

/-- The number that a text stands for, with its sign. -/
def NumberText.value (t : NumberText) : ℚ :=
  if t.negative then -t.magnitude else t.magnitude

/-- What the text of a number means. -/
inductive NumberText.Means (t : NumberText) : Number → Prop
  /-- Digits alone are those of an integer. -/
  | integer {n : ℤ} (hfraction : t.fraction = none) (hpower : t.power = none)
    (hvalue : t.value = n) : NumberText.Means t (.integer n)
  /-- A fraction or a power makes a number one of double precision: no other is nearer. -/
  | real {x : Binary64} (hreal : t.fraction.isSome ∨ t.power.isSome)
    (hsign : t.negative = x.isNegative)
    (hnearest : ∀ y : Binary64, |t.magnitude - x.value| ≤ |t.magnitude - y.value|) :
    NumberText.Means t (.real x)

mutual

/-- What a tree means. -/
inductive Tree.Means : Tree → Value → Prop
  | null : Tree.Means .null .null
  | flag (b : Bool) : Tree.Means (.flag b) (.bool b)
  | number {text : NumberText} {n : Number} (h : text.Means n) :
    Tree.Means (.number text) (.number n)
  | string {text : StringText} {content : String} (h : text.content? = some content) :
    Tree.Means (.string text) (.text content)
  | list {items : List Tree} {values : List Value} (h : ItemsMean items values) :
    Tree.Means (.list items) (.list values)
  | object {members : List (StringText × Tree)} {entries : List (String × Value)}
    (h : MembersMean members entries) : Tree.Means (.object members) (.object entries)

/-- What the items of a list mean, one by one. -/
inductive ItemsMean : List Tree → List Value → Prop
  | nil : ItemsMean [] []
  | cons {tree : Tree} {value : Value} {items : List Tree} {values : List Value}
    (hitem : Tree.Means tree value) (hothers : ItemsMean items values) :
    ItemsMean (tree :: items) (value :: values)

/-- What the members of an object mean, one by one. -/
inductive MembersMean : List (StringText × Tree) → List (String × Value) → Prop
  | nil : MembersMean [] []
  | cons {name : StringText} {content : String} {tree : Tree} {value : Value}
    {members : List (StringText × Tree)} {entries : List (String × Value)}
    (hname : name.content? = some content) (hvalue : Tree.Means tree value)
    (hothers : MembersMean members entries) :
    MembersMean ((name, tree) :: members) ((content, value) :: entries)

end

/-- A text is a JSON text of a value: it is written of a tree that means the value. -/
def IsTextOf (text : Bytes) (value : Value) : Prop :=
  ∃ tree, Writes tree text ∧ tree.Means value

/-! ## Strings -/

namespace StringText

/-- Plain bytes stand for themselves. -/
theorem collect_plain {bytes : Bytes} (hplain : ∀ b ∈ bytes, IsPlain b) (content : ByteArray)
    (others : StringText) :
    collect content (bytes.pmap StringPart.plain hplain ++ others) =
      collect (bytes.foldl ByteArray.push content) others := by
  induction bytes generalizing content with
  | nil => rfl
  | cons b bytes ih => exact ih (fun b hb => hplain b (List.mem_cons_of_mem _ hb)) (content.push b)

/-- Plain bytes are written as they are. -/
theorem bytes_plain {bytes : Bytes} (hplain : ∀ b ∈ bytes, IsPlain b) :
    StringText.bytes (bytes.pmap StringPart.plain hplain) = bytes := by
  induction bytes with
  | nil => rfl
  | cons b bytes ih =>
    exact congrArg (b :: ·) (ih fun b hb => hplain b (List.mem_cons_of_mem _ hb))

/-- A character is written as parts of a string that stand for it. -/
theorem exists_escapedChar (c : Char) :
    ∃ parts : StringText, parts.bytes = escapedChar c ∧
      ∀ content others, collect content (parts ++ others) =
        collect (pushChar content c) others := by
  cases Escaping.cases c with
  | plain hc hbytes =>
    have hplain := isPlain_of_mem_utf8EncodeChar hc
    exact ⟨_, (bytes_plain hplain).trans hbytes.symm, collect_plain hplain⟩
  | short b hb hshort hbytes => exact ⟨[.short b c hshort], hbytes.symm, fun _ _ => rfl⟩
  | number n hn hc hbytes =>
    subst hc
    refine ⟨[.unit _ _ _ _ n (hexQuad?_control n hn)], hbytes.symm, fun content others => ?_⟩
    have hlow : isLowSurrogate n = false := by
      unfold isLowSurrogate
      rw [decide_eq_false (by omega), Bool.false_and]
    have hhigh : isHighSurrogate n = false := by
      unfold isHighSurrogate
      rw [decide_eq_false (by omega), Bool.false_and]
    rw [List.singleton_append, collect.eq_def]
    simp only [hlow, hhigh, Bool.false_eq_true, if_false]

/-- Characters are written as parts of a string that stand for them. -/
theorem exists_escaped (cs : List Char) :
    ∃ parts : StringText, parts.bytes = escaped cs ∧
      ∀ content, collect content parts =
        some ((cs.flatMap String.utf8EncodeChar).foldl ByteArray.push content) := by
  induction cs with
  | nil => exact ⟨[], rfl, fun _ => rfl⟩
  | cons c cs ih =>
    obtain ⟨first, hfirst, hcollect⟩ := exists_escapedChar c
    obtain ⟨others, hothers, hcollect'⟩ := ih
    refine ⟨first ++ others, ?_, fun content => ?_⟩
    · unfold StringText.bytes escaped at *
      rw [List.flatMap_append, hfirst, hothers, List.flatMap_cons]
    · rw [hcollect, hcollect', List.flatMap_cons, List.foldl_append]
      rfl

/-- A text is written as a string that stands for it. -/
theorem exists_quoted (text : String) :
    ∃ t : StringText, t.quoted = Json.quoted text ∧ t.content? = some text := by
  obtain ⟨t, hbytes, hcollect⟩ := exists_escaped text.toList
  refine ⟨t, ?_, ?_⟩
  · unfold StringText.quoted Json.quoted
    rw [hbytes]
  · unfold StringText.content?
    rw [hcollect, ← Utf8.encode_eq_flatMap, Option.bind_some, fromUTF8?_foldl_push]

end StringText

/-! ## Numbers -/

/-- The text of an integer means it. -/
theorem NumberText.means_ofInt (n : ℤ) : (NumberText.ofInt n).Means (.integer n) := by
  refine .integer rfl rfl ?_
  have hmagnitude : (NumberText.ofInt n).magnitude = n.natAbs := by
    have hdigits : (NumberText.ofInt n).magnitude =
        (decimalValue (decimal n.natAbs ++ []) : ℚ) * 10 ^ (-((0 : ℕ) : ℤ)) := rfl
    rw [hdigits, List.append_nil, decimalValue_decimal]
    norm_num
  have hnegative : (NumberText.ofInt n).negative = decide (n < 0) := rfl
  unfold NumberText.value
  rw [hmagnitude, hnegative, Nat.cast_natAbs]
  by_cases hn : n < 0
  · rw [decide_eq_true hn, if_pos rfl, abs_of_neg hn]
    push_cast
    ring
  · rw [decide_eq_false hn, if_neg Bool.false_ne_true, abs_of_nonneg (Int.not_lt.1 hn)]

/-- A number is written with a text that means it. -/
theorem exists_numberText (n : Number) :
    ∃ t : NumberText, t.text = Utf8.encode n.text ∧ t.Means n := by
  cases n with
  | integer n => exact ⟨.ofInt n, NumberText.text_ofInt n, NumberText.means_ofInt n⟩
  | real x =>
    obtain ⟨t, htext, hstands⟩ := exists_realText x
    refine ⟨t, htext, .real hstands.not_integer hstands.negative fun y => ?_⟩
    rw [hstands.magnitude]
    exact x.shortest_nearest y

/-! ## Values -/

mutual

/-- The bytes of a value are written of a tree that means it. -/
theorem isTextOf_bytes : (value : Value) → IsTextOf value.bytes value
  | .null => ⟨.null, .null, .null⟩
  | .bool true => ⟨.flag true, .yes, .flag true⟩
  | .bool false => ⟨.flag false, .no, .flag false⟩
  | .number n => by
    obtain ⟨t, htext, hmeans⟩ := exists_numberText n
    have hbytes : (Value.number n).bytes = t.text := htext.symm
    rw [hbytes]
    exact ⟨.number t, .number t, .number hmeans⟩
  | .text text => by
    obtain ⟨t, hquoted, hcontent⟩ := StringText.exists_quoted text
    have hbytes : (Value.text text).bytes = t.quoted := hquoted.symm
    rw [hbytes]
    exact ⟨.string t, .string t, .string hcontent⟩
  | .list items => by
    obtain ⟨trees, hwrites, hmean⟩ := exists_items true items
    exact ⟨.list trees, .list hwrites, .list hmean⟩
  | .object entries => by
    obtain ⟨members, hwrites, hmean⟩ := exists_members true entries
    exact ⟨.object members, .object hwrites, .object hmean⟩

/-- The rest of a list is written of trees that mean its items. -/
theorem exists_items (first : Bool) : (items : List Value) →
    ∃ trees, WritesItems first trees (separated first (itemBytes items) ++ [Ascii.closeBracket]) ∧
      ItemsMean trees items
  | [] => ⟨[], .closed .none, .nil⟩
  | item :: items => by
    obtain ⟨tree, hitem, hmeans⟩ := isTextOf_bytes item
    obtain ⟨trees, hothers, hmean⟩ := exists_items false items
    refine ⟨tree :: trees, ?_, .cons hmeans hmean⟩
    have hwrites : WritesItems first (tree :: trees) _ := .item .none .none hitem hothers
    simpa [leadBytes, Blanks.none, itemBytes, separated] using hwrites

/-- The rest of an object is written of trees that mean its members. -/
theorem exists_members (first : Bool) : (entries : List (String × Value)) →
    ∃ members, WritesMembers first members
        (separated first (allMemberBytes entries) ++ [Ascii.closeBrace]) ∧
      MembersMean members entries
  | [] => ⟨[], .closed .none, .nil⟩
  | (name, value) :: entries => by
    obtain ⟨t, hquoted, hcontent⟩ := StringText.exists_quoted name
    obtain ⟨tree, hvalue, hmeans⟩ := isTextOf_bytes value
    obtain ⟨members, hothers, hmean⟩ := exists_members false entries
    refine ⟨(t, tree) :: members, ?_, .cons hcontent hmeans hmean⟩
    have hwrites : WritesMembers first ((t, tree) :: members) _ :=
      .member .none .none .none .none hvalue hothers
    simpa [leadBytes, Blanks.none, allMemberBytes, separated, memberBytes, hquoted] using hwrites

end

/-- The compact text of a value is a JSON text of it. -/
theorem isTextOf_render (value : Value) : IsTextOf (Utf8.encode value.render) value := by
  rw [encode_render]
  exact isTextOf_bytes value

end Colloquy.Json
