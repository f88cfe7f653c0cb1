import Colloquy.Proofs.Json.PlainText
import Colloquy.Settings.Environment
import Mathlib.Data.List.TakeWhile

/-!
# The texts of values

How a value is written in an environment variable (`Environment.Spells`): a truth value, a quoted
text or letter, a list or a group, each with blanks around it, or a plain text, which is a number if
it is written as one (`Environment.ofPlain_eq_text_iff`). What stands between quotation marks is
read as what it is written for, whatever follows it (`Environment.IsQuoted.readQuoted_eq`), and
nothing else is read (`Environment.isQuoted_of_readQuoted`).
-/

set_option autoImplicit false

namespace Colloquy

namespace Utf8

/-- Bytes that are decoded are those of the text. -/
theorem encode_of_decode? {bytes : Bytes} {text : String} (h : decode? bytes = some text) :
    encode text = bytes := by
  unfold decode? String.fromUTF8? at h
  split at h
  · obtain rfl := Option.some.inj h
    rfl
  · cases h

/-- Every character takes a byte at least. -/
theorem length_le_length_encode (text : String) : text.toList.length ≤ (encode text).length := by
  rw [encode_eq_flatMap]
  induction text.toList with
  | nil => exact Nat.le_refl _
  | cons c chars ih =>
    have hc : 0 < (String.utf8EncodeChar c).length := by
      rw [String.length_utf8EncodeChar]
      exact c.utf8Size_pos
    rw [List.flatMap_cons, List.length_append, List.length_cons]
    omega

end Utf8

namespace Environment

/-! ## How values are written -/

/-- Blanks, as they may stand around a value. -/
def AreBlanks (text : List Char) : Prop :=
  ∀ c ∈ text, Blank.isAsciiBlank c = true

/-- A text of one or more digits. -/
structure AreDigits (text : List Char) : Prop where
  ne_nil : text ≠ []
  isDigit : ∀ c ∈ text, c.isDigit = true

/-- A text is an integer of sixty-four bits. -/
inductive IsInteger : (text : List Char) → Prop
  | bare {digits : List Char} (h : AreDigits digits) (hrange : digitsValue digits < Nat.pow 2 64) :
    IsInteger digits
  | plus {digits : List Char} (h : AreDigits digits) (hrange : digitsValue digits < Nat.pow 2 64) :
    IsInteger ('+' :: digits)
  | minus {digits : List Char} (h : AreDigits digits) (hrange : digitsValue digits ≤ Nat.pow 2 63) :
    IsInteger ('-' :: digits)

/-- A sign, or none. -/
def IsSign (text : List Char) : Prop :=
  text = [] ∨ text = ['+'] ∨ text = ['-']

/-- A power of ten, or none. -/
inductive IsPower : (text : List Char) → Prop
  | none : IsPower []
  | mark {mark : Char} {sign digits : List Char} (hmark : mark = 'e' ∨ mark = 'E')
    (hsign : IsSign sign) (hdigits : AreDigits digits) : IsPower (mark :: (sign ++ digits))

/-- A text is a number with a point: digits on one of its sides at least, perhaps a sign in front
and a power of ten behind. -/
def IsReal (text : List Char) : Prop :=
  ∃ sign whole fraction power, IsSign sign ∧ (∀ c ∈ whole, c.isDigit = true) ∧
    (∀ c ∈ fraction, c.isDigit = true) ∧ ¬(whole = [] ∧ fraction = []) ∧ IsPower power ∧
    text = sign ++ (whole ++ '.' :: (fraction ++ power))

/-- What in front of a text says that it is not a plain one. -/
def marks : List (List Char) :=
  ["true".toList, "false".toList, ['"'], ['\'']]

/-- A text without commas, brackets and braces that is not quoted and does not begin with the name
of a truth value. -/
structure IsPlainText (text : List Char) : Prop where
  all_plain : ∀ c ∈ text, isPlain c = true
  not_mark : ∀ mark ∈ marks, ¬mark <+: skipBlank text

/-- A character that stands in a quoted text for itself. -/
structure IsQuotedChar (c : Char) : Prop where
  isQuotable : isQuotable c = true
  ne_quote : c ≠ '"'
  ne_backslash : c ≠ '\\'

/-- What stands behind a backslash for a character. -/
def IsEscape (text : List Char) (c : Char) : Prop :=
  ∀ rest, escaped? (text ++ rest) = some (c, rest)

/-- The characters and escapes of a quoted text. -/
inductive AreQuoted : (body text : List Char) → Prop
  | nil : AreQuoted [] []
  | char {c : Char} {body text : List Char} (hc : IsQuotedChar c) (h : AreQuoted body text) :
    AreQuoted (c :: body) (c :: text)
  | escape {front body text : List Char} {c : Char} (hfront : IsEscape front c)
    (h : AreQuoted body text) : AreQuoted ('\\' :: (front ++ body)) (c :: text)

/-- What stands between quotation marks for a text. In front of the first escape only so many bytes
count as there are characters. -/
inductive IsQuoted : (body text : List Char) → Prop
  | plain {body : List Char} (h : ∀ c ∈ body, IsQuotedChar c) : IsQuoted body body
  | escaped {front kept rest text : List Char} (hfront : ∀ c ∈ front, IsQuotedChar c)
    (hkept : keptInFront? front = some kept) (hrest : AreQuoted ('\\' :: rest) text) :
    IsQuoted (front ++ '\\' :: rest) (kept ++ text)

/-- What stands in front of the equals sign of a member for its name. -/
inductive IsName : (text : List Char) → (name : String) → Prop
  | bare {front name back : List Char} (hfront : AreBlanks front) (hback : AreBlanks back)
    (hne : name ≠ []) (hname : ∀ c ∈ name, isNameChar c = true) :
    IsName (front ++ (name ++ back)) (String.ofList name)
  | quoted {front body name back : List Char} (hfront : AreBlanks front) (hback : AreBlanks back)
    (hbody : IsQuoted body name) :
    IsName (front ++ '"' :: (body ++ '"' :: back)) (String.ofList name)

/-- The name of a truth value. -/
def flagName (flag : Bool) : List Char :=
  if flag then "true".toList else "false".toList

mutual

/-- A text is written for a value. -/
inductive Spells : (text : List Char) → (value : Datum) → Prop
  | flag {front back : List Char} (flag : Bool) (hfront : AreBlanks front)
    (hback : AreBlanks back) : Spells (front ++ (flagName flag ++ back)) (.flag flag)
  | group {front body back : List Char} {members : List (String × Datum)}
    (hfront : AreBlanks front) (hback : AreBlanks back) (hbody : SpellsMembers body members) :
    Spells (front ++ '\x7b' :: (body ++ '\x7d' :: back)) (.ofMembers members)
  | list {front body back : List Char} {items : List Datum}
    (hfront : AreBlanks front) (hback : AreBlanks back) (hbody : SpellsItems body items) :
    Spells (front ++ '[' :: (body ++ ']' :: back)) (.list items)
  | quoted {front body text back : List Char} (hfront : AreBlanks front) (hback : AreBlanks back)
    (hbody : IsQuoted body text) :
    Spells (front ++ '"' :: (body ++ '"' :: back)) (.text (String.ofList text))
  | letter {front back : List Char} (c : Char) (hfront : AreBlanks front)
    (hback : AreBlanks back) :
    Spells (front ++ '\'' :: c :: '\'' :: back) (.text (String.ofList [c]))
  | plain {text : List Char} (h : IsPlainText text) : Spells text (ofPlain (Blank.trim text))

/-- What stands between brackets for some items. Behind the last comma there need not be one. -/
inductive SpellsItems : (body : List Char) → (items : List Datum) → Prop
  | nil : SpellsItems [] []
  | last {text : List Char} {item : Datum} (hne : text ≠ []) (h : Spells text item) :
    SpellsItems text [item]
  | cons {text body : List Char} {item : Datum} {items : List Datum} (h : Spells text item)
    (hbody : SpellsItems body items) : SpellsItems (text ++ ',' :: body) (item :: items)

/-- What stands between braces for some members. -/
inductive SpellsMembers : (body : List Char) → (members : List (String × Datum)) → Prop
  | nil : SpellsMembers [] []
  | last {front text : List Char} {name : String} {value : Datum} (hname : IsName front name)
    (h : Spells text value) : SpellsMembers (front ++ '=' :: text) [(name, value)]
  | cons {front text body : List Char} {name : String} {value : Datum}
    {members : List (String × Datum)} (hname : IsName front name) (h : Spells text value)
    (hbody : SpellsMembers body members) :
    SpellsMembers (front ++ '=' :: (text ++ ',' :: body)) ((name, value) :: members)

end

/-! ## Runs of characters -/

/-- The run of some characters in front of a text that goes on with another one. -/
theorem takeWhile_run {p : Char → Bool} {run rest : List Char} (hrun : ∀ c ∈ run, p c = true)
    (hrest : ∀ c ∈ rest.head?, p c = false) :
    (run ++ rest).takeWhile p = run ∧ (run ++ rest).dropWhile p = rest := by
  rw [List.takeWhile_append_of_pos hrun, List.dropWhile_append_of_pos hrun]
  cases rest with
  | nil => exact ⟨List.append_nil _, rfl⟩
  | cons c rest =>
    have hc := hrest c rfl
    rw [List.takeWhile_cons_of_neg (by simp [hc]), List.dropWhile_cons_of_neg (by simp [hc])]
    exact ⟨List.append_nil _, rfl⟩

/-- What follows a run does not go on with it. -/
theorem head?_dropWhile {p : Char → Bool} (text : List Char) :
    ∀ c ∈ (text.dropWhile p).head?, p c = false := by
  intro c hc
  have h := List.head?_dropWhile_not p text
  rw [Option.mem_def.1 hc] at h
  simpa using h

/-! ## Numbers -/

/-- Some characters are digits exactly if there is one at least and each is one. -/
theorem areDigits_iff {digits : List Char} :
    AreDigits digits ↔ (digits.isEmpty || !digits.all Char.isDigit) = false := by
  rw [Bool.or_eq_false_iff, List.isEmpty_eq_false_iff, Bool.not_eq_false', List.all_eq_true]
  exact ⟨fun h => ⟨h.ne_nil, h.isDigit⟩, fun h => ⟨h.1, h.2⟩⟩

/-- A natural number is read exactly from digits, as their value. -/
theorem natural?_eq_some_iff {digits : List Char} {n : Nat} :
    natural? digits = some n ↔ AreDigits digits ∧ digitsValue digits = n := by
  unfold natural?
  rw [areDigits_iff]
  cases digits.isEmpty || !digits.all Char.isDigit with
  | true => simp
  | false => simp

/-- Digits have a value if their number is in range. -/
theorem natural?_bind_eq_some_iff {digits : List Char} {p : Nat → Prop} [DecidablePred p]
    {value : Nat → Datum} {d : Datum} :
    ((natural? digits).bind fun n => if p n then some (value n) else none) = some d ↔
      AreDigits digits ∧ p (digitsValue digits) ∧ value (digitsValue digits) = d := by
  constructor
  · intro h
    obtain ⟨n, hn, hd⟩ := Option.bind_eq_some_iff.1 h
    obtain ⟨hdigits, rfl⟩ := natural?_eq_some_iff.1 hn
    split at hd
    · next hrange => exact ⟨hdigits, hrange, Option.some.inj hd⟩
    · cases hd
  · rintro ⟨hdigits, hrange, rfl⟩
    rw [natural?_eq_some_iff.2 ⟨hdigits, rfl⟩, Option.bind_some, if_pos hrange]

/-- What is taken for an integer is one, and no text. -/
theorem isInteger_of_integer? {text : List Char} {d : Datum} (h : integer? text = some d) :
    IsInteger text ∧ ∀ t, d ≠ .text t := by
  unfold integer? at h
  split at h
  · obtain ⟨hdigits, hrange, rfl⟩ := natural?_bind_eq_some_iff.1 h
    exact ⟨.minus hdigits hrange, nofun⟩
  · obtain ⟨hdigits, hrange, rfl⟩ := natural?_bind_eq_some_iff.1 h
    exact ⟨.plus hdigits hrange, nofun⟩
  · obtain ⟨hdigits, hrange, rfl⟩ := natural?_bind_eq_some_iff.1 h
    exact ⟨.bare hdigits hrange, nofun⟩

/-- The text of an integer is read as data. -/
theorem IsInteger.exists_integer? {text : List Char} (h : IsInteger text) :
    ∃ d, integer? text = some d := by
  cases h with
  | plus hdigits hrange => exact ⟨_, natural?_bind_eq_some_iff.2 ⟨hdigits, hrange, rfl⟩⟩
  | minus hdigits hrange => exact ⟨_, natural?_bind_eq_some_iff.2 ⟨hdigits, hrange, rfl⟩⟩
  | bare hdigits hrange =>
    unfold integer?
    split
    · exact absurd (hdigits.isDigit '-' List.mem_cons_self) (by decide)
    · exact absurd (hdigits.isDigit '+' List.mem_cons_self) (by decide)
    · exact ⟨_, natural?_bind_eq_some_iff.2 ⟨hdigits, hrange, rfl⟩⟩

/-- A power is read exactly from the text of one. -/
theorem isSome_powerOf?_iff {text : List Char} :
    (Binary64.powerOf? text).isSome = true ↔ IsPower text := by
  constructor
  · intro h
    unfold Binary64.powerOf? at h
    split at h
    · exact .none
    · next mark rest =>
      split at h
      · next hmark =>
        rw [Bool.or_eq_true, decide_eq_true_eq, decide_eq_true_eq] at hmark
        split at h
        next negative digits hpair =>
        have hdigits : AreDigits digits := areDigits_iff.2 (by_contra fun hno => by
          rw [Bool.not_eq_false] at hno
          simp only [hno, if_true, Option.isSome_none, Bool.false_eq_true] at h)
        -- what the digits are depends on the sign in front of them
        split at hpair
        · obtain ⟨-, rfl⟩ := Prod.mk.inj hpair
          exact .mark hmark (Or.inr (Or.inr rfl)) hdigits
        · obtain ⟨-, rfl⟩ := Prod.mk.inj hpair
          exact .mark hmark (Or.inr (Or.inl rfl)) hdigits
        · obtain ⟨-, rfl⟩ := Prod.mk.inj hpair
          exact .mark hmark (Or.inl rfl) hdigits
      · cases h
  · intro h
    cases h with
    | none => rfl
    | @mark mark sign digits hmark hsign hdigits =>
      have hcond : (decide (mark = 'e') || decide (mark = 'E')) = true := by
        rw [Bool.or_eq_true, decide_eq_true_eq, decide_eq_true_eq]
        exact hmark
      have hshape := areDigits_iff.1 hdigits
      unfold Binary64.powerOf?
      simp only [hcond, if_true]
      rcases hsign with rfl | rfl | rfl
      · rw [List.nil_append]
        split
        · next digits => exact absurd (hdigits.isDigit '-' List.mem_cons_self) (by decide)
        · next digits => exact absurd (hdigits.isDigit '+' List.mem_cons_self) (by decide)
        · simp [hshape]
      · simp [hshape]
      · simp [hshape]

/-- A power does not begin with a digit. -/
theorem IsPower.head?_isDigit {power : List Char} (h : IsPower power) :
    ∀ c ∈ power.head?, c.isDigit = false := by
  cases h with
  | none => exact nofun
  | mark hmark _ _ =>
    rintro c ⟨⟩
    rcases hmark with rfl | rfl
    · rfl
    · rfl

/-- There is no point in a power. -/
theorem IsPower.point_notMem {power : List Char} (h : IsPower power) : '.' ∉ power := by
  cases h with
  | none => exact List.not_mem_nil
  | @mark mark sign digits hmark hsign hdigits =>
    intro hmem
    rcases List.mem_cons.1 hmem with hpoint | hmem
    · rcases hmark with rfl | rfl
      · exact absurd hpoint (by decide)
      · exact absurd hpoint (by decide)
    · rcases List.mem_append.1 hmem with hmem | hmem
      · rcases hsign with rfl | rfl | rfl
        · exact absurd hmem List.not_mem_nil
        · exact absurd hmem (by decide)
        · exact absurd hmem (by decide)
      · exact absurd (hdigits.isDigit _ hmem) (by decide)

/-- A text is a number with a point and without a sign. -/
def IsUnsignedReal (text : List Char) : Prop :=
  ∃ whole fraction power, (∀ c ∈ whole, c.isDigit = true) ∧ (∀ c ∈ fraction, c.isDigit = true) ∧
    ¬(whole = [] ∧ fraction = []) ∧ IsPower power ∧ text = whole ++ '.' :: (fraction ++ power)

/-- A real number is one without sign behind a sign or none. -/
theorem isReal_iff {text : List Char} :
    IsReal text ↔ ∃ sign unsigned, IsSign sign ∧ IsUnsignedReal unsigned ∧
      text = sign ++ unsigned := by
  constructor
  · rintro ⟨sign, whole, fraction, power, hsign, hwhole, hfraction, hne, hpower, rfl⟩
    exact ⟨sign, _, hsign, ⟨whole, fraction, power, hwhole, hfraction, hne, hpower, rfl⟩, rfl⟩
  · rintro ⟨sign, _, hsign, ⟨whole, fraction, power, hwhole, hfraction, hne, hpower, rfl⟩, rfl⟩
    exact ⟨sign, whole, fraction, power, hsign, hwhole, hfraction, hne, hpower, rfl⟩

/-- There is a point in the text of a real number without sign. -/
theorem IsUnsignedReal.point_mem {text : List Char} (h : IsUnsignedReal text) : '.' ∈ text := by
  obtain ⟨whole, fraction, power, _, _, _, _, rfl⟩ := h
  exact List.mem_append_right _ List.mem_cons_self

/-- The first character is a digit or the point, so it is no sign. -/
theorem IsUnsignedReal.ne_sign {c : Char} {rest : List Char} (h : IsUnsignedReal (c :: rest)) :
    c ≠ '-' ∧ c ≠ '+' := by
  obtain ⟨whole, fraction, power, hwhole, _, _, _, heq⟩ := h
  cases whole with
  | nil =>
    obtain rfl := (List.cons.inj heq).1
    decide
  | cons d whole =>
    obtain rfl := (List.cons.inj heq).1
    have hdigit := hwhole c List.mem_cons_self
    constructor
    · rintro rfl
      exact absurd hdigit (by decide)
    · rintro rfl
      exact absurd hdigit (by decide)

/-- A text with a point is read as a number without sign exactly if it is the text of one. -/
theorem isSome_ofUnsigned?_iff {text : List Char} (hpoint : '.' ∈ text) :
    (Binary64.ofUnsigned? text).isSome = true ↔ IsUnsignedReal text := by
  constructor
  · intro h
    unfold Binary64.ofUnsigned? at h
    dsimp only at h
    split at h
    · next rest hrest =>
      split at h
      · cases h
      · next hcond =>
        rw [Option.isSome_map] at h
        refine ⟨text.takeWhile Char.isDigit, rest.takeWhile Char.isDigit,
          rest.dropWhile Char.isDigit, ?_, ?_, ?_, isSome_powerOf?_iff.1 h, ?_⟩
        · exact fun c hc => List.mem_takeWhile_imp hc
        · exact fun c hc => List.mem_takeWhile_imp hc
        · rintro ⟨hwhole, hfraction⟩
          exact hcond (by simp [hwhole, hfraction])
        · rw [List.takeWhile_append_dropWhile, ← hrest, List.takeWhile_append_dropWhile]
    · -- without a point behind the digits there is none in the text
      split at h
      · cases h
      · rw [Option.isSome_map] at h
        have hpower := isSome_powerOf?_iff.1 h
        rw [← List.takeWhile_append_dropWhile (p := Char.isDigit) (l := text), List.mem_append]
          at hpoint
        rcases hpoint with hpoint | hpoint
        · exact absurd (List.mem_takeWhile_imp hpoint : Char.isDigit '.' = true) (by decide)
        · exact absurd hpoint hpower.point_notMem
  · rintro ⟨whole, fraction, power, hwhole, hfraction, hne, hpower, rfl⟩
    have hpoint : ∀ c ∈ ('.' :: (fraction ++ power)).head?, c.isDigit = false := by
      rintro c ⟨⟩
      rfl
    obtain ⟨htake, hdrop⟩ := takeWhile_run hwhole hpoint
    obtain ⟨htake', hdrop'⟩ := takeWhile_run hfraction hpower.head?_isDigit
    have hcond : (whole.isEmpty && fraction.isEmpty) = false := by
      rw [← Bool.not_eq_true, Bool.and_eq_true, List.isEmpty_iff, List.isEmpty_iff]
      exact hne
    unfold Binary64.ofUnsigned?
    simp only [htake, hdrop, htake', hdrop', hcond]
    exact (Option.isSome_map).trans (isSome_powerOf?_iff.2 hpower)

/-- A text with a point is read as a number exactly if it is the text of a real number. -/
theorem isSome_ofNumeral?_iff {text : List Char} (hpoint : '.' ∈ text) :
    (Binary64.ofNumeral? text).isSome = true ↔ IsReal text := by
  rw [isReal_iff]
  constructor
  · intro h
    unfold Binary64.ofNumeral? at h
    split at h
    · next rest =>
      rw [Option.isSome_map] at h
      have hrest : '.' ∈ rest := (List.mem_cons.1 hpoint).resolve_left (by decide)
      exact ⟨_, rest, Or.inr (Or.inr rfl), (isSome_ofUnsigned?_iff hrest).1 h, rfl⟩
    · next rest =>
      have hrest : '.' ∈ rest := (List.mem_cons.1 hpoint).resolve_left (by decide)
      exact ⟨_, rest, Or.inr (Or.inl rfl), (isSome_ofUnsigned?_iff hrest).1 h, rfl⟩
    · exact ⟨_, text, Or.inl rfl, (isSome_ofUnsigned?_iff hpoint).1 h, rfl⟩
  · rintro ⟨sign, unsigned, hsign, hunsigned, rfl⟩
    have hread := (isSome_ofUnsigned?_iff hunsigned.point_mem).2 hunsigned
    rcases hsign with rfl | rfl | rfl
    · rw [List.nil_append]
      unfold Binary64.ofNumeral?
      split
      · exact absurd rfl hunsigned.ne_sign.1
      · exact absurd rfl hunsigned.ne_sign.2
      · exact hread
    · exact hread
    · exact Option.isSome_map.trans hread

/-- There is a point in the text of a real number. -/
theorem IsReal.point_mem {text : List Char} (h : IsReal text) : '.' ∈ text := by
  obtain ⟨sign, unsigned, _, hunsigned, rfl⟩ := isReal_iff.1 h
  exact List.mem_append_right _ hunsigned.point_mem

/-- A text is a number: an integer, or a number with a point. -/
def IsNumber (text : List Char) : Prop :=
  IsInteger text ∨ IsReal text

/-- A text that is not quoted stands for itself exactly if it is no number. -/
theorem ofPlain_eq_text_iff {text : List Char} {t : String} :
    ofPlain text = .text t ↔ ¬IsNumber text ∧ t = String.ofList text := by
  have hreal : (if text.contains '.' then Binary64.ofNumeral? text else none).isSome = true ↔
      IsReal text := by
    by_cases hpoint : '.' ∈ text
    · rw [if_pos (List.contains_iff_mem.2 hpoint)]
      exact isSome_ofNumeral?_iff hpoint
    · rw [if_neg fun h => hpoint (List.contains_iff_mem.1 h)]
      exact ⟨nofun, fun h => absurd h.point_mem hpoint⟩
  unfold ofPlain IsNumber
  rw [← hreal]
  dsimp only
  split
  · next x hx =>
    rw [hx]
    simp
  · next hx =>
    rw [hx]
    cases hinteger : integer? text with
    | none =>
      have hno : ¬IsInteger text := by
        intro h
        obtain ⟨d, hd⟩ := h.exists_integer?
        rw [hinteger] at hd
        cases hd
      simp [hno, eq_comm]
    | some d =>
      obtain ⟨hyes, hne⟩ := isInteger_of_integer? hinteger
      simpa [hyes] using hne t

/-! ## Quoted texts -/

/-- The digits of a character do not depend on what follows them. -/
theorem numbered?_append {count : Nat} {s rest : List Char} {c : Char}
    (h : numbered? count s = some (c, rest)) :
    s = s.take count ++ rest ∧
      ∀ other, numbered? count (s.take count ++ other) = some (c, other) := by
  unfold numbered? at h
  split at h
  · cases h
  · next hlength =>
    obtain ⟨n, hn, h⟩ := Option.bind_eq_some_iff.1 h
    split at h
    · next hrange =>
      obtain ⟨rfl, rfl⟩ := Prod.mk.inj (Option.some.inj h)
      refine ⟨(List.take_append_drop count s).symm, fun other => ?_⟩
      have hcount : (s.take count).length = count :=
        List.length_take_of_le (Nat.le_of_not_lt hlength)
      unfold numbered?
      rw [if_neg (by rw [List.length_append]; omega), List.take_left' hcount,
        List.drop_left' hcount, hn, Option.bind_some, if_pos hrange]
    · cases h

/-- A letter that stands for a character whatever follows it is an escape. -/
theorem exists_isEscape {letter e c : Char} {s rest : List Char}
    (hescape : ∀ other, escaped? (letter :: other) = some (e, other))
    (h : some (e, s) = some (c, rest)) :
    ∃ front, letter :: s = front ++ rest ∧ IsEscape front c := by
  obtain ⟨rfl, rfl⟩ := Prod.mk.inj (Option.some.inj h)
  exact ⟨[letter], rfl, hescape⟩

/-- What is read behind a backslash is an escape. -/
theorem isEscape_of_escaped? {s rest : List Char} {c : Char} (h : escaped? s = some (c, rest)) :
    ∃ front, s = front ++ rest ∧ IsEscape front c := by
  unfold escaped? at h
  split at h
  · exact exists_isEscape (fun _ => rfl) h
  · exact exists_isEscape (fun _ => rfl) h
  · exact exists_isEscape (fun _ => rfl) h
  · exact exists_isEscape (fun _ => rfl) h
  · exact exists_isEscape (fun _ => rfl) h
  · exact exists_isEscape (fun _ => rfl) h
  · exact exists_isEscape (fun _ => rfl) h
  · next s =>
    obtain ⟨hs, hother⟩ := numbered?_append h
    exact ⟨'u' :: s.take 4, congrArg (List.cons 'u') hs, hother⟩
  · next s =>
    obtain ⟨hs, hother⟩ := numbered?_append h
    exact ⟨'U' :: s.take 8, congrArg (List.cons 'U') hs, hother⟩
  · cases h

/-- What is read up to a quotation mark is quoted in front of it. -/
theorem areQuoted_of_readQuotedRest {fuel : Nat} {s text rest : List Char}
    (h : readQuotedRest fuel s = some (text, rest)) :
    ∃ body, s = body ++ '"' :: rest ∧ AreQuoted body text := by
  induction fuel generalizing s text with
  | zero => cases h
  | succ fuel ih =>
    cases s with
    | nil => cases h
    | cons c s =>
      unfold readQuotedRest at h
      split at h
      · next hc =>
        obtain ⟨rfl, rfl⟩ := Prod.mk.inj (Option.some.inj h)
        exact ⟨[], by rw [hc]; rfl, .nil⟩
      · next hquote =>
        split at h
        · next hc =>
          obtain ⟨⟨e, behind⟩, hescaped, h⟩ := Option.bind_eq_some_iff.1 h
          obtain ⟨⟨inner, rest'⟩, hrest, heq⟩ := Option.map_eq_some_iff.1 h
          obtain ⟨rfl, rfl⟩ := Prod.mk.inj heq
          obtain ⟨front, rfl, hfront⟩ := isEscape_of_escaped? hescaped
          obtain ⟨body, rfl, hbody⟩ := ih hrest
          exact ⟨'\\' :: (front ++ body), by rw [hc, List.cons_append, List.append_assoc],
            .escape hfront hbody⟩
        · next hbackslash =>
          split at h
          · next hquotable =>
            obtain ⟨⟨inner, rest'⟩, hrest, heq⟩ := Option.map_eq_some_iff.1 h
            obtain ⟨rfl, rfl⟩ := Prod.mk.inj heq
            obtain ⟨body, rfl, hbody⟩ := ih hrest
            exact ⟨c :: body, rfl, .char ⟨hquotable, hquote, hbackslash⟩ hbody⟩
          · cases h

/-- Quoted characters are read up to the quotation mark. -/
theorem AreQuoted.readQuotedRest_eq {body text : List Char} (h : AreQuoted body text)
    (rest : List Char) {fuel : Nat} (hfuel : body.length < fuel) :
    readQuotedRest fuel (body ++ '"' :: rest) = some (text, rest) := by
  induction h generalizing fuel with
  | nil =>
    obtain ⟨fuel, rfl⟩ := Nat.exists_eq_succ_of_ne_zero (Nat.ne_of_gt (Nat.zero_lt_of_lt hfuel))
    rfl
  | @char c body text hc _ ih =>
    obtain ⟨fuel, rfl⟩ := Nat.exists_eq_succ_of_ne_zero (Nat.ne_of_gt (Nat.zero_lt_of_lt hfuel))
    have hrest := ih (Nat.lt_of_succ_lt_succ hfuel)
    rw [List.cons_append]
    unfold readQuotedRest
    rw [if_neg hc.ne_quote, if_neg hc.ne_backslash, if_pos hc.isQuotable, hrest]
    rfl
  | @escape front body text c hfront _ ih =>
    obtain ⟨fuel, rfl⟩ := Nat.exists_eq_succ_of_ne_zero (Nat.ne_of_gt (Nat.zero_lt_of_lt hfuel))
    have hbody : body.length < fuel := by
      rw [List.length_cons, List.length_append] at hfuel
      omega
    have hrest := ih hbody
    rw [List.cons_append, List.append_assoc]
    unfold readQuotedRest
    rw [if_neg (by decide), if_pos rfl, hfront, Option.bind_some]
    show Option.map _ (readQuotedRest fuel (body ++ '"' :: rest)) = _
    rw [hrest]
    rfl

/-- Whether a character stands in front of the first escape. -/
theorem isQuotedChar_of_mem {s : List Char} {c : Char}
    (hc : c ∈ s.takeWhile fun c => c ≠ '"' && c ≠ '\\')
    (hall : (s.takeWhile fun c => c ≠ '"' && c ≠ '\\').all isQuotable = true) :
    IsQuotedChar c := by
  have hfront := List.mem_takeWhile_imp hc
  rw [Bool.and_eq_true, decide_eq_true_eq, decide_eq_true_eq] at hfront
  exact ⟨List.all_eq_true.1 hall c hc, hfront.1, hfront.2⟩

/-- A quoted text that is read stands in front of its quotation mark. -/
theorem isQuoted_of_readQuoted {s text rest : List Char} (h : readQuoted s = some (text, rest)) :
    ∃ body, s = body ++ '"' :: rest ∧ IsQuoted body text := by
  unfold readQuoted at h
  dsimp only at h
  split at h
  · cases h
  · next hall =>
    rw [Bool.not_eq_true', Bool.not_eq_false] at hall
    have hchars := fun c hc => isQuotedChar_of_mem (s := s) (c := c) hc hall
    have hsplit := List.takeWhile_append_dropWhile (p := fun c => c ≠ '"' && c ≠ '\\') (l := s)
    obtain ⟨front, hkept, h⟩ := Option.bind_eq_some_iff.1 h
    obtain ⟨⟨inner, rest'⟩, hrest, heq⟩ := Option.map_eq_some_iff.1 h
    obtain ⟨rfl, rfl⟩ := Prod.mk.inj heq
    obtain ⟨body, hbody, hquoted⟩ := areQuoted_of_readQuotedRest hrest
    rw [hbody] at hsplit hkept
    have hhead := head?_dropWhile (p := fun c => c ≠ '"' && c ≠ '\\') s
    rw [hbody] at hhead
    cases hquoted with
    | nil =>
      obtain rfl := Option.some.inj hkept
      refine ⟨_, hsplit.symm, ?_⟩
      rw [List.append_nil]
      exact .plain hchars
    | @char c body text hc _ =>
      -- such a character would stand in front of the first escape
      have hstop := hhead c rfl
      simp [hc.ne_quote, hc.ne_backslash] at hstop
    | @escape front' body text c hfront' hrest' =>
      refine ⟨_, ?_, .escaped hchars hkept (.escape hfront' hrest')⟩
      rw [List.append_assoc]
      exact hsplit.symm

/-- A quoted text is read up to its quotation mark. -/
theorem IsQuoted.readQuoted_eq {body text : List Char} (h : IsQuoted body text)
    (rest : List Char) : readQuoted (body ++ '"' :: rest) = some (text, rest) := by
  have hfront (front : List Char) (hchars : ∀ c ∈ front, IsQuotedChar c) :
      ∀ c ∈ front, (decide (c ≠ '"') && decide (c ≠ '\\')) = true := by
    intro c hc
    rw [Bool.and_eq_true, decide_eq_true_eq, decide_eq_true_eq]
    exact ⟨(hchars c hc).ne_quote, (hchars c hc).ne_backslash⟩
  have hall (front : List Char) (hchars : ∀ c ∈ front, IsQuotedChar c) :
      front.all isQuotable = true :=
    List.all_eq_true.2 fun c hc => (hchars c hc).isQuotable
  cases h with
  | plain hchars =>
    have hstop : ∀ c ∈ ('"' :: rest).head?, (decide (c ≠ '"') && decide (c ≠ '\\')) = false := by
      rintro c ⟨⟩
      rfl
    obtain ⟨htake, hdrop⟩ := takeWhile_run (hfront _ hchars) hstop
    unfold readQuoted
    simp only [htake, hdrop, hall _ hchars]
    simp [readQuotedRest]
  | @escaped front kept body text hchars hkept hrest =>
    have hstop : ∀ c ∈ ('\\' :: (body ++ '"' :: rest)).head?,
        (decide (c ≠ '"') && decide (c ≠ '\\')) = false := by
      rintro c ⟨⟩
      rfl
    obtain ⟨htake, hdrop⟩ := takeWhile_run (hfront _ hchars) hstop
    have hread : readQuotedRest ('\\' :: (body ++ '"' :: rest)).length
        ('\\' :: (body ++ '"' :: rest)) = some (text, rest) :=
      hrest.readQuotedRest_eq rest (by simp)
    rw [List.append_assoc, List.cons_append]
    unfold readQuoted
    simp only [htake, hdrop, hall _ hchars, List.head?_cons, if_true, hkept, Option.bind_some,
      Bool.not_true, Bool.false_eq_true, if_false, hread]
    rfl

/-! ## Values that are themselves -/

/-- What is kept of a text is no longer than the text. -/
theorem length_keptInFront? {front kept : List Char} (h : keptInFront? front = some kept) :
    kept.length ≤ front.length := by
  obtain ⟨text, htext, rfl⟩ := Option.map_eq_some_iff.1 h
  have hlength := Utf8.length_le_length_encode text
  rw [Utf8.encode_of_decode? htext] at hlength
  exact hlength.trans (List.length_take_le _ _)

/-- Quoted characters are no fewer than what they stand for. -/
theorem AreQuoted.length_le {body text : List Char} (h : AreQuoted body text) :
    text.length ≤ body.length := by
  induction h with
  | nil => exact Nat.le_refl _
  | char _ _ ih => exact Nat.succ_le_succ ih
  | escape _ _ ih =>
    simp only [List.length_cons, List.length_append]
    omega

/-- No text is longer than what stands between its quotation marks. -/
theorem IsQuoted.length_le {body text : List Char} (h : IsQuoted body text) :
    text.length ≤ body.length := by
  cases h with
  | plain => exact Nat.le_refl _
  | escaped _ hkept hrest =>
    rw [List.length_append, List.length_append]
    exact Nat.add_le_add (length_keptInFront? hkept) hrest.length_le

/-- A text that is written for itself is a plain one without white space at its ends, and no
number. -/
theorem Spells.self {text : String} (h : Spells text.toList (.text text)) :
    IsPlainText text.toList ∧ Blank.trim text.toList = text.toList ∧ ¬IsNumber text.toList := by
  generalize hchars : text.toList = chars at h
  generalize hvalue : Datum.text text = value at h
  cases h with
  | flag => cases hvalue
  | group => cases hvalue
  | list => cases hvalue
  | @quoted front body inner back _ _ hbody =>
    -- the quotation marks are not part of the text
    have hlength := congrArg List.length hchars
    rw [Datum.text.inj hvalue, String.toList_ofList] at hlength
    have hle := hbody.length_le
    simp only [List.length_append, List.length_cons] at hlength
    omega
  | @letter front back c _ _ =>
    have hlength := congrArg List.length hchars
    rw [Datum.text.inj hvalue, String.toList_ofList] at hlength
    simp only [List.length_append, List.length_cons, List.length_nil] at hlength
    omega
  | plain hplain =>
    obtain ⟨hnumber, htext⟩ := ofPlain_eq_text_iff.1 hvalue.symm
    have htrim : Blank.trim chars = chars := by
      rw [htext, String.toList_ofList] at hchars
      exact hchars
    exact ⟨hplain, htrim, htrim ▸ hnumber⟩

/-- A plain text without white space at its ends is written for itself if it is no number. -/
theorem IsPlainText.spells_self {text : String} (h : IsPlainText text.toList)
    (htrim : Blank.trim text.toList = text.toList) (hnumber : ¬IsNumber text.toList) :
    Spells text.toList (.text text) := by
  have hvalue : ofPlain (Blank.trim text.toList) = .text text := by
    rw [htrim]
    exact ofPlain_eq_text_iff.2 ⟨hnumber, String.ofList_toList.symm⟩
  exact hvalue ▸ Spells.plain h

end Environment

end Colloquy
