import Colloquy.Json.Container
import Colloquy.Proofs.Json.StringText
import Colloquy.Proofs.Json.WholeNumber

/-!
# Reading written lists and objects

The parts of a list or an object are written one behind the other, each but the first behind a
comma (`separated`). A list of such items is read back (`readItems_separated`), and an object of
such members takes its state from each of them in turn, with blanks between its parts
(`readMembers_spaced`) or without (`readMembers_separated`); what a member does to the state is the
reader's, so the lemmas serve dictionaries and records alike. The first member whose value is
refused ends the reading (`readMembers_refuses`).
-/

set_option autoImplicit false

namespace Colloquy

open Json

/-- A reader reads a value from the front of a text and leaves a rest. -/
def Reads {α : Type} (reader : Reader α) (s : Bytes) (value : α) (rest : Bytes) : Prop :=
  ∃ h, reader s = .ok ⟨value, rest, h⟩

/-- Nothing is skipped in front of a byte that is no blank. -/
theorem skipBlank_of_not {b : UInt8} (hb : isBlank b = false) (rest : Bytes) :
    skipBlank (b :: rest) = b :: rest := by
  rw [skipBlank, hb]
  rfl

/-- What begins with no blank is not all blank. -/
theorem skipBlank_ne_nil {b : UInt8} (hb : isBlank b = false) (rest : Bytes) :
    skipBlank (b :: rest) ≠ [] := by
  rw [skipBlank_of_not hb]
  exact List.cons_ne_nil b rest

/-- Nothing is skipped in front of what is no blank. -/
theorem eq_of_skipBlank {b c : UInt8} (hb : isBlank b = false) {rest tail : Bytes}
    (h : skipBlank (b :: rest) = c :: tail) : b = c ∧ rest = tail := by
  rw [skipBlank_of_not hb] at h
  exact List.cons.inj h

/-- A text that begins with a value: with no blank and no closing bracket. -/
def Starts (text : Bytes) : Prop :=
  ∃ b tail, text = b :: tail ∧ isBlank b = false ∧ b ≠ Ascii.closeBracket

/-- Parts of a list or an object, each but the first behind a comma. -/
def separated (first : Bool) : List Bytes → Bytes
  | [] => []
  | part :: parts => (if first then [] else [Ascii.comma]) ++ (part ++ separated false parts)

/-- A reader reads back what is written of a value, whatever ends it. -/
def ReadsBack {α : Type} (reader : Reader α) (text : Bytes) (value : α) : Prop :=
  ∀ rest, Ends rest → Reads reader (text ++ rest) value rest

/-- A reader refuses a text, whatever ends it, for a cause in one of its parts. -/
def Refuses {α : Type} (reader : Reader α) (text : Bytes) (cause : Cause) (path : List Step) :
    Prop :=
  ∀ rest, Ends rest → ∃ left, reader (text ++ rest) = .error ⟨cause, left, path⟩

/-- Blanks, as they may stand between the parts of a text. -/
structure Blanks where
  bytes : Bytes
  all : ∀ b ∈ bytes, isBlank b = true

/-- No blanks. -/
def Blanks.none : Blanks :=
  ⟨[], nofun⟩

/-- Blanks and others behind them. -/
def Blanks.append (blanks others : Blanks) : Blanks :=
  ⟨blanks.bytes ++ others.bytes, fun b hb =>
    (List.mem_append.1 hb).elim (blanks.all b) (others.all b)⟩

/-- Blanks are skipped. -/
theorem Blanks.skip (blanks : Blanks) (s : Bytes) :
    skipBlank (blanks.bytes ++ s) = skipBlank s := by
  obtain ⟨bytes, hblank⟩ := blanks
  induction bytes with
  | nil => rfl
  | cons b bytes ih =>
    show skipBlank (b :: (bytes ++ s)) = _
    rw [skipBlank, if_pos (hblank b List.mem_cons_self)]
    exact ih fun c hc => hblank c (List.mem_cons_of_mem b hc)

/-- No number goes on with a blank. -/
theorem Blanks.ends (blanks : Blanks) {rest : Bytes} (h : Ends rest) :
    Ends (blanks.bytes ++ rest) := by
  obtain ⟨bytes, hblank⟩ := blanks
  cases bytes with
  | nil => exact h
  | cons b bytes =>
    intro c hc
    obtain rfl : b = c := Option.some.inj hc
    have hb := hblank b List.mem_cons_self
    simp only [isBlank, Bool.or_eq_true, decide_eq_true_eq] at hb
    rcases hb with ((rfl | rfl) | rfl) | rfl <;> decide

/-- Blanks end what is in front of them. -/
theorem Blanks.ends_nil (blanks : Blanks) : Ends blanks.bytes := by
  have hnil : Ends [] := nofun
  have hends := blanks.ends hnil
  rwa [List.append_nil] at hends

/-- What follows a part of a list or an object ends it. -/
theorem ends_separated {close : UInt8}
    (hclose : close = Ascii.closeBracket ∨ close = Ascii.closeBrace)
    (parts : List Bytes) (rest : Bytes) : Ends (separated false parts ++ close :: rest) := by
  intro b hb
  cases parts with
  | nil =>
    obtain rfl : close = b := Option.some.inj hb
    rcases hclose with rfl | rfl <;> decide
  | cons part parts =>
    obtain rfl : Ascii.comma = b := Option.some.inj hb
    decide

/-! ## The items of a list -/

/-- The first item of a list begins with its first byte that is no blank. -/
theorem nextItem_first {b : UInt8} (hb : isBlank b = false) (hclose : b ≠ Ascii.closeBracket)
    (bound : Nat) (rest : Bytes) (h : (b :: rest).length ≤ bound) :
    ∃ h', nextItem bound true (b :: rest) h = .ok (.item (b :: rest) h') := by
  refine ⟨Nat.lt_succ_of_le h, ?_⟩
  unfold nextItem
  split
  · next hs => exact absurd hs (skipBlank_ne_nil hb _)
  · next hs =>
    obtain ⟨rfl, rfl⟩ := eq_of_skipBlank hb hs
    simp only [if_neg hclose, if_true]

/-- Any other item stands behind a comma. -/
theorem nextItem_comma {b : UInt8} (hb : isBlank b = false) (hclose : b ≠ Ascii.closeBracket)
    (bound : Nat) (rest : Bytes) (h : (Ascii.comma :: b :: rest).length ≤ bound) :
    ∃ h', nextItem bound false (Ascii.comma :: b :: rest) h = .ok (.item (b :: rest) h') := by
  refine ⟨Nat.lt_succ_of_lt h, ?_⟩
  unfold nextItem
  split
  · next hs => exact absurd hs (skipBlank_ne_nil (by decide) _)
  · next hs =>
    obtain ⟨rfl, rfl⟩ := eq_of_skipBlank (by decide) hs
    have hcomma : Ascii.comma ≠ Ascii.closeBracket := by decide
    simp only [if_neg hcomma, Bool.false_eq_true, if_false, if_true]
    split
    · next hc => exact absurd hc (skipBlank_ne_nil hb _)
    · next hc =>
      obtain ⟨rfl, rfl⟩ := eq_of_skipBlank hb hc
      simp only [if_neg hclose]

/-- The bracket behind the last item ends a list. -/
theorem nextItem_closed (bound : Nat) (first : Bool) (rest : Bytes)
    (h : (Ascii.closeBracket :: rest).length ≤ bound) :
    ∃ h', nextItem bound first (Ascii.closeBracket :: rest) h = .ok (.closed rest h') := by
  refine ⟨Nat.lt_succ_of_lt h, ?_⟩
  unfold nextItem
  split
  · next hs => exact absurd hs (skipBlank_ne_nil (by decide) _)
  · next hs =>
    obtain ⟨rfl, rfl⟩ := eq_of_skipBlank (by decide) hs
    rfl

/-- The next item of a list, behind a comma unless it is the first. -/
theorem nextItem_separated {part : Bytes} (hpart : Starts part) (bound : Nat) (first : Bool)
    (parts : List Bytes) (rest : Bytes)
    (h : (separated first (part :: parts) ++ rest).length ≤ bound) :
    ∃ h', nextItem bound first (separated first (part :: parts) ++ rest) h =
      .ok (.item (part ++ (separated false parts ++ rest)) h') := by
  obtain ⟨b, tail, rfl, hblank, hclose⟩ := hpart
  simp only [separated, List.append_assoc, List.cons_append] at h ⊢
  cases first with
  | true => exact nextItem_first hblank hclose bound _ h
  | false => exact nextItem_comma hblank hclose bound _ h

/-- The item that is next is read, and then the others. -/
theorem readItems_of_item {α : Type} {item : Reader α} {bound count : Nat} {items : List α}
    {s start middle : Bytes} {x : α}
    (hnext : ∃ h, nextItem s.length items.isEmpty s (Nat.le_refl _) = .ok (.item start h))
    (hitem : Reads item start x middle) (h : s.length < bound) :
    ∃ h', readItems item bound count items s h =
      readItems item bound (count + 1) (x :: items) middle h' := by
  obtain ⟨hstart, hnext⟩ := hnext
  obtain ⟨hmiddle, hread⟩ := hitem
  refine ⟨Nat.lt_of_le_of_lt (Nat.le_of_lt_succ (Nat.lt_trans hmiddle hstart)) h, ?_⟩
  rw [readItems]
  simp only [hnext, hread]

/-- The written items of a list are read back. -/
theorem readItems_separated {α : Type} {item : Reader α} {write : α → Bytes} {xs : List α}
    (hstarts : ∀ x ∈ xs, Starts (write x)) (hitem : ∀ x ∈ xs, ReadsBack item (write x) x)
    (bound count : Nat) (items : List α) (rest : Bytes)
    (h : (separated items.isEmpty (xs.map write) ++ Ascii.closeBracket :: rest).length < bound) :
    ∃ h', readItems item bound count items
        (separated items.isEmpty (xs.map write) ++ Ascii.closeBracket :: rest) h =
      .ok ⟨items.reverse ++ xs, rest, h'⟩ := by
  induction xs generalizing count items with
  | nil =>
    obtain ⟨_, hnext⟩ := nextItem_closed _ items.isEmpty rest (Nat.le_refl _)
    refine ⟨lt_of_cons_lt h, ?_⟩
    simp only [List.map_nil, separated, List.nil_append, List.append_nil]
    rw [readItems]
    simp only [hnext]
  | cons x xs ih =>
    obtain ⟨hmiddle, hfirst⟩ := readItems_of_item
      (nextItem_separated (hstarts x List.mem_cons_self) _ _ (xs.map write) _ (Nat.le_refl _))
      (hitem x List.mem_cons_self _ (ends_separated (Or.inl rfl) (xs.map write) rest)) h
    obtain ⟨h', hothers⟩ := ih (fun y hy => hstarts y (List.mem_cons_of_mem x hy))
      (fun y hy => hitem y (List.mem_cons_of_mem x hy)) (count + 1) (x :: items) hmiddle
    refine ⟨h', hfirst.trans (hothers.trans ?_)⟩
    simp only [List.reverse_cons, List.append_assoc, List.singleton_append]

/-! ## The members of an object -/

/-- A member of an object as it is written. -/
def memberBytes (name : String) (value : Bytes) : Bytes :=
  quoted name ++ Ascii.colon :: value

/-- A member of an object with blanks around its parts. -/
structure SpacedMember where
  name : String
  /-- The text of the value and the blanks in front of it. -/
  text : Bytes
  /-- The blanks in front of the name. -/
  front : Blanks
  /-- The blanks in front of the colon. -/
  middle : Blanks
  /-- The blanks behind the value. -/
  behind : Blanks

/-- What a member is read from, without the blanks around it. -/
def SpacedMember.entry (m : SpacedMember) : String × Bytes :=
  (m.name, m.text)

/-- A member as it is written with its blanks. -/
def SpacedMember.bytes (m : SpacedMember) : Bytes :=
  m.front.bytes ++ (quoted m.name ++ (m.middle.bytes ++ Ascii.colon :: (m.text ++ m.behind.bytes)))

/-- A member without blanks. -/
def SpacedMember.compact (entry : String × Bytes) : SpacedMember :=
  ⟨entry.1, entry.2, .none, .none, .none⟩

/-- Members without blanks are read from the same entries. -/
theorem SpacedMember.map_entry_compact (entries : List (String × Bytes)) :
    (entries.map SpacedMember.compact).map SpacedMember.entry = entries := by
  rw [List.map_map]
  exact List.map_id entries

/-- A member without blanks is its name, a colon and its value. -/
theorem SpacedMember.bytes_compact (entry : String × Bytes) :
    (SpacedMember.compact entry).bytes = memberBytes entry.1 entry.2 := by
  show quoted entry.1 ++ Ascii.colon :: (entry.2 ++ []) = _
  rw [List.append_nil]
  rfl

/-- Members as they stand in front of a closing brace. -/
def membersBytes (first : Bool) (members : List SpacedMember) (rest : Bytes) : Bytes :=
  separated first (members.map SpacedMember.bytes) ++ Ascii.closeBrace :: rest

/-- Behind the last member the object is closed. -/
theorem membersBytes_nil (first : Bool) (rest : Bytes) :
    membersBytes first [] rest = Ascii.closeBrace :: rest :=
  rfl

/-- A member stands behind a comma, unless it is the first, with its blanks around its parts. -/
theorem membersBytes_cons (first : Bool) (m : SpacedMember) (members : List SpacedMember)
    (rest : Bytes) :
    membersBytes first (m :: members) rest =
      (if first then [] else [Ascii.comma]) ++ (m.front.bytes ++ (quoted m.name ++
        (m.middle.bytes ++ Ascii.colon :: (m.text ++ (m.behind.bytes ++
          membersBytes false members rest))))) := by
  simp [membersBytes, separated, SpacedMember.bytes]

/-- What follows the value of a member ends it. -/
theorem SpacedMember.ends_behind (m : SpacedMember) (members : List SpacedMember) (rest : Bytes) :
    Ends (m.behind.bytes ++ membersBytes false members rest) :=
  m.behind.ends (ends_separated (Or.inr rfl) (members.map SpacedMember.bytes) rest)

/-- The brace behind the last member ends an object. -/
theorem nextMember_closed (bound : Nat) (first : Bool) (blanks : Blanks) (rest : Bytes)
    (h : (blanks.bytes ++ Ascii.closeBrace :: rest).length ≤ bound) :
    ∃ h', nextMember bound first (blanks.bytes ++ Ascii.closeBrace :: rest) h =
      .ok (.closed rest h') := by
  have hblank : skipBlank (blanks.bytes ++ Ascii.closeBrace :: rest) = Ascii.closeBrace :: rest :=
    (blanks.skip _).trans (skipBlank_of_not (by decide) rest)
  refine ⟨lt_of_skipBlank hblank h, ?_⟩
  unfold nextMember
  split
  · next hs => exact absurd (hblank.symm.trans hs) (List.cons_ne_nil _ _)
  · next hs =>
    obtain ⟨rfl, rfl⟩ := List.cons.inj (hblank.symm.trans hs)
    rfl

/-- A written name is read back. -/
theorem readName_quoted (name : String) (bound : Nat) (rest : Bytes)
    (h : (escaped name.toList ++ Ascii.quote :: rest).length < bound) :
    ∃ h', readName bound (escaped name.toList ++ Ascii.quote :: rest) h =
      .ok (.member name rest h') := by
  obtain ⟨h', hread⟩ := readStringFrom_content name _ rest (Nat.le_refl _)
  refine ⟨Nat.lt_trans h' h, ?_⟩
  unfold readName
  rw [hread]

/-- The name of the first member. -/
theorem nextMember_first (name : String) (bound : Nat) (blanks : Blanks) (rest : Bytes)
    (h : (blanks.bytes ++ (quoted name ++ rest)).length ≤ bound) :
    ∃ h', nextMember bound true (blanks.bytes ++ (quoted name ++ rest)) h =
      .ok (.member name rest h') := by
  have hblank : skipBlank (blanks.bytes ++ (quoted name ++ rest)) =
      Ascii.quote :: (escaped name.toList ++ Ascii.quote :: rest) := by
    rw [blanks.skip, quoted_append]
    exact skipBlank_of_not (by decide) _
  obtain ⟨h', hread⟩ := readName_quoted name bound rest (lt_of_skipBlank hblank h)
  refine ⟨h', ?_⟩
  unfold nextMember
  split
  · next hs => exact absurd (hblank.symm.trans hs) (List.cons_ne_nil _ _)
  · next hs =>
    obtain ⟨rfl, rfl⟩ := List.cons.inj (hblank.symm.trans hs)
    exact hread

/-- The name of any other member stands behind a comma. -/
theorem nextMember_comma (name : String) (bound : Nat) (blanks front : Blanks) (rest : Bytes)
    (h : (blanks.bytes ++ Ascii.comma :: (front.bytes ++ (quoted name ++ rest))).length ≤ bound) :
    ∃ h', nextMember bound false
        (blanks.bytes ++ Ascii.comma :: (front.bytes ++ (quoted name ++ rest))) h =
      .ok (.member name rest h') := by
  have hcomma : skipBlank (blanks.bytes ++ Ascii.comma :: (front.bytes ++ (quoted name ++ rest))) =
      Ascii.comma :: (front.bytes ++ (quoted name ++ rest)) :=
    (blanks.skip _).trans (skipBlank_of_not (by decide) _)
  have hquote : skipBlank (front.bytes ++ (quoted name ++ rest)) =
      Ascii.quote :: (escaped name.toList ++ Ascii.quote :: rest) := by
    rw [front.skip, quoted_append]
    exact skipBlank_of_not (by decide) _
  have hbehind := Nat.le_of_lt (lt_of_skipBlank hcomma h)
  obtain ⟨h', hread⟩ := readName_quoted name bound rest (lt_of_skipBlank hquote hbehind)
  refine ⟨h', ?_⟩
  unfold nextMember
  split
  · next hs => exact absurd (hcomma.symm.trans hs) (List.cons_ne_nil _ _)
  · next hs =>
    obtain ⟨rfl, rfl⟩ := List.cons.inj (hcomma.symm.trans hs)
    have hbrace : Ascii.comma ≠ Ascii.closeBrace := by decide
    simp only [if_neg hbrace, Bool.false_eq_true, if_false, if_true]
    split
    · next hc => exact absurd (hquote.symm.trans hc) (List.cons_ne_nil _ _)
    · next hc =>
      obtain ⟨rfl, rfl⟩ := List.cons.inj (hquote.symm.trans hc)
      exact hread

/-- The name of the next member, behind a comma unless it is the first. -/
theorem nextMember_spaced (name : String) (bound : Nat) (first : Bool) (blanks front : Blanks)
    (rest : Bytes)
    (h : (blanks.bytes ++ ((if first then [] else [Ascii.comma]) ++
      (front.bytes ++ (quoted name ++ rest)))).length ≤ bound) :
    ∃ h', nextMember bound first (blanks.bytes ++ ((if first then [] else [Ascii.comma]) ++
        (front.bytes ++ (quoted name ++ rest)))) h = .ok (.member name rest h') := by
  cases first with
  | false => exact nextMember_comma name bound blanks front rest h
  | true =>
    have hblank (s : Bytes) : blanks.bytes ++ ([] ++ (front.bytes ++ s)) =
        (blanks.append front).bytes ++ s := by
      simp [Blanks.append]
    simp only [if_true, hblank] at h ⊢
    exact nextMember_first name bound (blanks.append front) rest h

/-- The value of a member is read from behind the colon. -/
theorem readMemberValue_of_colon {σ : Type} {name : String} {value : Reader σ}
    {s text rest : Bytes} {next : σ} {bound : Nat} (hcolon : skipBlank s = Ascii.colon :: text)
    (hvalue : Reads value text next rest) (h : s.length ≤ bound) :
    ∃ h', readMemberValue name value bound s h = .ok ⟨next, rest, h'⟩ := by
  obtain ⟨hrest, hread⟩ := hvalue
  refine ⟨Nat.lt_trans hrest (lt_of_skipBlank hcolon h), ?_⟩
  unfold readMemberValue
  split
  · next hs => exact absurd (hcolon.symm.trans hs) (List.cons_ne_nil _ _)
  · next hs =>
    obtain ⟨rfl, rfl⟩ := List.cons.inj (hcolon.symm.trans hs)
    simp only [if_true, hread]
    rfl

/-- The value of a member is read behind its blanks and its colon. -/
theorem readMemberValue_of_reads {σ : Type} {value : Reader σ} {s rest : Bytes} {next : σ}
    (hvalue : Reads value s next rest) (name : String) (middle : Blanks) (bound : Nat)
    (h : (middle.bytes ++ Ascii.colon :: s).length ≤ bound) :
    ∃ h', readMemberValue name value bound (middle.bytes ++ Ascii.colon :: s) h =
      .ok ⟨next, rest, h'⟩ :=
  readMemberValue_of_colon ((middle.skip _).trans (skipBlank_of_not (by decide) s)) hvalue h

/-- The refusal of a value is reported with the name of its member. -/
theorem readMemberValue_of_error {σ : Type} {value : Reader σ} {s : Bytes} {failure : Failure}
    (hvalue : value s = .error failure) (name : String) (middle : Blanks) (bound : Nat)
    (h : (middle.bytes ++ Ascii.colon :: s).length ≤ bound) :
    readMemberValue name value bound (middle.bytes ++ Ascii.colon :: s) h =
      .error (failure.inside (.member name)) := by
  have hcolon : skipBlank (middle.bytes ++ Ascii.colon :: s) = Ascii.colon :: s :=
    (middle.skip _).trans (skipBlank_of_not (by decide) s)
  unfold readMemberValue
  split
  · next hs => exact absurd (hcolon.symm.trans hs) (List.cons_ne_nil _ _)
  · next hs =>
    obtain ⟨rfl, rfl⟩ := List.cons.inj (hcolon.symm.trans hs)
    simp only [if_true, hvalue]

/-- The member that is next is read, and then the others. -/
theorem readMembers_of_member {σ : Type} {enter : σ → String → Admission σ} {bound : Nat}
    {first : Bool} {state next : σ} {s start rest : Bytes} {name : String} {value : Reader σ}
    (hnext : ∃ h, nextMember s.length first s (Nat.le_refl _) = .ok (.member name start h))
    (henter : enter state name = .admitted value)
    (hvalue : ∀ bound h, ∃ h', readMemberValue name value bound start h = .ok ⟨next, rest, h'⟩)
    (h : s.length < bound) :
    ∃ h', readMembers enter bound first state s h =
      readMembers enter bound false next rest h' := by
  obtain ⟨hstart, hnext⟩ := hnext
  obtain ⟨hrest, hvalue⟩ := hvalue s.length (Nat.le_of_lt hstart)
  refine ⟨Nat.lt_trans hrest h, ?_⟩
  rw [readMembers]
  simp only [hnext, henter, hvalue]

/-- The member that is next is refused with its value. -/
theorem readMembers_of_refused {σ : Type} {enter : σ → String → Admission σ} {bound : Nat}
    {first : Bool} {state : σ} {s start : Bytes} {name : String} {value : Reader σ}
    {failure : Failure}
    (hnext : ∃ h, nextMember s.length first s (Nat.le_refl _) = .ok (.member name start h))
    (henter : enter state name = .admitted value)
    (hvalue : ∀ bound h, readMemberValue name value bound start h = .error failure)
    (h : s.length < bound) : readMembers enter bound first state s h = .error failure := by
  obtain ⟨hstart, hnext⟩ := hnext
  rw [readMembers]
  simp only [hnext, henter, hvalue]

/-- What the members of an object make of a state, one after the other. -/
inductive Enters {σ : Type} (enter : σ → String → Admission σ) :
    (state : σ) → (members : List (String × Bytes)) → (last : σ) → Prop
  | nil (state : σ) : Enters enter state [] state
  /-- The first member is admitted, and its value makes the state that the others meet. -/
  | cons {state next last : σ} {name : String} {text : Bytes} {members : List (String × Bytes)}
      {value : Reader σ} (henter : enter state name = .admitted value)
      (hvalue : ReadsBack value text next) (hrest : Enters enter next members last) :
    Enters enter state ((name, text) :: members) last

section Members

variable {σ : Type} {enter : σ → String → Admission σ} {state : σ}

/-- The written members of an object are read back, with any blanks between their parts. -/
theorem readMembers_spaced {last : σ} {members : List SpacedMember}
    (hmembers : Enters enter state (members.map SpacedMember.entry) last) (bound : Nat)
    (first : Bool) (blanks : Blanks) (rest : Bytes)
    (h : (blanks.bytes ++ membersBytes first members rest).length < bound) :
    ∃ h', readMembers enter bound first state (blanks.bytes ++ membersBytes first members rest) h =
      .ok ⟨last, rest, h'⟩ := by
  induction members generalizing state first blanks with
  | nil =>
    cases hmembers
    obtain ⟨hrest, hnext⟩ := nextMember_closed _ first blanks rest (Nat.le_refl _)
    simp only [membersBytes_nil] at h ⊢
    refine ⟨Nat.lt_trans hrest h, ?_⟩
    rw [readMembers]
    simp only [hnext]
  | cons m members ih =>
    have hmembers : Enters enter state ((m.name, m.text) :: members.map SpacedMember.entry) last :=
      hmembers
    cases hmembers with
    | cons henter hvalue hothers =>
      have hbehind := hvalue _ (m.ends_behind members rest)
      simp only [membersBytes_cons] at h ⊢
      obtain ⟨hnext, hfirst⟩ := readMembers_of_member
        (nextMember_spaced m.name _ first blanks m.front _ (Nat.le_refl _)) henter
        (readMemberValue_of_reads hbehind m.name m.middle) h
      obtain ⟨h', hread⟩ := ih hothers false m.behind hnext
      exact ⟨h', hfirst.trans hread⟩

/-- The members in front of one that is refused are read, and those behind it are not. -/
theorem readMembers_refuses {middle : σ} {before : List SpacedMember} {m : SpacedMember}
    {value : Reader σ} {cause : Cause} {path : List Step}
    (hbefore : Enters enter state (before.map SpacedMember.entry) middle)
    (henter : enter middle m.name = .admitted value) (hvalue : Refuses value m.text cause path)
    (after : List SpacedMember) (first : Bool) (blanks : Blanks) (rest : Bytes) :
    ∃ left, ∀ bound h, readMembers enter bound first state
        (blanks.bytes ++ membersBytes first (before ++ m :: after) rest) h =
      .error ⟨cause, left, .member m.name :: path⟩ := by
  induction before generalizing state first blanks with
  | nil =>
    cases hbefore
    obtain ⟨left, hread⟩ := hvalue _ (m.ends_behind after rest)
    refine ⟨left, fun bound h => ?_⟩
    simp only [List.nil_append, membersBytes_cons] at h ⊢
    exact readMembers_of_refused
      (nextMember_spaced m.name _ first blanks m.front _ (Nat.le_refl _)) henter
      (readMemberValue_of_error hread m.name m.middle) h
  | cons m' before ih =>
    have hbefore :
        Enters enter state ((m'.name, m'.text) :: before.map SpacedMember.entry) middle := hbefore
    cases hbefore with
    | cons henter' hvalue' hothers =>
      obtain ⟨left, hrefused⟩ := ih hothers false m'.behind
      have hbehind := hvalue' _ (m'.ends_behind (before ++ m :: after) rest)
      refine ⟨left, fun bound h => ?_⟩
      simp only [List.cons_append, membersBytes_cons] at h ⊢
      obtain ⟨hnext, hfirst⟩ := readMembers_of_member
        (nextMember_spaced m'.name _ first blanks m'.front _ (Nat.le_refl _)) henter'
        (readMemberValue_of_reads hbehind m'.name m'.middle) h
      exact hfirst.trans (hrefused bound hnext)

/-- The written members of an object are read back. -/
theorem readMembers_separated {last : σ} {members : List (String × Bytes)}
    (hmembers : Enters enter state members last) (bound : Nat) (first : Bool) (rest : Bytes)
    (h : (separated first (members.map fun m => memberBytes m.1 m.2) ++
      Ascii.closeBrace :: rest).length < bound) :
    ∃ h', readMembers enter bound first state
        (separated first (members.map fun m => memberBytes m.1 m.2) ++ Ascii.closeBrace :: rest) h =
      .ok ⟨last, rest, h'⟩ := by
  have hspaced := readMembers_spaced ((SpacedMember.map_entry_compact members).symm ▸ hmembers)
    bound first .none rest
  have hbytes : (members.map SpacedMember.compact).map SpacedMember.bytes =
      members.map fun m => memberBytes m.1 m.2 := by
    rw [List.map_map]
    exact List.map_congr_left fun m _ => SpacedMember.bytes_compact m
  unfold membersBytes at hspaced
  rw [hbytes] at hspaced
  exact hspaced h

end Members

end Colloquy
