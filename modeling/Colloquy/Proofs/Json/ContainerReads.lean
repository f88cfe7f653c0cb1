import Colloquy.Proofs.Json.Containers
import Colloquy.Proofs.Results

/-!
# What has been read of a container

The readers of lists and objects told by what they have read, part by part: `ReadsItems` for the
items of a list and `ReadsMembers` for the members of an object, whatever a name does to the state.
A list is read exactly if its items are (`readsItems_of_readItems`, `readItems_of_readsItems`), and
an object exactly if it has members that make its state (`readsMembers_of_readMembers`,
`readMembers_of_readsMembers`), and in one way only (`ReadsMembers.unique`). So what holds of a
whole container is shown by one induction over its parts.
-/

set_option autoImplicit false

namespace Colloquy

open Json

/-- Where the next part of a container begins: the first one behind blanks, and any other behind a
comma. -/
inductive NextPart : (first : Bool) → (s : Bytes) → (b : UInt8) → (tail : Bytes) → Prop
  | first {s : Bytes} {b : UInt8} {tail : Bytes} (hs : skipBlank s = b :: tail) :
    NextPart true s b tail
  | other {s t : Bytes} {b : UInt8} {tail : Bytes} (hs : skipBlank s = Ascii.comma :: t)
    (ht : skipBlank t = b :: tail) : NextPart false s b tail

/-- The rest of a list is read: its items, and what follows its bracket. -/
inductive ReadsItems {α : Type} (item : Reader α) :
    (first : Bool) → (s : Bytes) → (items : List α) → (rest : Bytes) → Prop
  | closed {first : Bool} {s rest : Bytes} (hs : skipBlank s = Ascii.closeBracket :: rest) :
    ReadsItems item first s [] rest
  | item {first : Bool} {s : Bytes} {b : UInt8} {tail middle rest : Bytes} {x : α} {xs : List α}
    (hnext : NextPart first s b tail) (hopen : b ≠ Ascii.closeBracket)
    (hitem : Reads item (b :: tail) x middle) (hothers : ReadsItems item false middle xs rest) :
    ReadsItems item first s (x :: xs) rest

/-- The rest of an object is read: its members, each the name with the text from the value on, the
state that they make in turn, and what follows the brace. -/
inductive ReadsMembers {σ : Type} (enter : σ → String → Admission σ) :
    (first : Bool) → (state : σ) → (s : Bytes) → (members : List (String × Bytes)) →
      (last : σ) → (rest : Bytes) → Prop
  | closed {first : Bool} {state : σ} {s rest : Bytes}
    (hs : skipBlank s = Ascii.closeBrace :: rest) :
    ReadsMembers enter first state s [] state rest
  | member {first : Bool} {state next last : σ} {s text start value middle rest : Bytes}
    {name : String} {reader : Reader σ} {members : List (String × Bytes)}
    (hnext : NextPart first s Ascii.quote text) (hname : Reads readString text name start)
    (hcolon : skipBlank start = Ascii.colon :: value)
    (henter : enter state name = .admitted reader) (hvalue : Reads reader value next middle)
    (hothers : ReadsMembers enter false next middle members last rest) :
    ReadsMembers enter first state s ((name, value) :: members) last rest

/-! ## What is read in one way only -/

/-- A reader delivers one value and leaves one rest. -/
theorem Reads.unique {α : Type} {reader : Reader α} {s left left' : Bytes} {x y : α}
    (h : Reads reader s x left) (h' : Reads reader s y left') : x = y ∧ left = left' := by
  obtain ⟨_, h⟩ := h
  obtain ⟨_, h'⟩ := h'
  obtain ⟨rfl, rfl⟩ := Scanned.mk.inj (Except.ok.inj (h.symm.trans h'))
  exact ⟨rfl, rfl⟩

/-- Only one part of a container is next. -/
theorem NextPart.unique {first : Bool} {s tail tail' : Bytes} {b c : UInt8}
    (h : NextPart first s b tail) (h' : NextPart first s c tail') : b = c ∧ tail = tail' := by
  cases h with
  | first hs =>
    cases h' with
    | first hs' => exact List.cons.inj (hs.symm.trans hs')
  | other hs ht =>
    cases h' with
    | other hs' ht' =>
      obtain ⟨_, rfl⟩ := List.cons.inj (hs.symm.trans hs')
      exact List.cons.inj (ht.symm.trans ht')

/-- Where a part is next a container is not at its end. -/
theorem NextPart.not_closed {first : Bool} {s tail rest : Bytes} {b close : UInt8}
    (h : NextPart first s b tail) (hb : b ≠ close) (hclose : close ≠ Ascii.comma) :
    skipBlank s ≠ close :: rest := by
  intro hs
  cases h with
  | first hs' => exact hb (List.cons.inj (hs'.symm.trans hs)).1
  | other hs' _ => exact hclose (List.cons.inj (hs.symm.trans hs')).1

/-- The members of an object are read in one way. -/
theorem ReadsMembers.unique {σ : Type} {enter : σ → String → Admission σ} {first : Bool}
    {state last last' : σ} {s left left' : Bytes} {members members' : List (String × Bytes)}
    (h : ReadsMembers enter first state s members last left)
    (h' : ReadsMembers enter first state s members' last' left') :
    members = members' ∧ last = last' ∧ left = left' := by
  induction h generalizing members' with
  | closed hs =>
    cases h' with
    | closed hs' => exact ⟨rfl, rfl, (List.cons.inj (hs.symm.trans hs')).2⟩
    | member hnext _ _ _ _ _ => exact absurd hs (hnext.not_closed (by decide) (by decide))
  | member hnext hname hcolon henter hvalue _ ih =>
    cases h' with
    | closed hs' => exact absurd hs' (hnext.not_closed (by decide) (by decide))
    | member hnext' hname' hcolon' henter' hvalue' hothers' =>
      obtain ⟨_, rfl⟩ := hnext.unique hnext'
      obtain ⟨rfl, rfl⟩ := hname.unique hname'
      obtain ⟨_, rfl⟩ := List.cons.inj (hcolon.symm.trans hcolon')
      obtain rfl := Admission.admitted.inj (henter.symm.trans henter')
      obtain ⟨rfl, rfl⟩ := hvalue.unique hvalue'
      obtain ⟨rfl, rfl, rfl⟩ := ih hothers'
      exact ⟨rfl, rfl, rfl⟩

/-! ## Lists -/

section Items

variable {α : Type} {item : Reader α} {bound : Nat} {first : Bool} {s rest : Bytes}

/-- A list that is found to end has its closing bracket behind the blanks. -/
theorem nextItem_eq_closed {h : s.length ≤ bound} {h' : rest.length < bound + 1}
    (hnext : nextItem bound first s h = .ok (.closed rest h')) :
    skipBlank s = Ascii.closeBracket :: rest := by
  unfold nextItem at hnext
  split at hnext
  · cases hnext
  · next b tail hs =>
    split at hnext
    · next hb =>
      obtain rfl := (NextItem.closed.inj (Except.ok.inj hnext))
      rw [hs, hb]
    · split at hnext
      · cases hnext
      · split at hnext
        · split at hnext
          · cases hnext
          · split at hnext <;> cases hnext
        · cases hnext

/-- Where an item is found, it is the next part and no closing bracket. -/
theorem nextItem_eq_item {start : Bytes} {h : s.length ≤ bound} {h' : start.length < bound + 1}
    (hnext : nextItem bound first s h = .ok (.item start h')) :
    ∃ b tail, start = b :: tail ∧ NextPart first s b tail ∧ b ≠ Ascii.closeBracket := by
  unfold nextItem at hnext
  split at hnext
  · cases hnext
  · next b tail hs =>
    split at hnext
    · cases hnext
    · next hclose =>
      split at hnext
      · next hfirst =>
        obtain rfl := NextItem.item.inj (Except.ok.inj hnext)
        subst hfirst
        exact ⟨b, tail, rfl, .first hs, hclose⟩
      · next hother =>
        obtain rfl : first = false := Bool.eq_false_iff.2 hother
        split at hnext
        · next hcomma =>
          subst hcomma
          split at hnext
          · cases hnext
          · next c tail hc =>
            split at hnext
            · cases hnext
            · next hclose =>
              obtain rfl := NextItem.item.inj (Except.ok.inj hnext)
              exact ⟨c, tail, rfl, .other hs hc, hclose⟩
        · cases hnext

/-- A closing bracket behind the blanks ends a list. -/
theorem nextItem_of_closed (hs : skipBlank s = Ascii.closeBracket :: rest) (h : s.length ≤ bound) :
    ∃ h', nextItem bound first s h = .ok (.closed rest h') := by
  refine ⟨Nat.lt_succ_of_lt (lt_of_skipBlank hs h), ?_⟩
  unfold nextItem
  split
  · next hnil => exact absurd (hs.symm.trans hnil) (List.cons_ne_nil _ _)
  · next hcons =>
    obtain ⟨rfl, rfl⟩ := List.cons.inj (hs.symm.trans hcons)
    rfl

/-- The next part of a list, if it is no closing bracket, is found as an item. -/
theorem nextItem_of_item {b : UInt8} {tail : Bytes} (hnext : NextPart first s b tail)
    (hopen : b ≠ Ascii.closeBracket) (h : s.length ≤ bound) :
    ∃ h', nextItem bound first s h = .ok (.item (b :: tail) h') := by
  cases hnext with
  | first hs =>
    refine ⟨Nat.succ_lt_succ (lt_of_skipBlank hs h), ?_⟩
    unfold nextItem
    split
    · next hnil => exact absurd (hs.symm.trans hnil) (List.cons_ne_nil _ _)
    · next hcons =>
      obtain ⟨rfl, rfl⟩ := List.cons.inj (hs.symm.trans hcons)
      simp only [if_neg hopen, if_true]
  | other hs ht =>
    have htail : tail.length < bound := lt_of_skipBlank ht (Nat.le_of_lt (lt_of_skipBlank hs h))
    refine ⟨Nat.succ_lt_succ htail, ?_⟩
    unfold nextItem
    split
    · next hnil => exact absurd (hs.symm.trans hnil) (List.cons_ne_nil _ _)
    · next hcons =>
      obtain ⟨rfl, rfl⟩ := List.cons.inj (hs.symm.trans hcons)
      have hcomma : Ascii.comma ≠ Ascii.closeBracket := by decide
      simp only [if_neg hcomma, Bool.false_eq_true, if_false, if_true]
      split
      · next hnil => exact absurd (ht.symm.trans hnil) (List.cons_ne_nil _ _)
      · next hcons =>
        obtain ⟨rfl, rfl⟩ := List.cons.inj (ht.symm.trans hcons)
        simp only [if_neg hopen]

/-- What the loop reads are items of the list, behind those that it was given. -/
theorem readsItems_of_readItems {count : Nat} {items : List α} {h : s.length < bound}
    {x : Scanned (List α) bound} (hread : readItems item bound count items s h = .ok x) :
    ∃ xs, x.value = items.reverse ++ xs ∧ ReadsItems item items.isEmpty s xs x.rest := by
  -- On the length of what is left: every item takes some of it away.
  induction hn : s.length using Nat.strongRecOn generalizing s count items with
  | _ n ih =>
  subst hn
  rw [readItems] at hread
  split at hread
  · cases hread
  · next hnext =>
    obtain rfl := Except.ok.inj hread
    exact ⟨[], (List.append_nil _).symm, .closed (nextItem_eq_closed hnext)⟩
  · next start hstart hnext =>
    obtain ⟨b, tail, rfl, hpart, hopen⟩ := nextItem_eq_item hnext
    split at hread
    · cases hread
    · next y hitem =>
      have hshorter : y.rest.length < s.length :=
        Nat.lt_of_lt_of_le y.shorter (Nat.le_of_lt_succ hstart)
      obtain ⟨xs, hvalue, hothers⟩ := ih y.rest.length hshorter hread rfl
      refine ⟨y.value :: xs, ?_, .item hpart hopen ⟨y.shorter, hitem⟩ hothers⟩
      rw [hvalue, List.reverse_cons, List.append_assoc, List.singleton_append]

/-- The items of a list are what the loop reads, behind those that it was given. -/
theorem readItems_of_readsItems {items xs : List α}
    (hread : ReadsItems item items.isEmpty s xs rest) (count : Nat) (h : s.length < bound) :
    ∃ h', readItems item bound count items s h = .ok ⟨items.reverse ++ xs, rest, h'⟩ := by
  induction xs generalizing s count items with
  | nil =>
    cases hread with
    | closed hs =>
      have hclosed : ∃ h', nextItem s.length items.isEmpty s (Nat.le_refl _) =
          .ok (.closed rest h') := nextItem_of_closed hs (Nat.le_refl _)
      obtain ⟨hrest, hnext⟩ := hclosed
      refine ⟨Nat.lt_of_le_of_lt (Nat.le_of_lt_succ hrest) h, ?_⟩
      rw [readItems]
      simp only [hnext, List.append_nil]
  | cons x xs ih =>
    cases hread with
    | item hpart hopen hitem hothers =>
      obtain ⟨hmiddle, hfirst⟩ := readItems_of_item (nextItem_of_item hpart hopen (Nat.le_refl _))
        hitem h
      have hmore : ReadsItems item (x :: items).isEmpty _ xs rest := hothers
      obtain ⟨h', hread⟩ := ih hmore (count + 1) hmiddle
      refine ⟨h', hfirst.trans (hread.trans ?_)⟩
      simp only [List.reverse_cons, List.append_assoc, List.singleton_append]

end Items

/-! ## Objects -/

section Members

variable {bound : Nat} {first : Bool} {s rest : Bytes}

/-- Behind its quotation mark a name is read, or nothing is. -/
theorem readName_eq {next : NextMember bound} {h : s.length < bound}
    (hnext : readName bound s h = .ok next) :
    ∃ name start h', next = .member name start h' ∧ Reads readString s name start := by
  unfold readName at hnext
  split at hnext
  · cases hnext
  · next name hread =>
    obtain rfl := Except.ok.inj hnext
    exact ⟨name.value, name.rest, _, rfl, name.shorter, hread⟩

/-- An object that is found to end has its closing brace behind the blanks. -/
theorem nextMember_eq_closed {h : s.length ≤ bound} {h' : rest.length < bound}
    (hnext : nextMember bound first s h = .ok (.closed rest h')) :
    skipBlank s = Ascii.closeBrace :: rest := by
  unfold nextMember at hnext
  split at hnext
  · cases hnext
  · next b tail hs =>
    -- A name is no end, wherever it is read: behind the brace or behind a comma.
    have hname {tail : Bytes} {h : tail.length < bound} :
        readName bound tail h ≠ .ok (.closed rest h') := by
      intro hread
      obtain ⟨name, start, _, hnext, _⟩ := readName_eq hread
      cases hnext
    split at hnext
    · next hb =>
      obtain rfl := NextMember.closed.inj (Except.ok.inj hnext)
      rw [hs, hb]
    · split at hnext
      · split at hnext
        · exact absurd hnext hname
        · cases hnext
      · split at hnext
        · split at hnext
          · cases hnext
          · split at hnext
            · exact absurd hnext hname
            · split at hnext <;> cases hnext
        · cases hnext

/-- Where a member is found, the next part is a string, which is its name. -/
theorem nextMember_eq_member {name : String} {start : Bytes} {h : s.length ≤ bound}
    {h' : start.length < bound} (hnext : nextMember bound first s h = .ok (.member name start h')) :
    ∃ text, NextPart first s Ascii.quote text ∧ Reads readString text name start := by
  unfold nextMember at hnext
  split at hnext
  · cases hnext
  · next b tail hs =>
    have hname {tail : Bytes} {h : tail.length < bound}
        (hread : readName bound tail h = .ok (.member name start h')) :
        Reads readString tail name start := by
      obtain ⟨_, _, _, hnext, hreads⟩ := readName_eq hread
      obtain ⟨rfl, rfl⟩ := NextMember.member.inj hnext
      exact hreads
    split at hnext
    · cases hnext
    · split at hnext
      · next hfirst =>
        subst hfirst
        split at hnext
        · next hquote =>
          subst hquote
          exact ⟨tail, .first hs, hname hnext⟩
        · cases hnext
      · next hother =>
        obtain rfl : first = false := Bool.eq_false_iff.2 hother
        split at hnext
        · next hcomma =>
          subst hcomma
          split at hnext
          · cases hnext
          · next c tail hc =>
            split at hnext
            · next hquote =>
              subst hquote
              exact ⟨tail, .other hs hc, hname hnext⟩
            · split at hnext <;> cases hnext
        · cases hnext

/-- A closing brace behind the blanks ends an object. -/
theorem nextMember_of_closed (hs : skipBlank s = Ascii.closeBrace :: rest) (h : s.length ≤ bound) :
    ∃ h', nextMember bound first s h = .ok (.closed rest h') := by
  refine ⟨lt_of_skipBlank hs h, ?_⟩
  unfold nextMember
  split
  · next hnil => exact absurd (hs.symm.trans hnil) (List.cons_ne_nil _ _)
  · next hcons =>
    obtain ⟨rfl, rfl⟩ := List.cons.inj (hs.symm.trans hcons)
    rfl

/-- A string is read as the name of a member. -/
theorem readName_of_reads {name : String} {start : Bytes} (hname : Reads readString s name start)
    (h : s.length < bound) : ∃ h', readName bound s h = .ok (.member name start h') := by
  obtain ⟨hstart, hread⟩ := hname
  unfold readString at hread
  refine ⟨Nat.lt_trans hstart h, ?_⟩
  unfold readName
  rw [hread]

/-- A string that is the next part of an object is found as the name of a member. -/
theorem nextMember_of_member {name : String} {text start : Bytes}
    (hnext : NextPart first s Ascii.quote text) (hname : Reads readString text name start)
    (h : s.length ≤ bound) : ∃ h', nextMember bound first s h = .ok (.member name start h') := by
  cases hnext with
  | first hs =>
    obtain ⟨h', hread⟩ := readName_of_reads hname (lt_of_skipBlank hs h)
    refine ⟨h', ?_⟩
    unfold nextMember
    split
    · next hnil => exact absurd (hs.symm.trans hnil) (List.cons_ne_nil _ _)
    · next hcons =>
      obtain ⟨rfl, rfl⟩ := List.cons.inj (hs.symm.trans hcons)
      exact hread
  | other hs ht =>
    have htail := lt_of_skipBlank ht (Nat.le_of_lt (lt_of_skipBlank hs h))
    obtain ⟨h', hread⟩ := readName_of_reads hname htail
    refine ⟨h', ?_⟩
    unfold nextMember
    split
    · next hnil => exact absurd (hs.symm.trans hnil) (List.cons_ne_nil _ _)
    · next hcons =>
      obtain ⟨rfl, rfl⟩ := List.cons.inj (hs.symm.trans hcons)
      have hbrace : Ascii.comma ≠ Ascii.closeBrace := by decide
      simp only [if_neg hbrace, Bool.false_eq_true, if_false, if_true]
      split
      · next hnil => exact absurd (ht.symm.trans hnil) (List.cons_ne_nil _ _)
      · next hcons =>
        obtain ⟨rfl, rfl⟩ := List.cons.inj (ht.symm.trans hcons)
        exact hread

variable {σ : Type}

/-- The value of a member is read behind its colon. -/
theorem readMemberValue_eq_ok {name : String} {value : Reader σ} {h : s.length ≤ bound}
    {x : Scanned σ bound} (hread : readMemberValue name value bound s h = .ok x) :
    ∃ text, skipBlank s = Ascii.colon :: text ∧ Reads value text x.value x.rest := by
  unfold readMemberValue at hread
  split at hread
  · cases hread
  · next b text hs =>
    split at hread
    · next hcolon =>
      subst hcolon
      split at hread
      · cases hread
      · next y hvalue =>
        obtain rfl := Except.ok.inj hread
        exact ⟨text, hs, y.shorter, hvalue⟩
    · cases hread

/-- An object that is read has members, which make its state. -/
theorem readsMembers_of_readMembers {enter : σ → String → Admission σ} {state : σ}
    {h : s.length < bound} {x : Scanned σ bound}
    (hread : readMembers enter bound first state s h = .ok x) :
    ∃ members, ReadsMembers enter first state s members x.value x.rest := by
  -- As for a list, with the state that the members have made so far.
  induction hn : s.length using Nat.strongRecOn generalizing s first state with
  | _ n ih =>
  subst hn
  rw [readMembers] at hread
  split at hread
  · cases hread
  · next hnext =>
    obtain rfl := Except.ok.inj hread
    exact ⟨[], .closed (nextMember_eq_closed hnext)⟩
  · next name start hstart hnext =>
    obtain ⟨text, hpart, hname⟩ := nextMember_eq_member hnext
    split at hread
    · cases hread
    · next reader henter =>
      split at hread
      · cases hread
      · next y hvalue =>
        obtain ⟨value, hcolon, hreads⟩ := readMemberValue_eq_ok hvalue
        obtain ⟨members, hothers⟩ := ih y.rest.length y.shorter hread rfl
        exact ⟨(name, value) :: members, .member hpart hname hcolon henter hreads hothers⟩

/-- Members that make a state in turn are read. -/
theorem readMembers_of_readsMembers {enter : σ → String → Admission σ} {state last : σ}
    {members : List (String × Bytes)}
    (hread : ReadsMembers enter first state s members last rest) (h : s.length < bound) :
    ∃ h', readMembers enter bound first state s h = .ok ⟨last, rest, h'⟩ := by
  induction hread with
  | @closed first state s rest hs =>
    obtain ⟨hrest, hnext⟩ : ∃ h', nextMember s.length first s (Nat.le_refl _) =
        .ok (.closed rest h') := nextMember_of_closed hs (Nat.le_refl _)
    refine ⟨Nat.lt_trans hrest h, ?_⟩
    rw [readMembers]
    simp only [hnext]
  | member hpart hname hcolon henter hvalue _ ih =>
    obtain ⟨hmiddle, hfirst⟩ := readMembers_of_member
      (nextMember_of_member hpart hname (Nat.le_refl _)) henter
      (fun bound h => readMemberValue_of_colon hcolon hvalue h) h
    obtain ⟨h', hothers⟩ := ih hmiddle
    exact ⟨h', hfirst.trans hothers⟩

end Members

end Colloquy
