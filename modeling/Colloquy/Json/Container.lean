import Colloquy.Json.StringLiteral

/-!
# Lists and objects

The loops that read a list from behind its opening bracket and an object from behind its opening
brace. What an item or a member is, is the caller's: `readItems` takes a reader of items, and
`readMembers` a state and what a name does to it. A failure inside an item or a member is reported
with the step that leads there.
-/

set_option autoImplicit false

namespace Colloquy.Json

/-- What stands next in a list. -/
inductive NextItem (bound : Nat)
  /-- The end of the list; `rest` follows its bracket. -/
  | closed (rest : Bytes) (shorter : rest.length < bound)
  /-- An item, with which `rest` begins. -/
  | item (rest : Bytes) (shorter : rest.length < bound)

/-- Looks for the next item of a list, the first one or one behind another. -/
def nextItem (bound : Nat) (first : Bool) (s : Bytes) (h : s.length ≤ bound) :
    Except Failure (NextItem (bound + 1)) :=
  have blank := length_skipBlank_le s
  match hs : skipBlank s with
  | [] => .error (.upon .endInList [])
  | b :: rest =>
    have hr : rest.length + 1 ≤ bound := by
      rw [hs] at blank
      exact Nat.le_trans blank h
    if b = Ascii.closeBracket then .ok (.closed rest (Nat.lt_succ_of_le (Nat.le_of_succ_le hr)))
    else if first then .ok (.item (b :: rest) (Nat.lt_succ_of_le hr))
    else if b = Ascii.comma then
      match hc : skipBlank rest with
      | [] => .error (.upon .endInValue [])
      | c :: tail =>
        if c = Ascii.closeBracket then .error (.upon .trailingComma (c :: tail))
        else .ok (.item (c :: tail) (by
          have := length_skipBlank_le rest
          rw [hc] at this
          omega))
    else .error (.upon .noListSeparator (b :: rest))

/-- Reads the rest of a list, of which `items` have been read, the last one first. -/
def readItems {α : Type} (item : Reader α) (bound count : Nat) (items : List α) (s : Bytes)
    (h : s.length < bound) : Except Failure (Scanned (List α) bound) :=
  match nextItem s.length items.isEmpty s (Nat.le_refl _) with
  | .error e => .error e
  | .ok (.closed rest hr) =>
    .ok ⟨items.reverse, rest, Nat.lt_of_le_of_lt (Nat.le_of_lt_succ hr) h⟩
  | .ok (.item start hr) =>
    match item start with
    | .error e => .error (e.inside (.index count))
    | .ok x =>
      readItems item bound (count + 1) (x.value :: items) x.rest
        (Nat.lt_of_le_of_lt (Nat.le_of_lt_succ (Nat.lt_trans x.shorter hr)) h)
termination_by s.length
decreasing_by exact Nat.lt_of_lt_of_le x.shorter (Nat.le_of_lt_succ hr)

/-- What stands next in an object. -/
inductive NextMember (bound : Nat)
  /-- The end of the object; `rest` follows its brace. -/
  | closed (rest : Bytes) (shorter : rest.length < bound)
  /-- A member of a name; `rest` follows the name. -/
  | member (name : String) (rest : Bytes) (shorter : rest.length < bound)

/-- Reads the name of a member from behind its quotation mark. -/
def readName (bound : Nat) (s : Bytes) (h : s.length < bound) :
    Except Failure (NextMember bound) :=
  match readStringFrom s.length ByteArray.empty s (Nat.le_refl _) with
  | .error e => .error e
  | .ok name => .ok (.member name.value name.rest (Nat.lt_trans name.shorter h))

/-- Looks for the next member of an object, the first one or one behind another. -/
def nextMember (bound : Nat) (first : Bool) (s : Bytes) (h : s.length ≤ bound) :
    Except Failure (NextMember bound) :=
  have blank := length_skipBlank_le s
  match hs : skipBlank s with
  | [] => .error (.upon .endInObject [])
  | b :: rest =>
    have hr : rest.length < bound := by
      rw [hs] at blank
      exact Nat.le_trans blank h
    if b = Ascii.closeBrace then .ok (.closed rest hr)
    else if first then
      if b = Ascii.quote then readName bound rest hr
      else .error (.upon .nameNotText (b :: rest))
    else if b = Ascii.comma then
      match hc : skipBlank rest with
      | [] => .error (.upon .endInValue [])
      | c :: tail =>
        if c = Ascii.quote then
          readName bound tail (by
            have := length_skipBlank_le rest
            rw [hc, List.length_cons] at this
            omega)
        else if c = Ascii.closeBrace then .error (.upon .trailingComma (c :: tail))
        else .error (.upon .nameNotText (c :: tail))
    else .error (.upon .noObjectSeparator (b :: rest))

/-- What a name does to the state of the object that it stands in. -/
inductive Admission (σ : Type)
  | refused (cause : Cause)
  /-- Its value is read and makes the next state. -/
  | admitted (value : Reader σ)

/-- Where an object is left that is given up behind a name or its brace: behind its closing brace
if that is next, else in front of what is. -/
def leaveObject (s : Bytes) : Bytes :=
  match skipBlank s with
  | [] => []
  | b :: rest => if b = Ascii.closeBrace then rest else b :: rest

/-- Where a list is left that is given up behind its bracket: behind its closing bracket if that
is next, behind a comma and blanks if there is one, else in front of what is next. -/
def leaveList (s : Bytes) : Bytes :=
  match skipBlank s with
  | [] => []
  | b :: rest =>
    if b = Ascii.closeBracket then rest
    else if b = Ascii.comma then skipBlank rest
    else b :: rest

/-- What follows an object is no longer than what follows its last member. -/
theorem length_leaveObject_le (s : Bytes) : (leaveObject s).length ≤ s.length := by
  have blank := length_skipBlank_le s
  unfold leaveObject
  split
  · exact Nat.zero_le _
  · next b rest hs =>
    rw [hs] at blank
    split
    · exact Nat.le_of_succ_le blank
    · exact blank

/-- What follows a list is no longer than what follows its last item. -/
theorem length_leaveList_le (s : Bytes) : (leaveList s).length ≤ s.length := by
  have blank := length_skipBlank_le s
  unfold leaveList
  split
  · exact Nat.zero_le _
  · next b rest hs =>
    rw [hs] at blank
    split
    · exact Nat.le_of_succ_le blank
    · split
      · exact Nat.le_trans (length_skipBlank_le rest) (Nat.le_of_succ_le blank)
      · exact blank

/-- Reads the colon behind a name and hands what follows to the reader of the value. -/
def readMemberValue {σ : Type} (name : String) (value : Reader σ) (bound : Nat) (s : Bytes)
    (h : s.length ≤ bound) : Except Failure (Scanned σ bound) :=
  match hs : skipBlank s with
  | [] => .error (.upon .endInObject [])
  | b :: rest =>
    if b = Ascii.colon then
      match value rest with
      | .error e => .error (e.inside (.member name))
      | .ok x => .ok (x.weaken (le_of_length_lt (lt_of_skipBlank hs h)))
    else .error (.upon .noColon (b :: rest))

/-- Reads the rest of an object, of which the members so far have made `state`. -/
def readMembers {σ : Type} (enter : σ → String → Admission σ) (bound : Nat) (first : Bool)
    (state : σ) (s : Bytes) (h : s.length < bound) : Except Failure (Scanned σ bound) :=
  match nextMember s.length first s (Nat.le_refl _) with
  | .error e => .error (e.inside .nameless)
  | .ok (.closed rest hr) => .ok ⟨state, rest, Nat.lt_trans hr h⟩
  | .ok (.member name start hr) =>
    match enter state name with
    | .refused cause => .error (.before cause (leaveObject start))
    | .admitted value =>
      match readMemberValue name value s.length start (Nat.le_of_lt hr) with
      | .error e => .error e
      | .ok x => readMembers enter bound false x.value x.rest (Nat.lt_trans x.shorter h)
termination_by s.length
decreasing_by exact x.shorter

end Colloquy.Json
