import Colloquy.Payload.Attachment
import Mathlib.Data.List.Forall2

/-!
# The attachments of a request

What it takes for JSON values to be attachments, said without the functions that check it. A value
is no attachment if it is no object, or if one of three members is no text: `WrongPart` says which
parts of it are wrong, and `allOfJson_cases` that the check reports the first wrong part of the
first value that has one. An attachment is not accepted if one of its types is not listed, and
`checkTypes_cases` says the same of the check of that.
-/

set_option autoImplicit false

namespace Colloquy

/-- The first element of a list that has a property is `a`, at `index`. -/
inductive IsFirst {α : Type} (P : α → Prop) : (l : List α) → (index : Nat) → (a : α) → Prop
  | here {a : α} {l : List α} (h : P a) : IsFirst P (a :: l) 0 a
  /-- The first element does not have it. -/
  | there {a b : α} {l : List α} {index : Nat} (hb : ¬P b) (h : IsFirst P l index a) :
    IsFirst P (b :: l) (index + 1) a

namespace IsFirst

variable {α : Type} {P : α → Prop} {l : List α} {i j : Nat} {a b : α}

/-- Where the first element is, that it has the property and that none before it has. -/
theorem spec (h : IsFirst P l i a) :
    l[i]? = some a ∧ P a ∧ ∀ j b, j < i → l[j]? = some b → ¬P b := by
  induction h with
  | here h => exact ⟨rfl, h, fun j b hj => absurd hj (Nat.not_lt_zero j)⟩
  | there hb _ ih =>
    obtain ⟨hget, hP, hbefore⟩ := ih
    refine ⟨hget, hP, fun j c hj hc => ?_⟩
    cases j with
    | zero =>
      obtain rfl := Option.some.inj hc
      exact hb
    | succ j => exact hbefore j c (Nat.lt_of_succ_lt_succ hj) hc

/-- There is only one first element. -/
theorem unique (ha : IsFirst P l i a) (hb : IsFirst P l j b) : i = j ∧ a = b := by
  induction ha generalizing j with
  | here h =>
    cases hb with
    | here _ => exact ⟨rfl, rfl⟩
    | there hnot _ => exact absurd h hnot
  | there hnot _ ih =>
    cases hb with
    | here h => exact absurd h hnot
    | there _ hb =>
      obtain ⟨rfl, rfl⟩ := ih hb
      exact ⟨rfl, rfl⟩

end IsFirst

namespace Attachment

/-! ## Values that are no attachments -/

/-- The parts of an attachment, in the order in which they are looked at. -/
def parts : List String :=
  ["attachment", "attachment_type", "content_type", "content"]

/-- The parts of a value that keep it from being an attachment. -/
inductive WrongPart (value : Json.Value) : (part : String) → Prop
  | noObject (h : ∀ members, value ≠ .object members) : WrongPart value "attachment"
  /-- A member of it is no text. -/
  | noText {name : String} (hname : name ∈ ["attachment_type", "content_type", "content"])
      (h : ∀ text, value.member? name ≠ some (.text text)) : WrongPart value name

/-- The attachment that a value is. -/
structure IsReadAs (value : Json.Value) (a : Attachment) : Prop where
  object : ∃ members, value = .object members
  kind : value.member? "attachment_type" = some (.text a.kind)
  contentType : value.member? "content_type" = some (.text a.contentType)
  content : value.member? "content" = some (.text a.content)

/-- A member that is a text is not wrong. -/
theorem not_wrongPart_of_text {value : Json.Value} {name text : String}
    (hname : name ≠ "attachment") (h : value.member? name = some (.text text)) :
    ¬WrongPart value name := by
  intro hwrong
  cases hwrong with
  | noObject _ => exact hname rfl
  | noText _ hnot => exact hnot text h

/-- No part of an attachment is wrong. -/
theorem IsReadAs.not_wrongPart {value : Json.Value} {a : Attachment} (h : IsReadAs value a)
    (part : String) : ¬WrongPart value part := by
  intro hwrong
  cases hwrong with
  | noObject hnot =>
    obtain ⟨members, hvalue⟩ := h.object
    exact hnot members hvalue
  | noText hname hnot =>
    simp only [List.mem_cons, List.not_mem_nil, or_false] at hname
    rcases hname with rfl | rfl | rfl
    · exact hnot _ h.kind
    · exact hnot _ h.contentType
    · exact hnot _ h.content

/-- Every value of a list that is read is an attachment. -/
theorem exists_isReadAs {values : List Json.Value} {attachments : List Attachment}
    (h : List.Forall₂ IsReadAs values attachments) : ∀ value ∈ values, ∃ a, IsReadAs value a := by
  induction h with
  | nil => simp
  | cons hread _ ih =>
    intro value hvalue
    rcases List.mem_cons.1 hvalue with rfl | hvalue
    · exact ⟨_, hread⟩
    · exact ih value hvalue

/-- A member is read if it is a text. -/
theorem textOf_cases (index : Nat) (value : Json.Value) (name : String) :
    (∃ text, textOf index value name = .ok text ∧ value.member? name = some (.text text)) ∨
      (textOf index value name = .error (.malformedAttachment index name) ∧
        ∀ text, value.member? name ≠ some (.text text)) := by
  unfold textOf
  cases hmember : value.member? name with
  | none => exact Or.inr ⟨rfl, by simp⟩
  | some member =>
    cases member with
    | text text => exact Or.inl ⟨text, rfl, rfl⟩
    | _ => exact Or.inr ⟨rfl, by simp⟩

/-- A value is an attachment, or it is reported with its first wrong part. -/
theorem ofJson_cases (index : Nat) (value : Json.Value) :
    (∃ a, ofJson index value = .ok a ∧ IsReadAs value a) ∨
      ∃ k part, IsFirst (WrongPart value) parts k part ∧
        ofJson index value = .error (.malformedAttachment index part) := by
  by_cases hobject : ∃ members, value = .object members
  · have hright : ¬WrongPart value "attachment" := by
      rintro (hnot | ⟨hname, _⟩)
      · obtain ⟨members, hvalue⟩ := hobject
        exact hnot members hvalue
      · simp at hname
    have hread : ofJson index value = (textOf index value "attachment_type").bind fun kind =>
        (textOf index value "content_type").bind fun contentType =>
        (textOf index value "content").bind fun content => .ok ⟨kind, contentType, content⟩ := by
      obtain ⟨members, rfl⟩ := hobject
      rfl
    rw [hread]
    rcases textOf_cases index value "attachment_type" with ⟨kind, hok, hkind⟩ | ⟨herror, hnot⟩
    · rw [hok]
      have hrightKind := not_wrongPart_of_text (by decide) hkind
      rcases textOf_cases index value "content_type" with ⟨contentType, hok, htype⟩ | ⟨herror, hnot⟩
      · rw [hok]
        have hrightType := not_wrongPart_of_text (by decide) htype
        rcases textOf_cases index value "content" with ⟨content, hok, hcontent⟩ | ⟨herror, hnot⟩
        · rw [hok]
          exact Or.inl ⟨⟨kind, contentType, content⟩, rfl, hobject, hkind, htype, hcontent⟩
        · rw [herror]
          have hwrong : WrongPart value "content" := .noText (by simp) hnot
          exact Or.inr ⟨3, "content",
            .there hright (.there hrightKind (.there hrightType (.here hwrong))), rfl⟩
      · rw [herror]
        have hwrong : WrongPart value "content_type" := .noText (by simp) hnot
        exact Or.inr ⟨2, "content_type", .there hright (.there hrightKind (.here hwrong)), rfl⟩
    · rw [herror]
      have hwrong : WrongPart value "attachment_type" := .noText (by simp) hnot
      exact Or.inr ⟨1, "attachment_type", .there hright (.here hwrong), rfl⟩
  · have hwrong : WrongPart value "attachment" :=
      .noObject fun members h => hobject ⟨members, h⟩
    refine Or.inr ⟨0, "attachment", .here hwrong, ?_⟩
    cases value with
    | object members => exact absurd ⟨members, rfl⟩ hobject
    | _ => rfl

/-- The attachments that values are which stand from the place `start` on. -/
def allFrom (start : Nat) (values : List Json.Value) : Except Violation (List Attachment) :=
  (values.zipIdx start).mapM fun (value, index) => ofJson index value

/-- The first value is read before the others. -/
theorem allFrom_cons (start : Nat) (value : Json.Value) (values : List Json.Value) :
    allFrom start (value :: values) = (ofJson start value).bind fun a =>
      (allFrom (start + 1) values).bind fun attachments => .ok (a :: attachments) := by
  unfold allFrom
  rw [List.zipIdx_cons, List.mapM_cons]
  rfl

/-- Values are attachments, or the first one that is none is reported with its first wrong part. -/
theorem allFrom_cases (start : Nat) (values : List Json.Value) :
    (∃ attachments, allFrom start values = .ok attachments ∧
        List.Forall₂ IsReadAs values attachments) ∨
      ∃ index value k part,
        IsFirst (fun value => ∃ part, WrongPart value part) values index value ∧
        IsFirst (WrongPart value) parts k part ∧
        allFrom start values = .error (.malformedAttachment (start + index) part) := by
  induction values generalizing start with
  | nil => exact Or.inl ⟨[], rfl, .nil⟩
  | cons value values ih =>
    rw [allFrom_cons]
    rcases ofJson_cases start value with ⟨a, hok, hread⟩ | ⟨k, part, hfirst, herror⟩
    · rw [hok]
      have hright : ¬∃ part, WrongPart value part := fun ⟨part, h⟩ => hread.not_wrongPart part h
      rcases ih (start + 1) with
        ⟨attachments, hok, hreads⟩ | ⟨index, wrong, k, part, hwrong, hpart, herror⟩
      · rw [hok]
        exact Or.inl ⟨a :: attachments, rfl, .cons hread hreads⟩
      · rw [herror]
        refine Or.inr ⟨index + 1, wrong, k, part, .there hright hwrong, hpart, ?_⟩
        rw [Nat.add_assoc, Nat.add_comm 1 index]
        rfl
    · rw [herror]
      exact Or.inr ⟨0, value, k, part, .here ⟨part, hfirst.spec.2.1⟩, hfirst, rfl⟩

/-- The values of a request are attachments, or the first one that is none is reported with its
first wrong part. -/
theorem allOfJson_cases (values : List Json.Value) :
    (∃ attachments, allOfJson values = .ok attachments ∧
        List.Forall₂ IsReadAs values attachments) ∨
      ∃ index value k part,
        IsFirst (fun value => ∃ part, WrongPart value part) values index value ∧
        IsFirst (WrongPart value) parts k part ∧
        allOfJson values = .error (.malformedAttachment index part) := by
  have hall : allOfJson values = allFrom 0 values := rfl
  rw [hall]
  rcases allFrom_cases 0 values with hok | ⟨index, value, k, part, hwrong, hpart, herror⟩
  · exact Or.inl hok
  · rw [Nat.zero_add] at herror
    exact Or.inr ⟨index, value, k, part, hwrong, hpart, herror⟩

/-! ## Attachments that are not accepted -/

/-- The types of an attachment, in the order in which they are looked at, with the ones that are
accepted. -/
def types : List (String × List String) :=
  [("attachment_type", kinds), ("content_type", contentTypes)]

/-- The types of a value that are not accepted. -/
def Unlisted (value : Json.Value) (type : String × List String) : Prop :=
  ∃ text, value.member? type.1 = some (.text text) ∧ text ∉ type.2

/-- A type of an attachment that is listed is accepted. -/
theorem not_unlisted {value : Json.Value} {type : String × List String} {text : String}
    (h : value.member? type.1 = some (.text text)) (hlisted : text ∈ type.2) :
    ¬Unlisted value type := by
  rintro ⟨other, hother, hnot⟩
  rw [h] at hother
  obtain rfl := Json.Value.text.inj (Option.some.inj hother)
  exact hnot hlisted

/-- An attachment is accepted, or it is reported with its first type that is not. -/
theorem unsupported?_cases (index : Nat) {value : Json.Value} {a : Attachment}
    (h : IsReadAs value a) :
    (unsupported? index a = none ∧ ∀ type ∈ types, ¬Unlisted value type) ∨
      ∃ k type text, IsFirst (Unlisted value) types k type ∧
        value.member? type.1 = some (.text text) ∧
        unsupported? index a = some (.unsupportedAttachment index type.1 text) := by
  unfold unsupported? types
  by_cases hkind : a.kind ∈ kinds
  · have hlisted : ¬Unlisted value ("attachment_type", kinds) := not_unlisted h.kind hkind
    by_cases htype : a.contentType ∈ contentTypes
    · have hlisted' : ¬Unlisted value ("content_type", contentTypes) :=
        not_unlisted h.contentType htype
      left
      refine ⟨by simp [hkind, htype], ?_⟩
      intro type hmem
      simp only [List.mem_cons, List.not_mem_nil, or_false] at hmem
      rcases hmem with rfl | rfl
      · exact hlisted
      · exact hlisted'
    · have hunlisted : Unlisted value ("content_type", contentTypes) := ⟨_, h.contentType, htype⟩
      exact Or.inr ⟨1, _, a.contentType, .there hlisted (.here hunlisted), h.contentType,
        by simp [hkind, htype]⟩
  · have hunlisted : Unlisted value ("attachment_type", kinds) := ⟨_, h.kind, hkind⟩
    exact Or.inr ⟨0, _, a.kind, .here hunlisted, h.kind, by simp [hkind]⟩

/-- The first attachment that is not accepted, from the place `start` on. -/
def unsupportedFrom? (start : Nat) (attachments : List Attachment) : Option Violation :=
  (attachments.zipIdx start).findSome? fun (a, index) => unsupported? index a

/-- All attachments are accepted, or the first one that is not is reported with its first type that
is not. -/
theorem unsupportedFrom?_cases (start : Nat) {values : List Json.Value}
    {attachments : List Attachment} (h : List.Forall₂ IsReadAs values attachments) :
    (unsupportedFrom? start attachments = none ∧
        ∀ value ∈ values, ∀ type ∈ types, ¬Unlisted value type) ∨
      ∃ index value k type text,
        IsFirst (fun value => ∃ type ∈ types, Unlisted value type) values index value ∧
        IsFirst (Unlisted value) types k type ∧ value.member? type.1 = some (.text text) ∧
        unsupportedFrom? start attachments =
          some (.unsupportedAttachment (start + index) type.1 text) := by
  unfold unsupportedFrom?
  induction h generalizing start with
  | nil => exact Or.inl ⟨rfl, by simp⟩
  | cons hread _ ih =>
    rw [List.zipIdx_cons, List.findSome?_cons]
    rcases unsupported?_cases start hread with
      ⟨hnone, hlisted⟩ | ⟨k, type, text, hfirst, htext, hsome⟩
    · simp only [hnone]
      rcases ih (start + 1) with
        ⟨hrest, hall⟩ | ⟨index, value, k, type, text, hwrong, htype, htext, hsome⟩
      · refine Or.inl ⟨hrest, fun value hvalue => ?_⟩
        rcases List.mem_cons.1 hvalue with rfl | hvalue
        · exact hlisted
        · exact hall value hvalue
      · have hright := fun h : ∃ type ∈ types, Unlisted _ type =>
          hlisted h.choose h.choose_spec.1 h.choose_spec.2
        refine Or.inr ⟨index + 1, value, k, type, text, .there hright hwrong, htype, htext, ?_⟩
        rw [hsome, Nat.add_assoc, Nat.add_comm 1 index]
    · simp only [hsome]
      have hunlisted := hfirst.spec
      exact Or.inr ⟨0, _, k, type, text,
        .here ⟨type, List.mem_of_getElem? hunlisted.1, hunlisted.2.1⟩, hfirst, htext, rfl⟩

/-- All attachments of a request are accepted, or the first one that is not is reported with its
first type that is not. -/
theorem checkTypes_cases {values : List Json.Value} {attachments : List Attachment}
    (h : List.Forall₂ IsReadAs values attachments) :
    (checkTypes attachments = .ok () ∧ ∀ value ∈ values, ∀ type ∈ types, ¬Unlisted value type) ∨
      ∃ index value k type text,
        IsFirst (fun value => ∃ type ∈ types, Unlisted value type) values index value ∧
        IsFirst (Unlisted value) types k type ∧ value.member? type.1 = some (.text text) ∧
        checkTypes attachments = .error (.unsupportedAttachment index type.1 text) := by
  have hcheck : checkTypes attachments =
      (unsupportedFrom? 0 attachments).elim (.ok ()) .error := by
    unfold checkTypes unsupportedFrom?
    split
    · next hsome => rw [hsome, Option.elim_some]
    · next hnone => rw [hnone, Option.elim_none]
  rw [hcheck]
  rcases unsupportedFrom?_cases 0 h with
    ⟨hnone, hall⟩ | ⟨index, value, k, type, text, hwrong, htype, htext, hsome⟩
  · rw [hnone]
    exact Or.inl ⟨rfl, hall⟩
  · rw [hsome, Nat.zero_add]
    exact Or.inr ⟨index, value, k, type, text, hwrong, htype, htext, rfl⟩

end Attachment

end Colloquy
