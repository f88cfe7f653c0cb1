import Colloquy.Proofs.Json.ObjectTree
import Colloquy.Proofs.Shape.DraftText

/-!
# The members that a verdict depends on

A query or feedback is decoded and then checked (`Query.verdict`, `Feedback.verdict`). What comes of
it depends only on what stands under the known names of the body (`verdicts_of_known_members`). So
the order of the members does not matter, nor do the blanks between tokens, members of other names
with whatever value, or a known member that is `null` instead of left out. The same holds inside
each attachment, where the names must not repeat and the values of additional members have to be
read (`SameAttachment`).
-/

set_option autoImplicit false

namespace Colloquy

open Json

/-! ## Bodies by their known members -/

/-- The names of the fields of a record. -/
def Shape.fieldNames : Shape → List String
  | .record _ _ fields => fields.names
  | _ => []

/-- A draft is written as an object. -/
theorem Shape.exists_toJson_eq {shape : Shape} (hdraft : shape.isDefiniteDraft = true)
    (x : shape.Carrier) : ∃ entries, shape.toJson x = .object entries := by
  obtain ⟨name, fields, rfl, _, _⟩ := Shape.eq_record_of_isDefiniteDraft hdraft
  exact ⟨fields.toMembers x, by rw [Shape.toJson]⟩

/-- Only the fields of a draft are written. -/
theorem Shape.mem_fieldNames {shape : Shape} (hdraft : shape.isDefiniteDraft = true)
    {x : shape.Carrier} {entries : List (String × Value)} (h : shape.toJson x = .object entries)
    {entry : String × Value} (hentry : entry ∈ entries) : entry.1 ∈ shape.fieldNames := by
  obtain ⟨name, fields, rfl, _, _⟩ := Shape.eq_record_of_isDefiniteDraft hdraft
  rw [Shape.toJson] at h
  obtain rfl := Value.object.inj h
  rw [Shape.fieldNames, ← fields.names_toMembers x]
  exact List.mem_map_of_mem hentry

/-- A body is an object of some members, with blanks around it; every name is a text, and no known
one comes twice. -/
structure IsBodyOf (known : List String) (body : Bytes) (members : List (StringText × Tree)) :
    Prop where
  object : ∃ front behind text, Writes (.object members) text ∧
    body = Blanks.bytes front ++ (text ++ Blanks.bytes behind)
  named : AreNamed members
  once : NoneRepeated known members

section Bodies

variable {known : List String} {body : Bytes} {members : List (StringText × Tree)}

/-- A body has one list of members. -/
theorem IsObject.unique {found found' : List (String × Bytes)} (h : IsObject body found)
    (h' : IsObject body found') : found = found' := by
  obtain ⟨inside, rest, hopens, hread, _⟩ := h
  obtain ⟨inside', rest', hopens', hread', _⟩ := h'
  obtain ⟨_, rfl⟩ := List.cons.inj (hopens.symm.trans hopens')
  exact (hread.unique hread').1

/-- A body of known members is an object, in which the text of each member is found. -/
theorem IsBodyOf.exists_isObject (h : IsBodyOf known body members) :
    (∃ inside, skipBlank body = Ascii.openBrace :: inside) ∧
      ∃ found, IsObject body found ∧ List.Forall₂ TextOf members found := by
  obtain ⟨front, behind, text, hwrites, rfl⟩ := h.object
  cases hwrites with
  | @object _ inside hmembers =>
    have hopens : skipBlank (front.bytes ++ (Ascii.openBrace :: inside ++ behind.bytes)) =
        Ascii.openBrace :: (inside ++ behind.bytes) :=
      (front.skip _).trans (skipBlank_of_not (by decide) _)
    obtain ⟨found, hread, htexts⟩ := exists_readsMembers members h.named hmembers behind.bytes
    have hblank : skipBlank behind.bytes = [] := by
      have hskip := behind.skip []
      rwa [List.append_nil] at hskip
    exact ⟨⟨_, hopens⟩, found, ⟨_, _, hopens, hread, hblank⟩, htexts⟩

/-- A body is decoded to a draft if the trees under the known names have the values of its
fields. -/
theorem IsBodyOf.decode_eq_ok_iff {α : Type} [Encoded α]
    (h : IsBodyOf (Encoded.shape α).fieldNames body members)
    (hdraft : (Encoded.shape α).isDefiniteDraft = true)
    (hpack : ∀ x : (Encoded.shape α).Carrier, Encoded.pack (Encoded.unpack x : α) = x) {a : α}
    {entries : List (String × Value)} (hentries : Encoded.toJson a = .object entries) :
    Encoded.decode body = .ok a ↔
      ∀ entry ∈ entries, (Tree.under entry.1 members).read? (depthLimit - 1) = some entry.2 := by
  obtain ⟨⟨inside, hopens⟩, found, hobject, htexts⟩ := h.exists_isObject
  have hmember (entry : String × Value) (hentry : entry ∈ entries) :=
    memberIs_iff htexts (h.once entry.1 (Shape.mem_fieldNames hdraft hentries hentry))
      (depthLimit - 1) entry.2
  rw [Encoded.decode_eq_ok_iff hdraft hpack hopens]
  constructor
  · rintro ⟨entries', hentries', found', hobject', hmembers⟩ entry hentry
    obtain rfl := Value.object.inj (hentries.symm.trans hentries')
    obtain rfl := IsObject.unique hobject hobject'
    exact (hmember entry hentry).1 (hmembers entry hentry)
  · intro hread
    exact ⟨entries, hentries, found, hobject,
      fun entry hentry => (hmember entry hentry).2 (hread entry hentry)⟩

end Bodies

/-! ## Attachments -/

/-- The members of an attachment that are known. -/
def Attachment.names : List String :=
  ["attachment_type", "content_type", "content"]

/-- Members as they may stand in an attachment: every name is a text and none comes twice, and the
value of an additional member is read. -/
structure IsAttachmentOf (depth : Nat) (members : List (StringText × Tree)) : Prop where
  named : AreNamed members
  nodup : (members.map (·.1.content?)).Nodup
  additional : ∀ member ∈ members, (∀ name ∈ Attachment.names, isNamed name member = false) →
    (member.2.read? depth).isSome = true

/-- Two attachments are the same up to the order of their members, additional ones, and known ones
that are `null` or left out. -/
inductive SameAttachment (depth : Nat) : Tree → Tree → Prop
  | same (tree : Tree) : SameAttachment depth tree tree
  | object {members others : List (StringText × Tree)} (h : IsAttachmentOf depth members)
    (h' : IsAttachmentOf depth others)
    (hsame : ∀ name ∈ Attachment.names, Tree.under name members = Tree.under name others) :
    SameAttachment depth (.object members) (.object others)

/-- Two lists of attachments are the same, one by one. -/
inductive SameAttachments (depth : Nat) : Tree → Tree → Prop
  | same (tree : Tree) : SameAttachments depth tree tree
  | list {items others : List Tree} (h : List.Forall₂ (SameAttachment depth) items others) :
    SameAttachments depth (.list items) (.list others)

section Attachments

variable {depth : Nat}

/-- Attachments may be compared in either order. -/
theorem SameAttachment.symm {tree other : Tree} (h : SameAttachment depth tree other) :
    SameAttachment depth other tree := by
  cases h with
  | same => exact .same _
  | object h h' hsame => exact .object h' h fun name hname => (hsame name hname).symm

/-- Lists of attachments may be compared in either order. -/
theorem SameAttachments.symm {tree other : Tree} (h : SameAttachments depth tree other) :
    SameAttachments depth other tree := by
  cases h with
  | same => exact .same _
  | list h => exact .list (h.flip.imp fun _ _ => SameAttachment.symm)

/-- Values that are the same attachment, wherever they stand, or the same as none. -/
def AttachedAlike (value other : Value) : Prop :=
  ∀ index, Attachment.ofJson index value = Attachment.ofJson index other

/-- An object is an attachment by what is under the known names. -/
theorem attachedAlike_of_text? {entries others : List (String × Value)}
    (h : ∀ name ∈ Attachment.names, ((Value.object entries).member? name).bind Value.text? =
      ((Value.object others).member? name).bind Value.text?) :
    AttachedAlike (.object entries) (.object others) := by
  intro index
  have htext (name : String) (hname : name ∈ Attachment.names) :
      Attachment.textOf index (.object entries) name =
        Attachment.textOf index (.object others) name := by
    unfold Attachment.textOf
    rw [h name hname]
  unfold Attachment.ofJson
  simp only [htext "attachment_type" (by decide), htext "content_type" (by decide),
    htext "content" (by decide)]

/-- The values of all members are read if those under the known names are. -/
theorem IsAttachmentOf.exists_readMembers? {members others : List (StringText × Tree)}
    {entries : List (String × Value)} (h : IsAttachmentOf depth others)
    (hread : readMembers? members depth = some entries)
    (hsame : ∀ name ∈ Attachment.names, Tree.under name members = Tree.under name others) :
    ∃ entries', readMembers? others depth = some entries' := by
  refine Colloquy.exists_readMembers? h.named fun member hmember => ?_
  by_cases hother : ∀ name ∈ Attachment.names, isNamed name member = false
  · exact h.additional member hmember hother
  · -- A known member is the one under its name, which has a value in the other object.
    simp only [not_forall, Bool.not_eq_false] at hother
    obtain ⟨name, hname, hnamed⟩ := hother
    rw [← Tree.under_of_mem h.nodup hmember hnamed, ← hsame name hname, read?_under hread]
    rfl

/-- If one of two alike attachments can be read, so can the other, and is checked alike. -/
theorem SameAttachment.exists_read? {tree other : Tree} (h : SameAttachment depth tree other)
    {value : Value} (hread : tree.read? (depth + 1) = some value) :
    ∃ value', other.read? (depth + 1) = some value' ∧ AttachedAlike value value' := by
  cases h with
  | same => exact ⟨value, hread, fun _ => rfl⟩
  | @object members others h h' hsame =>
    -- the values may have their members in another order, but the same texts under the known names
    rw [Tree.read?] at hread ⊢
    obtain ⟨entries, hentries, rfl⟩ := Option.map_eq_some_iff.1 hread
    obtain ⟨entries', hentries'⟩ := h'.exists_readMembers? hentries hsame
    refine ⟨_, Option.map_eq_some_iff.2 ⟨entries', hentries', rfl⟩, ?_⟩
    refine attachedAlike_of_text? fun name hname => ?_
    rw [text?_member?_lastByName hentries h.nodup, text?_member?_lastByName hentries' h'.nodup,
      hsame name hname]

/-- If the attachments of one list can be read, so can those of a list that is alike, one by one. -/
theorem exists_readItems? {items others : List Tree}
    (h : List.Forall₂ (SameAttachment depth) items others) {values : List Value}
    (hread : readItems? items (depth + 1) = some values) :
    ∃ values', readItems? others (depth + 1) = some values' ∧
      List.Forall₂ AttachedAlike values values' := by
  induction h generalizing values with
  | nil =>
    obtain rfl := Option.some.inj hread
    exact ⟨[], rfl, .nil⟩
  | cons hitem _ ih =>
    rw [readItems?] at hread
    obtain ⟨value, hvalue, hread⟩ := Option.bind_eq_some_iff.1 hread
    obtain ⟨values, hvalues, rfl⟩ := Option.map_eq_some_iff.1 hread
    obtain ⟨value', hvalue', halike⟩ := hitem.exists_read? hvalue
    obtain ⟨values', hvalues', hothers⟩ := ih hvalues
    refine ⟨value' :: values', ?_, .cons halike hothers⟩
    rw [readItems?, hvalue', Option.bind_some, hvalues']
    rfl

/-- Values that are attachments alike are the same attachments. -/
theorem allFrom_congr {values others : List Value} (h : List.Forall₂ AttachedAlike values others)
    (start : Nat) : Attachment.allFrom start values = Attachment.allFrom start others := by
  induction h generalizing start with
  | nil => rfl
  | cons halike _ ih =>
    rw [Attachment.allFrom_cons, Attachment.allFrom_cons, halike start, ih (start + 1)]

/-- The same attachments are read, and checked to the same. -/
theorem SameAttachments.exists_read? {tree other : Tree} (h : SameAttachments depth tree other)
    {attachments : Option (List Value)}
    (hread : tree.read? (depth + 2) = some (.orNull .list attachments)) :
    ∃ attachments', other.read? (depth + 2) = some (.orNull .list attachments') ∧
      attachments.map Attachment.allOfJson = attachments'.map Attachment.allOfJson := by
  cases h with
  | same => exact ⟨attachments, hread, rfl⟩
  | list h =>
    rw [Tree.read?] at hread
    obtain ⟨values, hvalues, hlist⟩ := Option.map_eq_some_iff.1 hread
    obtain ⟨values', hvalues', halike⟩ := exists_readItems? h hvalues
    cases attachments with
    | none => cases hlist
    | some sent =>
      obtain rfl : values = sent := Value.list.inj hlist
      refine ⟨some values', ?_, congrArg some (allFrom_congr halike 0)⟩
      rw [Tree.read?, hvalues']
      rfl

end Attachments

/-! ## Verdicts -/

/-- What comes of a body that is decoded as a query and checked; nothing if it cannot be decoded. -/
def Query.verdict (body : Bytes) : Option (Except Violation Query) :=
  (Encoded.decode body).toOption.map Query.ofDraft

/-- What comes of a body that is decoded as feedback and checked; nothing if it cannot be
decoded. -/
def Feedback.verdict {γ : Type} (scheme : Scheme γ) (body : Bytes) :
    Option (Except Violation Feedback) :=
  (Encoded.decode body).toOption.map (Feedback.ofDraft scheme)

/-- Two bodies are the same in what is under the known names. -/
inductive SameBodies (known : List String) (same : String → Tree → Tree → Prop)
    (body other : Bytes) : Prop
  | intro {members others : List (StringText × Tree)} (h : IsBodyOf known body members)
    (h' : IsBodyOf known other others)
    (hsame : ∀ name ∈ known, same name (Tree.under name members) (Tree.under name others))

/-- How deep the values of the members of an attachment may nest: these stand inside the
attachment, the list of all, and the body. -/
def attachmentDepth : Nat :=
  depthLimit - 3

/-- The known members of a query are the same, of which the attachments are told one by one. -/
def Query.SameMember (name : String) : Tree → Tree → Prop :=
  if name = "attachments" then SameAttachments attachmentDepth else Eq

/-- The members of a query that are known. -/
abbrev QueryDraft.names : List String := (Encoded.shape QueryDraft).fieldNames

/-- The members of feedback that are known. -/
abbrev FeedbackDraft.names : List String := (Encoded.shape FeedbackDraft).fieldNames

/-- Bodies may be compared in either order. -/
theorem SameBodies.symm {known : List String} {same : String → Tree → Tree → Prop}
    {body other : Bytes} (hsymm : ∀ name tree tree', same name tree tree' → same name tree' tree)
    (h : SameBodies known same body other) : SameBodies known same other body := by
  cases h with
  | intro h h' hsame => exact .intro h' h fun name hname => hsymm _ _ _ (hsame name hname)

/-- Members of a query may be compared in either order. -/
theorem Query.SameMember.symm {name : String} {tree other : Tree}
    (h : SameMember name tree other) : SameMember name other tree := by
  unfold SameMember at h ⊢
  split
  · next hname =>
    rw [if_pos hname] at h
    exact SameAttachments.symm h
  · next hname =>
    rw [if_neg hname] at h
    exact Eq.symm h

section Verdicts

variable {body other : Bytes}

/-- Bodies with the same trees under the known names are decoded to the same draft, if to any. -/
theorem SameBodies.decode_eq_ok_iff {α : Type} [Encoded α]
    (h : SameBodies (Encoded.shape α).fieldNames (fun _ => Eq) body other)
    (hdraft : (Encoded.shape α).isDefiniteDraft = true)
    (hpack : ∀ x : (Encoded.shape α).Carrier, Encoded.pack (Encoded.unpack x : α) = x) {a : α} :
    Encoded.decode body = .ok a ↔ Encoded.decode other = .ok a := by
  obtain ⟨entries, hentries⟩ := Shape.exists_toJson_eq hdraft (Encoded.pack a)
  cases h with
  | intro h h' hsame =>
    rw [h.decode_eq_ok_iff hdraft hpack hentries, h'.decode_eq_ok_iff hdraft hpack hentries]
    refine forall₂_congr fun entry hentry => ?_
    rw [hsame entry.1 (Shape.mem_fieldNames hdraft hentries hentry)]

/-- Drafts are checked to the same if they differ in attachments that are the same. -/
theorem Query.ofDraft_congr {draft : QueryDraft} {attachments : Option (List Value)}
    (h : draft.attachments.map Attachment.allOfJson = attachments.map Attachment.allOfJson) :
    Query.ofDraft { draft with attachments := attachments } = Query.ofDraft draft := by
  obtain ⟨query, conversationId, provider, model, sent⟩ := draft
  cases sent with
  | none =>
    cases attachments with
    | none => rfl
    | some values => cases h
  | some sent =>
    cases attachments with
    | none => cases h
    | some values =>
      have hall : Attachment.allOfJson sent = Attachment.allOfJson values := Option.some.inj h
      unfold Query.ofDraft
      simp only [hall]

/-- If one of two bodies with the same known members is decoded, so is the other, to what makes the
same query or breaks the same rule. -/
theorem Query.exists_decode {draft : QueryDraft}
    (h : SameBodies QueryDraft.names Query.SameMember body other)
    (hdecode : Encoded.decode body = .ok draft) :
    ∃ draft', Encoded.decode other = .ok draft' ∧ Query.ofDraft draft' = Query.ofDraft draft := by
  have hdraft : (Encoded.shape QueryDraft).isDefiniteDraft = true := by decide
  cases h with
  | @intro members others h h' hsame =>
    rw [h.decode_eq_ok_iff hdraft (fun _ => rfl) draft.toJson_eq] at hdecode
    simp only [List.forall_mem_cons] at hdecode
    obtain ⟨hquery, hconversation, hprovider, hmodel, hattachments, _⟩ := hdecode
    have htext (name : String) (hname : name ∈ QueryDraft.names) (hne : name ≠ "attachments") :
        Tree.under name members = Tree.under name others := by
      have htrees := hsame name hname
      unfold SameMember at htrees
      rwa [if_neg hne] at htrees
    have hlists : SameAttachments attachmentDepth (Tree.under "attachments" members)
        (Tree.under "attachments" others) := hsame "attachments" (by decide)
    obtain ⟨attachments, hread, hchecked⟩ := hlists.exists_read? hattachments
    -- the drafts have all but the attachments in common
    refine ⟨{ draft with attachments := attachments }, ?_, Query.ofDraft_congr hchecked⟩
    rw [h'.decode_eq_ok_iff hdraft (fun _ => rfl) (QueryDraft.toJson_eq _)]
    simp only [List.forall_mem_cons]
    rw [htext "query" (by decide) (by decide)] at hquery
    rw [htext "conversation_id" (by decide) (by decide)] at hconversation
    rw [htext "provider" (by decide) (by decide)] at hprovider
    rw [htext "model" (by decide) (by decide)] at hmodel
    exact ⟨hquery, hconversation, hprovider, hmodel, hread, fun _ h => nomatch h⟩

/-- Bodies with the same known members come to the same verdict. -/
theorem Query.verdict_of_same (h : SameBodies QueryDraft.names Query.SameMember body other)
    {result : Except Violation Query} (hverdict : Query.verdict body = some result) :
    Query.verdict other = some result := by
  obtain ⟨draft, hdecode, rfl⟩ := Option.map_eq_some_iff.1 hverdict
  obtain ⟨draft', hdecode', hchecked⟩ := Query.exists_decode h (toOption_eq_some_iff.1 hdecode)
  exact Option.map_eq_some_iff.2 ⟨draft', toOption_eq_some_iff.2 hdecode', hchecked⟩

end Verdicts

/-- What comes of a query or of feedback depends only on what is under the known names of its
body. -/
theorem verdicts_of_known_members {γ : Type} (scheme : Scheme γ) (body other : Bytes) :
    (SameBodies QueryDraft.names Query.SameMember body other →
      Query.verdict body = Query.verdict other) ∧
    (SameBodies FeedbackDraft.names (fun _ => Eq) body other →
      Feedback.verdict scheme body = Feedback.verdict scheme other) := by
  constructor
  · intro h
    refine Option.ext fun result => ⟨Query.verdict_of_same h, Query.verdict_of_same (h.symm ?_)⟩
    exact fun name tree tree' => Query.SameMember.symm
  · intro h
    have hdecoded : (Encoded.decode body : Except Json.Error FeedbackDraft).toOption =
        (Encoded.decode other).toOption := by
      refine Option.ext fun draft => ?_
      rw [toOption_eq_some_iff, toOption_eq_some_iff]
      exact h.decode_eq_ok_iff (by decide) fun _ => rfl
    unfold Feedback.verdict
    rw [hdecoded]

/-! ## Two spellings of a question -/

/-- An attachment that is malformed, as it lacks its types. -/
def plainAttachment : List (StringText × Tree) :=
  [(.ofPlain "content" (by decide), .string (.ofPlain "c" (by decide)))]

/-- The same attachment with an additional member and with `null` for a type. -/
def paddedAttachment : List (StringText × Tree) :=
  [ (.ofPlain "x" (by decide), .flag true)
  , (.ofPlain "content" (by decide), .string (.ofPlain "c" (by decide)))
  , (.ofPlain "content_type" (by decide), .null) ]

/-- The members of a question with an attachment. -/
def plainMembers : List (StringText × Tree) :=
  [ (.ofPlain "query" (by decide), .string (.ofPlain "q" (by decide)))
  , (.ofPlain "attachments" (by decide), .list [.object plainAttachment]) ]

/-- The number `1e400`, which is out of range. -/
def hugeNumber : NumberText where
  negative := false
  whole := ⟨[0x31], by decide, List.all_eq_true.1 rfl⟩
  head_ne_zero := by decide
  fraction := none
  power := some ⟨0x65, by decide, none, ⟨[0x34, 0x30, 0x30], by decide, List.all_eq_true.1 rfl⟩⟩

/-- The same members in another order, with `null` for the model and a member of another name. -/
def paddedMembers : List (StringText × Tree) :=
  [ (.ofPlain "\u00e9" (by decide), .number hugeNumber)
  , (.ofPlain "attachments" (by decide), .list [.object paddedAttachment])
  , (.ofPlain "model" (by decide), .null)
  , (.ofPlain "query" (by decide), .string (.ofPlain "q" (by decide))) ]

/-- Members are those of a body if a run over them finds it so. -/
theorem isBodyOf_of_all {known : List String} {members : List (StringText × Tree)}
    (gap : Blanks) (hnamed : members.all (fun member => member.1.content?.isSome) = true)
    (honce : known.all (fun name => decide (members.countP (isNamed name) ≤ 1)) = true) :
    IsBodyOf known ((Tree.object members).bytes gap) members where
  object := ⟨.none, .none, _, writes_bytes gap (.object members), (List.append_nil _).symm⟩
  named := List.all_eq_true.1 hnamed
  once name hname := of_decide_eq_true (List.all_eq_true.1 honce name hname)

/-- Members are those of an attachment if a run over them finds it so. -/
theorem isAttachmentOf_of_all {depth : Nat} {members : List (StringText × Tree)}
    (hnamed : members.all (fun member => member.1.content?.isSome) = true)
    (hnodup : (members.map (·.1.content?)).Nodup)
    (hread : members.all (fun member => (member.2.read? depth).isSome) = true) :
    IsAttachmentOf depth members where
  named := List.all_eq_true.1 hnamed
  nodup := hnodup
  additional member hmember _ := List.all_eq_true.1 hread member hmember

/-- The attachment is the same in both spellings. -/
theorem sameAttachment_padded :
    SameAttachment attachmentDepth (.object plainAttachment) (.object paddedAttachment) := by
  have hplain : IsAttachmentOf attachmentDepth plainAttachment :=
    isAttachmentOf_of_all rfl (by decide) rfl
  have hpadded : IsAttachmentOf attachmentDepth paddedAttachment :=
    isAttachmentOf_of_all rfl (by decide) rfl
  refine .object hplain hpadded fun name hname => ?_
  simp only [Attachment.names, List.mem_cons, List.not_mem_nil, or_false] at hname
  rcases hname with rfl | rfl | rfl <;> rfl

/-- A question with a malformed attachment in two spellings. The other one has blanks, another order
of its members, one of another name that is a number out of range, and `null` for some that are left
out. -/
theorem verdicts_of_known_members_padded :
    let body := Utf8.encode
      "\x7b\"query\":\"q\",\"attachments\":[\x7b\"content\":\"c\"\x7d]\x7d"
    let other := Utf8.encode
      ("\x7b \"\u00e9\" : 1e400 , \"attachments\" : [ \x7b \"x\" : true , \"content\" : \"c\" , " ++
        "\"content_type\" : null \x7d ] , \"model\" : null , \"query\" : \"q\" \x7d")
    SameBodies QueryDraft.names Query.SameMember body other ∧
      SameBodies FeedbackDraft.names (fun _ => Eq) body other ∧
      Query.verdict body = Query.verdict other ∧
      Feedback.verdict Scheme.uuid body = Feedback.verdict Scheme.uuid other := by
  intro body other
  have hbody : (Tree.object plainMembers).bytes .none = body := rfl
  have hother : (Tree.object paddedMembers).bytes ⟨[0x20], List.all_eq_true.1 rfl⟩ = other := rfl
  have hquery : SameBodies QueryDraft.names Query.SameMember body other := by
    rw [← hbody, ← hother]
    refine .intro (isBodyOf_of_all _ rfl rfl)
      (isBodyOf_of_all _ rfl rfl) fun name hname => ?_
    have hname : name ∈ ["query", "conversation_id", "provider", "model", "attachments"] := hname
    simp only [List.mem_cons, List.not_mem_nil, or_false] at hname
    rcases hname with rfl | rfl | rfl | rfl | rfl
    · rfl
    · rfl
    · rfl
    · rfl
    · exact .list (.cons sameAttachment_padded .nil)
  have hfeedback : SameBodies FeedbackDraft.names (fun _ => Eq) body other := by
    rw [← hbody, ← hother]
    refine .intro (isBodyOf_of_all _ rfl rfl)
      (isBodyOf_of_all _ rfl rfl) fun name hname => ?_
    have hname : name ∈ ["conversation_id", "user_question", "llm_response", "sentiment",
      "user_feedback"] := hname
    simp only [List.mem_cons, List.not_mem_nil, or_false] at hname
    rcases hname with rfl | rfl | rfl | rfl | rfl <;> rfl
  obtain ⟨hqueries, hfeedbacks⟩ := verdicts_of_known_members Scheme.uuid body other
  exact ⟨hquery, hfeedback, hqueries hquery, hfeedbacks hfeedback⟩

end Colloquy
