import Colloquy.Proofs.Json.NumberRange
import Colloquy.Proofs.Service.FeedbackRules
import Colloquy.Proofs.Shape.AnyOrder

/-!
# The bodies of feedback

What comes of feedback whose vote is the text of a number, whichever: the other members are texts or
`null`, in any order and with any blanks between their parts (`FeedbackText.IsBody`). A number that
can be read makes a draft, which is checked rule by rule, so that one that is no vote is reported in
its turn. A number beyond the range of double precision is refused with the whole body, in front of
all rules (`FeedbackText.read_body`).
-/

set_option autoImplicit false

namespace Colloquy

open Json

/-! ## Values behind blanks -/

/-- What is read back from a text is read to the blanks behind it. -/
theorem Encoded.decode_of_readsBack {α : Type} [Encoded α] {text : Bytes} {a : α}
    (h : ReadsBack ((shape α).reader depthLimit) text (pack a)) (behind : Blanks) :
    decode (text ++ behind.bytes) = .ok a ∧ decodeFirst (text ++ behind.bytes) = .ok a := by
  have hback := h.map unpack
  rw [unpack_pack] at hback
  refine ⟨decode_spaced hback behind, ?_⟩
  obtain ⟨_, hread⟩ := hback behind.bytes behind.ends_nil
  unfold decodeFirst Json.decodeFirst
  have hread : reader α (text ++ behind.bytes) = .ok ⟨a, behind.bytes, _⟩ := hread
  rw [hread]

/-- A text that is read as a text or, from `null`, as none. -/
structure NullableText where
  value : Option String
  bytes : Bytes
  reads : ReadsBack (readOptional (readText "a string")) bytes value

/-- A text or `null` as it is written, behind blanks. -/
def NullableText.written (blanks : Blanks) : Option String → NullableText
  | none => ⟨none, blanks.bytes ++ Value.null.bytes, readsBack_none_spaced _ blanks⟩
  | some text => ⟨some text, blanks.bytes ++ quoted text, by
      intro rest hrest
      have hreads := readsBack_text "a string" text rest hrest
      rw [quoted_append] at hreads
      rw [List.append_assoc, quoted_append]
      exact reads_some_spaced blanks (by decide) (by decide) hreads⟩

/-! ## Numbers of any form -/

namespace Json.NumberText

variable {t : NumberText}

/-- A number that can be read is read where a number is wanted. -/
theorem readsBack_plain {number : Number} (h : t.number? = some number) (depth : Nat) :
    ReadsBack (readNumber depth) t.text number := by
  intro rest hrest
  have hreads := readsBack_numeral h rest hrest
  obtain ⟨b, tail, htext, hstarts⟩ := t.exists_cons
  obtain ⟨hblank, _⟩ := not_blank_of_startsNumeral hstarts
  rw [htext, List.cons_append] at hreads ⊢
  refine reads_atValue hblank fun bound h => ?_
  obtain ⟨hrest, hread⟩ := hreads
  refine ⟨Nat.lt_of_lt_of_le hrest h, ?_⟩
  simp only [hstarts, if_true, hread]
  rfl

/-- A number that can be read is read where it may be missing. -/
theorem readsBack_number {number : Number} (h : t.number? = some number) (blanks : Blanks)
    (depth : Nat) :
    ReadsBack (readOptional (readNumber depth)) (blanks.bytes ++ t.text) (some number) := by
  intro rest hrest
  have hreads := readsBack_plain h depth rest hrest
  obtain ⟨b, tail, htext, hstarts⟩ := t.exists_cons
  obtain ⟨hblank, _, hnull⟩ := not_blank_of_startsNumeral hstarts
  rw [List.append_assoc]
  rw [htext, List.cons_append] at hreads ⊢
  exact reads_some_spaced blanks hblank hnull hreads

/-- A number that cannot be read is refused as out of range where a number is wanted. -/
theorem refuses_plain (h : t.number? = none) (depth : Nat) :
    Refuses (readNumber depth) t.text .numberOutOfRange [] := by
  intro rest hrest
  obtain ⟨left, hread⟩ := refuses_numeral h rest hrest
  obtain ⟨b, tail, htext, hstarts⟩ := t.exists_cons
  obtain ⟨hblank, _⟩ := not_blank_of_startsNumeral hstarts
  refine ⟨left, ?_⟩
  rw [htext, List.cons_append] at hread ⊢
  refine refuses_spaced .none hblank fun bound h => ?_
  simp only [hstarts, if_true, hread]
  rfl

/-- A number that cannot be read is refused as out of range where it may be missing. -/
theorem refuses_number (h : t.number? = none) (blanks : Blanks) (depth : Nat) :
    Refuses (readOptional (readNumber depth)) (blanks.bytes ++ t.text) .numberOutOfRange [] := by
  intro rest hrest
  obtain ⟨left, hread⟩ := refuses_plain h depth rest hrest
  obtain ⟨b, tail, htext, hstarts⟩ := t.exists_cons
  obtain ⟨hblank, _, hnull⟩ := not_blank_of_startsNumeral hstarts
  refine ⟨left, ?_⟩
  rw [List.append_assoc]
  rw [htext, List.cons_append] at hread ⊢
  exact refuses_some_spaced blanks hblank hnull hread

end Json.NumberText

/-! ## The members of feedback -/

/-- Feedback as it may be written: a text or `null` for each member but the vote, and a number for
that. -/
structure FeedbackText where
  conversationId : NullableText
  userQuestion : NullableText
  llmResponse : NullableText
  /-- The blanks in front of the vote. -/
  blanks : Blanks
  vote : NumberText
  userFeedback : NullableText

namespace FeedbackText

variable (f : FeedbackText)

/-- The texts of the members by their names. -/
def entries : List (String × Bytes) :=
  [ ("conversation_id", f.conversationId.bytes)
  , ("user_question", f.userQuestion.bytes)
  , ("llm_response", f.llmResponse.bytes)
  , ("sentiment", f.blanks.bytes ++ f.vote.text)
  , ("user_feedback", f.userFeedback.bytes) ]

/-- The draft with a number for the vote. -/
def draft (number : Number) : FeedbackDraft :=
  ⟨f.conversationId.value, f.userQuestion.value, f.llmResponse.value, some number,
    f.userFeedback.value⟩

/-- A body with one member for each part of feedback, in any order and with any blanks. -/
inductive IsBody : Bytes → Prop
  | of (front behind : Blanks) (members : List SpacedMember)
      (hmembers : (members.map SpacedMember.entry).Perm f.entries) :
    IsBody (front.bytes ++ objectBytes members ++ behind.bytes)

/-- A body without blanks. -/
theorem isBody_compact {f : FeedbackText} {entries : List (String × Bytes)}
    (h : entries.Perm f.entries) :
    f.IsBody (objectBytes (entries.map SpacedMember.compact)) := by
  have hentries := SpacedMember.map_entry_compact entries
  have hbody := IsBody.of (f := f) .none .none (entries.map SpacedMember.compact)
    (hentries.symm ▸ h)
  simpa [Blanks.none] using hbody

/-- The fields that a draft is read from. -/
def fields : Fields :=
  .cons "conversation_id" (.optional .string) <| .cons "user_question" (.optional .string) <|
    .cons "llm_response" (.optional .string) <| .cons "sentiment" (.optional .number) <|
    .cons "user_feedback" (.optional .string) .nil

/-- The fields of feedback have different names. -/
theorem nodup_names : fields.names.Nodup := by
  decide

variable {f}

/-- Every member is read as what it is; the vote, if it can be read. -/
theorem readsField_of_entry {key : String} {text : Bytes} (hentry : (key, text) ∈ f.entries)
    {number : Number} (hvote : key = "sentiment" → f.vote.number? = some number) (depth : Nat) :
    fields.ReadsField depth key text (Encoded.pack (f.draft number)) := by
  have htext (t : NullableText) :
      ReadsBack ((Shape.optional .string).reader depth) t.bytes t.value := by
    rw [Shape.reader, Shape.reader]
    exact t.reads
  unfold entries at hentry
  simp only [List.mem_cons, Prod.mk.injEq, List.not_mem_nil, or_false] at hentry
  rcases hentry with ⟨rfl, rfl⟩ | ⟨rfl, rfl⟩ | ⟨rfl, rfl⟩ | ⟨rfl, rfl⟩ | ⟨rfl, rfl⟩
  · exact .head (htext f.conversationId)
  · exact .tail (by decide) (.head (htext f.userQuestion))
  · exact .tail (by decide) (.tail (by decide) (.head (htext f.llmResponse)))
  · have hread : ReadsBack ((Shape.optional .number).reader depth) (f.blanks.bytes ++ f.vote.text)
        (some number) := by
      rw [Shape.reader, Shape.reader]
      exact NumberText.readsBack_number (hvote rfl) f.blanks depth
    exact .tail (by decide) (.tail (by decide) (.tail (by decide) (.head hread)))
  · exact .tail (by decide) (.tail (by decide) (.tail (by decide) (.tail (by decide)
      (.head (htext f.userFeedback)))))

/-- A vote that cannot be read is refused as out of range. -/
theorem refusesField_vote (h : f.vote.number? = none) (depth : Nat) :
    fields.RefusesField depth "sentiment" (f.blanks.bytes ++ f.vote.text) .numberOutOfRange [] := by
  have hvote : Refuses ((Shape.optional .number).reader depth) (f.blanks.bytes ++ f.vote.text)
      .numberOutOfRange [] := by
    rw [Shape.reader, Shape.reader]
    exact NumberText.refuses_number h f.blanks depth
  exact .tail (by decide) (.tail (by decide) (.tail (by decide) (.head hvote)))

/-! ## Reading a body -/

/-- A body whose vote can be read is the draft with that vote. -/
theorem decode_of_number {body : Bytes} (hbody : f.IsBody body) {number : Number}
    (h : f.vote.number? = some number) :
    Encoded.decode body = .ok (f.draft number) ∧
      Encoded.decodeFirst body = .ok (f.draft number) := by
  obtain ⟨front, behind, members, hmembers⟩ := hbody
  have hread : ∀ entry ∈ members.map SpacedMember.entry,
      fields.ReadsField (depthLimit - 1) entry.1 entry.2 (Encoded.pack (f.draft number)) :=
    fun _ hentry => readsField_of_entry (hmembers.mem_iff.1 hentry) (fun _ => h) _
  have hnames : ((members.map SpacedMember.entry).map Prod.fst).Perm fields.names :=
    hmembers.map Prod.fst
  exact Encoded.decode_of_readsBack
    (readsBack_members front (by decide) nodup_names hnames hread) behind

/-- A body whose vote cannot be read is refused with the vote, whatever the other members are. -/
theorem decode_of_none {body : Bytes} (hbody : f.IsBody body) (h : f.vote.number? = none) :
    ∃ error : Json.Error, error.cause = .numberOutOfRange ∧ error.path = [.member "sentiment"] ∧
      (Encoded.decode body : Except Json.Error FeedbackDraft) = .error error ∧
      (Encoded.decodeFirst body : Except Json.Error FeedbackDraft) = .error error := by
  obtain ⟨front, behind, members, hmembers⟩ := hbody
  have hvote : ("sentiment", f.blanks.bytes ++ f.vote.text) ∈ f.entries := by
    unfold entries
    simp
  obtain ⟨m, hm, hentry⟩ := List.mem_map.1 (hmembers.mem_iff.2 hvote)
  have hname : m.name = "sentiment" := congrArg Prod.fst hentry
  have htext : m.text = f.blanks.bytes ++ f.vote.text := congrArg Prod.snd hentry
  have hnames : ((members.map SpacedMember.entry).map Prod.fst).Nodup :=
    (hmembers.map Prod.fst).nodup_iff.2 nodup_names
  -- The other members are read whatever the vote is, so any number stands in for it.
  have hothers : ∀ entry ∈ members.map SpacedMember.entry, entry.1 ≠ m.name →
      fields.ReadsField (depthLimit - 1) entry.1 entry.2
        (Encoded.pack (f.draft (.integer 0))) := by
    intro entry hmem hne
    exact readsField_of_entry (hmembers.mem_iff.1 hmem)
      (fun hkey => absurd (hkey.trans hname.symm) hne) _
  have hrefused : fields.RefusesField (depthLimit - 1) m.name m.text .numberOutOfRange [] := by
    rw [hname, htext]
    exact refusesField_vote h _
  have hobject : Refuses ((Encoded.shape FeedbackDraft).reader depthLimit)
      (front.bytes ++ objectBytes members) .numberOutOfRange [.member m.name] :=
    refuses_members_of_mem front (by decide) nodup_names hnames hm hothers hrefused
  rw [hname] at hobject
  exact decode_of_refuses hobject behind.ends_nil

/-! ## What comes of it -/

/-- A request that sends a body as a JSON text, of a length that is read. -/
structure Carries (request : Http.Request) (body : Bytes) : Prop where
  body_eq : request.body = body
  announced : request.announcesJson = true
  short : body.length ≤ Http.bodyLimit

/-- What is sent is read like the first value of the body. -/
theorem Carries.readJson_eq {request : Http.Request} {body : Bytes} (h : Carries request body) :
    request.readJson FeedbackDraft =
      (Encoded.decodeFirst body).mapError Http.BodyFlaw.unreadable := by
  obtain ⟨rfl, hannounced, hshort⟩ := h
  unfold Http.Request.readJson
  rw [hannounced, if_neg (Nat.not_lt.2 hshort)]
  rfl

/-- Of a body whose vote is the text of any number: if the number can be read, the body is the draft
with that number, and the first rule that it breaks is reported, or what was sent is kept; if not,
the body is refused as out of range whatever the other members are. Numbers are read within the
range of double precision and not beyond it. -/
theorem read_body {body : Bytes} (hbody : f.IsBody body) {γ : Type} (scheme : Scheme γ) :
    (∀ number, f.vote.number? = some number →
      Encoded.decode body = .ok (f.draft number) ∧
      Checked (FeedbackRule.Broken scheme (.ok (f.draft number))) FeedbackRule.all.tail
        (FeedbackRule.IsReadAs (f.draft number)) (Feedback.ofDraft scheme (f.draft number)) ∧
      ∀ identity request, Carries request body →
        (Service.readFeedback scheme identity request).1 =
          Feedback.ofDraft scheme (f.draft number)) ∧
    (f.vote.number? = none →
      ∃ error : Json.Error, error.cause = .numberOutOfRange ∧ error.path = [.member "sentiment"] ∧
        (Encoded.decode body : Except Json.Error FeedbackDraft) = .error error ∧
        ∀ identity request, Carries request body →
          (Service.readFeedback scheme identity request).1 =
            .error (.unreadableBody (Http.BodyFlaw.unreadable error).message)) ∧
    (f.vote.text.length + 309 ≤ maxExponent → Ranged f.vote.magnitude f.vote.number?) := by
  refine ⟨fun number hnumber => ?_, fun hnone => ?_, ranged_number?⟩
  · obtain ⟨hdecode, hfirst⟩ := decode_of_number hbody hnumber
    refine ⟨hdecode, FeedbackRule.ofDraft_checked _, fun identity request hcarries => ?_⟩
    rw [FeedbackRule.readFeedback_eq, hcarries.readJson_eq, hfirst]
    rfl
  · obtain ⟨error, hcause, hpath, hdecode, hfirst⟩ := decode_of_none hbody hnone
    refine ⟨error, hcause, hpath, hdecode, fun identity request hcarries => ?_⟩
    rw [FeedbackRule.readFeedback_eq, hcarries.readJson_eq, hfirst]
    rfl

/-- Feedback with a malformed id and nothing else but a vote. -/
def malformed (vote : NumberText) : FeedbackText where
  conversationId := .written .none (some "x")
  userQuestion := .written .none none
  llmResponse := .written .none none
  blanks := .none
  vote := vote
  userFeedback := .written .none none

/-- Feedback with a malformed id and a vote of twenty digits is answered with the id. -/
theorem read_body_wide_vote :
    let f := malformed (.ofNat 99999999999999999999)
    let body := Utf8.encode ("\x7b\"conversation_id\":\"x\",\"user_question\":null," ++
      "\"llm_response\":null,\"sentiment\":99999999999999999999,\"user_feedback\":null\x7d")
    f.IsBody body ∧ ∃ number, Encoded.decode body = .ok (f.draft number) ∧
      Feedback.ofDraft Scheme.uuid (f.draft number) = .error (.malformedConversationId "x") := by
  intro f body
  have hcompact : body = objectBytes (f.entries.map SpacedMember.compact) := by decide +kernel
  have hbody : f.IsBody body := hcompact ▸ isBody_compact (List.Perm.refl f.entries)
  have hsome : f.vote.number?.isSome = true := by decide +kernel
  obtain ⟨number, hnumber⟩ := Option.isSome_iff_exists.1 hsome
  obtain ⟨hread, _⟩ := read_body hbody Scheme.uuid
  obtain ⟨hdecode, hchecked, _⟩ := hread number hnumber
  refine ⟨hbody, number, hdecode, ?_⟩
  have hbroken : FeedbackRule.Broken Scheme.uuid (.ok (f.draft number)) .wellFormed
      (.malformedConversationId "x") :=
    .wellFormed rfl (by decide +kernel)
  have hfirst : IsFirst
      (fun rule => ∃ v, FeedbackRule.Broken Scheme.uuid (.ok (f.draft number)) rule v)
      FeedbackRule.all.tail 1 .wellFormed := by
    refine .there ?_ (.here ⟨_, hbroken⟩)
    rintro ⟨v, hnone⟩
    cases hnone with
    | conversation hid => exact nomatch hid
  generalize Feedback.ofDraft Scheme.uuid (f.draft number) = result at hchecked
  cases hchecked with
  | refused hfirst' hbroken' =>
    obtain ⟨_, rfl⟩ := hfirst.unique hfirst'
    rw [hbroken'.unique hbroken]
  | passed hkept _ => exact absurd hbroken (hkept _ (by decide) _)

/-- A vote of `1e400` is refused with the whole body, in front of the malformed id. -/
theorem not_read_far_vote :
    let f := malformed { NumberText.ofNat 1 with power := some ⟨0x65, rfl, none, .ofNat 400⟩ }
    let body := Utf8.encode ("\x7b\"conversation_id\":\"x\",\"user_question\":null," ++
      "\"llm_response\":null,\"sentiment\":1e400,\"user_feedback\":null\x7d")
    f.vote.text = Utf8.encode "1e400" ∧ f.IsBody body ∧
      (Encoded.decode body : Except Json.Error FeedbackDraft) =
        .error ⟨.numberOutOfRange, 1, 81, [.member "sentiment"]⟩ := by
  intro f body
  have hcompact : body = objectBytes (f.entries.map SpacedMember.compact) := by decide +kernel
  refine ⟨by decide +kernel, hcompact ▸ isBody_compact (List.Perm.refl f.entries), ?_⟩
  decide +kernel

end FeedbackText

end Colloquy
