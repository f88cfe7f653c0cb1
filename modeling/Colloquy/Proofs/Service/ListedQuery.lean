import Colloquy.Proofs.Service.Run
import Colloquy.Proofs.Shape.ListedRecord

/-!
# Queries for any conversation

A query is written as the list of its question and of its conversation id, and any plain id can be
asked for in this way (`readQuery_listedQuery`).
-/

set_option autoImplicit false

namespace Colloquy

open Json

/-- A question in a conversation, as the body of a request. -/
def listedQuery (question id : String) : String :=
  "[\"" ++ question ++ "\",\"" ++ id ++ "\"]"

/-- The bytes of a question in a conversation. -/
theorem encode_listedQuery (question id : String) :
    Utf8.encode (listedQuery question id) =
      Ascii.openBracket :: Ascii.quote :: (Utf8.encode question ++
        Ascii.quote :: Ascii.comma :: Ascii.quote :: (Utf8.encode id ++
          [Ascii.quote, Ascii.closeBracket])) := by
  have hopen : Utf8.encode "[\"" = [Ascii.openBracket, Ascii.quote] := rfl
  have hcomma : Utf8.encode "\",\"" = [Ascii.quote, Ascii.comma, Ascii.quote] := rfl
  have hclose : Utf8.encode "\"]" = [Ascii.quote, Ascii.closeBracket] := rfl
  unfold listedQuery
  simp only [Utf8.encode_append, hopen, hcomma, hclose]
  simp

/-- A question in a conversation is read from its list. -/
theorem reads_listedQuery {question id : String} (hquestion : ∀ c ∈ question.toList, IsPlainChar c)
    (hid : ∀ c ∈ id.toList, IsPlainChar c) :
    Reads ((Encoded.shape QueryDraft).reader depthLimit) (Utf8.encode (listedQuery question id))
      (some question, some id, none, none, none, ()) [] := by
  rw [encode_listedQuery]
  apply reads_listed (by decide)
  intro bound h
  refine Fields.readList_of_item (nextItem_first (by decide) (by decide) _ _ _)
    (reads_optional (by decide) (by decide) (reads_string hquestion _ _)) fun _ => ?_
  refine Fields.readList_of_item (nextItem_comma (by decide) (by decide) _ _ _)
    (reads_optional (by decide) (by decide) (reads_string hid _ _)) fun _ => ?_
  exact Fields.readList_of_closed (by decide)

/-- A text has at most four bytes for each character. -/
theorem length_encode_le (text : String) : (Utf8.encode text).length ≤ 4 * text.toList.length := by
  rw [Utf8.encode_eq_flatMap]
  induction text.toList with
  | nil => simp
  | cons c cs ih =>
    have := c.utf8Size_le_four
    rw [List.flatMap_cons, List.length_append, String.length_utf8EncodeChar, List.length_cons]
    omega

/-- A query says that its body is a JSON text. -/
theorem announcesJson_query (headers : List (String × Bytes)) (body : String) :
    (Http.Request.query headers body).announcesJson = true := by
  have hheader : (Http.Request.query headers body).header? "content-type" =
      some (Utf8.encode "application/json") := by
    have hname : ("content-type".toLower == "content-type") = true := by decide +kernel
    unfold Http.Request.header? Http.Request.query
    simp only [List.find?_cons, hname, Option.map_some]
  have hreadable : Http.Request.readable? (Utf8.encode "application/json") =
      some "application/json" := by decide
  have hjson : (Http.MediaType.parse? "application/json").any Http.MediaType.isJson = true := by
    decide +kernel
  unfold Http.Request.announcesJson Http.Request.text?
  rw [hheader, Option.bind_some, hreadable, Option.bind_some, hjson]

/-- The path of a query. -/
theorem path_query (headers : List (String × Bytes)) (body : String) :
    (Http.Request.query headers body).path = "/v1/query" := by
  have hpath (r : Http.Request) (h : r.target = "/v1/query") : r.path = "/v1/query" := by
    unfold Http.Request.path
    rw [h]
    decide
  exact hpath _ rfl

/-- The headers of a query show the same credentials as they do without the media type. -/
theorem credentials_query (r : Http.Request) (body : String) :
    (Http.Request.query r.headers body).credentials = r.credentials := by
  have hheader {name : String} (h : ("content-type".toLower == name) = false) :
      (Http.Request.query r.headers body).header? name = r.header? name := by
    unfold Http.Request.header? Http.Request.query
    simp only [List.find?_cons, h]
  unfold Http.Request.credentials Http.Request.text?
  rw [hheader (by decide +kernel), hheader (by decide +kernel)]

/-- A request for a question in a conversation is read as such. -/
theorem readJson_listedQuery {question id : String} (headers : List (String × Bytes))
    (hquestion : ∀ c ∈ question.toList, IsPlainChar c) (hid : ∀ c ∈ id.toList, IsPlainChar c)
    (hshort : question.toList.length + id.toList.length ≤ 1000) :
    (Http.Request.query headers (listedQuery question id)).readJson QueryDraft =
      .ok ⟨some question, some id, none, none, none⟩ := by
  have hlength : ¬Http.bodyLimit <
      (Http.Request.query headers (listedQuery question id)).body.length := by
    have hquestion := length_encode_le question
    have hid := length_encode_le id
    unfold Http.Request.query Http.bodyLimit
    simp only [encode_listedQuery, List.length_cons, List.length_append, List.length_nil]
    omega
  obtain ⟨h, hread⟩ := reads_listedQuery hquestion hid
  have hdecoded : Encoded.decodeFirst (α := QueryDraft) (Utf8.encode (listedQuery question id)) =
      .ok ⟨some question, some id, none, none, none⟩ := by
    unfold Encoded.decodeFirst Json.decodeFirst Encoded.reader
    rw [hread]
    rfl
  unfold Http.Request.readJson
  rw [announcesJson_query, Bool.not_true, if_neg Bool.false_ne_true, if_neg hlength]
  exact congrArg (Except.mapError Http.BodyFlaw.unreadable) hdecoded

/-- A question in a conversation breaks no rule. -/
theorem readQuery_listedQuery {question id : String} (identity : Identity)
    (headers : List (String × Bytes)) (hquestion : ∀ c ∈ question.toList, IsPlainChar c)
    (hid : ∀ c ∈ id.toList, IsPlainChar c)
    (hshort : question.toList.length + id.toList.length ≤ 1000) :
    (Service.readQuery identity (.query headers (listedQuery question id))).1 =
      .ok ⟨question, some id, none, none, none⟩ := by
  unfold Service.readQuery
  rw [readJson_listedQuery headers hquestion hid hshort]
  rfl

end Colloquy
