import Colloquy.Auth.Identity
import Colloquy.Payload.Answer
import Colloquy.Proofs.Shape.RoundTrip
import Colloquy.Report.Failure
import Colloquy.Report.Status
import Colloquy.Settings
import Colloquy.Token.Claims

/-!
# Types that are written and read

The types of which values are both written and read: reports, answers of the language model, users,
claims and settings. What is written of a value of such a type is read back as that value
(`twoWay_types`), so nothing of it is lost and a text that was read is settled once it is written
again.
-/

set_option autoImplicit false

namespace Colloquy

open Json

/-- What is written of those values of a type that have a property is read back. -/
structure TwoWay (α : Type) [Encoded α] (P : α → Prop) : Prop where
  decode_encode : ∀ a, P a → Encoded.decode (Utf8.encode (Encoded.encode a)) = .ok a
  /-- Different values are written differently. -/
  encode_injective : ∀ a b, P a → P b → Encoded.encode a = Encoded.encode b → a = b
  /-- A value that was read from any text is written as a text that is read alike and that is
  written again as it is. -/
  settled : ∀ (text : Bytes) (a : α), Encoded.decode text = .ok a → P a →
    let again : Except Json.Error α := Encoded.decode (Utf8.encode (Encoded.encode a))
    again = Encoded.decode text ∧ again.map Encoded.encode = .ok (Encoded.encode a)

/-- What is written of every value of a type is read back. -/
abbrev AlwaysTwoWay (α : Type) [Encoded α] : Prop :=
  TwoWay α fun _ => True

/-- A reader that undoes what the writer does loses nothing. -/
theorem TwoWay.of_decode_encode {α : Type} [Encoded α] {P : α → Prop}
    (h : ∀ a, P a → Encoded.decode (Utf8.encode (Encoded.encode a)) = .ok a) : TwoWay α P := by
  refine ⟨h, ?_, ?_⟩
  · intro a b ha hb hab
    have hread := h a ha
    rw [hab, h b hb] at hread
    exact (Except.ok.inj hread).symm
  · intro text a htext ha again
    have hagain : again = .ok a := h a ha
    rw [hagain]
    exact ⟨htext.symm, rfl⟩

/-- A type whose shape is fixed, keeps its fields apart and is not too deep. -/
theorem alwaysTwoWay_of_shape (α : Type) [Encoded α]
    (hshape : ((Encoded.shape α).isFaithful && (Encoded.shape α).isFixed) = true)
    (hdepth : (Encoded.shape α).depth ≤ depthLimit) : AlwaysTwoWay α := by
  rw [Bool.and_eq_true] at hshape
  exact .of_decode_encode fun a _ =>
    Encoded.decode_encode_of_exact hshape.1 hdepth (Shape.exact_of_isFixed _ hshape.2 _)

/-- The state of a feature, of which every part is a text or a truth value. -/
def FeatureStatus.IsPlain (s : FeatureStatus) : Prop :=
  ∀ entry ∈ s.status.entries, (∃ text, entry.2 = .text text) ∨ ∃ flag, entry.2 = .bool flag

/-- The state of a feature whose parts are texts and truth values is read back. -/
theorem twoWay_featureStatus : TwoWay FeatureStatus FeatureStatus.IsPlain :=
  .of_decode_encode fun _ hs =>
    Encoded.decode_encode_of_exact (by decide) (by decide) ⟨trivial, hs, trivial⟩

/-- What is written of a report, of an answer of the language model, of a user, of claims or of
settings is read back; of the state of a feature, if every part of it is a text or a truth value. -/
theorem twoWay_types :
    AlwaysTwoWay FailureReport ∧ AlwaysTwoWay LengthReport ∧ AlwaysTwoWay UnauthorizedReport ∧
    AlwaysTwoWay ForbiddenReport ∧ AlwaysTwoWay FeedbackReceipt ∧
    TwoWay FeatureStatus FeatureStatus.IsPlain ∧ AlwaysTwoWay Health ∧ AlwaysTwoWay Liveness ∧
    AlwaysTwoWay Caller ∧ AlwaysTwoWay Reference ∧ AlwaysTwoWay Passage ∧ AlwaysTwoWay Summary ∧
    AlwaysTwoWay Identity ∧ AlwaysTwoWay Token.Claims ∧ AlwaysTwoWay KeySettings ∧
    AlwaysTwoWay ServerSettings ∧ AlwaysTwoWay LoggingSettings ∧ AlwaysTwoWay AuthSettings ∧
    AlwaysTwoWay FeedbackSettings ∧ AlwaysTwoWay CacheSettings ∧ AlwaysTwoWay Settings :=
  ⟨ alwaysTwoWay_of_shape _ (by decide) (by decide), alwaysTwoWay_of_shape _ (by decide) (by decide)
  , alwaysTwoWay_of_shape _ (by decide) (by decide), alwaysTwoWay_of_shape _ (by decide) (by decide)
  , alwaysTwoWay_of_shape _ (by decide) (by decide), twoWay_featureStatus
  , alwaysTwoWay_of_shape _ (by decide) (by decide), alwaysTwoWay_of_shape _ (by decide) (by decide)
  , alwaysTwoWay_of_shape _ (by decide) (by decide), alwaysTwoWay_of_shape _ (by decide) (by decide)
  , alwaysTwoWay_of_shape _ (by decide) (by decide), alwaysTwoWay_of_shape _ (by decide) (by decide)
  , alwaysTwoWay_of_shape _ (by decide) (by decide), alwaysTwoWay_of_shape _ (by decide) (by decide)
  , alwaysTwoWay_of_shape _ (by decide) (by decide), alwaysTwoWay_of_shape _ (by decide) (by decide)
  , alwaysTwoWay_of_shape _ (by decide) (by decide), alwaysTwoWay_of_shape _ (by decide) (by decide)
  , alwaysTwoWay_of_shape _ (by decide) (by decide), alwaysTwoWay_of_shape _ (by decide) (by decide)
  , alwaysTwoWay_of_shape _ (by decide) (by decide) ⟩

/-- The state of a feature with a quotation mark, a backslash, control characters and a character
beyond sixteen bits in its texts. -/
theorem twoWay_types_escaped_status :
    let s : FeatureStatus :=
      ⟨"a\"\\\n\u0001\u007f",
        ⟨[("\"", .text "😀"), ("on", .bool true)], by decide⟩⟩
    s.IsPlain ∧ Encoded.decode (Utf8.encode (Encoded.encode s)) = .ok s := by
  intro s
  have hplain : s.IsPlain := by
    intro entry hentry
    simp only [s, List.mem_cons, List.not_mem_nil, or_false] at hentry
    rcases hentry with rfl | rfl
    · exact Or.inl ⟨_, rfl⟩
    · exact Or.inr ⟨_, rfl⟩
  exact ⟨hplain, twoWay_types.2.2.2.2.2.1.decode_encode s hplain⟩

end Colloquy
