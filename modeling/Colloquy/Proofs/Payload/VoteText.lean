import Colloquy.Proofs.Json.IntegerText
import Colloquy.Proofs.Service.FeedbackBody

/-!
# The texts of votes

A vote has one text. Of all that is written as a JSON number, `1` is read as the one vote, `-1` as
the other, and nothing else as any (`Sentiment.isReadFrom_number`): a number of the same value that
is written otherwise is a number of double precision, and an integer beyond a word does not come
round to a small one. What is read as a vote is how that vote is written, and all other texts are
refused, either as a number that stands for no vote or as one beyond the range of numbers.
-/

set_option autoImplicit false

namespace Colloquy

open Json

namespace Json.NumberText

variable {t : NumberText}

/-- A number that can be read is what its text is decoded to. -/
theorem decode_of_some {number : Number} (h : t.number? = some number) :
    Json.decode (readNumber depthLimit) t.text = .ok number :=
  decode_of_readsBack (readsBack_plain h depthLimit)

/-- A text whose number cannot be read is refused as out of range. -/
theorem decode_of_none (h : t.number? = none) :
    ∃ error : Json.Error, Json.decode (readNumber depthLimit) t.text = .error error ∧
      error.cause = .numberOutOfRange := by
  obtain ⟨left, hread⟩ := refuses_plain h depthLimit [] nofun
  rw [List.append_nil] at hread
  refine ⟨Failure.locate t.text ⟨.numberOutOfRange, left, []⟩, ?_, rfl⟩
  unfold Json.decode
  rw [hread]

/-- A text is decoded to the number that it stands for, if it stands for one. -/
theorem decode_eq_ok_iff {number : Number} :
    Json.decode (readNumber depthLimit) t.text = .ok number ↔ t.number? = some number := by
  refine ⟨fun hdecode => ?_, decode_of_some⟩
  cases hnumber : t.number? with
  | none =>
    obtain ⟨error, herror, _⟩ := decode_of_none hnumber
    exact absurd (herror.symm.trans hdecode) nofun
  | some other => rw [Except.ok.inj ((decode_of_some hnumber).symm.trans hdecode)]

end Json.NumberText

namespace Sentiment

/-- A vote is read from a text: the number that the text is decoded to stands for it. -/
def IsReadFrom (vote : Sentiment) (text : Bytes) : Prop :=
  ∃ number, Json.decode (readNumber depthLimit) text = .ok number ∧ ofNumber number = .ok vote

/-- How a text that is no vote is refused. -/
inductive IsRefused (text : Bytes) : Prop
  /-- It is decoded to a number, which is reported as no vote. -/
  | noVote {number : Number} (hdecode : Json.decode (readNumber depthLimit) text = .ok number)
    (hvote : ofNumber number = .error (.invalidSentiment number.text))
  /-- Its number is too large for double precision. -/
  | outOfRange {error : Json.Error}
    (hdecode : Json.decode (readNumber depthLimit) text = .error error)
    (hcause : error.cause = .numberOutOfRange)

/-- The text that a vote is written as. -/
def written (vote : Sentiment) : Bytes :=
  Utf8.encode (Value.number vote.toNumber).render

/-- A number stands for a vote only if it is the one that the vote is written as. -/
theorem ofNumber_eq_ok_iff {number : Number} {vote : Sentiment} :
    ofNumber number = .ok vote ↔ number = vote.toNumber := by
  constructor
  · intro h
    obtain ⟨other, hother, hnumber⟩ | ⟨hnone, _⟩ := FeedbackRule.ofNumber_cases number
    · rw [hnumber, Except.ok.inj (hother.symm.trans h)]
    · exact absurd (hnone.symm.trans h) nofun
  · rintro rfl
    cases vote <;> rfl

/-- A vote is written as the digits of its number, behind a minus if it is negative. -/
theorem written_eq (vote : Sentiment) : vote.written = Utf8.encode (toString vote.value) := by
  cases vote <;> rfl

/-- A vote fits a word. -/
theorem fitsWord_value (vote : Sentiment) : FitsWord vote.value := by
  unfold FitsWord
  cases vote <;> decide

variable (t : NumberText)

/-- A number is read as a vote if it is written as that vote is, and in no other case. -/
theorem isReadFrom_iff_written (vote : Sentiment) :
    vote.IsReadFrom t.text ↔ t.text = vote.written := by
  have hnumber : vote.IsReadFrom t.text ↔ t.number? = some vote.toNumber := by
    unfold IsReadFrom
    simp only [NumberText.decode_eq_ok_iff, ofNumber_eq_ok_iff, exists_eq_right]
  rw [hnumber, written_eq]
  exact (t.number?_eq_integer_iff vote.value).trans (and_iff_left vote.fitsWord_value)

/-- A number that is not read as a vote is refused. -/
theorem isRefused_iff : IsRefused t.text ↔ ∀ vote : Sentiment, t.text ≠ vote.written := by
  simp only [ne_eq, ← isReadFrom_iff_written]
  constructor
  · rintro (⟨hdecode, hvote⟩ | ⟨hdecode, _⟩) vote ⟨number, hnumber, hread⟩
    · obtain rfl := Except.ok.inj (hdecode.symm.trans hnumber)
      exact absurd (hvote.symm.trans hread) nofun
    · exact absurd (hdecode.symm.trans hnumber) nofun
  · intro hnone
    cases hnumber : t.number? with
    | none =>
      obtain ⟨error, hdecode, hcause⟩ := NumberText.decode_of_none hnumber
      exact .outOfRange hdecode hcause
    | some number =>
      have hdecode := NumberText.decode_of_some hnumber
      obtain ⟨vote, hvote, _⟩ | ⟨hvote, _⟩ := FeedbackRule.ofNumber_cases number
      · exact absurd ⟨number, hdecode, hvote⟩ (hnone vote)
      · exact .noVote hdecode hvote

/-- The text `1` is read as the one vote and the text `-1` as the other; a vote that is read is
written as the text that it was read from; and every other number is refused. -/
theorem isReadFrom_number :
    (positive.IsReadFrom t.text ↔ t.text = Utf8.encode "1") ∧
    (negative.IsReadFrom t.text ↔ t.text = Utf8.encode "-1") ∧
    (∀ vote : Sentiment, vote.IsReadFrom t.text ↔
      Utf8.encode (Value.number vote.toNumber).render = t.text) ∧
    (IsRefused t.text ↔ t.text ≠ Utf8.encode "1" ∧ t.text ≠ Utf8.encode "-1") := by
  have hpositive : positive.written = Utf8.encode "1" := rfl
  have hnegative : negative.written = Utf8.encode "-1" := rfl
  refine ⟨hpositive ▸ isReadFrom_iff_written t positive,
    hnegative ▸ isReadFrom_iff_written t negative,
    fun vote => (isReadFrom_iff_written t vote).trans eq_comm, ?_⟩
  rw [isRefused_iff, ← hpositive, ← hnegative]
  constructor
  · exact fun hnone => ⟨hnone positive, hnone negative⟩
  · rintro ⟨hpositive, hnegative⟩ vote
    cases vote with
    | positive => exact hpositive
    | negative => exact hnegative

end Sentiment

end Colloquy
