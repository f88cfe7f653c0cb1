import Colloquy.Auth.Authenticator
import Colloquy.Proofs.Results
import Colloquy.Proofs.Shape.RoundTrip
import Colloquy.Proofs.Token.Base64RoundTrip

/-!
# Tokens that were issued

A token that a signer has signed is taken apart again, its parts are decoded, and both readings of
its claims succeed; so whether the signer accepts it is a question of its claims alone
(`Signer.verify_sign`). A token that it has issued is accepted until a minute after its expiry
(`Signer.verify_issue`), and can be shown as a text (`Signer.exists_text`).
-/

set_option autoImplicit false

namespace Colloquy

namespace Utf8

/-- ASCII bytes are those of a text. -/
theorem exists_text_of_ascii {bytes : Bytes} (h : ∀ b ∈ bytes, b < 0x80) :
    ∃ text, encode text = bytes := by
  have hall : ∀ n < 0x80, String.utf8EncodeChar (Char.ofNat n) = [UInt8.ofNat n] := by decide
  have hbyte (b : UInt8) (hb : b < 0x80) : String.utf8EncodeChar (Ascii.char b) = [b] := by
    have hchar := hall b.toNat (UInt8.lt_iff_toNat_lt.1 hb)
    rw [UInt8.ofNat_toNat] at hchar
    exact hchar
  refine ⟨String.ofList (bytes.map Ascii.char), ?_⟩
  rw [encode_eq_flatMap, String.toList_ofList]
  induction bytes with
  | nil => rfl
  | cons b bytes ih =>
    rw [List.map_cons, List.flatMap_cons, hbyte b (h b List.mem_cons_self),
      ih fun c hc => h c (List.mem_cons_of_mem b hc)]
    rfl

end Utf8

namespace Token

open Json

/-- A text is split at its last point. -/
theorem splitAtLastPoint_append {front behind : Bytes} (h : Ascii.point ∉ behind) :
    splitAtLastPoint (front ++ Ascii.point :: behind) = some (front, behind) := by
  have hreverse : (front ++ Ascii.point :: behind).reverse =
      behind.reverse ++ Ascii.point :: front.reverse := by simp
  have hbehind : ∀ b ∈ behind.reverse, decide (b ≠ Ascii.point) = true := by
    intro b hb
    refine decide_eq_true ?_
    rintro rfl
    exact h (List.mem_reverse.1 hb)
  unfold splitAtLastPoint
  simp only [hreverse, List.takeWhile_append_of_pos hbehind, List.dropWhile_append_of_pos hbehind]
  simp

/-- The header of the tokens of this service names its way of signing. -/
theorem readHeader_ownHeader :
    Json.decode readHeader (Utf8.encode ownHeader) = .ok ownAlgorithm := by
  have hread : (Json.decode readHeader (Utf8.encode ownHeader)).toOption = some ownAlgorithm := by
    decide +kernel
  exact toOption_eq_some_iff.1 hread

namespace Claims

/-- The second reading passes over the members of written claims as the first one has. -/
theorem enters_again (claims : Claims) :
    Enters (enterAgain (depthLimit - 1)) (false, allFields.noSlots)
      (allFields.written (Encoded.pack claims))
      (false, allFields.filled (Encoded.pack claims)) := by
  have hfixed : allFields.isFixed = true := by decide
  have hfirst := allFields.enters (by decide) (depthLimit - 1) (by decide) (Encoded.pack claims)
    (allFields.exact_of_isFixed hfixed _)
  refine hfirst.lift (fun slots => (false, slots)) ?_
  intro m hm slots value henter
  have hother : m.1 ≠ startMember := by
    have hname : m.1 ∈ allFields.names := by
      rw [← allFields.names_toMembers (Encoded.pack claims)]
      obtain ⟨member, hmember, rfl⟩ := List.mem_map.1 hm
      exact List.mem_map_of_mem hmember
    intro heq
    rw [heq] at hname
    exact absurd hname (by decide)
  unfold enterAgain
  rw [if_neg hother]
  simp only [henter]

/-- Written claims are read in both readings. -/
theorem read_encode (claims : Claims) :
    read (Utf8.encode (Encoded.encode claims)) = .ok claims := by
  have hfirst : Encoded.decode (Utf8.encode (Encoded.encode claims)) = .ok claims :=
    Encoded.decode_encode_of_exact (by decide) (by decide)
      (Shape.exact_of_isFixed _ (by decide) _)
  have hbytes : Utf8.encode (Encoded.encode claims) =
      Ascii.openBrace :: (separated true
        ((allFields.written (Encoded.pack claims)).map fun m => memberBytes m.1 m.2) ++
          [Ascii.closeBrace]) :=
    (encode_render _).trans (allFields.bytes_object _)
  have hagain : Json.decode readAgain (Utf8.encode (Encoded.encode claims)) = .ok () := by
    refine decode_of_readsBack fun rest _ => ?_
    rw [hbytes, List.cons_append, List.append_assoc]
    refine reads_atValue (by decide) fun bound h => ?_
    obtain ⟨h', hread⟩ := readMembers_separated claims.enters_again bound true rest h
    refine ⟨h', ?_⟩
    simp only [if_true, List.cons_append, List.nil_append, hread]
    rfl
  unfold read
  rw [hfirst, hagain]
  rfl

end Claims

namespace Signer

variable (signer : Signer)

/-- A token that a signer has signed is a question of its claims alone. -/
theorem verify_sign (now : UInt64) (claims : Claims) :
    signer.verify now (signer.sign claims) = signer.checkClaims now claims := by
  have hpoint (bytes : Bytes) : Ascii.point ∉ Base64Url.encode bytes :=
    fun h => (Base64Url.of_mem_encode h).1 rfl
  have hpart (bytes : Bytes) : decodePart (Base64Url.encode bytes) = .ok bytes := by
    unfold decodePart
    rw [Base64Url.decode_encode]
    rfl
  have htoken : splitAtLastPoint (signer.sign claims) =
      some (signedPart claims, signer.signature (signedPart claims)) :=
    splitAtLastPoint_append (hpoint _)
  have hsigned : splitAtLastPoint (signedPart claims) =
      some (Base64Url.encode (Utf8.encode ownHeader),
        Base64Url.encode (Utf8.encode (Encoded.encode claims))) :=
    splitAtLastPoint_append (hpoint _)
  have hsignature : decodePart (signer.signature (signedPart claims)) =
      .ok (Sha256.hmac (Utf8.encode signer.secret) (signedPart claims)) :=
    hpart _
  have halgorithm : (Json.decode readHeader (Utf8.encode ownHeader)).mapError Refusal.json =
      .ok ownAlgorithm := by
    rw [readHeader_ownHeader]
    rfl
  have hclaims : (Claims.read (Utf8.encode (Encoded.encode claims))).mapError Refusal.json =
      .ok claims := by
    rw [Claims.read_encode]
    rfl
  have hbind {α β : Type} (a : α) (f : α → Except Refusal β) : (Except.ok a >>= f) = f a := rfl
  unfold verify
  simp only [htoken, hsigned, hpart, hsignature, hbind, halgorithm, hclaims, ne_eq,
    not_true_eq_false, if_false]

/-- A token that a signer has issued is accepted until a minute after its expiry. -/
theorem verify_issue {issuedAt now expirySeconds : UInt64} (identity : Identity)
    (hnow : now.toNat ≤ issuedAt.toNat + expirySeconds.toNat + leeway) :
    signer.verify now (signer.issue issuedAt identity expirySeconds) =
      .ok (signer.claims issuedAt identity expirySeconds) := by
  have hlast : Nat.pow 2 64 - 1 < 2 ^ 64 := by decide
  have hfits : min (issuedAt.toNat + expirySeconds.toNat) (Nat.pow 2 64 - 1) < 2 ^ 64 :=
    Nat.lt_of_le_of_lt (Nat.min_le_right _ _) hlast
  have hexpiry : (signer.claims issuedAt identity expirySeconds).expiry.toNat =
      min (issuedAt.toNat + expirySeconds.toNat) (Nat.pow 2 64 - 1) :=
    UInt64.toNat_ofNat_of_lt' hfits
  have hexpired : ¬(signer.claims issuedAt identity expirySeconds).expiry.toNat <
      now.toNat - leeway := by
    have htime : now.toNat ≤ Nat.pow 2 64 - 1 := Nat.le_sub_one_of_lt now.toNat_lt
    rw [hexpiry]
    omega
  unfold issue
  rw [verify_sign]
  unfold checkClaims
  rw [if_neg hexpired]
  simp [claims]

/-- A token can be shown as a text. -/
theorem exists_text (claims : Claims) : ∃ text, Utf8.encode text = signer.sign claims := by
  have hpoint : Ascii.point < 0x80 := by decide
  refine Utf8.exists_text_of_ascii ?_
  intro b hb
  unfold sign signedPart signature at hb
  simp only [List.mem_append, List.mem_cons] at hb
  rcases hb with (hb | rfl | hb) | rfl | hb
  · exact (Base64Url.of_mem_encode hb).2
  · exact hpoint
  · exact (Base64Url.of_mem_encode hb).2
  · exact hpoint
  · exact (Base64Url.of_mem_encode hb).2

end Signer

end Token

end Colloquy
