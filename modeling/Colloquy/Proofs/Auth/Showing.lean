import Colloquy.Proofs.Json.PlainText
import Colloquy.Service.Handling
import Mathlib.Data.List.Basic

/-!
# What a request shows

`Http.Request.Shows` says what a request shows of its caller, in terms of its headers and of the
texts that they hold. The first `Authorization` header decides if it can be read, whether or not
it holds a key or a token; only a request without one shows what its first `X-API-Key` header
holds. Every request shows exactly one thing (`exists_shows`, `Shows.unique`), and the credentials
that are looked at are just that (`credentials_of_shows`).
-/

set_option autoImplicit false

namespace Colloquy

/-- What a request may show of its caller. -/
inductive Shown
  | key (text : String)
  | token (text : String)
  | nothing
  deriving DecidableEq

namespace Shown

/-- What is shown, as credentials. -/
def credentials : Shown → Credentials
  | key text => ⟨some text, none⟩
  | token text => ⟨none, some text⟩
  | nothing => ⟨none, none⟩

/-- What a request shows is told by its credentials. -/
theorem credentials_injective {shown other : Shown} (h : shown.credentials = other.credentials) :
    shown = other := by
  cases shown <;> cases other <;> simp_all [credentials]

end Shown

/-! ## Readable values -/

namespace Http.Request

/-- A character that may stand in a header which is read: a visible one of ASCII, a blank or a
tab. -/
def IsReadableChar (c : Char) : Prop :=
  (' ' ≤ c ∧ c ≤ '~') ∨ c = '\t'

/-- Whether a character may stand in a header is decided by its number. -/
instance : DecidablePred IsReadableChar :=
  fun c => inferInstanceAs (Decidable ((' ' ≤ c ∧ c ≤ '~') ∨ c = '\t'))

/-- A character of ASCII is encoded as one byte, and is readable if that byte is. -/
theorem readable_ascii : ∀ n : Fin 128, String.utf8EncodeChar (Char.ofNat n) = [UInt8.ofNat n] ∧
    (isReadable (UInt8.ofNat n) = true ↔ IsReadableChar (Char.ofNat n)) := by
  decide

/-- A readable byte is all of the encoding of a readable character. -/
theorem utf8EncodeChar_of_isReadable {b : UInt8} (h : isReadable b = true) :
    String.utf8EncodeChar (Char.ofNat b.toNat) = [b] ∧ IsReadableChar (Char.ofNat b.toNat) := by
  have hsmall : b.toNat < 128 := by
    unfold isReadable at h
    simp only [Bool.or_eq_true, Bool.and_eq_true, decide_eq_true_eq] at h
    rcases h with ⟨_, hlt⟩ | rfl
    · have : b.toNat < 127 := UInt8.lt_iff_toNat_lt.1 hlt
      omega
    · decide
  have hb := readable_ascii ⟨b.toNat, hsmall⟩
  simp only [UInt8.ofNat_toNat] at hb
  exact ⟨hb.1, hb.2.1 h⟩

/-- The encoding of a readable character is one readable byte. -/
theorem isReadable_of_mem_utf8EncodeChar {c : Char} (hc : IsReadableChar c) :
    ∀ b ∈ String.utf8EncodeChar c, isReadable b = true := by
  have hsmall : c.toNat < 128 := by
    rcases hc with ⟨_, hle⟩ | rfl
    · have : c.toNat ≤ '~'.toNat := UInt32.le_iff_toNat_le.1 hle
      exact Nat.lt_of_le_of_lt this (by decide)
    · decide
  obtain ⟨hbytes, hreadable⟩ := readable_ascii ⟨c.toNat, hsmall⟩
  rw [Char.ofNat_toNat] at hbytes hreadable
  intro b hb
  rw [hbytes, List.mem_singleton] at hb
  rw [hb]
  exact hreadable.2 hc

/-- A value is read as a text if it encodes that text and all characters of it are readable. -/
theorem readable?_eq_some_iff {value : Bytes} {text : String} :
    readable? value = some text ↔
      value = Utf8.encode text ∧ ∀ c ∈ text.toList, IsReadableChar c := by
  have hsound {text : String} (h : readable? value = some text) :
      value = Utf8.encode text ∧ ∀ c ∈ text.toList, IsReadableChar c := by
    unfold readable? at h
    split at h
    · next hall =>
      have hall : ∀ b ∈ value, isReadable b = true := List.all_eq_true.1 hall
      obtain rfl := Option.some.inj h
      rw [Utf8.encode_eq_flatMap, String.toList_ofList]
      constructor
      · rw [List.flatMap_map]
        calc value = value.flatMap fun b => [b] := (List.flatMap_singleton' value).symm
          _ = value.flatMap fun b => String.utf8EncodeChar (Char.ofNat b.toNat) :=
            List.flatMap_congr fun b hb => (utf8EncodeChar_of_isReadable (hall b hb)).1.symm
      · intro c hc
        obtain ⟨b, hb, rfl⟩ := List.mem_map.1 hc
        exact (utf8EncodeChar_of_isReadable (hall b hb)).2
    · exact nomatch h
  constructor
  · exact hsound
  · rintro ⟨rfl, htext⟩
    have hall : (Utf8.encode text).all isReadable = true := by
      rw [List.all_eq_true, Utf8.encode_eq_flatMap]
      intro b hb
      obtain ⟨c, hc, hb⟩ := List.mem_flatMap.1 hb
      exact isReadable_of_mem_utf8EncodeChar (htext c hc) b hb
    obtain ⟨other, hother⟩ : ∃ other, readable? (Utf8.encode text) = some other := by
      unfold readable?
      rw [if_pos hall]
      exact ⟨_, rfl⟩
    rw [hother, Utf8.encode_injective (hsound hother).1]

/-! ## Headers -/

/-- The first header of a name, which is given in lower case, can be read as a text. -/
structure ShowsText (r : Request) (name text : String) : Prop where
  /-- The value of the first header of the name is the text. -/
  first : ∃ before header behind, r.headers = before ++ header :: behind ∧
    header.1.toLower = name ∧ header.2 = Utf8.encode text ∧ ∀ h ∈ before, h.1.toLower ≠ name
  readable : ∀ c ∈ text.toList, IsReadableChar c

/-- A header is read as a text exactly if it shows that text. -/
theorem text?_eq_some_iff {r : Request} {name text : String} :
    r.text? name = some text ↔ r.ShowsText name text := by
  have hfind {header : String × Bytes} :
      r.headers.find? (fun h => h.1.toLower == name) = some header ↔
        header.1.toLower = name ∧ ∃ before behind, r.headers = before ++ header :: behind ∧
          ∀ h ∈ before, h.1.toLower ≠ name := by
    rw [List.find?_eq_some_iff_append]
    simp
  unfold text? header?
  constructor
  · intro h
    obtain ⟨value, hvalue, hread⟩ := Option.bind_eq_some_iff.1 h
    obtain ⟨header, hheader, rfl⟩ := Option.map_eq_some_iff.1 hvalue
    obtain ⟨hname, before, behind, heq, hbefore⟩ := hfind.1 hheader
    obtain ⟨hvalue, hreadable⟩ := readable?_eq_some_iff.1 hread
    exact ⟨⟨before, header, behind, heq, hname, hvalue, hbefore⟩, hreadable⟩
  · rintro ⟨⟨before, header, behind, heq, hname, hvalue, hbefore⟩, hreadable⟩
    rw [hfind.2 ⟨hname, before, behind, heq, hbefore⟩]
    exact readable?_eq_some_iff.2 ⟨hvalue, hreadable⟩

/-- A header is not read as a text exactly if it shows none. -/
theorem text?_eq_none_iff {r : Request} {name : String} :
    r.text? name = none ↔ ∀ text, ¬r.ShowsText name text := by
  simp only [Option.eq_none_iff_forall_ne_some, ne_eq, text?_eq_some_iff]

/-! ## What is shown -/

/-- What a request shows of its caller. -/
inductive Shows (r : Request) : Shown → Prop
  | authorizedKey {key : String} (h : r.ShowsText "authorization" ("ApiKey " ++ key)) :
    Shows r (.key key)
  | authorizedToken {token : String} (h : r.ShowsText "authorization" ("Bearer " ++ token)) :
    Shows r (.token token)
  /-- An `Authorization` header that holds neither a key nor a token; others are not looked at. -/
  | otherAuthorization {text : String} (h : r.ShowsText "authorization" text)
    (hkey : ∀ key, text ≠ "ApiKey " ++ key) (htoken : ∀ token, text ≠ "Bearer " ++ token) :
    Shows r .nothing
  | keyHeader {key : String} (hnone : ∀ text, ¬r.ShowsText "authorization" text)
    (h : r.ShowsText "x-api-key" key) : Shows r (.key key)
  /-- Neither header is there, or they cannot be read. -/
  | nothing (hnone : ∀ text, ¬r.ShowsText "authorization" text)
    (hnokey : ∀ text, ¬r.ShowsText "x-api-key" text) : Shows r .nothing

end Http.Request

namespace Credentials

/-- A text begins with another one if that has something behind it. -/
theorem behind?_eq_some_iff {front text rest : String} :
    behind? front text = some rest ↔ text = front ++ rest := by
  have hlist : text = front ++ rest ↔ front.toList ++ rest.toList = text.toList := by
    rw [← String.toList_inj, String.toList_append, eq_comm]
  unfold behind?
  rw [hlist]
  constructor
  · intro h
    split at h
    · next hprefix =>
      obtain rfl := Option.some.inj h
      rw [String.toList_ofList]
      exact List.prefix_iff_eq_append.1 (List.isPrefixOf_iff_prefix.1 hprefix)
    · exact nomatch h
  · intro h
    have hprefix : front.toList.isPrefixOf text.toList = true :=
      List.isPrefixOf_iff_prefix.2 ⟨rest.toList, h⟩
    rw [if_pos hprefix, ← h, List.drop_left, String.ofList_toList]

/-- Nothing is found behind a front exactly if the text does not begin with it. -/
theorem behind?_eq_none_iff {front text : String} :
    behind? front text = Option.none ↔ ∀ rest, text ≠ front ++ rest := by
  simp only [Option.eq_none_iff_forall_ne_some, ne_eq, behind?_eq_some_iff]

/-- A text that begins like a key does not begin like a token. -/
theorem key_ne_token (key token : String) : "ApiKey " ++ key ≠ "Bearer " ++ token := by
  intro h
  have hfirst := congrArg (fun text => text.toList.head?) h
  simp [String.toList_append] at hfirst

/-- An `Authorization` header of a key shows the key. -/
theorem ofAuthorization_key (key : String) :
    ofAuthorization ("ApiKey " ++ key) = ⟨some key, Option.none⟩ := by
  unfold ofAuthorization
  rw [behind?_eq_some_iff.2 rfl]

/-- An `Authorization` header of a token shows the token. -/
theorem ofAuthorization_token (token : String) :
    ofAuthorization ("Bearer " ++ token) = ⟨Option.none, some token⟩ := by
  have hkey : behind? "ApiKey " ("Bearer " ++ token) = Option.none :=
    behind?_eq_none_iff.2 fun key => (key_ne_token key token).symm
  unfold ofAuthorization
  rw [hkey, behind?_eq_some_iff.2 rfl]

/-- An `Authorization` header of anything else shows nothing. -/
theorem ofAuthorization_other {text : String} (hkey : ∀ key, text ≠ "ApiKey " ++ key)
    (htoken : ∀ token, text ≠ "Bearer " ++ token) : ofAuthorization text = none := by
  unfold ofAuthorization
  rw [behind?_eq_none_iff.2 hkey, behind?_eq_none_iff.2 htoken]

end Credentials

namespace Http.Request

variable {r : Request} {shown : Shown}

/-- The credentials of a request are what it shows. -/
theorem credentials_of_shows (h : r.Shows shown) : r.credentials = shown.credentials := by
  have hauthorization {header : String} (htext : r.ShowsText "authorization" header) :
      r.credentials = .ofAuthorization header := by
    unfold credentials
    rw [text?_eq_some_iff.2 htext]
  cases h with
  | authorizedKey htext => exact (hauthorization htext).trans (Credentials.ofAuthorization_key _)
  | authorizedToken htext =>
    exact (hauthorization htext).trans (Credentials.ofAuthorization_token _)
  | otherAuthorization htext hkey htoken =>
    exact (hauthorization htext).trans (Credentials.ofAuthorization_other hkey htoken)
  | keyHeader hnone htext =>
    unfold credentials
    simp only [text?_eq_none_iff.2 hnone, text?_eq_some_iff.2 htext]
    rfl
  | nothing hnone hnokey =>
    unfold credentials
    simp only [text?_eq_none_iff.2 hnone, text?_eq_none_iff.2 hnokey]
    rfl

/-- Every request shows something, if only that it shows nothing. -/
theorem exists_shows (r : Request) : ∃ shown, r.Shows shown := by
  cases hauthorization : r.text? "authorization" with
  | some header =>
    have htext := text?_eq_some_iff.1 hauthorization
    by_cases hkey : ∃ key, header = "ApiKey " ++ key
    · obtain ⟨key, rfl⟩ := hkey
      exact ⟨.key key, .authorizedKey htext⟩
    by_cases htoken : ∃ token, header = "Bearer " ++ token
    · obtain ⟨token, rfl⟩ := htoken
      exact ⟨.token token, .authorizedToken htext⟩
    · exact ⟨.nothing, .otherAuthorization htext (not_exists.1 hkey) (not_exists.1 htoken)⟩
  | none =>
    have hnone := text?_eq_none_iff.1 hauthorization
    cases hkey : r.text? "x-api-key" with
    | some key => exact ⟨.key key, .keyHeader hnone (text?_eq_some_iff.1 hkey)⟩
    | none => exact ⟨.nothing, .nothing hnone (text?_eq_none_iff.1 hkey)⟩

/-- A request shows one thing only. -/
theorem Shows.unique {other : Shown} (h : r.Shows shown) (h' : r.Shows other) : shown = other :=
  Shown.credentials_injective ((credentials_of_shows h).symm.trans (credentials_of_shows h'))

end Http.Request

end Colloquy
