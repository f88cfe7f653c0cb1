import Colloquy.Conversation.Cache
import Mathlib.Data.List.Basic

/-!
# When two users share a history

A history is kept under the id of the user, a colon and the id of the conversation. A user id may be
any text and may hold colons too, and so may a conversation id that is written as a uniform resource
name. `cacheKey_eq_iff` says exactly which users share a key in which conversations: `Shadows u v`
holds where the id of `u` is that of `v` with a colon and `urn:uuid` behind it, and then `u` shares
the key of every conversation that `v` names as a uniform resource, and of no other. Apart from
that, keys belong to one user and one conversation (`cacheKey_injective_iff`).
-/

set_option autoImplicit false

namespace Colloquy

namespace Uuid

/-! ## The characters of ids -/

/-- Groups of digits hold nothing but digits and hyphens. -/
theorem mem_of_isGrouped {sizes : List Nat} {text : List Char} (h : isGrouped sizes text = true) :
    ∀ c ∈ text, isHexDigit c = true ∨ c = '-' := by
  fun_induction isGrouped sizes text with
  | case1 text => simp_all
  | case2 size text => simp_all
  | case3 size sizes text _ ih =>
    simp only [Bool.and_eq_true] at h
    obtain ⟨⟨_, hdigits⟩, hrest⟩ := h
    split at hrest
    · next rest hdrop =>
      intro c hc
      rw [← List.take_append_drop size text, hdrop, List.mem_append, List.mem_cons] at hc
      rcases hc with hc | hc | hc
      · exact Or.inl (List.all_eq_true.1 hdigits c hc)
      · exact Or.inr hc
      · exact ih rest hrest c hc
    · simp at hrest

/-- A text in groups of digits holds no colon. -/
theorem colon_notMem_of_isGrouped {sizes : List Nat} {text : List Char}
    (h : isGrouped sizes text = true) : ':' ∉ text := by
  intro hmem
  rcases mem_of_isGrouped h ':' hmem with hc | hc
  · exact absurd hc (by decide)
  · exact absurd hc (by decide)

/-- A text in braces holds no colon. -/
theorem colon_notMem_of_isBraced {text : List Char} (h : isBraced text = true) : ':' ∉ text := by
  unfold isBraced at h
  split at h
  · next rest =>
    rw [Bool.and_eq_true, beq_iff_eq] at h
    obtain ⟨hlast, hinner⟩ := h
    obtain ⟨inner, rfl⟩ := List.getLast?_eq_some_iff.1 hlast
    rw [List.dropLast_concat] at hinner
    have := colon_notMem_of_isGrouped hinner
    simpa using this
  · simp at h

/-- The characters of a text in lower case. -/
theorem toList_toLower (text : String) : text.toLower.toList = text.toList.map Char.toLower :=
  String.toList_map

/-- Only the colon is a colon in lower case. -/
theorem eq_colon_of_toLower {c : Char} (h : c.toLower = ':') : c = ':' := by
  unfold Char.toLower at h
  split at h
  · next hupper =>
    have hval := congrArg (fun c => c.val.toNat) h
    obtain ⟨hlow, hhigh⟩ := hupper
    rw [ge_iff_le, UInt32.le_iff_toNat_le] at hlow
    rw [UInt32.le_iff_toNat_le] at hhigh
    simp only [UInt32.toNat_add] at hval
    have h1 : ('A'.val).toNat = 65 := rfl
    have h2 : ('Z'.val).toNat = 90 := rfl
    have h3 : (':'.val).toNat = 58 := rfl
    have h4 : ('a'.val - 'A'.val).toNat = 32 := rfl
    omega
  · exact h

/-- A well-formed id holds no colon, or is a uniform resource name: a marker, a colon and digits. -/
theorem colon_cases_of_isWellFormed {text : String} (h : isWellFormed text = true) :
    ':' ∉ text.toList ∨ ∃ marker digits : String, marker.toLower = "urn:uuid" ∧
      text = marker ++ ":" ++ digits ∧ isHyphenated digits.toList = true := by
  unfold isWellFormed at h
  rw [Bool.or_eq_true, Bool.or_eq_true, Bool.or_eq_true] at h
  rcases h with ((h | h) | h) | h
  · exact Or.inl (colon_notMem_of_isGrouped h)
  · exact Or.inl (colon_notMem_of_isGrouped h)
  · exact Or.inl (colon_notMem_of_isBraced h)
  · right
    unfold isResourceName at h
    rw [Bool.and_eq_true, beq_iff_eq] at h
    obtain ⟨hname, hdigits⟩ := h
    have hsplit : resourceName = "urn:uuid".toList ++ [':'] := by decide
    rw [hsplit] at hname
    obtain ⟨marker, colon, htake, hmarker, hcolon⟩ := List.map_eq_append_iff.1 hname
    obtain ⟨c, rfl, hc⟩ := List.map_eq_singleton_iff.1 hcolon
    rw [eq_colon_of_toLower hc] at htake
    refine ⟨String.ofList marker, String.ofList (text.toList.drop resourceName.length), ?_, ?_, ?_⟩
    · apply String.toList_inj.1
      rw [toList_toLower, String.toList_ofList, hmarker]
    · apply String.toList_inj.1
      simp only [String.toList_append, String.toList_ofList]
      have hfront : marker ++ ":".toList = text.toList.take resourceName.length := htake.symm
      rw [hfront, List.take_append_drop]
    · rwa [String.toList_ofList]

/-! ## Fresh ids -/

/-- A byte is written in hexadecimal digits. -/
theorem isHexDigit_of_mem_hex {bytes : List UInt8} {c : Char} (h : c ∈ hex bytes) :
    isHexDigit c = true := by
  have hdigit : ∀ n : Fin 16, isHexDigit (Ascii.hexDigit n) = true := by decide
  obtain ⟨b, _, hc⟩ := List.mem_flatMap.1 h
  have hb : b.toNat < 256 := b.toNat_lt
  unfold Ascii.hexPair at hc
  rw [List.mem_cons, List.mem_singleton] at hc
  rcases hc with rfl | rfl
  · exact hdigit ⟨b.toNat / 16, by omega⟩
  · exact hdigit ⟨b.toNat % 16, by omega⟩

/-- Every byte takes two digits. -/
theorem length_hex (bytes : List UInt8) : (hex bytes).length = 2 * bytes.length := by
  unfold hex
  induction bytes with
  | nil => rfl
  | cons b bytes ih =>
    rw [List.flatMap_cons, List.length_append, ih, Ascii.hexPair, List.length_cons]
    simp
    omega

/-- A group of bytes in front of a hyphen is one group of digits. -/
theorem isGrouped_hex_append {bytes : List UInt8} {size : Nat} {sizes : List Nat} {rest : List Char}
    (hsize : 2 * bytes.length = size) (hne : sizes ≠ []) (h : isGrouped sizes rest = true) :
    isGrouped (size :: sizes) (hex bytes ++ '-' :: rest) = true := by
  have hlength : (hex bytes).length = size := (length_hex bytes).trans hsize
  have hdigits : (hex bytes).all isHexDigit = true :=
    List.all_eq_true.2 fun _ hc => isHexDigit_of_mem_hex hc
  rw [isGrouped, List.take_left' hlength, List.drop_left' hlength, hdigits, hlength]
  · simpa using h
  · exact hne

/-- The last group of bytes is one group of digits. -/
theorem isGrouped_hex {bytes : List UInt8} {size : Nat} (hsize : 2 * bytes.length = size) :
    isGrouped [size] (hex bytes) = true := by
  have hlength : (hex bytes).length = size := (length_hex bytes).trans hsize
  have hdigits : (hex bytes).all isHexDigit = true :=
    List.all_eq_true.2 fun _ hc => isHexDigit_of_mem_hex hc
  rw [isGrouped, hdigits, hlength]
  simp

/-- Sixteen bytes are written in the form with hyphens. -/
theorem isHyphenated_text (octets : Octets) : isHyphenated (text octets).toList = true := by
  have hlength : octets.toList.length = 16 := by simp
  unfold isHyphenated groupSizes text
  simp only [String.toList_ofList, List.append_assoc, List.cons_append]
  refine isGrouped_hex_append ?_ (by simp) ?_
  · simp
  · refine isGrouped_hex_append ?_ (by simp) ?_
    · simp
    · refine isGrouped_hex_append ?_ (by simp) ?_
      · simp
      · refine isGrouped_hex_append ?_ (by simp) (isGrouped_hex ?_)
        · simp
        · simp

/-- Sixteen bytes are written as a well-formed id. -/
theorem isWellFormed_text (octets : Octets) : isWellFormed (text octets) = true := by
  unfold isWellFormed
  rw [isHyphenated_text]
  simp

end Uuid

/-! ## Keys -/

/-- The user id `user` is the user id `other` with a colon and the marker of uniform resource names
behind it. -/
def Shadows (user other : String) : Prop :=
  ∃ marker : String, marker.toLower = "urn:uuid" ∧ user = other ++ ":" ++ marker

/-- The user `user` shares the key of the conversation `id` with the user `other`, who names the
conversation `otherId` as a uniform resource: the marker is part of the user id on the one side and
of the conversation id on the other. -/
def SharesKey (user id other otherId : String) : Prop :=
  ∃ marker : String, marker.toLower = "urn:uuid" ∧ user = other ++ ":" ++ marker ∧
    otherId = marker ++ ":" ++ id

/-- What stands in front of the last colon of a text, and behind it, is determined by the text. -/
theorem append_colon_inj {a b c d : String} (hb : ':' ∉ b.toList) (hd : ':' ∉ d.toList)
    (h : a ++ ":" ++ b = c ++ ":" ++ d) : a = c ∧ b = d := by
  have hchars : a.toList ++ ':' :: b.toList = c.toList ++ ':' :: d.toList := by
    have := congrArg String.toList h
    simp only [String.toList_append, List.append_assoc] at this
    exact this
  rcases List.append_eq_append_iff.1 hchars with ⟨middle, hc, hrest⟩ | ⟨middle, ha, hrest⟩
  · rcases List.cons_eq_append_iff.1 hrest with ⟨rfl, htail⟩ | ⟨middle, rfl, htail⟩
    · rw [List.append_nil] at hc
      exact ⟨(String.toList_inj.1 hc).symm, String.toList_inj.1 (List.cons.inj htail).2.symm⟩
    · exact absurd (htail ▸ List.mem_append_right middle List.mem_cons_self) hb
  · rcases List.cons_eq_append_iff.1 hrest with ⟨rfl, htail⟩ | ⟨middle, rfl, htail⟩
    · rw [List.append_nil] at ha
      exact ⟨String.toList_inj.1 ha, String.toList_inj.1 (List.cons.inj htail).2⟩
    · exact absurd (htail ▸ List.mem_append_right middle List.mem_cons_self) hd

/-- Markers are all of one length. -/
theorem length_marker {marker : String} (h : marker.toLower = "urn:uuid") :
    marker.toList.length = 8 := by
  have := congrArg (fun text => text.toList.length) h
  simpa [Uuid.toList_toLower] using this

/-- What two markers stand behind is the same, and so are the markers, if the texts are. -/
theorem append_marker_inj {a b marker marker' : String} (hm : marker.toLower = "urn:uuid")
    (hm' : marker'.toLower = "urn:uuid") (h : a ++ ":" ++ marker = b ++ ":" ++ marker') :
    a = b ∧ marker = marker' := by
  have hchars : (a ++ ":").toList ++ marker.toList = (b ++ ":").toList ++ marker'.toList := by
    have := congrArg String.toList h
    simpa only [String.toList_append] using this
  have hlength : marker.toList.length = marker'.toList.length :=
    (length_marker hm).trans (length_marker hm').symm
  obtain ⟨hfront, hback⟩ := List.append_inj' hchars hlength
  rw [String.toList_append, String.toList_append] at hfront
  exact ⟨String.toList_inj.1 (List.append_cancel_right hfront), String.toList_inj.1 hback⟩

/-- Users who share a key do share it: the two ways to read it. -/
theorem SharesKey.cacheKey_eq {user user' : String} {id id' : ConversationId}
    (h : SharesKey user id.text user' id'.text) : id.cacheKey user = id'.cacheKey user' := by
  obtain ⟨marker, _, huser, hid⟩ := h
  unfold ConversationId.cacheKey
  rw [huser, hid]
  simp only [String.append_assoc]

/-- Which users share a key in which well-formed conversations. -/
theorem cacheKey_eq_iff {id id' : ConversationId} (h : Uuid.isWellFormed id.text = true)
    (h' : Uuid.isWellFormed id'.text = true) (user user' : String) :
    id.cacheKey user = id'.cacheKey user' ↔
      (user = user' ∧ id = id') ∨ SharesKey user id.text user' id'.text ∨
        SharesKey user' id'.text user id.text := by
  constructor
  · intro hkey
    unfold ConversationId.cacheKey at hkey
    rcases Uuid.colon_cases_of_isWellFormed h with hplain | ⟨marker, digits, hm, htext, hd⟩
    · rcases Uuid.colon_cases_of_isWellFormed h' with hplain' | ⟨marker', digits', hm', htext', hd'⟩
      · obtain ⟨huser, hid⟩ := append_colon_inj hplain hplain' hkey
        exact Or.inl ⟨huser, congrArg ConversationId.mk hid⟩
      · -- The marker of the one id stands at the end of the other user id.
        rw [htext', ← String.append_assoc, ← String.append_assoc] at hkey
        obtain ⟨huser, hid⟩ := append_colon_inj hplain (Uuid.colon_notMem_of_isGrouped hd') hkey
        exact Or.inr (Or.inl ⟨marker', hm', huser, by rw [hid, htext']⟩)
    · rcases Uuid.colon_cases_of_isWellFormed h' with hplain' | ⟨marker', digits', hm', htext', hd'⟩
      · rw [htext, ← String.append_assoc, ← String.append_assoc] at hkey
        obtain ⟨huser, hid⟩ := append_colon_inj (Uuid.colon_notMem_of_isGrouped hd) hplain' hkey
        exact Or.inr (Or.inr ⟨marker, hm, huser.symm, by rw [← hid, htext]⟩)
      · -- Both ids have markers, which are of one length and so the same.
        rw [htext, htext', ← String.append_assoc, ← String.append_assoc, ← String.append_assoc,
          ← String.append_assoc] at hkey
        obtain ⟨hfront, hdigits⟩ := append_colon_inj (Uuid.colon_notMem_of_isGrouped hd)
          (Uuid.colon_notMem_of_isGrouped hd') hkey
        obtain ⟨huser, hmarker⟩ := append_marker_inj hm hm' hfront
        refine Or.inl ⟨huser, congrArg ConversationId.mk (?_ : id.text = id'.text)⟩
        rw [htext, htext', hmarker, hdigits]
  · rintro (⟨rfl, rfl⟩ | hshares | hshares)
    · rfl
    · exact hshares.cacheKey_eq
    · exact hshares.cacheKey_eq.symm

/-! ## Users who never share a key -/

/-- A text in the form with hyphens is well formed behind a marker. -/
theorem isWellFormed_marker {marker digits : String} (hm : marker.toLower = "urn:uuid")
    (h : Uuid.isHyphenated digits.toList = true) :
    Uuid.isWellFormed (marker ++ ":" ++ digits) = true := by
  have hlength : (marker.toList ++ [':']).length = Uuid.resourceName.length := by
    rw [List.length_append, length_marker hm]
    rfl
  have hlower : (marker.toList ++ [':']).map Char.toLower = Uuid.resourceName := by
    rw [List.map_append, ← Uuid.toList_toLower, hm]
    rfl
  have hchars : (marker ++ ":" ++ digits).toList = (marker.toList ++ [':']) ++ digits.toList := by
    rw [String.toList_append, String.toList_append]
    rfl
  have hname : Uuid.isResourceName (marker ++ ":" ++ digits).toList = true := by
    unfold Uuid.isResourceName
    rw [hchars, List.take_left' hlength, List.drop_left' hlength, hlower, h]
    simp
  unfold Uuid.isWellFormed
  rw [hname, Bool.or_true]

/-- Whoever shadows another user shares a key with that user. -/
theorem Shadows.exists_sharesKey {user user' : String} (h : Shadows user user') :
    ∃ id id' : ConversationId, Uuid.isWellFormed id.text = true ∧
      Uuid.isWellFormed id'.text = true ∧ SharesKey user id.text user' id'.text := by
  obtain ⟨marker, hm, huser⟩ := h
  have hdigits := Uuid.isHyphenated_text (Vector.replicate 16 0)
  exact ⟨⟨Uuid.text (Vector.replicate 16 0)⟩, ⟨marker ++ ":" ++ Uuid.text (Vector.replicate 16 0)⟩,
    Uuid.isWellFormed_text _, isWellFormed_marker hm hdigits, marker, hm, huser, rfl⟩

/-- Nobody shadows himself. -/
theorem not_shadows_self (user : String) : ¬Shadows user user := by
  rintro ⟨marker, hm, huser⟩
  have := congrArg (fun text => text.toList.length) huser
  simp [String.toList_append, length_marker hm] at this

/-- Keys tell two users apart, and the conversations of one user, if and only if the id of neither
is that of the other with a marker. -/
theorem cacheKey_injective_iff (user user' : String) :
    (∀ id id' : ConversationId, Uuid.isWellFormed id.text = true →
      Uuid.isWellFormed id'.text = true → id.cacheKey user = id'.cacheKey user' →
        user = user' ∧ id = id') ↔
      ¬Shadows user user' ∧ ¬Shadows user' user := by
  constructor
  · intro hinj
    have hapart {a b : String} (hab : ∀ id id' : ConversationId, Uuid.isWellFormed id.text = true →
        Uuid.isWellFormed id'.text = true → id.cacheKey a = id'.cacheKey b → a = b) :
        ¬Shadows a b := by
      intro hshadows
      obtain ⟨id, id', hid, hid', hshares⟩ := hshadows.exists_sharesKey
      obtain rfl := hab id id' hid hid' hshares.cacheKey_eq
      exact not_shadows_self a hshadows
    refine ⟨hapart fun id id' hid hid' hkey => (hinj id id' hid hid' hkey).1,
      hapart fun id id' hid hid' hkey => (hinj id' id hid' hid hkey.symm).1.symm⟩
  · rintro ⟨hnot, hnot'⟩ id id' hid hid' hkey
    rcases (cacheKey_eq_iff hid hid' user user').1 hkey with heq | hshares | hshares
    · exact heq
    · obtain ⟨marker, hm, huser, _⟩ := hshares
      exact absurd ⟨marker, hm, huser⟩ hnot
    · obtain ⟨marker, hm, huser, _⟩ := hshares
      exact absurd ⟨marker, hm, huser⟩ hnot'

end Colloquy
