import Colloquy.Conversation.History
import Mathlib.Data.List.TakeWhile

/-!
# Cutting histories

`IsCut` says what is left of a history of which only so many bytes are kept: the longest part that
begins with a line and fits, or the last line where not even that one fits. `isCut_trim` shows that
`History.trim` leaves that part. A history grows by entries and is cut after each of them;
`IsCut.append` shows that nothing is lost by that: cutting a cut history with one more entry leaves
the same as cutting the whole history with that entry. So a history that was cut all the time is a
cut of all of its entries (`IsCut.trim_append`).
-/

set_option autoImplicit false

namespace Colloquy

namespace History

/-- A part of a text that begins at the beginning of a line and goes on to the end of the text. -/
def IsLineTail (tail text : String) : Prop :=
  tail = text ∨ ∃ front, text = front ++ "\n" ++ tail

/-- What is left of a text that is cut to `limit` bytes: the longest part that begins with a line
and fits, or the last line where no such part fits. -/
def IsCut (limit : Nat) (text kept : String) : Prop :=
  IsLineTail kept text ∧
    ((kept.utf8ByteSize ≤ limit ∧
        ∀ tail, IsLineTail tail text → tail.utf8ByteSize ≤ limit →
          tail.utf8ByteSize ≤ kept.utf8ByteSize) ∨
      ((∀ tail, IsLineTail tail text → limit < tail.utf8ByteSize) ∧ '\n' ∉ kept.toList))

/-- The text of some entries, each on lines of its own. -/
def ofEntries (entries : List String) : String :=
  "\n".intercalate entries

/-- A history with one more entry, if there is one, and else the entry. -/
def extended (previous : Option String) (entry : String) : String :=
  match previous with
  | some kept => kept ++ "\n" ++ entry
  | none => entry

/-- What is remembered of some entries where `limit` bytes are kept: nothing if there are none, and
else a cut of their text. -/
inductive Remembered (limit : Nat) : (entries : List String) → (history : Option String) → Prop
  /-- Nothing was there to be remembered. -/
  | nothing : Remembered limit [] none
  /-- A cut of the text is remembered. -/
  | cut {entries : List String} {kept : String} (nonempty : entries ≠ [])
      (isCut : IsCut limit (ofEntries entries) kept) : Remembered limit entries (some kept)

/-- Nothing is remembered of no entries. -/
theorem Remembered.eq_none {limit : Nat} {history : Option String}
    (h : Remembered limit [] history) : history = none := by
  cases h with
  | nothing => rfl
  | cut nonempty isCut => exact absurd rfl nonempty

/-- What is remembered of some entries is a cut of them. -/
theorem Remembered.isCut {limit : Nat} {entries : List String} {kept : String}
    (h : Remembered limit entries (some kept)) : IsCut limit (ofEntries entries) kept := by
  cases h with
  | cut nonempty isCut => exact isCut

/-- One more entry comes behind the others. -/
theorem ofEntries_concat {entries : List String} (h : entries ≠ []) (entry : String) :
    ofEntries (entries ++ [entry]) = append (ofEntries entries) entry := by
  unfold ofEntries append
  rw [String.intercalate_append_of_ne_nil h (by simp), String.intercalate_singleton]

/-! ## Line tails -/

/-- The characters of a text with a line feed in its middle. -/
theorem toList_append_lineFeed (front back : String) :
    (front ++ "\n" ++ back).toList = front.toList ++ '\n' :: back.toList := by
  simp [String.toList_append]

/-- A line tail as a list of characters. -/
theorem isLineTail_iff_toList {tail text : String} :
    IsLineTail tail text ↔
      tail.toList = text.toList ∨ ∃ front, text.toList = front ++ '\n' :: tail.toList := by
  unfold IsLineTail
  constructor
  · rintro (rfl | ⟨front, rfl⟩)
    · exact Or.inl rfl
    · exact Or.inr ⟨front.toList, toList_append_lineFeed front tail⟩
  · rintro (h | ⟨front, h⟩)
    · exact Or.inl (String.toList_inj.1 h)
    · refine Or.inr ⟨String.ofList front, String.toList_inj.1 ?_⟩
      rw [toList_append_lineFeed, h, String.toList_ofList]

/-- A text is a line tail of itself. -/
theorem IsLineTail.refl (text : String) : IsLineTail text text :=
  Or.inl rfl

/-- A line tail of a line tail is a line tail. -/
theorem IsLineTail.trans {a b c : String} (hab : IsLineTail a b) (hbc : IsLineTail b c) :
    IsLineTail a c := by
  rcases hab with rfl | ⟨front, rfl⟩
  · exact hbc
  · rcases hbc with rfl | ⟨before, rfl⟩
    · exact Or.inr ⟨front, rfl⟩
    · refine Or.inr ⟨before ++ "\n" ++ front, ?_⟩
      simp only [String.append_assoc]

/-- A line tail is no longer than the text. -/
theorem IsLineTail.size_le {tail text : String} (h : IsLineTail tail text) :
    tail.utf8ByteSize ≤ text.utf8ByteSize := by
  rcases h with rfl | ⟨front, rfl⟩
  · exact Nat.le_refl _
  · rw [String.utf8ByteSize_append]
    omega

/-- A text without line feeds is its only line tail. -/
theorem IsLineTail.eq_of_notMem {tail text : String} (h : IsLineTail tail text)
    (hline : '\n' ∉ text.toList) : tail = text := by
  rcases h with rfl | ⟨front, rfl⟩
  · rfl
  · exact absurd (by simp) hline

/-- What begins behind a later line feed is a line tail of what begins behind an earlier one. -/
theorem isLineTail_of_cons_eq {a b : String} {middle : List Char}
    (h : '\n' :: a.toList = middle ++ '\n' :: b.toList) : IsLineTail b a := by
  rw [isLineTail_iff_toList]
  rcases List.cons_eq_append_iff.1 h with ⟨_, heq⟩ | ⟨rest, _, heq⟩
  · exact Or.inl (List.cons.inj heq).2
  · exact Or.inr ⟨rest, heq⟩

/-- Of two line tails of a text one is a line tail of the other. -/
theorem IsLineTail.total {a b text : String} (ha : IsLineTail a text) (hb : IsLineTail b text) :
    IsLineTail a b ∨ IsLineTail b a := by
  rcases ha with rfl | ⟨front, ha⟩
  · exact Or.inr hb
  · rcases hb with rfl | ⟨before, hb⟩
    · exact Or.inl (Or.inr ⟨front, ha⟩)
    · have heq : front.toList ++ '\n' :: a.toList = before.toList ++ '\n' :: b.toList := by
        rw [← toList_append_lineFeed, ← toList_append_lineFeed, ← ha, ← hb]
      rcases List.append_eq_append_iff.1 heq with ⟨middle, _, h⟩ | ⟨middle, _, h⟩
      · exact Or.inr (isLineTail_of_cons_eq h)
      · exact Or.inl (isLineTail_of_cons_eq h)

/-- Of two line tails of a text the one with fewer bytes is a line tail of the other. -/
theorem IsLineTail.of_size_le {a b text : String} (ha : IsLineTail a text)
    (hb : IsLineTail b text) (hle : a.utf8ByteSize ≤ b.utf8ByteSize) : IsLineTail a b := by
  rcases ha.total hb with h | h
  · exact h
  · rcases h with rfl | ⟨front, rfl⟩
    · exact IsLineTail.refl _
    · rw [String.utf8ByteSize_append, String.utf8ByteSize_append] at hle
      have : "\n".utf8ByteSize = 1 := rfl
      omega

/-- The line tails of a text with a line feed in its middle are those of its back, and those of its
front with all of its back behind them. -/
theorem isLineTail_append_iff {tail front back : String} :
    IsLineTail tail (append front back) ↔
      IsLineTail tail back ∨ ∃ t, IsLineTail t front ∧ tail = append t back := by
  unfold append
  constructor
  · intro h
    rcases h.total (Or.inr ⟨front, rfl⟩ : IsLineTail back (front ++ "\n" ++ back)) with h' | h'
    · exact Or.inl h'
    · rcases h' with rfl | ⟨t, rfl⟩
      · exact Or.inl (IsLineTail.refl _)
      · refine Or.inr ⟨t, ?_, rfl⟩
        rw [isLineTail_iff_toList] at h ⊢
        simp only [toList_append_lineFeed] at h
        rcases h with h | ⟨before, h⟩
        · exact Or.inl (List.append_cancel_right h)
        · rw [← List.cons_append, ← List.append_assoc] at h
          exact Or.inr ⟨before, List.append_cancel_right h⟩
  · rintro (h | ⟨t, h, rfl⟩)
    · exact h.trans (Or.inr ⟨front, rfl⟩)
    · rcases h with rfl | ⟨before, rfl⟩
      · exact IsLineTail.refl _
      · refine Or.inr ⟨before, ?_⟩
        simp only [String.append_assoc]

/-! ## Cuts -/

/-- Whatever fits of a text is still there after the cut. -/
theorem IsCut.isLineTail_of_le {limit : Nat} {text kept tail : String} (h : IsCut limit text kept)
    (htail : IsLineTail tail text) (hle : tail.utf8ByteSize ≤ limit) : IsLineTail tail kept := by
  obtain ⟨hkept, ⟨_, hlongest⟩ | ⟨hnone, _⟩⟩ := h
  · exact htail.of_size_le hkept (hlongest tail htail hle)
  · have := hnone tail htail
    omega

/-- Line tails of the same text that are of the same size are the same. -/
theorem IsLineTail.eq_of_size_eq {a b text : String} (ha : IsLineTail a text)
    (hb : IsLineTail b text) (hsize : a.utf8ByteSize = b.utf8ByteSize) : a = b := by
  rcases ha.of_size_le hb (Nat.le_of_eq hsize) with heq | ⟨front, rfl⟩
  · exact heq
  · rw [String.utf8ByteSize_append, String.utf8ByteSize_append] at hsize
    have : "\n".utf8ByteSize = 1 := rfl
    omega

/-- There is one cut of a text only. -/
theorem IsCut.unique {limit : Nat} {text a b : String} (ha : IsCut limit text a)
    (hb : IsCut limit text b) : a = b := by
  obtain ⟨htaila, ⟨hfitsa, hlongesta⟩ | ⟨hnonea, hlinea⟩⟩ := ha
  · obtain ⟨htailb, ⟨hfitsb, hlongestb⟩ | ⟨hnoneb, _⟩⟩ := hb
    · exact htaila.eq_of_size_eq htailb
        (Nat.le_antisymm (hlongestb a htaila hfitsa) (hlongesta b htailb hfitsb))
    · exact absurd hfitsa (Nat.not_le_of_lt (hnoneb a htaila))
  · obtain ⟨htailb, ⟨hfitsb, _⟩ | ⟨_, hlineb⟩⟩ := hb
    · exact absurd hfitsb (Nat.not_le_of_lt (hnonea b htailb))
    · rcases htaila.total htailb with h | h
      · exact h.eq_of_notMem hlineb
      · exact (h.eq_of_notMem hlinea).symm

/-- A cut of a part in which whatever fits of the whole is still there is a cut of the whole. -/
theorem IsCut.of_part {limit : Nat} {text part kept : String} (h : IsCut limit part kept)
    (hpart : IsLineTail part text)
    (hfits : ∀ tail, IsLineTail tail text → tail.utf8ByteSize ≤ limit → IsLineTail tail part) :
    IsCut limit text kept := by
  obtain ⟨hkept, ⟨hle, hlongest⟩ | ⟨hnone, hline⟩⟩ := h
  · refine ⟨hkept.trans hpart, Or.inl ⟨hle, ?_⟩⟩
    intro tail htail hsize
    exact hlongest tail (hfits tail htail hsize) hsize
  · refine ⟨hkept.trans hpart, Or.inr ⟨?_, hline⟩⟩
    intro tail htail
    by_contra hsize
    have hsize : tail.utf8ByteSize ≤ limit := Nat.le_of_not_lt hsize
    have := hnone tail (hfits tail htail hsize)
    omega

/-- Nothing is lost when a history is cut before one more entry comes behind it. -/
theorem IsCut.append {limit : Nat} {text kept entry cut : String} (h : IsCut limit text kept)
    (hcut : IsCut limit (append kept entry) cut) : IsCut limit (append text entry) cut := by
  refine hcut.of_part (isLineTail_append_iff.2 (Or.inr ⟨kept, h.1, rfl⟩)) ?_
  intro tail htail hle
  -- What fits together with the entry fits without it, and so was not cut off before.
  rcases isLineTail_append_iff.1 htail with htail | ⟨t, ht, rfl⟩
  · exact isLineTail_append_iff.2 (Or.inl htail)
  · have hsize : t.utf8ByteSize ≤ limit := by
      unfold History.append at hle
      rw [String.utf8ByteSize_append, String.utf8ByteSize_append] at hle
      omega
    exact isLineTail_append_iff.2 (Or.inr ⟨t, h.isLineTail_of_le ht hsize, rfl⟩)

/-- A text that fits is kept as it is. -/
theorem isCut_self {limit : Nat} {text : String} (h : text.utf8ByteSize ≤ limit) :
    IsCut limit text text :=
  ⟨IsLineTail.refl text, Or.inl ⟨h, fun _ htail _ => htail.size_le⟩⟩

/-- A single line is kept however long it is. -/
theorem isCut_line {limit : Nat} {text : String} (hlong : limit < text.utf8ByteSize)
    (hline : '\n' ∉ text.toList) : IsCut limit text text := by
  refine ⟨IsLineTail.refl text, Or.inr ⟨?_, hline⟩⟩
  intro tail htail
  rwa [htail.eq_of_notMem hline]

/-- The first line of a text that does not fit goes. -/
theorem IsCut.drop_line {limit : Nat} {line rest kept : String} (h : IsCut limit rest kept)
    (hlong : limit < (History.append line rest).utf8ByteSize) (hline : '\n' ∉ line.toList) :
    IsCut limit (History.append line rest) kept := by
  refine h.of_part (Or.inr ⟨line, rfl⟩) ?_
  intro tail htail hle
  rcases isLineTail_append_iff.1 htail with htail | ⟨t, ht, rfl⟩
  · exact htail
  · rw [ht.eq_of_notMem hline] at hle
    omega

/-! ## The loop -/

/-- The bytes of a list of characters are those of its text. -/
theorem byteLength_eq (text : List Char) : byteLength text = (String.ofList text).utf8ByteSize := by
  have fold (n : Nat) : text.foldl (fun n c => n + c.utf8Size) n =
      n + (String.ofList text).utf8ByteSize := by
    induction text generalizing n with
    | nil => simp
    | cons c text ih =>
      have hcons : String.ofList (c :: text) = String.singleton c ++ String.ofList text :=
        String.toList_inj.1 (by simp)
      rw [List.foldl_cons, ih, hcons, String.utf8ByteSize_append, String.utf8ByteSize_singleton]
      omega
  unfold byteLength
  rw [fold, Nat.zero_add]

/-- A list of characters is its first line and what is dropped together with the line feed. -/
theorem ofList_eq_append {text rest : List Char} {first : Char}
    (h : text.dropWhile (· ≠ '\n') = first :: rest) :
    String.ofList text =
      append (String.ofList (text.takeWhile (· ≠ '\n'))) (String.ofList rest) := by
  have hfirst : first = '\n' := by
    have := List.head?_dropWhile_not (· ≠ '\n') text
    rw [h] at this
    simpa using this
  subst hfirst
  apply String.toList_inj.1
  unfold append
  rw [toList_append_lineFeed, String.toList_ofList, String.toList_ofList, String.toList_ofList,
    ← h, List.takeWhile_append_dropWhile]

/-- The first line of a text holds no line feed. -/
theorem notMem_takeWhile (text : List Char) : '\n' ∉ text.takeWhile (· ≠ '\n') := by
  intro h
  simpa using List.mem_takeWhile_imp h

/-- Dropping lines leaves a cut. -/
theorem isCut_dropLines (limit size : Nat) (text : List Char)
    (hsize : size = (String.ofList text).utf8ByteSize) :
    IsCut limit (String.ofList text) (String.ofList (dropLines limit size text)) := by
  fun_induction dropLines limit size text with
  | case1 size text hle => exact isCut_self (hsize ▸ hle)
  | case2 size text hlong hnone =>
    refine isCut_line (by omega) ?_
    intro hmem
    rw [String.toList_ofList] at hmem
    simpa using List.dropWhile_eq_nil_iff.1 hnone '\n' hmem
  | case3 size text hlong first rest hrest ih =>
    rw [ofList_eq_append hrest] at hsize ⊢
    refine (ih ?_).drop_line (by omega) ?_
    · rw [byteLength_eq, hsize]
      unfold append
      rw [String.utf8ByteSize_append, String.utf8ByteSize_append]
      have : "\n".utf8ByteSize = 1 := rfl
      omega
    · rw [String.toList_ofList]
      exact notMem_takeWhile text

/-- Trimming a history leaves its cut. -/
theorem isCut_trim (limit : Nat) (history : String) : IsCut limit history (trim limit history) := by
  unfold trim
  split
  · next h => exact isCut_self h
  · have := isCut_dropLines limit history.utf8ByteSize history.toList (by simp)
    simpa using this

/-- A history that was cut after every entry is a cut of all its entries. -/
theorem IsCut.trim_append {limit : Nat} {entries : List String} {kept : String}
    (h : IsCut limit (ofEntries entries) kept) (hne : entries ≠ []) (entry : String) :
    IsCut limit (ofEntries (entries ++ [entry])) (trim limit (History.append kept entry)) := by
  rw [ofEntries_concat hne]
  exact h.append (isCut_trim limit _)

end History

end Colloquy
