import Colloquy.Proofs.Settings.ValueText

/-!
# Reading values

What is read as the value of an environment variable is what its text spells
(`Environment.valueOf_of_spells`), and a text that spells nothing stands for itself
(`Environment.valueOf_of_not_spells`).

That a value has been read says what its text looks like, by induction on the fuel
(`Environment.spells_of_read`). That a text which spells a value is read, with the fuel that its
length gives, is shown by induction on how it is spelled (`Environment.Spells.readValue_eq`).
-/

set_option autoImplicit false

namespace Colloquy.Environment

/-! ## What is read is spelled -/

/-- A text begins with the blanks that are skipped. -/
theorem exists_blanks (s : List Char) : ∃ blanks, AreBlanks blanks ∧ s = blanks ++ skipBlank s :=
  ⟨s.takeWhile Blank.isAsciiBlank, fun _ hc => List.mem_takeWhile_imp hc,
    (List.takeWhile_append_dropWhile).symm⟩

/-- Blanks in front of a text are skipped. -/
theorem skipBlank_append {blanks : List Char} (h : AreBlanks blanks) (s : List Char) :
    skipBlank (blanks ++ s) = skipBlank s :=
  List.dropWhile_append_of_pos h

/-- A name that is read in front of an equals sign is a name in front of it. -/
theorem isName_of_readName {s rest behind : List Char} {name : String}
    (h : readName (skipBlank s) = some (name, rest)) (hbehind : skipBlank rest = '=' :: behind) :
    ∃ front, s = front ++ '=' :: behind ∧ IsName front name := by
  obtain ⟨blanks, hblanks, hs⟩ := exists_blanks s
  obtain ⟨blanks', hblanks', hrest⟩ := exists_blanks rest
  rw [hbehind] at hrest
  unfold readName at h
  split at h
  · next quoted hquoted =>
    obtain ⟨⟨text, rest'⟩, hread, heq⟩ := Option.map_eq_some_iff.1 h
    obtain ⟨rfl, rfl⟩ := Prod.mk.inj heq
    obtain ⟨body, rfl, hbody⟩ := isQuoted_of_readQuoted hread
    refine ⟨blanks ++ '"' :: (body ++ '"' :: blanks'), ?_, .quoted hblanks hblanks' hbody⟩
    rw [hs, hquoted, hrest]
    simp
  · split at h
    · cases h
    · next hne =>
      obtain ⟨rfl, rfl⟩ := Prod.mk.inj (Option.some.inj h)
      refine ⟨blanks ++ ((skipBlank s).takeWhile isNameChar ++ blanks'), ?_,
        .bare hblanks hblanks' (fun hnil => hne hnil) fun _ hc => List.mem_takeWhile_imp hc⟩
      rw [List.append_assoc, List.append_assoc, ← hrest, List.takeWhile_append_dropWhile]
      exact hs

/-- A blank of ASCII is a blank, which may stand in a plain text but in no name. -/
theorem isBlank_of_isAsciiBlank {c : Char} (h : Blank.isAsciiBlank c = true) :
    Blank.isBlank c = true ∧ isPlain c = true ∧ isNameChar c = false := by
  unfold Blank.isAsciiBlank at h
  simp only [Bool.or_eq_true, decide_eq_true_eq] at h
  rcases h with (((rfl | rfl) | rfl) | rfl) | rfl <;> decide

/-- White space is trimmed. -/
theorem trim_append {blanks : List Char} (h : AreBlanks blanks) (text : List Char) :
    Blank.trim (blanks ++ text) = Blank.trim text := by
  unfold Blank.trim
  rw [List.dropWhile_append_of_pos fun c hc => (isBlank_of_isAsciiBlank (h c hc)).1]

/-- What ends a value that is not quoted is no blank. -/
theorem skipBlank_of_stop {s : List Char} (h : ∀ c ∈ s.head?, isPlain c = false) :
    skipBlank s = s := by
  cases s with
  | nil => rfl
  | cons c s =>
    have hc : Blank.isAsciiBlank c = false := by
      rw [← Bool.not_eq_true]
      intro hblank
      have hplain := (isBlank_of_isAsciiBlank hblank).2.1
      rw [h c rfl] at hplain
      exact absurd hplain Bool.false_ne_true
    exact List.dropWhile_cons_of_neg (by simp [hc])

/-- A text that begins with no mark is read as a plain one, up to what ends it. -/
theorem exists_plain {s : List Char} (hmark : ∀ mark ∈ marks, ¬mark <+: skipBlank s) :
    ∃ text, s = text ++ (skipBlank s).dropWhile isPlain ∧
      Spells text (ofPlain (Blank.trim ((skipBlank s).takeWhile isPlain))) := by
  obtain ⟨blanks, hblanks, hs⟩ := exists_blanks s
  have hcore : skipBlank ((skipBlank s).takeWhile isPlain) = (skipBlank s).takeWhile isPlain := by
    have hstart := head?_dropWhile (p := Blank.isAsciiBlank) s
    change ∀ c ∈ (skipBlank s).head?, _ at hstart
    cases hskip : skipBlank s with
    | nil => rfl
    | cons c rest =>
      rw [hskip] at hstart
      have hc := hstart c rfl
      rw [List.takeWhile_cons]
      split
      · exact List.dropWhile_cons_of_neg (by simp [hc])
      · rfl
  have hplain : IsPlainText (blanks ++ (skipBlank s).takeWhile isPlain) := by
    refine ⟨fun c hc => ?_, fun mark hmem hprefix => hmark mark hmem ?_⟩
    · rcases List.mem_append.1 hc with hc | hc
      · exact (isBlank_of_isAsciiBlank (hblanks c hc)).2.1
      · exact List.mem_takeWhile_imp hc
    · rw [skipBlank_append hblanks, hcore] at hprefix
      exact hprefix.trans (List.takeWhile_prefix _)
  have hspells := Spells.plain hplain
  rw [trim_append hblanks] at hspells
  refine ⟨_, ?_, hspells⟩
  rw [List.append_assoc, List.takeWhile_append_dropWhile]
  exact hs

/-- What is read of a value between marks is all of it with the blanks around. -/
theorem enclosed_eq {s front body back behind rest : List Char} {opening closing : Char}
    (hs : s = front ++ skipBlank s) (hskip : skipBlank s = opening :: (body ++ closing :: behind))
    (hbehind : behind = back ++ rest) :
    s = front ++ opening :: (body ++ closing :: back) ++ rest := by
  rw [hs, hskip, hbehind, List.append_assoc, List.cons_append, List.append_assoc, List.cons_append]

/-- A value that is read is spelled by what was read, if that is so of lists and groups. -/
theorem spells_of_readValue {fuel : Nat}
    (hitems : ∀ s items rest, readItems fuel s = some (items, rest) →
      ∃ body, s = body ++ ']' :: rest ∧ SpellsItems body items)
    (hmembers : ∀ s members rest, readMembers fuel s = some (members, rest) →
      ∃ body, s = body ++ '\x7d' :: rest ∧ SpellsMembers body members)
    {s rest : List Char} {d : Datum} (h : readValue (fuel + 1) s = some (d, rest)) :
    ∃ text, s = text ++ rest ∧ Spells text d := by
  unfold readValue at h
  obtain ⟨⟨value, behind⟩, hread, heq⟩ := Option.map_eq_some_iff.1 h
  obtain ⟨rfl, rfl⟩ := Prod.mk.inj heq
  clear h heq
  obtain ⟨front, hfront, hs⟩ := exists_blanks s
  obtain ⟨back, hback, hbehind⟩ := exists_blanks behind
  split at hread
  · next rest hskip =>
    obtain ⟨rfl, rfl⟩ := Prod.mk.inj (Option.some.inj hread)
    refine ⟨_, ?_, .flag true hfront hback⟩
    rw [List.append_assoc, List.append_assoc, ← hbehind, hs, hskip]
    rfl
  · next rest hskip =>
    obtain ⟨rfl, rfl⟩ := Prod.mk.inj (Option.some.inj hread)
    refine ⟨_, ?_, .flag false hfront hback⟩
    rw [List.append_assoc, List.append_assoc, ← hbehind, hs, hskip]
    rfl
  · next rest hskip =>
    obtain ⟨⟨members, rest'⟩, hinner, heq⟩ := Option.map_eq_some_iff.1 hread
    obtain ⟨rfl, rfl⟩ := Prod.mk.inj heq
    obtain ⟨body, rfl, hbody⟩ := hmembers _ _ _ hinner
    exact ⟨_, enclosed_eq hs hskip hbehind, .group hfront hback hbody⟩
  · next rest hskip =>
    obtain ⟨⟨items, rest'⟩, hinner, heq⟩ := Option.map_eq_some_iff.1 hread
    obtain ⟨rfl, rfl⟩ := Prod.mk.inj heq
    obtain ⟨body, rfl, hbody⟩ := hitems _ _ _ hinner
    exact ⟨_, enclosed_eq hs hskip hbehind, .list hfront hback hbody⟩
  · next rest hskip =>
    obtain ⟨⟨text, rest'⟩, hinner, heq⟩ := Option.map_eq_some_iff.1 hread
    obtain ⟨rfl, rfl⟩ := Prod.mk.inj heq
    obtain ⟨body, rfl, hbody⟩ := isQuoted_of_readQuoted hinner
    exact ⟨_, enclosed_eq hs hskip hbehind, .quoted hfront hback hbody⟩
  · next c rest hskip =>
    obtain ⟨rfl, rfl⟩ := Prod.mk.inj (Option.some.inj hread)
    refine ⟨_, ?_, .letter c hfront hback⟩
    rw [hs, hskip, List.append_assoc, List.cons_append, List.cons_append, List.cons_append,
      ← hbehind]
  · cases hread
  · next htrue hfalse _ _ hquote _ hletter =>
    obtain ⟨rfl, rfl⟩ := Prod.mk.inj (Option.some.inj hread)
    have hmark : ∀ mark ∈ marks, ¬mark <+: skipBlank s := by
      rintro mark hmem ⟨rest, hrest⟩
      simp only [marks, List.mem_cons, List.not_mem_nil, or_false] at hmem
      rcases hmem with rfl | rfl | rfl | rfl
      · exact htrue rest hrest.symm
      · exact hfalse rest hrest.symm
      · exact hquote rest hrest.symm
      · exact hletter rest hrest.symm
    rw [skipBlank_of_stop (head?_dropWhile _)]
    exact exists_plain hmark

/-- No value begins with the end of a list. -/
theorem Spells.head?_ne {text : List Char} {d : Datum} (h : Spells text d) :
    text.head? ≠ some ']' := by
  have hfront (front : List Char) (hfront : AreBlanks front) (c : Char) (rest : List Char)
      (hc : c ≠ ']') : (front ++ c :: rest).head? ≠ some ']' := by
    cases front with
    | nil => simpa using hc
    | cons b front =>
      have hb := hfront b List.mem_cons_self
      rintro ⟨⟩
      exact absurd hb (by decide)
  cases h with
  | flag flag hblanks _ =>
    cases flag with
    | true => exact hfront _ hblanks 't' _ (by decide)
    | false => exact hfront _ hblanks 'f' _ (by decide)
  | group hblanks _ _ => exact hfront _ hblanks '\x7b' _ (by decide)
  | list hblanks _ _ => exact hfront _ hblanks '[' _ (by decide)
  | quoted hblanks _ _ => exact hfront _ hblanks '"' _ (by decide)
  | letter c hblanks _ => exact hfront _ hblanks '\'' _ (by decide)
  | plain hplain =>
    intro hhead
    exact absurd (hplain.all_plain _ (List.mem_of_head? hhead)) (by decide)

/-- The items that are read are spelled in front of the closing bracket. -/
theorem spellsItems_of_readItems {fuel : Nat}
    (hvalue : ∀ s d rest, readValue fuel s = some (d, rest) →
      ∃ text, s = text ++ rest ∧ Spells text d)
    (hitems : ∀ s items rest, readItems fuel s = some (items, rest) →
      ∃ body, s = body ++ ']' :: rest ∧ SpellsItems body items)
    {s rest : List Char} {items : List Datum} (h : readItems (fuel + 1) s = some (items, rest)) :
    ∃ body, s = body ++ ']' :: rest ∧ SpellsItems body items := by
  unfold readItems at h
  split at h
  · next rest' hfuel => cases hfuel
  · next rest' =>
    obtain ⟨rfl, rfl⟩ := Prod.mk.inj (Option.some.inj h)
    exact ⟨[], rfl, .nil⟩
  · next fuel' hfuel hne =>
    obtain rfl := Nat.succ.inj hfuel
    split at h
    · next item behind hread =>
      obtain ⟨text, rfl, hitem⟩ := hvalue _ _ _ hread
      obtain ⟨⟨more, rest'⟩, hmore, heq⟩ := Option.map_eq_some_iff.1 h
      obtain ⟨rfl, rfl⟩ := Prod.mk.inj heq
      obtain ⟨body, rfl, hbody⟩ := hitems _ _ _ hmore
      exact ⟨text ++ ',' :: body, by simp, .cons hitem hbody⟩
    · next item behind hread =>
      obtain ⟨text, rfl, hitem⟩ := hvalue _ _ _ hread
      obtain ⟨rfl, rfl⟩ := Prod.mk.inj (Option.some.inj h)
      have htext : text ≠ [] := by
        rintro rfl
        exact hne _ rfl
      exact ⟨text, rfl, .last htext hitem⟩
    · cases h

/-- The members that are read are spelled in front of the closing brace. -/
theorem spellsMembers_of_readMembers {fuel : Nat}
    (hvalue : ∀ s d rest, readValue fuel s = some (d, rest) →
      ∃ text, s = text ++ rest ∧ Spells text d)
    (hmembers : ∀ s members rest, readMembers fuel s = some (members, rest) →
      ∃ body, s = body ++ '\x7d' :: rest ∧ SpellsMembers body members)
    {s rest : List Char} {members : List (String × Datum)}
    (h : readMembers (fuel + 1) s = some (members, rest)) :
    ∃ body, s = body ++ '\x7d' :: rest ∧ SpellsMembers body members := by
  unfold readMembers at h
  split at h
  · next rest' hfuel => cases hfuel
  · next rest' =>
    obtain ⟨rfl, rfl⟩ := Prod.mk.inj (Option.some.inj h)
    exact ⟨[], rfl, .nil⟩
  · next fuel' hfuel hne =>
    obtain rfl := Nat.succ.inj hfuel
    split at h
    · cases h
    · next name behind hname =>
      split at h
      · next behind' hequals =>
        obtain ⟨front, rfl, hfront⟩ := isName_of_readName hname hequals
        split at h
        · next value behind hread =>
          obtain ⟨text, rfl, hvalue⟩ := hvalue _ _ _ hread
          obtain ⟨⟨more, rest'⟩, hmore, heq⟩ := Option.map_eq_some_iff.1 h
          obtain ⟨rfl, rfl⟩ := Prod.mk.inj heq
          obtain ⟨body, rfl, hbody⟩ := hmembers _ _ _ hmore
          exact ⟨front ++ '=' :: (text ++ ',' :: body), by simp, .cons hfront hvalue hbody⟩
        · next value behind hread =>
          obtain ⟨text, rfl, hvalue⟩ := hvalue _ _ _ hread
          obtain ⟨rfl, rfl⟩ := Prod.mk.inj (Option.some.inj h)
          exact ⟨front ++ '=' :: text, by simp, .last hfront hvalue⟩
        · cases h
      · cases h

/-- What is read is spelled by what was read. -/
theorem spells_of_read (fuel : Nat) :
    (∀ s d rest, readValue fuel s = some (d, rest) → ∃ text, s = text ++ rest ∧ Spells text d) ∧
    (∀ s items rest, readItems fuel s = some (items, rest) →
      ∃ body, s = body ++ ']' :: rest ∧ SpellsItems body items) ∧
    ∀ s members rest, readMembers fuel s = some (members, rest) →
      ∃ body, s = body ++ '\x7d' :: rest ∧ SpellsMembers body members := by
  induction fuel with
  | zero =>
    refine ⟨fun s d rest h => ?_, fun s items rest h => ?_, fun s members rest h => ?_⟩
    · unfold readValue at h
      cases h
    · unfold readItems at h
      cases h
    · unfold readMembers at h
      cases h
  | succ fuel ih =>
    obtain ⟨hvalue, hitems, hmembers⟩ := ih
    exact ⟨fun _ _ _ h => spells_of_readValue hitems hmembers h,
      fun _ _ _ h => spellsItems_of_readItems hvalue hitems h,
      fun _ _ _ h => spellsMembers_of_readMembers hvalue hmembers h⟩

/-! ## What is spelled is read -/

/-- A value ends in front of a text: there is none, or a comma or a closing mark. -/
def Ends (rest : List Char) : Prop :=
  ∀ c ∈ rest.head?, c = ',' ∨ c = ']' ∨ c = '\x7d'

/-- Nothing ends a value. -/
theorem ends_nil : Ends [] :=
  nofun

/-- What ends a value is not part of a plain text. -/
theorem Ends.isPlain_eq {rest : List Char} (h : Ends rest) :
    ∀ c ∈ rest.head?, isPlain c = false := by
  intro c hc
  rcases h c hc with rfl | rfl | rfl
  · rfl
  · rfl
  · rfl

/-- A comma or a closing mark ends a value. -/
theorem ends_cons {c : Char} (h : c = ',' ∨ c = ']' ∨ c = '\x7d') (rest : List Char) :
    Ends (c :: rest) := by
  rintro _ ⟨⟩
  exact h

/-- Blanks in front of what ends a value are skipped, and no more. -/
theorem skipBlank_back {back rest : List Char} (hback : AreBlanks back) (hrest : Ends rest) :
    skipBlank (back ++ rest) = rest := by
  rw [skipBlank_append hback, skipBlank_of_stop hrest.isPlain_eq]

/-- Blanks in front of an opening mark are skipped, and no more. -/
theorem skipBlank_enclosed {front : List Char} {opening : Char} (hfront : AreBlanks front)
    (hopening : Blank.isAsciiBlank opening = false) (body : List Char) (closing : Char)
    (back rest : List Char) :
    skipBlank (front ++ opening :: (body ++ closing :: back) ++ rest) =
      opening :: (body ++ closing :: (back ++ rest)) := by
  rw [List.append_assoc, skipBlank_append hfront, List.cons_append, List.append_assoc,
    List.cons_append]
  exact List.dropWhile_cons_of_neg (by simp [hopening])

/-- Blanks are skipped in front of a text whatever ends it. -/
theorem skipBlank_ends {text rest : List Char} (hrest : Ends rest) :
    skipBlank (text ++ rest) = skipBlank text ++ rest := by
  obtain ⟨blanks, hblanks, htext⟩ := exists_blanks text
  have hstart := head?_dropWhile (p := Blank.isAsciiBlank) text
  change ∀ c ∈ (skipBlank text).head?, _ at hstart
  rw [htext, List.append_assoc, skipBlank_append hblanks, ← htext]
  cases hskip : skipBlank text with
  | nil => exact skipBlank_of_stop hrest.isPlain_eq
  | cons c core =>
    rw [hskip] at hstart
    exact List.dropWhile_cons_of_neg (by simp [hstart c rfl])

/-- A name in front of an equals sign is read. -/
theorem IsName.exists_readName {front : List Char} {name : String} (h : IsName front name)
    (rest : List Char) : ∃ behind,
      readName (skipBlank (front ++ '=' :: rest)) = some (name, behind) ∧
        skipBlank behind = '=' :: rest := by
  cases h with
  | @quoted front body name back hfront hback hbody =>
    refine ⟨back ++ '=' :: rest, ?_, skipBlank_append hback _⟩
    have hread := hbody.readQuoted_eq (back ++ '=' :: rest)
    rw [List.append_assoc, skipBlank_append hfront, List.cons_append, List.append_assoc,
      List.cons_append]
    show (readQuoted (body ++ '"' :: (back ++ '=' :: rest))).map _ = _
    rw [hread]
    rfl
  | @bare front name back hfront hback hne hname =>
    refine ⟨back ++ '=' :: rest, ?_, skipBlank_append hback _⟩
    have hstop : ∀ c ∈ (back ++ '=' :: rest).head?, isNameChar c = false := by
      intro c hc
      cases back with
      | nil =>
        obtain rfl : '=' = c := Option.some.inj hc
        rfl
      | cons b back =>
        obtain rfl : b = c := Option.some.inj hc
        exact (isBlank_of_isAsciiBlank (hback b List.mem_cons_self)).2.2
    obtain ⟨htake, hdrop⟩ := takeWhile_run hname hstop
    obtain ⟨c, more, rfl⟩ := List.exists_cons_of_ne_nil hne
    have hc := hname c List.mem_cons_self
    have hblank : Blank.isAsciiBlank c = false := by
      rw [← Bool.not_eq_true]
      intro hblank
      rw [(isBlank_of_isAsciiBlank hblank).2.2] at hc
      exact absurd hc Bool.false_ne_true
    have hskip : skipBlank (c :: more ++ (back ++ '=' :: rest)) =
        c :: more ++ (back ++ '=' :: rest) := List.dropWhile_cons_of_neg (by simp [hblank])
    rw [List.append_assoc, skipBlank_append hfront, List.append_assoc, hskip]
    unfold readName
    split
    · next heq =>
      obtain ⟨rfl, -⟩ := List.cons.inj heq
      exact absurd hc (by decide)
    · rw [htake, hdrop]

/-- What a text of plain characters begins with does not depend on what ends it. -/
theorem prefix_of_prefix_append {mark core rest : List Char}
    (hmark : ∀ c ∈ mark, isPlain c = true) (hcore : ∀ c ∈ core, isPlain c = true)
    (hrest : Ends rest) (h : mark <+: core ++ rest) : mark <+: core := by
  obtain ⟨more, hmore⟩ := h
  have hrun := congrArg (List.takeWhile isPlain) hmore
  rw [List.takeWhile_append_of_pos hmark, (takeWhile_run hcore hrest.isPlain_eq).1] at hrun
  exact ⟨_, hrun⟩

/-- A plain text is read up to what ends it, without the blanks around it. -/
theorem IsPlainText.readValue_eq {text rest : List Char} (h : IsPlainText text)
    (hrest : Ends rest) (fuel : Nat) :
    readValue (fuel + 1) (text ++ rest) = some (ofPlain (Blank.trim text), rest) := by
  obtain ⟨blanks, hblanks, htext⟩ := exists_blanks text
  have hcore : ∀ c ∈ skipBlank text, isPlain c = true := fun c hc =>
    h.all_plain c ((List.dropWhile_suffix _).subset hc)
  have hmark (mark : List Char) (hmem : mark ∈ marks) (more : List Char) :
      skipBlank text ++ rest ≠ mark ++ more := by
    intro heq
    have hplain : marks.all (fun mark => mark.all isPlain) = true := by decide
    have hall := List.all_eq_true.1 (List.all_eq_true.1 hplain mark hmem)
    exact h.not_mark mark hmem (prefix_of_prefix_append hall hcore hrest ⟨more, heq.symm⟩)
  -- nor does the text begin with an opening bracket or brace
  have hopen (c : Char) (hc : isPlain c = false) (hends : ¬(c = ',' ∨ c = ']' ∨ c = '\x7d'))
      (more : List Char) : skipBlank text ++ rest ≠ c :: more := by
    intro heq
    cases hskip : skipBlank text with
    | nil =>
      rw [hskip, List.nil_append] at heq
      exact hends (hrest c (by rw [heq]; rfl))
    | cons b core =>
      rw [hskip, List.cons_append] at heq
      have hb := hcore b (by rw [hskip]; exact List.mem_cons_self)
      rw [(List.cons.inj heq).1, hc] at hb
      exact absurd hb Bool.false_ne_true
  obtain ⟨htake, hdrop⟩ := takeWhile_run hcore hrest.isPlain_eq
  have htrim : Blank.trim text = Blank.trim (skipBlank text) := by
    have hfront := trim_append hblanks (skipBlank text)
    rwa [← htext] at hfront
  unfold readValue
  rw [skipBlank_ends hrest]
  split
  · next heq => exact absurd heq (hmark "true".toList (by decide) _)
  · next heq => exact absurd heq (hmark "false".toList (by decide) _)
  · next heq => exact absurd heq (hopen _ (by decide) (by decide) _)
  · next heq => exact absurd heq (hopen _ (by decide) (by decide) _)
  · next heq => exact absurd heq (hmark ['"'] (by decide) _)
  · next heq => exact absurd heq (hmark ['\''] (by decide) _)
  · next heq => exact absurd heq (hmark ['\''] (by decide) _)
  · rw [htake, hdrop, htrim]
    show some (_, skipBlank rest) = _
    rw [skipBlank_of_stop hrest.isPlain_eq]

mutual

/-- A text that spells a value is read as this value. -/
theorem Spells.readValue_eq {text : List Char} {d : Datum} (h : Spells text d) {rest : List Char}
    (hrest : Ends rest) {fuel : Nat} (hfuel : 2 * text.length + 1 < fuel) :
    readValue fuel (text ++ rest) = some (d, rest) := by
  obtain ⟨fuel, rfl⟩ := Nat.exists_eq_succ_of_ne_zero (Nat.ne_of_gt (Nat.zero_lt_of_lt hfuel))
  cases h with
  | @flag front back flag hfront hback =>
    unfold readValue
    rw [List.append_assoc, skipBlank_append hfront, List.append_assoc]
    cases flag with
    | true =>
      show some (Datum.flag true, skipBlank (back ++ rest)) = _
      rw [skipBlank_back hback hrest]
    | false =>
      show some (Datum.flag false, skipBlank (back ++ rest)) = _
      rw [skipBlank_back hback hrest]
  | @group front body back members hfront hback hbody =>
    have hread : readMembers fuel (body ++ '\x7d' :: (back ++ rest)) =
        some (members, back ++ rest) := by
      refine hbody.readMembers_eq _ ?_
      simp only [List.length_append, List.length_cons] at hfuel
      omega
    unfold readValue
    rw [skipBlank_enclosed hfront rfl]
    simp only [hread, Option.map_some, skipBlank_back hback hrest]
  | @list front body back items hfront hback hbody =>
    have hread : readItems fuel (body ++ ']' :: (back ++ rest)) = some (items, back ++ rest) := by
      refine hbody.readItems_eq _ ?_
      simp only [List.length_append, List.length_cons] at hfuel
      omega
    unfold readValue
    rw [skipBlank_enclosed hfront rfl]
    simp only [hread, Option.map_some, skipBlank_back hback hrest]
  | @quoted front body text back hfront hback hbody =>
    have hread := hbody.readQuoted_eq (back ++ rest)
    unfold readValue
    rw [skipBlank_enclosed hfront rfl]
    simp only [hread, Option.map_some, skipBlank_back hback hrest]
  | @letter front back c hfront hback =>
    unfold readValue
    rw [List.append_assoc, skipBlank_append hfront]
    show some (Datum.text (String.ofList [c]), skipBlank (back ++ rest)) = _
    rw [skipBlank_back hback hrest]
  | plain hplain => exact hplain.readValue_eq hrest fuel

/-- Items that are spelled in front of a closing bracket are read. -/
theorem SpellsItems.readItems_eq {body : List Char} {items : List Datum}
    (h : SpellsItems body items) (rest : List Char) {fuel : Nat}
    (hfuel : 2 * body.length + 2 < fuel) :
    readItems fuel (body ++ ']' :: rest) = some (items, rest) := by
  obtain ⟨fuel, rfl⟩ := Nat.exists_eq_succ_of_ne_zero (Nat.ne_of_gt (Nat.zero_lt_of_lt hfuel))
  cases h with
  | nil => rfl
  | @last text item hne hitem =>
    have hread : readValue fuel (body ++ ']' :: rest) = some (item, ']' :: rest) :=
      hitem.readValue_eq (ends_cons (by decide) rest) (by omega)
    unfold readItems
    split
    · next heq => cases heq
    · next rest' heq _ =>
      obtain ⟨c, text, rfl⟩ := List.exists_cons_of_ne_nil hne
      exact absurd (congrArg some (List.cons.inj heq).1) hitem.head?_ne
    · next fuel' hfuel' hother =>
      obtain rfl := Nat.succ.inj hfuel'
      rw [hread]
      rfl
  | @cons text body item items hitem hbody =>
    rw [List.length_append, List.length_cons] at hfuel
    have hread : readValue fuel (text ++ ',' :: (body ++ ']' :: rest)) =
        some (item, ',' :: (body ++ ']' :: rest)) :=
      hitem.readValue_eq (ends_cons (by decide) _) (by omega)
    have hmore : readItems fuel (body ++ ']' :: rest) = some (items, rest) :=
      hbody.readItems_eq rest (by omega)
    rw [List.append_assoc, List.cons_append]
    unfold readItems
    split
    · next heq => cases heq
    · next rest' heq _ =>
      cases text with
      | nil => exact absurd (List.cons.inj heq).1 (by decide)
      | cons c text => exact absurd (congrArg some (List.cons.inj heq).1) hitem.head?_ne
    · next fuel' hfuel' hother =>
      obtain rfl := Nat.succ.inj hfuel'
      rw [hread]
      show (readItems fuel (body ++ ']' :: rest)).map _ = _
      rw [hmore]
      rfl

/-- Members that are spelled in front of a closing brace are read. -/
theorem SpellsMembers.readMembers_eq {body : List Char} {members : List (String × Datum)}
    (h : SpellsMembers body members) (rest : List Char) {fuel : Nat}
    (hfuel : 2 * body.length + 2 < fuel) :
    readMembers fuel (body ++ '\x7d' :: rest) = some (members, rest) := by
  obtain ⟨fuel, rfl⟩ := Nat.exists_eq_succ_of_ne_zero (Nat.ne_of_gt (Nat.zero_lt_of_lt hfuel))
  cases h with
  | nil => rfl
  | @last front text name value hname hvalue =>
    rw [List.length_append, List.length_cons] at hfuel
    have hread : readValue fuel (text ++ '\x7d' :: rest) = some (value, '\x7d' :: rest) :=
      hvalue.readValue_eq (ends_cons (by decide) rest) (by omega)
    obtain ⟨behind, hfront, hequals⟩ := hname.exists_readName (text ++ '\x7d' :: rest)
    rw [List.append_assoc, List.cons_append]
    unfold readMembers
    split
    · next heq => cases heq
    · next rest' heq _ =>
      rw [heq] at hfront
      cases hfront
    · next fuel' hfuel' hother =>
      obtain rfl := Nat.succ.inj hfuel'
      simp only [hfront, hequals, hread]
  | @cons front text body name value members hname hvalue hbody =>
    rw [List.length_append, List.length_cons, List.length_append, List.length_cons] at hfuel
    have hread : readValue fuel (text ++ ',' :: (body ++ '\x7d' :: rest)) =
        some (value, ',' :: (body ++ '\x7d' :: rest)) :=
      hvalue.readValue_eq (ends_cons (by decide) _) (by omega)
    have hmore : readMembers fuel (body ++ '\x7d' :: rest) = some (members, rest) :=
      hbody.readMembers_eq rest (by omega)
    obtain ⟨behind, hfront, hequals⟩ :=
      hname.exists_readName (text ++ ',' :: (body ++ '\x7d' :: rest))
    rw [List.append_assoc, List.cons_append, List.append_assoc, List.cons_append]
    unfold readMembers
    split
    · next heq => cases heq
    · next rest' heq _ =>
      rw [heq] at hfront
      cases hfront
    · next fuel' hfuel' hother =>
      obtain rfl := Nat.succ.inj hfuel'
      simp only [hfront, hequals, hread, hmore, Option.map_some]

end

/-! ## Values -/

/-- A text stands for the value that it spells. -/
theorem valueOf_of_spells {text : String} {d : Datum} (h : Spells text.toList d) :
    valueOf text = d := by
  have hread : readValue (2 * text.length + 2) text.toList = some (d, []) := by
    have hfuel : 2 * text.toList.length + 1 < 2 * text.length + 2 := by
      rw [String.length_toList]
      omega
    have hread := h.readValue_eq ends_nil hfuel
    rwa [List.append_nil] at hread
  unfold valueOf
  rw [hread]

/-- A text that spells nothing stands for itself. -/
theorem valueOf_of_not_spells {text : String} (h : ∀ d, ¬Spells text.toList d) :
    valueOf text = .text text := by
  unfold valueOf
  split
  · next value hread =>
    obtain ⟨front, hfront, hspells⟩ := (spells_of_read _).1 _ _ _ hread
    rw [List.append_nil] at hfront
    exact absurd (hfront ▸ hspells) (h value)
  · rfl

end Colloquy.Environment
