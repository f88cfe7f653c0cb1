import Colloquy.Proofs.Entries
import Colloquy.Proofs.Json.TreePassed
import Colloquy.Proofs.Shape.RecordText
import Mathlib.Data.List.Forall2

/-!
# The members of an object by their names

What stands under a name among the members of an object (`Tree.under`): the tree of the first member
of that name, and `null` if there is none. Where a name does not come twice, that is all that the
reader of a record makes of it (`memberIs_iff`), and all that is found under it once the object has
been read as a value (`text?_member?_lastByName`). Neither the order of the members nor the blanks
around them nor the members of other names come into it.
-/

set_option autoImplicit false

namespace Colloquy

open Json

namespace Json

/-- Whether a member is of a name. -/
def isNamed (name : String) (member : StringText × Tree) : Bool :=
  member.1.content? = some name

/-- The tree under a name among the members of an object; `null` if there is none. -/
def Tree.under (name : String) (members : List (StringText × Tree)) : Tree :=
  match members.find? (isNamed name) with
  | some member => member.2
  | none => .null

/-- Every member has a name: its text stands for one. -/
def AreNamed (members : List (StringText × Tree)) : Prop :=
  ∀ member ∈ members, member.1.content?.isSome = true

/-- No name of some comes twice. -/
def NoneRepeated (names : List String) (members : List (StringText × Tree)) : Prop :=
  ∀ name ∈ names, members.countP (isNamed name) ≤ 1

end Json

section Under

variable {name : String} {member : StringText × Tree} {members : List (StringText × Tree)}

/-- Under its name the first member is found. -/
theorem Tree.under_cons_of_named (h : isNamed name member = true) :
    Tree.under name (member :: members) = member.2 := by
  unfold Tree.under
  rw [List.find?_cons_of_pos h]

/-- Under another name the first member is passed over. -/
theorem Tree.under_cons_of_not (h : isNamed name member = false) :
    Tree.under name (member :: members) = Tree.under name members := by
  unfold Tree.under
  rw [List.find?_cons_of_neg (by rw [h]; exact Bool.false_ne_true)]

/-- Where no name comes twice, any member is what is under its name. -/
theorem Tree.under_of_mem (hnodup : (members.map (·.1.content?)).Nodup) (hmem : member ∈ members)
    (hnamed : isNamed name member = true) : Tree.under name members = member.2 := by
  induction members with
  | nil => exact absurd hmem List.not_mem_nil
  | cons first members ih =>
    rw [List.map_cons, List.nodup_cons] at hnodup
    rcases List.mem_cons.1 hmem with rfl | hmem
    · exact Tree.under_cons_of_named hnamed
    · have hfirst : isNamed name first = false := by
        rw [Bool.eq_false_iff]
        intro h
        have hname : member.1.content? = first.1.content? :=
          (of_decide_eq_true hnamed).trans (of_decide_eq_true h).symm
        exact hnodup.1 (List.mem_map.2 ⟨member, hmem, hname⟩)
      rw [Tree.under_cons_of_not hfirst]
      exact ih hnodup.2 hmem

end Under

/-! ## Members that are passed over -/

/-- A member as it is found in its object: its name, and the text from its value on. -/
structure TextOf (member : StringText × Tree) (found : String × Bytes) : Prop where
  name : member.1.content? = some found.1
  value : ∃ text rest, Writes member.2 text ∧ Ends rest ∧ skipBlank found.2 = text ++ rest

/-- The members of an object are all passed over, if their names are texts. -/
theorem exists_readsMembers : (members : List (StringText × Tree)) → AreNamed members →
    {first : Bool} → {inside : Bytes} → WritesMembers first members inside → (rest : Bytes) →
      ∃ found, ReadsMembers passOver first () (inside ++ rest) found () rest ∧
        List.Forall₂ TextOf members found
  | [], _, first, inside, h, rest => by
    cases h with
    | closed blanks => exact ⟨[], .closed (skipBlank_closing (by decide) blanks rest), .nil⟩
  | (name, tree) :: members, hnamed, first, inside, h, rest => by
    have hname : name.content?.isSome = true := hnamed (name, tree) List.mem_cons_self
    obtain ⟨key, hkey⟩ := Option.isSome_iff_exists.1 hname
    cases h with
    | member before after middle behind hvalue hothers =>
      obtain ⟨start, value, hnext, hcolon, hstart⟩ :=
        nextPart_member hvalue.starts first name before after middle behind _ rest
      obtain ⟨found, hread, htexts⟩ := exists_readsMembers members
        (fun member hmember => hnamed member (List.mem_cons_of_mem _ hmember)) hothers rest
      have hends := hothers.ends rest
      exact ⟨(key, value) :: found,
        .member hnext ((reads_stringText name).2 ⟨hkey, rfl⟩) hcolon rfl
          (spans_of_writes tree hvalue hstart hends).reads_skipValue hread,
        .cons ⟨hkey, _, _, hvalue, hends, hstart⟩ htexts⟩

section Found

variable {name : String} {members : List (StringText × Tree)} {found : List (String × Bytes)}

/-- A member has the name under which its text is found. -/
theorem TextOf.isNamed_iff {member : StringText × Tree} {entry : String × Bytes}
    (h : TextOf member entry) : isNamed name member = true ↔ entry.1 = name := by
  unfold isNamed
  rw [decide_eq_true_iff, h.name, Option.some.injEq]

/-- A name is found in a text exactly if a member has it. -/
theorem mem_names_iff (h : List.Forall₂ TextOf members found) :
    name ∈ found.map Prod.fst ↔ ∃ member ∈ members, isNamed name member = true := by
  induction h with
  | nil => simp
  | cons hentry _ ih =>
    rw [List.map_cons, List.mem_cons, ih, List.exists_mem_cons_iff, hentry.isNamed_iff, eq_comm]

/-- The one member of a name, if there is one, is what is under the name. -/
theorem found_cases (h : List.Forall₂ TextOf members found)
    (honce : members.countP (isNamed name) ≤ 1) :
    (name ∉ found.map Prod.fst ∧ Tree.under name members = .null) ∨
      ∃ before value after, found = before ++ (name, value) :: after ∧
        name ∉ before.map Prod.fst ∧ name ∉ after.map Prod.fst ∧
        ∃ text rest, Writes (Tree.under name members) text ∧ Ends rest ∧
          skipBlank value = text ++ rest := by
  induction h with
  | nil => exact .inl ⟨List.not_mem_nil, rfl⟩
  | @cons member entry members found hentry hothers ih =>
    obtain ⟨key, value⟩ := entry
    cases hnamed : isNamed name member with
    | true =>
      obtain rfl : key = name := hentry.isNamed_iff.1 hnamed
      rw [List.countP_cons_of_pos hnamed] at honce
      -- another member of the name would make two of them
      have hafter : key ∉ found.map Prod.fst := by
        rw [mem_names_iff hothers]
        rintro ⟨other, hmem, hother⟩
        have hpos := List.countP_pos_iff.2 ⟨other, hmem, hother⟩
        omega
      rw [Tree.under_cons_of_named hnamed]
      exact .inr ⟨[], value, found, rfl, List.not_mem_nil, hafter, hentry.value⟩
    | false =>
      have hkey : name ≠ key := by
        rintro rfl
        rw [hentry.isNamed_iff.2 rfl] at hnamed
        cases hnamed
      rw [List.countP_cons_of_neg (by rw [hnamed]; exact Bool.false_ne_true)] at honce
      rw [Tree.under_cons_of_not hnamed]
      rcases ih honce with ⟨hname, hunder⟩ | ⟨before, other, after, rfl, hbefore, h⟩
      · exact .inl ⟨List.not_mem_cons_of_ne_of_not_mem hkey hname, hunder⟩
      · exact .inr ⟨(key, value) :: before, other, after, rfl,
          List.not_mem_cons_of_ne_of_not_mem hkey hbefore, h⟩

/-- The first entry of a name is found behind entries of other names. -/
theorem find?_append_of_notMem {before : List (String × Bytes)}
    (hbefore : name ∉ before.map Prod.fst) (value : Bytes) (after : List (String × Bytes)) :
    (before ++ (name, value) :: after).find? (fun entry => entry.1 = name) =
      some (name, value) := by
  have hnone : before.find? (fun entry => entry.1 = name) = none := by
    rw [List.find?_eq_none]
    intro entry hentry hname
    exact hbefore (List.mem_map.2 ⟨entry, hentry, of_decide_eq_true hname⟩)
  rw [List.find?_append, hnone, Option.none_or]
  exact List.find?_cons_of_pos (decide_eq_true rfl)

/-- A name among the members that are found has the value of the tree under it. -/
theorem memberIs_iff (h : List.Forall₂ TextOf members found)
    (honce : members.countP (isNamed name) ≤ 1) (depth : Nat) (v : Value) :
    MemberIs depth found name v ↔ (Tree.under name members).read? depth = some v := by
  rcases found_cases h honce with ⟨hname, hunder⟩ |
    ⟨before, value, after, rfl, hbefore, hafter, text, rest, hwrites, hends, hvalue⟩
  · rw [hunder, Tree.read?, Option.some.injEq]
    constructor
    · intro hmember
      cases hmember with
      | absent _ => rfl
      | present hfound _ _ _ =>
        subst hfound
        simp at hname
    · rintro rfl
      exact .absent hname
  · have hread {left : Bytes} : Reads (readValue depth) (skipBlank value) v left ↔
        (Tree.under name members).read? depth = some v ∧ left = rest :=
      denotes_of_writes _ hwrites depth ((skipBlank_skipBlank value).trans hvalue) hends
    constructor
    · intro hmember
      cases hmember with
      | absent hname => simp at hname
      | present hfound hbefore' _ hvalue' =>
        have hfind := find?_append_of_notMem hbefore value after
        rw [hfound, find?_append_of_notMem hbefore'] at hfind
        obtain ⟨_, rfl⟩ := Prod.mk.inj (Option.some.inj hfind)
        exact (hread.1 hvalue').1
    · intro hv
      exact .present rfl hbefore hafter (hread.2 ⟨hv, rfl⟩)

end Found

/-! ## Members that are read as values -/

/-- A member as it is read: its name and its value. -/
structure EntryOf (depth : Nat) (member : StringText × Tree) (entry : String × Value) : Prop where
  name : member.1.content? = some entry.1
  value : member.2.read? depth = some entry.2

section Entries

variable {depth : Nat} {members : List (StringText × Tree)} {entries : List (String × Value)}

/-- Members are read exactly if each has a name and a value. -/
theorem readMembers?_eq_some_iff :
    readMembers? members depth = some entries ↔ List.Forall₂ (EntryOf depth) members entries := by
  induction members generalizing entries with
  | nil =>
    rw [readMembers?, List.forall₂_nil_left_iff, Option.some.injEq, eq_comm]
  | cons member members ih =>
    obtain ⟨name, tree⟩ := member
    rw [readMembers?, Option.bind_eq_some_iff]
    constructor
    · rintro ⟨key, hkey, h⟩
      obtain ⟨value, hvalue, h⟩ := Option.bind_eq_some_iff.1 h
      obtain ⟨others, hothers, rfl⟩ := Option.map_eq_some_iff.1 h
      exact .cons ⟨hkey, hvalue⟩ (ih.1 hothers)
    · intro h
      cases h with
      | cons hentry hothers =>
        exact ⟨_, hentry.name, Option.bind_eq_some_iff.2 ⟨_, hentry.value,
          Option.map_eq_some_iff.2 ⟨_, ih.2 hothers, rfl⟩⟩⟩

/-- Members are read as values if each has a name and a value. -/
theorem exists_readMembers? (hnamed : AreNamed members)
    (hvalues : ∀ member ∈ members, (member.2.read? depth).isSome = true) :
    ∃ entries, readMembers? members depth = some entries := by
  induction members with
  | nil => exact ⟨[], rfl⟩
  | cons member members ih =>
    obtain ⟨key, hkey⟩ := Option.isSome_iff_exists.1 (hnamed member List.mem_cons_self)
    obtain ⟨value, hvalue⟩ := Option.isSome_iff_exists.1 (hvalues member List.mem_cons_self)
    obtain ⟨entries, hentries⟩ := ih (fun other h => hnamed other (List.mem_cons_of_mem _ h))
      fun other h => hvalues other (List.mem_cons_of_mem _ h)
    exact ⟨(key, value) :: entries,
      readMembers?_eq_some_iff.2 (.cons ⟨hkey, hvalue⟩ (readMembers?_eq_some_iff.1 hentries))⟩

/-- What entries hold under a name is the value of the tree under it. -/
theorem read?_under (h : readMembers? members depth = some entries) (name : String) :
    (Tree.under name members).read? depth = some ((entries.lookup name).getD .null) := by
  rw [readMembers?_eq_some_iff] at h
  induction h with
  | nil => rfl
  | @cons member entry members entries hentry _ ih =>
    obtain ⟨key, value⟩ := entry
    have hname := hentry.name
    rw [lookup_cons_eq]
    split
    · next heq =>
      subst heq
      rw [Tree.under_cons_of_named (decide_eq_true hname), hentry.value]
      rfl
    · next hne =>
      have hother : isNamed name member = false := by
        unfold isNamed
        rw [decide_eq_false_iff_not, hname, Option.some.injEq, eq_comm]
        exact hne
      rw [Tree.under_cons_of_not hother]
      exact ih

/-- Members of different names are read as entries of different names. -/
theorem nodup_names (h : readMembers? members depth = some entries)
    (hnodup : (members.map (·.1.content?)).Nodup) : (entries.map (·.1)).Nodup := by
  have hnames : members.map (·.1.content?) = (entries.map (·.1)).map some := by
    rw [readMembers?_eq_some_iff] at h
    induction h with
    | nil => rfl
    | cons hentry _ ih =>
      rw [List.map_cons, List.map_cons, List.map_cons, hentry.name,
        ih (List.nodup_cons.1 hnodup).2]
  rw [hnames] at hnodup
  exact List.Pairwise.of_map some (fun a b hne heq => hne (congrArg some heq)) hnodup

end Entries

/-- The text under a name of an object that has been read is that of the tree under it. -/
theorem text?_member?_lastByName {depth : Nat} {members : List (StringText × Tree)}
    {entries : List (String × Value)} (h : readMembers? members depth = some entries)
    (hnodup : (members.map (·.1.content?)).Nodup) (name : String) :
    ((Value.object (lastByName entries)).member? name).bind Value.text? =
      ((Tree.under name members).read? depth).bind Value.text? := by
  rw [member?_lastByName (nodup_names h hnodup), read?_under h]
  cases entries.lookup name with
  | none => rfl
  | some value => rfl

end Colloquy
