import Colloquy.Api.Schema
import Colloquy.Json.Pointer
import Colloquy.Proofs.Entries

/-!
# Values that conform to a schema

What the keywords of a schema say about a value. A schema is taken here as it stands in a document,
as a JSON value: `Conforms` asks that a value meets every keyword of it, those of the schemas inside
it at every depth, and those of the schemas that it refers to by a pointer into the document. It
is the least relation of the kind, so a schema that leads back to itself without looking into the
value has no values. A keyword that has no meaning here is never met.

The second half says how the keywords that a `Schema` or a `Definition` is written with are met.
-/

set_option autoImplicit false

namespace Colloquy

open Json (Value)

/-- The names that schemas have for the kind of a value. -/
def Json.Value.kinds : Value → List String
  | .null => ["null"]
  | .bool _ => ["boolean"]
  | .number (.integer _) => ["integer", "number"]
  | .number (.real _) => ["number"]
  | .text _ => ["string"]
  | .list _ => ["array"]
  | .object _ => ["object"]

namespace Api

/-- Keywords that say nothing about a value. -/
def remarks : List String :=
  ["description", "example", "examples"]

/-- The names that the keyword `properties` lists among some keywords. -/
def listedNames (keywords : List (String × Value)) : List String :=
  match keywords.lookup "properties" with
  | some (.object properties) => properties.map (·.1)
  | _ => []

mutual

/-- A value is as a schema of a document says. -/
inductive Conforms (document : Value) : (schema value : Value) → Prop
  | intro {keywords : List (String × Value)} {value : Value}
      (h : ∀ k ∈ keywords, Meets document keywords k.1 k.2 value) :
      Conforms document (.object keywords) value

/-- A value is as a keyword says: `siblings` are all keywords of the schema, and `said` is what
stands behind this one. -/
inductive Meets (document : Value) :
    (siblings : List (String × Value)) → (keyword : String) → (said value : Value) → Prop
  /-- The pointer leads to a schema of the document. -/
  | reference {siblings : List (String × Value)} {pointer : String} {schema value : Value}
      (hschema : document.at? pointer = some schema) (h : Conforms document schema value) :
      Meets document siblings "$ref" (.text ("#" ++ pointer)) value
  | kind {siblings : List (String × Value)} {name : String} {value : Value}
      (h : name ∈ value.kinds) : Meets document siblings "type" (.text name) value
  | oneOfKinds {siblings : List (String × Value)} {names : List String} {name : String}
      {value : Value} (hname : name ∈ names) (h : name ∈ value.kinds) :
      Meets document siblings "type" (.list (names.map .text)) value
  /-- Numbers are integers of 64 bits with sign. -/
  | int64 {siblings : List (String × Value)} {value : Value}
      (h : ∀ number, value = .number number → ∃ n : Int, number = .integer n ∧
        -0x8000000000000000 ≤ n ∧ n < 0x8000000000000000) :
      Meets document siblings "format" (.text "int64") value
  | required {siblings : List (String × Value)} {names : List String} {value : Value}
      (h : ∀ members, value = .object members → ∀ name ∈ names, name ∈ members.map (·.1)) :
      Meets document siblings "required" (.list (names.map .text)) value
  | properties {siblings properties : List (String × Value)} {value : Value}
      (h : ∀ members, value = .object members → ∀ m ∈ members, ∀ p ∈ properties, p.1 = m.1 →
        Conforms document p.2 m.2) :
      Meets document siblings "properties" (.object properties) value
  | items {siblings : List (String × Value)} {schema value : Value}
      (h : ∀ items, value = .list items → ∀ x ∈ items, Conforms document schema x) :
      Meets document siblings "items" schema value
  /-- The members that `properties` does not list. -/
  | additionalProperties {siblings : List (String × Value)} {schema value : Value}
      (h : ∀ members, value = .object members → ∀ m ∈ members, m.1 ∉ listedNames siblings →
        Conforms document schema m.2) :
      Meets document siblings "additionalProperties" schema value
  | propertyNames {siblings : List (String × Value)} {schema value : Value}
      (h : ∀ members, value = .object members → ∀ m ∈ members,
        Conforms document schema (.text m.1)) :
      Meets document siblings "propertyNames" schema value
  | remark {siblings : List (String × Value)} {keyword : String} {said value : Value}
      (h : keyword ∈ remarks) : Meets document siblings keyword said value

end

/-- A member that is required is there. -/
theorem mem_of_meets_required {document : Value} {siblings members : List (String × Value)}
    {names : List String}
    (h : Meets document siblings "required" (.list (names.map .text)) (.object members))
    {name : String} (hname : name ∈ names) : name ∈ members.map (·.1) := by
  generalize hkeyword : "required" = keyword at h
  generalize hsaid : Value.list (names.map .text) = said at h
  generalize hvalue : Value.object members = value at h
  cases h with
  | required h =>
    obtain rfl := (List.map_inj_right fun _ _ => Value.text.inj).1 (Value.list.inj hsaid)
    exact h members hvalue.symm name hname
  | remark h => exact absurd (hkeyword ▸ h) (by decide)
  | _ => exact absurd hkeyword (by decide)

/-! ## What schemas are written with -/

variable {document value : Value} {siblings : List (String × Value)}

/-- A description says nothing about a value. -/
theorem meets_description {description : Option String} {k : String × Value}
    (hk : k ∈ textMember "description" description) :
    Meets document siblings k.1 k.2 value := by
  cases description with
  | none => cases hk
  | some text =>
    obtain rfl := List.mem_singleton.1 hk
    exact .remark (show "description" ∈ remarks by decide)

/-- A value of a kind meets the keyword that names the kind, with null or without. -/
theorem meets_kindMember {kind : Kind} (orNull : Bool) (h : kind.name ∈ value.kinds) :
    Meets document siblings (Schema.kindMember kind orNull).1 (Schema.kindMember kind orNull).2
      value := by
  cases orNull with
  | false => exact .kind h
  | true =>
    show Meets document siblings "type" (.list ([kind.name, "null"].map .text)) value
    exact .oneOfKinds List.mem_cons_self h

/-- What may be null. -/
theorem meets_kindMember_null (kind : Kind) :
    Meets document siblings (Schema.kindMember kind true).1 (Schema.kindMember kind true).2
      .null := by
  show Meets document siblings "type" (.list ([kind.name, "null"].map .text)) .null
  exact .oneOfKinds (List.mem_cons_of_mem _ List.mem_cons_self) List.mem_cons_self

/-- A value of a kind, whatever its format says. -/
theorem conforms_kind {kind : Kind} {orNull : Bool} {format description : Option String}
    (hkind : ∀ siblings, Meets document siblings (Schema.kindMember kind orNull).1
      (Schema.kindMember kind orNull).2 value)
    (hformat : ∀ text ∈ format, ∀ siblings, Meets document siblings "format" (.text text) value) :
    Conforms document (.object ((Schema.kind kind orNull format).members description)) value := by
  refine .intro fun k hk => ?_
  rcases List.mem_append.1 hk with hk | hk
  · rcases List.mem_cons.1 hk with rfl | hk
    · exact hkind _
    · cases format with
      | none => cases hk
      | some text =>
        obtain rfl := List.mem_singleton.1 hk
        exact hformat text rfl _
  · exact meets_description hk

/-- A list of values that conform, or null where that is allowed. -/
theorem conforms_list {orNull : Bool} {items : Schema} {description : Option String}
    (hkind : ∀ siblings, Meets document siblings (Schema.kindMember .array orNull).1
      (Schema.kindMember .array orNull).2 value)
    (hitems : ∀ xs, value = .list xs → ∀ x ∈ xs,
      Conforms document (.object (items.members none)) x) :
    Conforms document (.object ((Schema.list orNull items).members description)) value := by
  refine .intro fun k hk => ?_
  rcases List.mem_append.1 hk with hk | hk
  · rcases List.mem_cons.1 hk with rfl | hk
    · exact hkind _
    · obtain rfl := List.mem_singleton.1 hk
      exact .items hitems
  · exact meets_description hk

/-- An object of any members whose values conform. -/
theorem conforms_dictionary {values : Schema} {description : Option String}
    {members : List (String × Value)}
    (h : ∀ m ∈ members, Conforms document (.object (values.members none)) m.2) :
    Conforms document (.object ((Schema.dictionary values).members description))
      (.object members) := by
  have hname (name : String) :
      Conforms document (.object [Schema.kindMember .string false]) (.text name) := by
    refine .intro fun k hk => ?_
    obtain rfl := List.mem_singleton.1 hk
    exact meets_kindMember false List.mem_cons_self
  refine .intro fun k hk => ?_
  rcases List.mem_append.1 hk with hk | hk
  · rcases List.mem_cons.1 hk with rfl | hk
    · exact meets_kindMember false List.mem_cons_self
    · exact meets_description hk
  · rcases List.mem_cons.1 hk with rfl | hk
    · exact .additionalProperties fun _ hvalue m hm _ => h m (Value.object.inj hvalue ▸ hm)
    · obtain rfl := List.mem_singleton.1 hk
      exact .propertyNames fun _ _ m _ => hname m.1

/-- Where a definition stands in a document. -/
def pointerTo (name : String) : String :=
  "/components/schemas/" ++ name

/-- A reference is the pointer to the definition behind a number sign. -/
theorem referenceTo_eq (name : String) : referenceTo name = "#" ++ pointerTo name := by
  have hhead : "#/components/schemas/" = "#" ++ "/components/schemas/" := by decide
  unfold referenceTo pointerTo
  rw [hhead, String.append_assoc]

/-- What a definition of the document says. -/
theorem conforms_reference {name : String} {description : Option String} {schema : Value}
    (hschema : document.at? (pointerTo name) = some schema) (h : Conforms document schema value) :
    Conforms document (.object ((Schema.reference name).members description)) value := by
  refine .intro fun k hk => ?_
  rcases List.mem_cons.1 hk with rfl | hk
  · rw [referenceTo_eq]
    exact .reference hschema h
  · exact meets_description hk

/-- Examples say nothing about a value. -/
theorem meets_examples {examples : Examples} {k : String × Value} (hk : k ∈ examples.members) :
    Meets document siblings k.1 k.2 value := by
  cases examples with
  | none => cases hk
  | one e =>
    obtain rfl := List.mem_singleton.1 hk
    exact .remark (show "example" ∈ remarks by decide)
  | some es =>
    obtain rfl := List.mem_singleton.1 hk
    exact .remark (show "examples" ∈ remarks by decide)

/-- An object is as a definition says if it has every member that is required and the members that
are listed are as their schemas say. -/
theorem Definition.conforms {d : Definition} {members : List (String × Value)}
    (hrequired : ∀ p ∈ d.properties, p.isRequired = true → p.name ∈ members.map (·.1))
    (hproperties : ∀ p ∈ d.properties, ∀ m ∈ members, p.name = m.1 →
      Conforms document (.object (p.schema.members p.description)) m.2) :
    Conforms document d.toJson (.object members) := by
  refine .intro fun k hk => ?_
  rcases List.mem_append.1 hk with hk | hk
  · rcases List.mem_append.1 hk with hk | hk
    · rcases List.mem_append.1 hk with hk | hk
      · obtain rfl := List.mem_singleton.1 hk
        exact meets_kindMember false List.mem_cons_self
      · exact meets_description hk
    · rcases List.mem_cons.1 hk with rfl | hk
      · have hnames : ((d.properties.filter (·.isRequired)).map fun p => Value.text p.name) =
            ((d.properties.filter (·.isRequired)).map (·.name)).map .text := by
          rw [List.map_map]
          rfl
        show Meets document _ "required" (.list _) _
        rw [hnames]
        refine .required fun members' hvalue name hname => ?_
        cases hvalue
        obtain ⟨p, hp, rfl⟩ := List.mem_map.1 hname
        obtain ⟨hp, hrequires⟩ := List.mem_filter.1 hp
        exact hrequired p hp hrequires
      · obtain rfl := List.mem_singleton.1 hk
        refine .properties fun members' hvalue m hm p hp hname => ?_
        cases hvalue
        obtain ⟨p, hlisted, rfl⟩ := List.mem_map.1 (mem_of_mem_lastByName hp)
        exact hproperties p hlisted m hm hname
  · exact meets_examples hk

end Api

end Colloquy
