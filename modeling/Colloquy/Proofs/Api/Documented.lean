import Colloquy.Payload.Answer
import Colloquy.Payload.Feedback
import Colloquy.Proofs.Api.Conformance
import Colloquy.Proofs.Entries
import Colloquy.Proofs.Json.TreeMeaning
import Colloquy.Proofs.Service.Turn
import Colloquy.Proofs.Shape.RoundTrip
import Colloquy.Service.Handling

/-!
# What is sent is as the document says

The JSON text of every type that the document of the service defines is one of a value that conforms
to the definition of its name (`conforms_documentedTypes`), in the document whose text is served and
in which every reference leads to a definition.

A type is written as its shape says, and whether all values of a shape conform to a schema is told
by the two alone (`Shape.fits`): this is decided for each type, and one induction over shapes and
fields shows that values of fitting shapes conform. Feedback has no shape and is looked at itself.
-/

set_option autoImplicit false

namespace Colloquy

open Json (Value)

namespace Api

/-! ## Where definitions stand -/

/-- The definitions as they stand in the document. -/
def schemas : List (String × Value) :=
  lastByName (definitions.map fun d => (d.name, d.toJson))

/-- A definition stands in the document under its name. -/
theorem member?_schemas {d : Definition} (hd : d ∈ definitions) :
    (Value.object schemas).member? d.name = some d.toJson := by
  have hnames : ((definitions.map fun d => (d.name, d.toJson)).map (·.1)).Nodup := by
    rw [List.map_map]
    decide
  have hperm : schemas.Perm (definitions.map fun d => (d.name, d.toJson)) := by
    unfold schemas
    rw [lastByName_of_nodup hnames]
    exact List.mergeSort_perm _ _
  have hmem : (d.name, d.toJson) ∈ definitions.map fun d => (d.name, d.toJson) :=
    List.mem_map.2 ⟨d, hd, rfl⟩
  exact Json.Value.member?_of_mem ((hperm.map (·.1)).nodup_iff.2 hnames) (hperm.mem_iff.2 hmem)

/-- A definition is found where references to it lead. -/
theorem at?_document {d : Definition} (hd : d ∈ definitions) :
    document.at? (pointerTo d.name) = some d.toJson := by
  have hpointer : ∀ d ∈ definitions, ∃ rest, (pointerTo d.name).toList = '/' :: rest ∧
      (Json.stepsOf rest).map Json.unescapeStep =
        ["components".toList, "schemas".toList, d.name.toList] :=
    fun d _ => ⟨(pointerTo d.name).toList.tail, by
      revert d
      decide⟩
  obtain ⟨rest, hchars, hsteps⟩ := hpointer d hd
  have hcomponents : document.part? "components".toList =
      some (.object [("schemas", .object schemas)]) := rfl
  have hschemas : (Value.object [("schemas", .object schemas)]).part? "schemas".toList =
      some (.object schemas) := rfl
  have hdefinition : (Value.object schemas).part? d.name.toList = some d.toJson := by
    show (Value.object schemas).member? (String.ofList d.name.toList) = _
    rw [String.ofList_toList]
    exact member?_schemas hd
  unfold Value.at?
  rw [hchars]
  show ((Json.stepsOf rest).map Json.unescapeStep).foldlM Value.part? document = _
  rw [hsteps, List.foldlM_cons, hcomponents, Option.bind_eq_bind, Option.bind_some,
    List.foldlM_cons, hschemas, Option.bind_eq_bind, Option.bind_some, List.foldlM_cons,
    hdefinition]
  rfl

/-- A value that conforms to the schema of a name in the document. -/
def IsDocumented (name : String) (value : Value) : Prop :=
  ∃ schema, document.at? (pointerTo name) = some schema ∧ Conforms document schema value

/-- What conforms to a definition is documented under its name. -/
theorem isDocumented_of_conforms {d : Definition} (hd : d ∈ definitions) {value : Value}
    (h : Conforms document d.toJson value) : IsDocumented d.name value :=
  ⟨d.toJson, at?_document hd, h⟩

end Api

/-! ## References -/

mutual

/-- What stands behind `$ref` anywhere in a value. -/
def Json.Value.references : Value → List Value
  | .list items => referencesOfItems items
  | .object members => referencesOfMembers members
  | _ => []

/-- What stands behind `$ref` anywhere in the items of a list. -/
def Json.Value.referencesOfItems : List Value → List Value
  | [] => []
  | item :: items => item.references ++ referencesOfItems items

/-- What stands behind `$ref` anywhere in the members of an object. -/
def Json.Value.referencesOfMembers : List (String × Value) → List Value
  | [] => []
  | (name, value) :: members =>
    (if name = "$ref" then [value] else []) ++ value.references ++ referencesOfMembers members

end

namespace Json.Value

variable {said : Value} {members : List (String × Value)}

/-- References in members are those in the first ones and in the others. -/
theorem referencesOfMembers_append (members others : List (String × Value)) :
    referencesOfMembers (members ++ others) =
      referencesOfMembers members ++ referencesOfMembers others := by
  induction members with
  | nil => rfl
  | cons m members ih =>
    obtain ⟨name, value⟩ := m
    simp only [List.cons_append, referencesOfMembers, ih, List.append_assoc]

/-- What is said in a reference is said inside one of the members, unless a member is a reference
itself. -/
theorem exists_of_mem_referencesOfMembers (hname : "$ref" ∉ members.map (·.1))
    (h : said ∈ referencesOfMembers members) : ∃ m ∈ members, said ∈ m.2.references := by
  induction members with
  | nil => cases h
  | cons m members ih =>
    obtain ⟨name, value⟩ := m
    rw [List.map_cons, List.mem_cons, not_or] at hname
    rw [referencesOfMembers, if_neg (Ne.symm hname.1), List.nil_append, List.mem_append] at h
    rcases h with h | h
    · exact ⟨(name, value), List.mem_cons_self, h⟩
    · obtain ⟨m, hm, hsaid⟩ := ih hname.2 h
      exact ⟨m, List.mem_cons_of_mem _ hm, hsaid⟩

/-- Texts in a list are no references. -/
theorem referencesOfItems_texts (texts : List String) :
    referencesOfItems (texts.map .text) = [] := by
  induction texts with
  | nil => rfl
  | cons text texts ih => exact ih

end Json.Value

namespace Api

open Json.Value (referencesOfMembers referencesOfMembers_append)

/-- The names of the definitions that a schema refers to. -/
def Schema.referredNames : Schema → List String
  | .reference name => [name]
  | .kind .. => []
  | .list _ items => items.referredNames
  | .dictionary values => values.referredNames

/-- A description is no reference. -/
theorem references_description (description : Option String) :
    referencesOfMembers (textMember "description" description) = [] := by
  cases description with
  | none => rfl
  | some text => rfl

/-- The keyword that names a kind is no reference. -/
theorem references_kindMember (kind : Kind) (orNull : Bool)
    (members : List (String × Value)) :
    referencesOfMembers (Schema.kindMember kind orNull :: members) =
      referencesOfMembers members := by
  cases orNull with
  | false => rfl
  | true => rfl

/-- A schema refers to the definitions that it names and to nothing else. -/
theorem references_schema (schema : Schema) (description : Option String) :
    (Value.object (schema.members description)).references =
      schema.referredNames.map fun name => .text (referenceTo name) := by
  induction schema generalizing description with
  | reference name =>
    show Value.text (referenceTo name) :: referencesOfMembers _ = _
    rw [references_description]
    rfl
  | kind kind orNull format =>
    show referencesOfMembers (Schema.kindMember kind orNull :: textMember "format" format ++ _) = _
    rw [referencesOfMembers_append, references_description, references_kindMember]
    cases format with
    | none => rfl
    | some text => rfl
  | list orNull items ih =>
    show referencesOfMembers ([Schema.kindMember .array orNull, _] ++ _) = _
    rw [referencesOfMembers_append, references_description, references_kindMember]
    show (Value.object (items.members none)).references ++ [] ++ [] = _
    rw [ih none, List.append_nil, List.append_nil]
    rfl
  | dictionary values ih =>
    show referencesOfMembers ((Schema.kindMember .object false :: textMember "description" _) ++ _)
      = _
    rw [referencesOfMembers_append, references_kindMember, references_description]
    show (Value.object (values.members none)).references ++ [] = _
    rw [ih none, List.append_nil]
    rfl

/-- A definition refers to nothing but what the schemas of its properties refer to. -/
theorem references_definition {d : Definition} (hname : "$ref" ∉ d.properties.map (·.name))
    (hexamples : (referencesOfMembers d.examples.members).length = 0) {said : Value}
    (h : said ∈ d.toJson.references) :
    ∃ p ∈ d.properties, ∃ name ∈ p.schema.referredNames, said = .text (referenceTo name) := by
  have htexts : (Value.list ((d.properties.filter (·.isRequired)).map fun p =>
      .text p.name)).references = [] := by
    have hnames := Json.Value.referencesOfItems_texts
      ((d.properties.filter (·.isRequired)).map (·.name))
    rw [List.map_map] at hnames
    exact hnames
  have hreferences : d.toJson.references = referencesOfMembers (lastByName
      (d.properties.map fun p => (p.name, .object (p.schema.members p.description)))) := by
    show referencesOfMembers (_ ++ _ ++ _ ++ _) = _
    rw [referencesOfMembers_append, List.length_eq_zero_iff.1 hexamples, referencesOfMembers_append,
      referencesOfMembers_append, references_description, references_kindMember]
    show [] ++ ((Value.list _).references ++ (referencesOfMembers _ ++ [])) ++ [] = _
    rw [htexts, List.append_nil, List.append_nil]
    rfl
  rw [hreferences] at h
  obtain ⟨m, hm, hsaid⟩ := Json.Value.exists_of_mem_referencesOfMembers (fun hmem => by
    obtain ⟨m, hm, hname'⟩ := List.mem_map.1 hmem
    obtain ⟨p, hp, rfl⟩ := List.mem_map.1 (mem_of_mem_lastByName hm)
    exact hname (List.mem_map.2 ⟨p, hp, hname'⟩)) h
  obtain ⟨p, hp, rfl⟩ := List.mem_map.1 (mem_of_mem_lastByName hm)
  rw [references_schema] at hsaid
  obtain ⟨name, hreferred, rfl⟩ := List.mem_map.1 hsaid
  exact ⟨p, hp, name, hreferred, rfl⟩

/-- Every reference in the document leads to a definition. -/
theorem exists_of_mem_references {said : Value} (h : said ∈ document.references) :
    ∃ d ∈ definitions, said = .text (referenceTo d.name) := by
  have hreferences : document.references = referencesOfMembers schemas ++ [] ++ [] := rfl
  have hplain : ∀ d ∈ definitions, d.name ≠ "$ref" ∧ "$ref" ∉ d.properties.map (·.name) ∧
      (referencesOfMembers d.examples.members).length = 0 := by decide
  have hknown : ∀ d ∈ definitions, ∀ p ∈ d.properties, ∀ name ∈ p.schema.referredNames,
      ∃ other ∈ definitions, name = other.name := by decide
  rw [hreferences, List.append_nil, List.append_nil] at h
  obtain ⟨m, hm, hsaid⟩ := Json.Value.exists_of_mem_referencesOfMembers (fun hmem => by
    obtain ⟨m, hm, hname⟩ := List.mem_map.1 hmem
    obtain ⟨d, hd, rfl⟩ := List.mem_map.1 (mem_of_mem_lastByName hm)
    exact (hplain d hd).1 hname) h
  obtain ⟨d, hd, rfl⟩ := List.mem_map.1 (mem_of_mem_lastByName hm)
  obtain ⟨p, hp, name, hname, rfl⟩ :=
    references_definition (hplain d hd).2.1 (hplain d hd).2.2 hsaid
  obtain ⟨other, hother, rfl⟩ := hknown d hd p hp name hname
  exact ⟨other, hother, rfl⟩

end Api

/-! ## Values of a shape -/

namespace Api.Schema

/-- Whether values of a kind are as a schema says. -/
def allowsKind (expected : Kind) : Schema → Bool
  | .kind k _ none => k = expected
  | _ => false

/-- Whether null is as a schema says. -/
def allowsNull : Schema → Bool
  | .kind _ orNull none => orNull
  | .list orNull _ => orNull
  | _ => false

/-- A value of the kind that a schema allows conforms to it. -/
theorem conforms_of_allowsKind {schema : Schema} {expected : Kind}
    (h : schema.allowsKind expected = true) {value : Value} (hkind : expected.name ∈ value.kinds)
    (description : Option String) :
    Conforms document (.object (schema.members description)) value := by
  match schema, h with
  | .kind k orNull none, h =>
    obtain rfl : k = expected := of_decide_eq_true h
    exact conforms_kind (fun _ => meets_kindMember orNull hkind) nofun

/-- Null conforms to a schema that allows it. -/
theorem conforms_of_allowsNull {schema : Schema} (h : schema.allowsNull = true)
    (description : Option String) :
    Conforms document (.object (schema.members description)) .null := by
  match schema, h with
  | .kind k true none, _ => exact conforms_kind (fun _ => meets_kindMember_null k) nofun
  | .list true items, _ => exact conforms_list (fun _ => meets_kindMember_null .array) nofun

end Api.Schema

open Api (Conforms document)

mutual

/-- Whether all values of a shape are written as a schema says. -/
def Shape.fits : Shape → Api.Schema → Bool
  | .text _, schema => schema.allowsKind .string
  | .flag, schema => schema.allowsKind .boolean
  | .optional inner, schema => schema.allowsNull && inner.fits schema
  | .list item, schema =>
    match schema with
    | .list _ items => item.fits items
    | _ => false
  | .dictionary item, schema =>
    match schema with
    | .dictionary values => item.fits values
    | schema => schema.allowsKind .object
  | .record _ _ fields, schema =>
    match schema with
    | .reference name =>
      Api.definitions.any fun d =>
        d.name = name && fields.fit d.properties &&
          d.properties.all fun p => !p.isRequired || fields.names.contains p.name
    | _ => false
  | .short, _ | .word, _ | .number, _ | .value, _ => false

/-- Whether the fields of a record are written as the properties of their names say. -/
def Fields.fit : Fields → List Api.Property → Bool
  | .nil, _ => true
  | .cons name shape rest, properties =>
    (properties.all fun p => p.name ≠ name || shape.fits p.schema) && rest.fit properties

end

/-- The object of a record is as a definition says if its fields are. -/
theorem Fields.conforms_definition {fields : Fields} {d : Api.Definition} {xs : fields.Carrier}
    (hrequired : ∀ p ∈ d.properties, p.isRequired = true → p.name ∈ fields.names)
    (hproperties : ∀ p ∈ d.properties, ∀ m ∈ fields.toMembers xs, p.name = m.1 →
      Conforms document (.object (p.schema.members p.description)) m.2) :
    Conforms document d.toJson (.object (fields.toMembers xs)) := by
  refine Api.Definition.conforms ?_ hproperties
  rw [fields.names_toMembers xs]
  exact hrequired

/-- A record that fits a reference has the fields of the definition that it leads to. -/
theorem Fields.exists_definition {title name : String} {lenient : Bool} {fields : Fields}
    (h : (Shape.record title lenient fields).fits (.reference name) = true) :
    ∃ d ∈ Api.definitions, d.name = name ∧ fields.fit d.properties = true ∧
      ∀ p ∈ d.properties, p.isRequired = true → p.name ∈ fields.names := by
  obtain ⟨d, hd, hfits⟩ := List.any_eq_true.1 h
  rw [Bool.and_eq_true, Bool.and_eq_true, List.all_eq_true] at hfits
  obtain ⟨⟨hname, hfit⟩, hrequired⟩ := hfits
  refine ⟨d, hd, of_decide_eq_true hname, hfit, fun p hp hrequires => ?_⟩
  have hlisted := hrequired p hp
  rw [hrequires, Bool.not_true, Bool.false_or] at hlisted
  exact List.contains_iff_mem.1 hlisted

mutual

/-- What is written of a value of a shape conforms to every schema that the shape fits. -/
theorem Shape.conforms : (shape : Shape) → (schema : Api.Schema) → shape.fits schema = true →
    (description : Option String) → (x : shape.Carrier) →
    Conforms document (.object (schema.members description)) (shape.toJson x)
  | .text _, _, h, description, _ =>
    Api.Schema.conforms_of_allowsKind h List.mem_cons_self description
  | .flag, _, h, description, _ =>
    Api.Schema.conforms_of_allowsKind h List.mem_cons_self description
  | .optional inner, schema, h, description, none => by
    rw [Shape.fits, Bool.and_eq_true] at h
    exact Api.Schema.conforms_of_allowsNull h.1 description
  | .optional inner, schema, h, description, some x => by
    rw [Shape.fits, Bool.and_eq_true] at h
    exact inner.conforms schema h.2 description x
  | .list item, schema, h, description, xs => by
    cases schema with
    | list orNull items =>
      refine Api.conforms_list (fun _ => Api.meets_kindMember orNull List.mem_cons_self) ?_
      intro ys hys y hy
      cases hys
      obtain ⟨x, _, rfl⟩ := List.mem_map.1 hy
      exact item.conforms items h none x
    | reference | kind | dictionary => cases h
  | .dictionary item, schema, h, description, d => by
    cases schema with
    | dictionary values =>
      refine Api.conforms_dictionary fun m hm => ?_
      obtain ⟨e, _, rfl⟩ := List.mem_map.1 hm
      exact item.conforms values h none e.2
    | kind => exact Api.Schema.conforms_of_allowsKind h List.mem_cons_self description
    | reference | list => cases h
  | .record _ _ fields, schema, h, description, xs => by
    cases schema with
    | reference name =>
      obtain ⟨d, hd, rfl, hfit, hrequired⟩ := Fields.exists_definition h
      exact Api.conforms_reference (Api.at?_document hd)
        (Fields.conforms_definition hrequired (fields.conform d.properties hfit xs))
    | kind | list | dictionary => cases h

/-- What is written of the fields of a record conforms to the properties of their names. -/
theorem Fields.conform : (fields : Fields) → (properties : List Api.Property) →
    fields.fit properties = true → (xs : fields.Carrier) → ∀ p ∈ properties,
    ∀ m ∈ fields.toMembers xs, p.name = m.1 →
    Conforms document (.object (p.schema.members p.description)) m.2
  | .nil, _, _, _ => nofun
  | .cons name shape rest, properties, h, (x, xs) => by
    rw [Fields.fit, Bool.and_eq_true, List.all_eq_true] at h
    intro p hp m hm hname
    rcases List.mem_cons.1 hm with rfl | hm
    · have hshape := h.1 p hp
      rw [Bool.or_eq_true, decide_eq_true_iff] at hshape
      rcases hshape with hother | hshape
      · exact absurd hname hother
      · exact shape.conforms p.schema hshape p.description x
    · exact rest.conform properties h.2 xs p hp m hm hname

end

/-- Every value of a type whose shape fits a reference is documented under its name. -/
theorem isDocumented_toJson {α : Type} [Encoded α] {name : String}
    (h : (Encoded.shape α).fits (.reference name) = true) (a : α) :
    Api.IsDocumented name (Encoded.toJson a) := by
  have hshape : ∀ (shape : Shape) (x : shape.Carrier), shape.fits (.reference name) = true →
      Api.IsDocumented name (shape.toJson x) := by
    intro shape x hfits
    cases shape with
    | record title lenient fields =>
      obtain ⟨d, hd, rfl, hfit, hrequired⟩ := Fields.exists_definition hfits
      exact Api.isDocumented_of_conforms hd
        (Fields.conforms_definition hrequired (fields.conform d.properties hfit x))
    | _ => cases hfits
  exact hshape _ (Encoded.pack a) h

/-! ## Feedback -/

/-- The fields of feedback but the vote. -/
def Feedback.texts : Fields :=
  .cons "conversation_id" .string <| .cons "user_question" .string <|
    .cons "llm_response" .string <| .cons "user_feedback" (.optional .string) .nil

/-- The value of the vote, or nothing, is written between the texts. -/
theorem Feedback.toJson_eq (f : Feedback) :
    ∃ vote, (vote = .null ∨ ∃ s : Sentiment, vote = .number s.toNumber) ∧
      f.toJson = .object
        [ ("conversation_id", .text f.conversationId.text), ("user_question", .text f.userQuestion)
        , ("llm_response", .text f.llmResponse), ("sentiment", vote)
        , ("user_feedback", (Shape.optional .string).toJson f.userFeedback) ] := by
  obtain ⟨conversationId, userQuestion, llmResponse, sentiment, userFeedback⟩ := f
  cases userFeedback <;> cases sentiment with
  | none => exact ⟨.null, .inl rfl, rfl⟩
  | some s => exact ⟨.number s.toNumber, .inr ⟨s, rfl⟩, rfl⟩

/-- A vote is one of two integers, and null where there is none. -/
theorem conforms_vote {vote : Value} (h : vote = .null ∨ ∃ s : Sentiment, vote = .number s.toNumber)
    (description : Option String) :
    Conforms document
      (.object ((Api.Schema.kind .integer true (some "int64")).members description)) vote := by
  rcases h with rfl | ⟨s, rfl⟩
  · refine Api.conforms_kind (fun _ => Api.meets_kindMember_null .integer) ?_
    intro text htext _
    cases htext
    exact .int64 nofun
  · refine Api.conforms_kind (fun _ => Api.meets_kindMember true List.mem_cons_self) ?_
    intro text htext _
    cases htext
    refine .int64 fun number hnumber => ⟨s.value, (Value.number.inj hnumber).symm, ?_⟩
    cases s <;> decide

/-- Feedback conforms to its definition. -/
theorem isDocumented_feedback (f : Feedback) : Api.IsDocumented "FeedbackRequest" f.toJson := by
  have hlisted : Api.feedbackRequest ∈ Api.definitions := by
    simp only [Api.definitions, List.mem_cons, true_or, or_true]
  have hvotes : ∀ p ∈ Api.feedbackRequest.properties, p.name = "sentiment" →
      p.schema = .kind .integer true (some "int64") := by decide
  have htexts : Feedback.texts.fit Api.feedbackRequest.properties = true := by decide
  obtain ⟨vote, hvote, hjson⟩ := f.toJson_eq
  rw [hjson]
  refine Api.isDocumented_of_conforms hlisted (Api.Definition.conforms ?_ ?_)
  · show ∀ p ∈ Api.feedbackRequest.properties, p.isRequired = true → p.name ∈
      ["conversation_id", "user_question", "llm_response", "sentiment", "user_feedback"]
    decide
  · intro p hp m hm hname
    have htext (hm : m ∈ Feedback.texts.toMembers
        (f.conversationId.text, f.userQuestion, f.llmResponse, f.userFeedback, ())) :=
      Feedback.texts.conform _ htexts _ p hp m hm hname
    simp only [List.mem_cons, List.not_mem_nil, or_false] at hm
    rcases hm with rfl | rfl | rfl | rfl | rfl
    · exact htext (.head _)
    · exact htext (.tail _ (.head _))
    · exact htext (.tail _ (.tail _ (.head _)))
    · rw [hvotes p hp hname]
      exact conforms_vote hvote p.description
    · exact htext (.tail _ (.tail _ (.tail _ (.head _))))

/-! ## The document of the service -/

/-- Who asks for `/openapi.json` gets the document. -/
theorem Service.start_document {γ : Type} (s : Service γ) (now : UInt64)
    (headers : List (String × Bytes)) (body : Bytes) (m : Memory γ) :
    (s.start now ⟨"GET", "/openapi.json", headers, body⟩ m).result =
      .answered (.ofText 200 document.render) := by
  have hpath (r : Http.Request) (h : r.target = "/openapi.json") :
      r.path = (Route.unguarded .document).path := by
    unfold Http.Request.path
    rw [h]
    decide
  unfold Service.start
  rw [hpath _ rfl, Route.ofPath?_path]
  rfl

/-- The text that is written of any value of a type is a JSON text of a value that is documented
under a name. -/
abbrev AlwaysDocumented (name : String) (α : Type) [Encoded α] : Prop :=
  ∀ a : α, Json.IsTextOf (Utf8.encode (Encoded.encode a)) (Encoded.toJson a) ∧
    Api.IsDocumented name (Encoded.toJson a)

/-- A type whose shape fits a reference is documented under its name. -/
theorem alwaysDocumented {α : Type} [Encoded α] {name : String}
    (h : (Encoded.shape α).fits (.reference name) = true) : AlwaysDocumented name α :=
  fun a => ⟨Json.isTextOf_render (Encoded.toJson a), isDocumented_toJson h a⟩

/-- What is served under `/openapi.json` is a JSON text of the document; what is written of any
value of each type that is defined there is a JSON text of an object that conforms to the definition
of its name; and every reference leads to a definition inside the document. -/
theorem conforms_documentedTypes :
    (∀ (γ : Type) (s : Service γ) (now : UInt64) (headers : List (String × Bytes)) (body : Bytes)
        (m : Memory γ), (s.start now ⟨"GET", "/openapi.json", headers, body⟩ m).result =
          .answered (.ofText 200 document.render)) ∧
    Json.IsTextOf (Utf8.encode document.render) document ∧
    AlwaysDocumented "Attachment" Attachment ∧ AlwaysDocumented "QueryRequest" Query ∧
    AlwaysDocumented "ReferencedDocument" Reference ∧ AlwaysDocumented "QueryResponse" Answer ∧
    (∀ f : Feedback, Json.IsTextOf (Utf8.encode f.toJson.render) f.toJson ∧
      Api.IsDocumented "FeedbackRequest" f.toJson) ∧
    AlwaysDocumented "FeedbackResponse" FeedbackReceipt ∧
    AlwaysDocumented "StatusResponse" FeatureStatus ∧ AlwaysDocumented "HealthResponse" Health ∧
    AlwaysDocumented "LivenessResponse" Liveness ∧
    AlwaysDocumented "AuthorizationResponse" Caller ∧
    AlwaysDocumented "ErrorResponse" FailureReport ∧
    AlwaysDocumented "PromptTooLongResponse" LengthReport ∧
    AlwaysDocumented "UnauthorizedResponse" UnauthorizedReport ∧
    AlwaysDocumented "ForbiddenResponse" ForbiddenReport ∧
    ∀ said ∈ document.references, ∃ d ∈ Api.definitions, ∃ pointer,
      said = .text ("#" ++ pointer) ∧ document.at? pointer = some d.toJson :=
  ⟨ fun _ s => s.start_document, Json.isTextOf_render document
  , alwaysDocumented (by decide), alwaysDocumented (by decide)
  , alwaysDocumented (by decide), alwaysDocumented (by decide)
  , fun f => ⟨Json.isTextOf_render f.toJson, isDocumented_feedback f⟩
  , alwaysDocumented (by decide), alwaysDocumented (by decide)
  , alwaysDocumented (by decide), alwaysDocumented (by decide)
  , alwaysDocumented (by decide), alwaysDocumented (by decide)
  , alwaysDocumented (by decide), alwaysDocumented (by decide)
  , alwaysDocumented (by decide)
  , fun _ hsaid => by
      obtain ⟨d, hd, rfl⟩ := Api.exists_of_mem_references hsaid
      exact ⟨d, hd, Api.pointerTo d.name, congrArg Value.text (Api.referenceTo_eq d.name),
        Api.at?_document hd⟩ ⟩

/-- An object without the member that says whether the service runs is no report of that. -/
example : ¬Api.IsDocumented "LivenessResponse" (.object []) := by
  rintro ⟨schema, hschema, h⟩
  have hlisted : Api.livenessResponse ∈ Api.definitions := by
    simp only [Api.definitions, List.mem_cons, true_or, or_true]
  obtain rfl : schema = Api.livenessResponse.toJson :=
    Option.some.inj (hschema.symm.trans (Api.at?_document hlisted))
  have hkeywords : ∃ keywords, Api.livenessResponse.toJson = .object keywords ∧
      ("required", Value.list (["alive"].map .text)) ∈ keywords :=
    ⟨_, rfl, .tail _ (.tail _ (.head _))⟩
  obtain ⟨keywords, hjson, hrequired⟩ := hkeywords
  rw [hjson] at h
  cases h with
  | intro h => exact absurd (Api.mem_of_meets_required (h _ hrequired) List.mem_cons_self) nofun

end Colloquy
