import SchemaPress.Proofs.Target.Dangling

/-!
# What schema objects say beside a reference

A reader of an interface description ignores what stands beside a reference. So a reference has to
stand alone, and an object that says more about it holds it inside. Here this is shown of every
schema object in a description, however deep (`SchemaObject.Tidied`).

Nothing is lost by it. The outline of a schema object gives the title, the description and whether
nothing is allowed, at the position of the object and at the positions of its items, properties and
alternatives. The outline of a declaration gives what is asked for at these positions: the names and
docs of the schema, and an optional type allows nothing. The two are the same
(`OpenApi.references_stand_alone`).
-/

set_option autoImplicit false

namespace SchemaPress.OpenApi

namespace SchemaObject

/-! ## Objects inside objects -/

/-- The schema objects directly inside one. -/
def parts (s : SchemaObject) : List SchemaObject :=
  s.items.toList ++ s.properties.map Prod.snd ++ s.oneOf ++ s.allOf ++ s.excluded.toList

/-- A schema object is another one, or stands somewhere inside it. -/
inductive Holds : SchemaObject → SchemaObject → Prop where
  | self (s : SchemaObject) : Holds s s
  | inside {s part node : SchemaObject} (direct : part ∈ s.parts) (deeper : Holds part node) :
      Holds s node

/-- A reference stands alone, and what an object holds is a single reference that stands alone. -/
structure Tidy (s : SchemaObject) : Prop where
  alone : ∀ target, s.reference = some target → s = { reference := some target }
  held : s.allOf = [] ∨ ∃ target, s.allOf = [{ reference := some target }]

/-- All schema objects in one are tidy. -/
def Tidied (s : SchemaObject) : Prop :=
  ∀ node, s.Holds node → node.Tidy

theorem tidied_iff {s : SchemaObject} : s.Tidied ↔ s.Tidy ∧ ∀ part ∈ s.parts, part.Tidied := by
  constructor
  · intro tidied
    exact ⟨tidied s (.self s), fun part direct node deeper => tidied node (.inside direct deeper)⟩
  · rintro ⟨here, below⟩ node holds
    cases holds with
    | self => exact here
    | inside direct deeper => exact below _ direct node deeper

theorem Tidied.tidy {s : SchemaObject} (tidied : s.Tidied) : s.Tidy :=
  tidied s (.self s)

/-- An object without a reference is tidied if it holds a single reference, or none, and the objects
in it are tidied. -/
theorem tidied_of_free {s : SchemaObject} (free : s.reference = none)
    (held : s.allOf = [] ∨ ∃ target, s.allOf = [{ reference := some target }])
    (below : ∀ part ∈ s.parts, part.Tidied) : s.Tidied := by
  refine tidied_iff.mpr ⟨⟨fun target referring => ?_, held⟩, below⟩
  rw [free] at referring
  cases referring

theorem tidied_of_parts_eq_nil {s : SchemaObject} (free : s.reference = none)
    (empty : s.parts = []) : s.Tidied := by
  have held : s.allOf = [] := by
    simp only [parts, List.append_eq_nil_iff] at empty
    exact empty.1.2
  refine tidied_of_free free (.inl held) ?_
  rw [empty]
  exact fun part inside => absurd inside List.not_mem_nil

theorem tidied_reference (target : String) : Tidied { reference := some target } := by
  refine tidied_iff.mpr ⟨⟨fun other same => ?_, .inl rfl⟩, ?_⟩
  · obtain rfl := Option.some.inj same
    rfl
  · exact fun part inside => absurd inside List.not_mem_nil

/-- An object without a reference is as tidy as one with the same objects inside. -/
theorem Tidied.of_parts_eq {s t : SchemaObject} (tidied : s.Tidied) (free : t.reference = none)
    (inside : t.parts = s.parts) (held : t.allOf = s.allOf) : t.Tidied :=
  tidied_of_free free (held ▸ tidied.tidy.held) (inside ▸ (tidied_iff.mp tidied).2)

/-! ## Opened objects -/

theorem reference_opened (s : SchemaObject) : s.opened.reference = none := by
  unfold opened
  split
  · rename_i free
    exact Option.isNone_iff_eq_none.mp free
  · rfl

/-- An object is opened by putting a reference inside another object, or it has been open. -/
theorem Tidy.opened_cases {s : SchemaObject} (tidy : s.Tidy) :
    s.reference = none ∧ s.opened = s ∨
      ∃ target, s = { reference := some target } ∧
        s.opened = { allOf := [{ reference := some target }] } := by
  cases referring : s.reference with
  | none =>
      refine .inl ⟨rfl, ?_⟩
      unfold opened
      rw [referring]
      rfl
  | some target =>
      have same := tidy.alone target referring
      refine .inr ⟨target, same, ?_⟩
      rw [same]
      rfl

theorem Tidied.opened {s : SchemaObject} (tidied : s.Tidied) : s.opened.Tidied := by
  rcases tidied.tidy.opened_cases with ⟨-, same⟩ | ⟨target, -, held⟩
  · rw [same]
    exact tidied
  · rw [held]
    refine tidied_of_free rfl (.inr ⟨target, rfl⟩) fun part inside => ?_
    rw [List.mem_singleton.mp inside]
    exact tidied_reference target

theorem Tidied.orNull {s : SchemaObject} (tidied : s.Tidied) : s.orNull.Tidied :=
  tidied.opened.of_parts_eq s.reference_opened rfl rfl

theorem Tidied.annotate {s : SchemaObject} (tidied : s.Tidied) (title : Option String) (d : Doc) :
    (s.annotate title d).Tidied := by
  unfold SchemaObject.annotate
  split
  · exact tidied
  · exact tidied.opened.of_parts_eq s.reference_opened rfl rfl

end SchemaObject

open SchemaObject

/-! ## The objects of a description -/

section Declarations

variable (o : OpenApiOptions)

theorem tidied_ofNative (native : String) : (ofNative native).Tidied := by
  dsimp only [ofNative]
  split
  · exact tidied_of_parts_eq_nil rfl rfl
  · exact tidied_of_parts_eq_nil rfl rfl

theorem tidied_typeObject (type : TypeRef) : (typeObject o type).Tidied := by
  induction type with
  | primitive name => exact tidied_ofNative _
  | named name =>
      unfold typeObject
      split
      · exact tidied_ofNative _
      · exact tidied_reference _
  | optional inner ih => exact ih.orNull
  | sequence inner ih =>
      refine tidied_of_free rfl (.inl rfl) fun part inside => ?_
      rw [List.mem_singleton.mp inside]
      exact ih

theorem tidied_alternative (c : UnionCase) : (alternative o c).Tidied := by
  unfold alternative
  split
  · refine tidied_of_free rfl (.inl rfl) fun part inside => ?_
    rw [List.mem_singleton.mp inside]
    exact tidied_typeObject o _
  · exact tidied_of_parts_eq_nil rfl rfl

/-- **Every schema object of a declaration is tidy**, however deep it stands. -/
theorem tidied_declarationObject (r : Representation) : (declarationObject o r).2.Tidied := by
  rcases r with a | r | p | p
  · exact (tidied_typeObject o a.target).annotate (some a.name) a.doc
  · have parts : (recordObject o r).parts = r.fields.map fun f =>
        (typeObject o (presentType f.type)).annotate none f.doc := by
      simp [SchemaObject.parts, recordObject]
    refine tidied_of_free rfl (.inl rfl) fun part inside => ?_
    rw [declarationObject, parts] at inside
    obtain ⟨f, -, rfl⟩ := List.mem_map.mp inside
    exact (tidied_typeObject o _).annotate none f.doc
  · exact tidied_of_parts_eq_nil rfl rfl
  · have parts : (unionObject o p).parts = p.cases.map (alternative o) ++
        (if p.cases.isEmpty then some ({} : SchemaObject) else none).toList := by
      simp [SchemaObject.parts, unionObject]
    refine tidied_of_free rfl (.inl rfl) fun part inside => ?_
    rw [declarationObject, parts, List.mem_append] at inside
    rcases inside with listed | excluded
    · obtain ⟨c, -, rfl⟩ := List.mem_map.mp listed
      exact tidied_alternative o c
    · -- Without cases the union excludes the schema object that says nothing.
      split at excluded
      · rw [List.mem_singleton.mp excluded]
        exact tidied_of_parts_eq_nil rfl rfl
      · cases excluded

end Declarations

/-! ## Outlines -/

/-- What is said at a position and at the positions inside it: of the items, of the properties and of
the alternatives. -/
inductive Outline where
  | node (title description : Option String) (nullable : Bool) (items : Option Outline)
      (properties : List (String × Outline)) (alternatives : List Outline)

namespace SchemaObject

mutual

/-- What a schema object says at its position and inside it. -/
def outline : SchemaObject → Outline
  | ⟨_, title, description, _, _, nullable, items, properties, _, _, _, _, oneOf, _, _⟩ =>
    .node title description nullable (outlineItems items) (outlineProperties properties)
      (outlineList oneOf)

/-- What the items of an array say. -/
def outlineItems : Option SchemaObject → Option Outline
  | none => none
  | some s => some (outline s)

/-- What properties say. -/
def outlineProperties : List (String × SchemaObject) → List (String × Outline)
  | [] => []
  | (name, s) :: properties => (name, outline s) :: outlineProperties properties

/-- What alternatives say. -/
def outlineList : List SchemaObject → List Outline
  | [] => []
  | s :: objects => outline s :: outlineList objects

end

theorem outlineItems_eq (items : Option SchemaObject) : outlineItems items = items.map outline := by
  cases items with
  | none => rfl
  | some s => rfl

theorem outlineProperties_eq (properties : List (String × SchemaObject)) :
    outlineProperties properties = properties.map fun p => (p.1, p.2.outline) := by
  induction properties with
  | nil => rfl
  | cons p properties ih => rw [outlineProperties, ih, List.map_cons]

theorem outlineList_eq (objects : List SchemaObject) :
    outlineList objects = objects.map outline := by
  induction objects with
  | nil => rfl
  | cons s objects ih => rw [outlineList, ih, List.map_cons]

theorem outline_eq (s : SchemaObject) :
    s.outline = .node s.title s.description s.nullable (s.items.map outline)
      (s.properties.map fun p => (p.1, p.2.outline)) (s.oneOf.map outline) := by
  cases s
  rw [outline, outlineItems_eq, outlineProperties_eq, outlineList_eq]

end SchemaObject

namespace Outline

/-- The same, where nothing is allowed as well. -/
def orNull : Outline → Outline
  | .node title description _ items properties alternatives =>
      .node title description true items properties alternatives

/-- The same with another title and description. -/
def entitled (title description : Option String) : Outline → Outline
  | .node _ _ nullable items properties alternatives =>
      .node title description nullable items properties alternatives

end Outline

namespace SchemaObject

/-- Opening an object loses nothing, since a reference says nothing at its position. -/
theorem Tidy.outline_opened {s : SchemaObject} (tidy : s.Tidy) : s.opened.outline = s.outline := by
  rcases tidy.opened_cases with ⟨-, same⟩ | ⟨target, bare, held⟩
  · rw [same]
  · rw [held, bare]
    rfl

theorem Tidy.outline_orNull {s : SchemaObject} (tidy : s.Tidy) :
    s.orNull.outline = s.outline.orNull := by
  rw [← tidy.outline_opened, outline_eq s.opened, outline_eq s.orNull]
  rfl

theorem Tidy.outline_annotate {s : SchemaObject} (tidy : s.Tidy)
    (untitled : s.outline = s.outline.entitled none none) (title : Option String) (d : Doc) :
    (s.annotate title d).outline = s.outline.entitled title (describe d) := by
  unfold annotate
  split
  · rename_i nothing
    obtain ⟨noTitle, noDoc⟩ := Bool.and_eq_true_iff.mp nothing
    rw [describe, if_pos noDoc, Option.isNone_iff_eq_none.mp noTitle]
    exact untitled
  · rw [← tidy.outline_opened, outline_eq s.opened, outline_eq]
    rfl

end SchemaObject

/-! ## What is asked for -/

/-- What is asked for at the elements of a type, if it has any. -/
def elementsOutline : TypeRef → Option Outline
  | .primitive _ => none
  | .named _ => none
  | .optional inner => elementsOutline inner
  | .sequence inner => some (.node none none inner.isOptional (elementsOutline inner) [] [])

/-- What is asked for at a type with a title and a description: an optional one allows nothing. -/
def typeOutline (title description : Option String) (type : TypeRef) : Outline :=
  .node title description type.isOptional (elementsOutline type) [] []

/-- What is asked for at a case of a tagged union. -/
def caseOutline (c : UnionCase) : Outline :=
  .node none (describe c.doc) false none
    (c.payload.toList.map fun type => (c.name, typeOutline none none type)) []

/-- What is asked for at a declaration. A field that may be absent need not allow nothing. -/
def declarationOutline : Declaration → Outline
  | .alias a => typeOutline (some a.name) (describe a.doc) a.target
  | .record r =>
      .node (some r.name) (describe r.doc) false none
        (r.fields.map fun f =>
          (f.name, typeOutline none (describe f.doc) (presentType f.type))) []
  | .enumeration ⟨name, .raw _, doc⟩ => .node (some name) (describe doc) false none [] []
  | .enumeration ⟨name, .union cases, doc⟩ =>
      .node (some name) (describe doc) false none [] (cases.map caseOutline)

section Outlines

variable (o : OpenApiOptions)

theorem outline_ofNative (native : String) :
    (ofNative native).outline = .node none none false none [] [] := by
  dsimp only [ofNative]
  split
  · rfl
  · rfl

/-- **The schema object of a type says what is asked for**, at every position. -/
theorem outline_typeObject (type : TypeRef) :
    (typeObject o type).outline = typeOutline none none type := by
  induction type with
  | primitive name => exact outline_ofNative _
  | named name =>
      unfold typeObject
      split
      · exact outline_ofNative _
      · rfl
  | optional inner ih =>
      change (typeObject o inner).orNull.outline = _
      rw [(tidied_typeObject o inner).tidy.outline_orNull, ih]
      rfl
  | sequence inner ih =>
      rw [outline_eq]
      change Outline.node none none false (some (typeObject o inner).outline) [] [] = _
      rw [ih]
      rfl

theorem outline_annotate_typeObject (type : TypeRef) (title : Option String) (d : Doc) :
    ((typeObject o type).annotate title d).outline = typeOutline title (describe d) type := by
  have object := outline_typeObject o type
  have untitled : (typeObject o type).outline = (typeObject o type).outline.entitled none none := by
    rw [object]
    rfl
  rw [(tidied_typeObject o type).tidy.outline_annotate untitled, object]
  rfl

theorem outline_alternative (c : UnionCase) : (alternative o c).outline = caseOutline c := by
  unfold alternative caseOutline
  cases c.payload with
  | none => rfl
  | some type =>
      rw [outline_eq]
      change Outline.node none (describe c.doc) false none
        [(c.name, (typeObject o type).outline)] [] = _
      rw [outline_typeObject]
      rfl

theorem outline_declarationObject (d : Declaration) :
    (declarationObject o (d.represent capabilities)).2.outline = declarationOutline d := by
  rcases d with a | r | ⟨name, cases | cases, doc⟩
  · exact outline_annotate_typeObject o a.target (some a.name) a.doc
  · change (recordObject o r).outline = _
    rw [outline_eq, recordObject, List.map_map]
    simp only [Function.comp_def, outline_annotate_typeObject]
    rfl
  · rfl
  · change (unionObject o _).outline = _
    rw [outline_eq, unionObject, List.map_map]
    simp only [Function.comp_def, outline_alternative]
    rfl

end Outlines

/-- **No reference has siblings, and nothing is lost by it.** In the schema objects that an interface
description is made of, with any options and at any depth, a reference stands alone, and an object
that holds another one holds a single reference that stands alone. The title, the description and
whether nothing is allowed are as asked for at every position. -/
theorem references_stand_alone (o : OpenApiOptions) (s : Schema) :
    ((Backend.openApi o).render s).text =
        Text.endWithBreak (header o s ++ String.join ((description o s).schemas.map fun entry =>
          (Yaml.mapping [(entry.1, entry.2.toYaml)]).shiftedText 4)) ∧
      (∀ entry ∈ (description o s).schemas, ∀ node, entry.2.Holds node →
        (∀ target, node.reference = some target → node = { reference := some target }) ∧
        (node.allOf = [] ∨ ∃ target, node.allOf = [{ reference := some target }])) ∧
      (description o s).schemas.map (fun entry => entry.2.outline) =
        s.declarations.map declarationOutline := by
  refine ⟨?_, ?_, ?_⟩
  · rw [Backend.text_render, text_schemaText_eq, Description.entries, List.map_map]
    rfl
  · intro entry member node holds
    obtain ⟨d, -, rfl⟩ := List.mem_map.mp member
    have tidy := tidied_declarationObject o (d.represent capabilities) node holds
    exact ⟨tidy.alone, tidy.held⟩
  · rw [description, List.map_map]
    exact List.map_congr_left fun d _ => outline_declarationObject o d

/-- A documented alias of a named type that may be absent. -/
def documentedSample : Schema where
  name := "m"
  declarations := [.alias
    { name := "Owner", target := .optional (.named "User"), doc := .ofText "A user" }]

theorem references_stand_alone_documentedSample :
    let bare : SchemaObject := { reference := some (schemaPath ++ "User") }
    let object : SchemaObject :=
      { title := some "Owner", description := some "A user", nullable := true, allOf := [bare] }
    (description {} documentedSample).schemas = [("Owner", object)] ∧
      object.Holds bare ∧ bare.Tidy ∧
      object.outline = .node (some "Owner") (some "A user") true none [] [] := by
  intro bare object
  obtain ⟨-, tidy, outlines⟩ := references_stand_alone {} documentedSample
  have text : describe (.ofText "A user") = some "A user" := by decide
  have schemas : (description {} documentedSample).schemas = [("Owner", object)] := by
    unfold object
    rw [← text]
    rfl
  have direct : bare ∈ object.parts := by simp [parts, object]
  have inside : object.Holds bare := .inside direct (.self bare)
  rw [schemas] at tidy outlines
  obtain ⟨alone, held⟩ := tidy ("Owner", object) List.mem_cons_self bare inside
  refine ⟨schemas, inside, ⟨alone, held⟩, ?_⟩
  rw [← text]
  exact (List.cons.inj outlines).1

end SchemaPress.OpenApi
