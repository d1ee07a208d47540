import SchemaPress.Config.Basic
import SchemaPress.Representation
import SchemaPress.Target.Lexicon
import SchemaPress.Yaml.Basic

/-!
# Rendering as OpenAPI

A schema becomes one interface description with a schema object for each declaration. An
enumeration of raw values keeps the names of its cases beside their values. A tagged union is one
of several objects with a single property each; a case without payload is a string with a single
value. A reference stands alone: a schema object that says more about a reference holds it
inside.
-/

set_option autoImplicit false

namespace SchemaPress.OpenApi

/-- The native types of primitives, each with a format or without. -/
def primitives : List (String × String) :=
  [("bool", "boolean"), ("i32", "integer:int32"), ("i64", "integer:int64"),
   ("f32", "number:float"), ("f64", "number:double"), ("String", "string")]

/-- The path of schema objects in a description. -/
def schemaPath : String := "#/components/schemas/"

/-- A schema object, with the keywords that a rendering uses. -/
structure SchemaObject where
  reference : Option String := none
  title : Option String := none
  description : Option String := none
  type : Option String := none
  format : Option String := none
  nullable : Bool := false
  items : Option SchemaObject := none
  properties : List (String × SchemaObject) := []
  required : List String := []
  values : List String := []
  valueNames : List String := []
  valueDescriptions : List String := []
  oneOf : List SchemaObject := []
  allOf : List SchemaObject := []
  excluded : Option SchemaObject := none

namespace SchemaObject

/-- A text keyword, if it is present. -/
def textEntry (key : String) : Option String → List (String × Yaml)
  | none => []
  | some text => [(key, .string text)]

/-- A keyword with a list of texts, unless it is empty. -/
def textsEntry (key : String) : List String → List (String × Yaml)
  | [] => []
  | texts => [(key, .sequence (texts.map .string))]

mutual

/-- The YAML form of a schema object: its keywords in a fixed order, without empty ones. -/
def toYaml : SchemaObject → Yaml
  | ⟨reference, title, description, type, format, nullable, items, properties, required, values,
      valueNames, valueDescriptions, oneOf, allOf, excluded⟩ =>
    .mapping
      (textEntry "$ref" reference ++ textEntry "title" title
        ++ textEntry "description" description ++ textEntry "type" type
        ++ textEntry "format" format ++ (if nullable then [("nullable", .bool true)] else [])
        ++ objectEntry "items" items ++ propertiesEntry properties
        ++ textsEntry "required" required ++ textsEntry "enum" values
        ++ textsEntry "x-enum-varnames" valueNames
        ++ textsEntry "x-enum-descriptions" valueDescriptions
        ++ objectsEntry "oneOf" oneOf ++ objectsEntry "allOf" allOf ++ objectEntry "not" excluded)

/-- A keyword with a schema object, if it is present. -/
def objectEntry (key : String) : Option SchemaObject → List (String × Yaml)
  | none => []
  | some s => [(key, toYaml s)]

/-- A keyword with a list of schema objects, unless it is empty. -/
def objectsEntry (key : String) : List SchemaObject → List (String × Yaml)
  | [] => []
  | s :: rest => [(key, .sequence (toYaml s :: listToYaml rest))]

/-- The YAML forms of schema objects. -/
def listToYaml : List SchemaObject → List Yaml
  | [] => []
  | s :: rest => toYaml s :: listToYaml rest

/-- The properties, unless there are none. -/
def propertiesEntry : List (String × SchemaObject) → List (String × Yaml)
  | [] => []
  | (name, s) :: rest => [("properties", .mapping ((name, toYaml s) :: propertiesToYaml rest))]

/-- The YAML forms of properties. -/
def propertiesToYaml : List (String × SchemaObject) → List (String × Yaml)
  | [] => []
  | (name, s) :: rest => (name, toYaml s) :: propertiesToYaml rest

end

/-- A reference to a declaration. -/
def toDeclaration (name : String) : SchemaObject :=
  { reference := some (schemaPath ++ name) }

/-- A schema object of a type. -/
def ofType (type : String) : SchemaObject :=
  { type := some type }

/-- A schema object of a primitive, whose native type may be followed by a colon and a format. -/
def ofNative (native : String) : SchemaObject :=
  let cs := native.toList
  let type := String.ofList (cs.takeWhile (· ≠ ':'))
  match cs.dropWhile (· ≠ ':') with
  | [] => ofType type
  | _ :: format => { type := some type, format := some (String.ofList format) }

/-- A schema object that other keywords can be added to: a reference is put inside another one. -/
def opened (s : SchemaObject) : SchemaObject :=
  if s.reference.isNone then s else { allOf := [s] }

/-- A schema object that also allows nothing. -/
def orNull (s : SchemaObject) : SchemaObject :=
  { s.opened with nullable := true }

/-- The text of a doc, if it is not empty. -/
def describe (d : Doc) : Option String :=
  if d.isEmpty then none else some (String.intercalate "\n" d.lines)

/-- A schema object with a title and the text of a doc, if there is any of the two. -/
def annotate (s : SchemaObject) (title : Option String) (d : Doc) : SchemaObject :=
  if title.isNone && d.isEmpty then s
  else { s.opened with title := title, description := describe d }

end SchemaObject

open SchemaObject

/-- Enumerations of raw values are native; tagged unions are alternations. -/
def capabilities : Capabilities :=
  ⟨.native, .wrapperAlternation⟩

/-- A doc as comments, indented by a number of levels. -/
def docText (d : Doc) (level : Nat) : String :=
  d.marked (Text.times level "  ") "#"

variable (o : OpenApiOptions)

/-- No word is reserved. -/
def lexicon : Lexicon where
  reserved := []
  strict := false
  escapeReserved _ name := name
  natives := (PrimitiveTable.ofList primitives).insertAll o.primitives.entries

/-- The schema object of a type. -/
def typeObject : TypeRef → SchemaObject
  | .primitive name => ofNative ((lexicon o).natives.native name)
  | .named name =>
    match (lexicon o).natives.get? name with
    | some native => ofNative native
    | none => toDeclaration name
  | .optional inner => (typeObject inner).orNull
  | .sequence inner => { type := some "array", items := some (typeObject inner) }

/-- The type of a field without the option of being absent. -/
def presentType : TypeRef → TypeRef
  | .optional inner => inner
  | type => type

/-- The schema object of a record. A field that may be absent is not required. -/
def recordObject (r : Record) : SchemaObject where
  title := some r.name
  description := describe r.doc
  type := some "object"
  properties := r.fields.map fun f =>
    (f.name, (typeObject o (presentType f.type)).annotate none f.doc)
  required := (r.fields.filter fun f => !f.type.isOptional).map (·.name)

/-- The schema object of an enumeration of raw values. -/
def rawEnumObject (p : RawPlan) : SchemaObject where
  title := some p.name
  description := describe p.doc
  type := some "string"
  values := p.cases.map (·.rawValue)
  valueNames := p.cases.map (·.name)
  valueDescriptions :=
    if p.cases.any fun c => !c.doc.isEmpty then p.cases.map fun c => (describe c.doc).getD "" else []

/-- The schema object of a case of a tagged union. -/
def alternative (c : UnionCase) : SchemaObject :=
  match c.payload with
  | some type =>
      { description := describe c.doc, type := some "object",
        properties := [(c.name, typeObject o type)], required := [c.name] }
  | none => { description := describe c.doc, type := some "string", values := [c.name] }

/-- The schema object of a tagged union. Without cases it excludes every value. -/
def unionObject (p : UnionPlan) : SchemaObject where
  title := some p.name
  description := describe p.doc
  oneOf := p.cases.map (alternative o)
  excluded := if p.cases.isEmpty then some {} else none

/-- The name and the schema object of a declaration. -/
def declarationObject : Representation → String × SchemaObject
  | .alias a => (a.name, (typeObject o a.target).annotate (some a.name) a.doc)
  | .record r => (r.name, recordObject o r)
  | .rawEnum p => (p.name, rawEnumObject p)
  | .union p => (p.name, unionObject o p)

/-- Emits a declaration. -/
def emit (r : Representation) : Emit Unit := do
  let (name, object) := declarationObject o r
  Emit.push ((Yaml.mapping [(name, object.toYaml)]).shiftedText 4)

/-- What a description says about itself. -/
def info (s : Schema) : Yaml :=
  .mapping
    [("openapi", .string o.openApiVersion),
     ("info", .mapping (textEntry "title" (some (o.title.getD s.name))
        ++ textEntry "description" (describe s.doc) ++ textEntry "version" (some o.apiVersion)))]

/-- The top of the text. -/
def header (s : Schema) : String :=
  (info o s).shiftedText 0 ++ "components:\n"
    ++ (if s.declarations.isEmpty then "  schemas: \x7b\x7d\n" else "  schemas:\n")

end SchemaPress.OpenApi
