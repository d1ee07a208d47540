import SchemaPress.Json.Basic
import SchemaPress.Schema.Basic

/-!
# Schemas as JSON

Every part of a schema has a JSON form. An empty doc and an absent raw value or payload are
left out; lists of declarations, fields and cases are always present.
-/

set_option autoImplicit false

namespace SchemaPress

/-- The member of a doc, unless it is empty. -/
def Doc.member (d : Doc) : List (String × Json) :=
  if d.isEmpty then [] else [("doc", .strings d.lines)]

/-- The JSON form of a type: an object with a single member. -/
def TypeRef.toJson : TypeRef → Json
  | .primitive name => .object [("primitive", .string name)]
  | .named name => .object [("named", .string name)]
  | .optional inner => .object [("optional", inner.toJson)]
  | .sequence inner => .object [("sequence", inner.toJson)]

/-- The JSON form of a field. -/
def Field.toJson (f : Field) : Json :=
  .object ([("name", .string f.name), ("type", f.type.toJson)] ++ f.doc.member)

/-- The JSON form of a case with a raw value. -/
def RawCase.toJson (c : RawCase) : Json :=
  .object ([("name", .string c.name)]
    ++ (c.rawValue.toList.map fun raw => ("raw_value", .string raw)) ++ c.doc.member)

/-- The JSON form of a case with a payload. -/
def UnionCase.toJson (c : UnionCase) : Json :=
  .object ([("name", .string c.name)]
    ++ (c.payload.toList.map fun payload => ("payload", payload.toJson)) ++ c.doc.member)

/-- The JSON form of the cases of an enumeration: their form and their list. -/
def Cases.toJson : Cases → Json
  | .raw cases =>
      .object [("form", .string "raw_value"), ("cases", .array (cases.map RawCase.toJson))]
  | .union cases =>
      .object [("form", .string "tagged_union"), ("cases", .array (cases.map UnionCase.toJson))]

/-- The JSON form of a declaration, which names its kind first. -/
def Declaration.toJson : Declaration → Json
  | .alias a =>
      .object ([("kind", .string "alias"), ("name", .string a.name), ("target", a.target.toJson)]
        ++ a.doc.member)
  | .record r =>
      .object ([("kind", .string "struct"), ("name", .string r.name),
        ("fields", .array (r.fields.map Field.toJson))] ++ r.doc.member)
  | .enumeration e =>
      .object ([("kind", .string "enum"), ("name", .string e.name), ("enum", e.cases.toJson)]
        ++ e.doc.member)

/-- The JSON form of a schema. -/
def Schema.toJson (s : Schema) : Json :=
  .object ([("name", .string s.name)] ++ s.doc.member
    ++ [("declarations", .array (s.declarations.map Declaration.toJson))])

/-- The JSON text of a schema, indented. -/
def Schema.toJsonText (s : Schema) : String :=
  s.toJson.indented

end SchemaPress
