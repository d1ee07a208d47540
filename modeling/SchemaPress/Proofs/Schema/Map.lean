import SchemaPress.Schema.Basic

/-!
# Schemas with their docs or types replaced

Statements about schemas often hold up to some part of them. Here all docs of a schema, or all
types that it mentions, are replaced by a function, and everything else stays as it is.
-/

set_option autoImplicit false

namespace SchemaPress

section Docs

variable (change : Doc → Doc)

/-- A field with its doc replaced. -/
def Field.mapDocs (f : Field) : Field :=
  { f with doc := change f.doc }

/-- A raw case with its doc replaced. -/
def RawCase.mapDocs (c : RawCase) : RawCase :=
  { c with doc := change c.doc }

/-- A union case with its doc replaced. -/
def UnionCase.mapDocs (c : UnionCase) : UnionCase :=
  { c with doc := change c.doc }

/-- Cases with their docs replaced. -/
def Cases.mapDocs : Cases → Cases
  | .raw cases => .raw (cases.map (RawCase.mapDocs change))
  | .union cases => .union (cases.map (UnionCase.mapDocs change))

/-- A declaration with its doc and those of its members replaced. -/
def Declaration.mapDocs : Declaration → Declaration
  | .alias a => .alias { a with doc := change a.doc }
  | .record r =>
      .record { r with fields := r.fields.map (Field.mapDocs change), doc := change r.doc }
  | .enumeration e =>
      .enumeration { e with cases := e.cases.mapDocs change, doc := change e.doc }

/-- A schema with all its docs replaced. -/
def Schema.mapDocs (s : Schema) : Schema :=
  { s with
    doc := change s.doc, declarations := s.declarations.map (Declaration.mapDocs change) }

end Docs

section Types

variable (change : TypeRef → TypeRef)

/-- A field with its type replaced. -/
def Field.mapTypes (f : Field) : Field :=
  { f with type := change f.type }

/-- A union case with the type of its payload replaced. -/
def UnionCase.mapTypes (c : UnionCase) : UnionCase :=
  { c with payload := c.payload.map change }

/-- Cases with the types of their payloads replaced. -/
def Cases.mapTypes : Cases → Cases
  | .raw cases => .raw cases
  | .union cases => .union (cases.map (UnionCase.mapTypes change))

/-- A declaration with every type that it mentions replaced. -/
def Declaration.mapTypes : Declaration → Declaration
  | .alias a => .alias { a with target := change a.target }
  | .record r => .record { r with fields := r.fields.map (Field.mapTypes change) }
  | .enumeration e => .enumeration { e with cases := e.cases.mapTypes change }

end Types

end SchemaPress
