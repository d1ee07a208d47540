import SchemaPress.Schema.Doc

/-!
# Schemas

A schema is a named list of type declarations: an alias of another type, a record with
named fields, or an enumeration, whose cases either stand for raw strings or carry payloads.
Declarations refer to each other by name only, so records may refer to each other in circles.
-/

set_option autoImplicit false

namespace SchemaPress

/-- A type as a declaration mentions it. -/
inductive TypeRef where
  /-- A primitive such as `bool` or `u8`, which each target spells in its own way. -/
  | primitive (name : String)
  /-- A declaration by its name, or a type declared elsewhere. -/
  | named (name : String)
  | optional (inner : TypeRef)
  | sequence (inner : TypeRef)
deriving DecidableEq, Repr, Inhabited

/-- A second name for a type. -/
structure Alias where
  name : String
  target : TypeRef
  doc : Doc := {}
deriving DecidableEq, Repr, Inhabited

/-- A field of a record. -/
structure Field where
  name : String
  type : TypeRef
  doc : Doc := {}
deriving DecidableEq, Repr, Inhabited

/-- A type with named fields, in order. -/
structure Record where
  name : String
  fields : List Field := []
  doc : Doc := {}
deriving DecidableEq, Repr, Inhabited

/-- A case that stands for a raw string; a case without one is an error that the checks report. -/
structure RawCase where
  name : String
  rawValue : Option String := none
  doc : Doc := {}
deriving DecidableEq, Repr, Inhabited

/-- A case that carries at most one value. -/
structure UnionCase where
  name : String
  payload : Option TypeRef := none
  doc : Doc := {}
deriving DecidableEq, Repr, Inhabited

/-- The cases of an enumeration, all of one form. -/
inductive Cases where
  | raw (cases : List RawCase)
  | union (cases : List UnionCase)
deriving DecidableEq, Repr, Inhabited

/-- A type with a fixed list of cases. -/
structure Enumeration where
  name : String
  cases : Cases
  doc : Doc := {}
deriving DecidableEq, Repr, Inhabited

/-- A type declaration. -/
inductive Declaration where
  | alias (a : Alias)
  | record (r : Record)
  | enumeration (e : Enumeration)
deriving DecidableEq, Repr, Inhabited

/-- A named list of type declarations. -/
structure Schema where
  name : String
  doc : Doc := {}
  declarations : List Declaration := []
deriving DecidableEq, Repr, Inhabited

namespace TypeRef

/-- Whether a value of the type may be absent. -/
def isOptional : TypeRef → Bool
  | .optional _ => true
  | _ => false

/-- The named types in a type, at most one. -/
def names : TypeRef → List String
  | .primitive _ => []
  | .named name => [name]
  | .optional inner => inner.names
  | .sequence inner => inner.names

/-- Whether an optional stands directly inside an optional, at any depth. -/
def nestsOptional : TypeRef → Bool
  | .primitive _ => false
  | .named _ => false
  | .optional inner => inner.isOptional || inner.nestsOptional
  | .sequence inner => inner.nestsOptional

end TypeRef

namespace Enumeration

/-- The names of the cases, in order. -/
def caseNames (e : Enumeration) : List String :=
  match e.cases with
  | .raw cases => cases.map (·.name)
  | .union cases => cases.map (·.name)

end Enumeration

namespace Declaration

/-- The name that a declaration declares. -/
def name : Declaration → String
  | .alias a => a.name
  | .record r => r.name
  | .enumeration e => e.name

/-- The doc of a declaration. -/
def doc : Declaration → Doc
  | .alias a => a.doc
  | .record r => r.doc
  | .enumeration e => e.doc

/-- What kind of type a declaration declares, in a few words. -/
def label : Declaration → String
  | .alias _ => "alias"
  | .record _ => "struct"
  | .enumeration ⟨_, .raw _, _⟩ => "raw-value enum"
  | .enumeration ⟨_, .union _, _⟩ => "tagged union"

end Declaration

namespace Schema

/-- The declared names, in order. -/
def names (s : Schema) : List String :=
  s.declarations.map (·.name)

/-- The first declaration of a name. -/
def get? (s : Schema) (name : String) : Option Declaration :=
  s.declarations.find? (·.name == name)

/-- The schema with one more declaration at its end. -/
def add (s : Schema) (d : Declaration) : Schema :=
  { s with declarations := s.declarations ++ [d] }

/-- The schema with another doc. -/
def withDoc (s : Schema) (doc : Doc) : Schema :=
  { s with doc := doc }

end Schema

end SchemaPress
