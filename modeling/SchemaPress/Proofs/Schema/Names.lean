import SchemaPress.Schema.Basic

/-!
# The names in a schema

All names that a schema spells: those of its declarations, of their fields and cases, and of the
primitives and named types that they mention. A word is a name that no target has to take apart: it
has letters, digits and underscores only.
-/

set_option autoImplicit false

namespace SchemaPress

namespace Text

/-- A letter of the Latin alphabet, a digit or an underscore. -/
def isWordChar (c : Char) : Bool :=
  c.isAlphanum || c == '_'

/-- A text of letters, digits and underscores that is not empty. -/
def Word (s : String) : Prop :=
  s ≠ "" ∧ ∀ c ∈ s.toList, isWordChar c = true

instance (s : String) : Decidable (Word s) :=
  decidable_of_iff ((!s.isEmpty && s.toList.all isWordChar) = true) (by simp [Word])

end Text

/-- The name of the primitive or the named type in a type. -/
def TypeRef.leafName : TypeRef → String
  | .primitive name => name
  | .named name => name
  | .optional inner => inner.leafName
  | .sequence inner => inner.leafName

/-- The names in a field. -/
def Field.spelledNames (f : Field) : List String :=
  [f.name, f.type.leafName]

/-- The names in a union case. -/
def UnionCase.spelledNames (c : UnionCase) : List String :=
  c.name :: (c.payload.map TypeRef.leafName).toList

/-- The names in the cases of an enumeration. -/
def Cases.spelledNames : Cases → List String
  | .raw cases => cases.map (·.name)
  | .union cases => cases.flatMap UnionCase.spelledNames

/-- The names in a declaration. -/
def Declaration.spelledNames : Declaration → List String
  | .alias a => [a.name, a.target.leafName]
  | .record r => r.name :: r.fields.flatMap Field.spelledNames
  | .enumeration e => e.name :: e.cases.spelledNames

/-- The names in a schema, apart from its own. -/
def Schema.spelledNames (s : Schema) : List String :=
  s.declarations.flatMap Declaration.spelledNames

end SchemaPress
