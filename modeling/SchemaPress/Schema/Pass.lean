import SchemaPress.Schema.Basic
import SchemaPress.Text.Casing
import SchemaPress.Text.Split

/-!
# Reshaping a schema

Two passes may be run over a schema before it is rendered. Skipping drops declarations by
name and leaves mentions of them as they are. Renaming brings the names of fields, raw cases or
union cases to camel case; declared names and raw values stay.
-/

set_option autoImplicit false

namespace SchemaPress

/-- A rule for names. -/
inductive RenameRule where
  | camel
deriving DecidableEq, Repr

/-- The rules by their names. -/
def RenameRule.names : List (String × RenameRule) :=
  [("camel", .camel)]

/-- The name of a rule. -/
def RenameRule.name : RenameRule → String
  | .camel => "camel"

/-- The rule of a name. -/
def RenameRule.ofName? (name : String) : Option RenameRule :=
  RenameRule.names.lookup name

/-- The rules for the three kinds of names; a kind without a rule is left alone. -/
structure RenameOptions where
  /-- The rule for cases with raw values. -/
  case : Option RenameRule := none
  /-- The rule for cases with payloads. -/
  variant : Option RenameRule := none
  /-- The rule for fields. -/
  field : Option RenameRule := none
deriving DecidableEq, Repr, Inhabited

namespace RenameOptions

/-- One rule for all kinds of names. -/
def all (rule : RenameRule) : RenameOptions :=
  ⟨some rule, some rule, some rule⟩

/-- Whether no kind of name has a rule. -/
def isNoop (o : RenameOptions) : Bool :=
  o.case.isNone && o.variant.isNone && o.field.isNone

end RenameOptions

/-- A name with words in camel case: underscores go, and each part after the first underscore is
capitalized. -/
def camelWords (name : String) : String :=
  match Text.split '_' name.toList with
  | [] => ""
  | first :: rest => String.ofList (first ++ rest.flatMap Text.capitalize)

/-- A name with its first character in lower case. -/
def camelHead (name : String) : String :=
  String.ofList (Text.uncapitalize name.toList)

/-- A field's name by a rule, if there is one. -/
def renameField : Option RenameRule → String → String
  | none, name => name
  | some .camel, name => camelWords name

/-- A case's name by a rule, if there is one. -/
def renameCase : Option RenameRule → String → String
  | none, name => name
  | some .camel, name => camelHead name

/-- Cases with their names changed. -/
def Cases.rename (o : RenameOptions) : Cases → Cases
  | .raw cases => .raw (cases.map fun c => { c with name := renameCase o.case c.name })
  | .union cases => .union (cases.map fun c => { c with name := renameCase o.variant c.name })

/-- A declaration with the names in it changed. -/
def Declaration.rename (o : RenameOptions) : Declaration → Declaration
  | .alias a => .alias a
  | .record r =>
      .record { r with fields := r.fields.map fun f => { f with name := renameField o.field f.name } }
  | .enumeration e => .enumeration { e with cases := e.cases.rename o }

namespace Schema

/-- The schema without the declarations of the given names. -/
def skip (s : Schema) (names : List String) : Schema :=
  { s with declarations := s.declarations.filter fun d => !names.contains d.name }

/-- The schema with the names in its declarations changed. -/
def rename (s : Schema) (o : RenameOptions) : Schema :=
  { s with declarations := s.declarations.map (·.rename o) }

end Schema

end SchemaPress
