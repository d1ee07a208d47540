import SchemaPress.Decimal.Shortest
import SchemaPress.Target.Name

/-!
# Diagnostics

What can be wrong with a schema, and what a target may complain about while it renders one.
The wording of each is given in one place.
-/

set_option autoImplicit false

namespace SchemaPress

/-- A place in a schema where a type is mentioned. -/
inductive Location where
  | alias (name : String)
  | field (record field : String)
  | payload (enumeration case : String)
deriving DecidableEq, Repr

/-- A place in a schema as messages show it. -/
def Location.text : Location → String
  | .alias name => name
  | .field record name => record ++ "." ++ name
  | .payload enumeration case => enumeration ++ "::" ++ case

/-- A problem of a schema or of a rendering. -/
inductive Diagnostic where
  | duplicateName (name : String)
  | duplicateCase (enumeration case : String)
  | missingRawValue (enumeration case : String)
  /-- A raw value that an earlier case has already. -/
  | duplicateRawValue (enumeration case first rawValue : String)
  | nestedOptional (location : Location)
  /-- A reserved word of a target that is not to be escaped. -/
  | reservedIdentifier (target : Target) (identifier : String)
  | encodingFailed (target : Target) (name detail : String)
deriving DecidableEq, Repr

namespace Diagnostic

/-- Whether the problem is one of the schema itself, so that nothing is rendered. -/
def isFatal : Diagnostic → Bool
  | .reservedIdentifier _ _ => false
  | .encodingFailed _ _ _ => false
  | _ => true

/-- The reserved word that a diagnostic is about. -/
def reservedWord? : Diagnostic → Option String
  | .reservedIdentifier _ identifier => some identifier
  | _ => none

/-- A diagnostic in words. -/
def message : Diagnostic → String
  | .duplicateName name => "duplicate declaration name `" ++ name ++ "`"
  | .duplicateCase enumeration case =>
      "enum `" ++ enumeration ++ "` declares case `" ++ case ++ "` more than once"
  | .missingRawValue enumeration case =>
      "case `" ++ case ++ "` of raw-value enum `" ++ enumeration ++ "` has no raw value"
  | .duplicateRawValue enumeration case first rawValue =>
      "raw value \"" ++ rawValue ++ "\" of `" ++ enumeration ++ "::" ++ case
        ++ "` is already used by `" ++ enumeration ++ "::" ++ first ++ "`"
  | .nestedOptional location =>
      "optional nested directly inside optional at " ++ location.text
  | .reservedIdentifier target identifier =>
      "[" ++ target.name ++ "] identifier `" ++ identifier
        ++ "` is reserved and strict mode forbids escaping it"
  | .encodingFailed target name detail =>
      "[" ++ target.name ++ "] could not encode `" ++ name ++ "`: " ++ detail

/-- A list of problems of a schema in words: their number and one line for each. -/
def summary (ds : List Diagnostic) : String :=
  "schema has " ++ Decimal.natText ds.length ++ " shape error" ++ (if ds.length = 1 then "" else "s")
    ++ String.join (ds.map fun d => "\n  - " ++ d.message)

end Diagnostic

/-- A mention of a name that the schema does not declare. -/
structure UnresolvedReference where
  name : String
  location : Location
deriving DecidableEq, Repr

/-- An unresolved reference in words. -/
def UnresolvedReference.message (u : UnresolvedReference) : String :=
  "`" ++ u.name ++ "` referenced at " ++ u.location.text ++ " is not declared in this module"

end SchemaPress
