import SchemaPress.Schema.Basic
import SchemaPress.Schema.Diagnostic

/-!
# Checking a schema

A schema is sound if its declared names differ, the cases of each enumeration differ, each raw
case has a raw value of its own, and no optional stands directly inside an optional. All
violations are found, declaration by declaration. A mention of a name that is not declared is
no violation, since the name may be declared elsewhere; such mentions are listed on request.
-/

set_option autoImplicit false

namespace SchemaPress

/-- The types that a declaration mentions, each with its place. -/
def Declaration.mentions : Declaration → List (Location × TypeRef)
  | .alias a => [(.alias a.name, a.target)]
  | .record r => r.fields.map fun f => (.field r.name f.name, f.type)
  | .enumeration ⟨_, .raw _, _⟩ => []
  | .enumeration ⟨name, .union cases, _⟩ =>
      cases.flatMap fun c => c.payload.toList.map fun payload => (.payload name c.name, payload)

/-- The names in a list that stand earlier in it already, or in `seen`. -/
def repeated (seen : List String) : List String → List String
  | [] => []
  | name :: names =>
      (if seen.contains name then [name] else []) ++ repeated (name :: seen) names

/-- The problems of the raw values of cases. `earlier` holds the cases before them, with their raw
values, the first one first. -/
def rawValueProblems (enumeration : String) (earlier : List (String × String)) :
    List RawCase → List Diagnostic
  | [] => []
  | c :: cs =>
    match c.rawValue with
    | none => .missingRawValue enumeration c.name :: rawValueProblems enumeration earlier cs
    | some raw =>
      match earlier.lookup raw with
      | some first =>
          .duplicateRawValue enumeration c.name first raw
            :: rawValueProblems enumeration earlier cs
      | none => rawValueProblems enumeration (earlier ++ [(raw, c.name)]) cs

/-- The problems of the cases of an enumeration. -/
def Enumeration.problems (e : Enumeration) : List Diagnostic :=
  (repeated [] e.caseNames).map (.duplicateCase e.name)
    ++ match e.cases with
      | .raw cases => rawValueProblems e.name [] cases
      | .union _ => []

/-- The problems within a declaration. -/
def Declaration.problems (d : Declaration) : List Diagnostic :=
  (match d with
    | .enumeration e => e.problems
    | _ => [])
    ++ (d.mentions.filter fun m => m.2.nestsOptional).map fun m => .nestedOptional m.1

/-- The problems of declarations that follow those with the names `seen`. -/
def problemsAfter (seen : List String) : List Declaration → List Diagnostic
  | [] => []
  | d :: ds =>
      (if seen.contains d.name then [.duplicateName d.name] else []) ++ d.problems
        ++ problemsAfter (d.name :: seen) ds

namespace Schema

/-- All problems of a schema, in the order of its declarations. -/
def diagnose (s : Schema) : List Diagnostic :=
  problemsAfter [] s.declarations

/-- Accepts a schema without problems. -/
def check (s : Schema) : Except (List Diagnostic) Unit :=
  if s.diagnose.isEmpty then .ok () else .error s.diagnose

/-- The mentions of names that the schema does not declare, in order. -/
def unresolved (s : Schema) : List UnresolvedReference :=
  s.declarations.flatMap fun d => d.mentions.flatMap fun m =>
    (m.2.names.filter fun name => !s.names.contains name).map fun name => ⟨name, m.1⟩

end Schema

end SchemaPress
