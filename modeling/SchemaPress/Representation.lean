import SchemaPress.Schema.Basic

/-!
# How a declaration is represented

Targets differ in what they can say about enumerations. A representation is a declaration
brought into the shape that a target can express: raw cases with their strings at hand, and for
each kind of enumeration the form that the target offers.
-/

set_option autoImplicit false

namespace SchemaPress

/-- How a target expresses an enumeration of raw values. -/
inductive RawForm where
  /-- An enumeration of its own with string values. -/
  | native
  /-- A set of named string constants. -/
  | constantSet
deriving DecidableEq, Repr

/-- How a target expresses a tagged union. -/
inductive UnionForm where
  /-- An enumeration whose cases carry values. -/
  | associatedValues
  /-- An alternation of wrappers with a single key each. -/
  | wrapperAlternation
deriving DecidableEq, Repr

/-- What a target can express. -/
structure Capabilities where
  rawEnums : RawForm
  unions : UnionForm
deriving DecidableEq, Repr

/-- A raw case with its string. -/
structure RawCasePlan where
  name : String
  rawValue : String
  doc : Doc
deriving DecidableEq, Repr

/-- An enumeration of raw values, as a target is to express it. -/
structure RawPlan where
  name : String
  doc : Doc
  form : RawForm
  cases : List RawCasePlan
deriving DecidableEq, Repr

/-- A tagged union, as a target is to express it. -/
structure UnionPlan where
  name : String
  doc : Doc
  form : UnionForm
  cases : List UnionCase
deriving DecidableEq, Repr

namespace UnionPlan

/-- Whether some case has a doc. -/
def hasCaseDocs (p : UnionPlan) : Bool :=
  p.cases.any fun c => !c.doc.isEmpty

/-- Whether no case has a payload. -/
def isPayloadFree (p : UnionPlan) : Bool :=
  p.cases.all fun c => c.payload.isNone

end UnionPlan

/-- A declaration in the shape that a target can express. -/
inductive Representation where
  | alias (a : Alias)
  | record (r : Record)
  | rawEnum (p : RawPlan)
  | union (p : UnionPlan)
deriving DecidableEq, Repr

/-- A raw case with its string, for which its name stands in if it has none. -/
def RawCase.plan (c : RawCase) : RawCasePlan :=
  ⟨c.name, c.rawValue.getD c.name, c.doc⟩

/-- A declaration in the shape that a target with certain capabilities can express. -/
def Declaration.represent (caps : Capabilities) : Declaration → Representation
  | .alias a => .alias a
  | .record r => .record r
  | .enumeration ⟨name, .raw cases, doc⟩ =>
      .rawEnum ⟨name, doc, caps.rawEnums, cases.map RawCase.plan⟩
  | .enumeration ⟨name, .union cases, doc⟩ => .union ⟨name, doc, caps.unions, cases⟩

end SchemaPress
