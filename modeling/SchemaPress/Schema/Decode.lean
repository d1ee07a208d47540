import SchemaPress.Json.Reader
import SchemaPress.Schema.Basic

/-!
# Schemas from JSON

A schema is read as it comes, but each of its declarations is taken in as a whole before it is
interpreted, since the kind of a declaration may stand anywhere in it. The kind itself is
judged where it stands.
-/

set_option autoImplicit false

namespace SchemaPress

open Json

/-- The doc at a node: a list of texts. -/
def Doc.read (n : Node) : Except ReadError Doc :=
  (n.readList Node.readString).map Doc.ofList

namespace TypeRef

/-- The forms of a type, by the name of the only member of its object. -/
inductive Form where
  | primitive
  | named
  | optional
  | sequence

/-- The names of the forms. -/
def forms : List (String × Form) :=
  [("primitive", .primitive), ("named", .named), ("optional", .optional), ("sequence", .sequence)]

/-- The error of an object that does not have exactly one member. -/
def notSingle : Except ReadError TypeRef :=
  .error (.mismatch (.wrongValue .map .singleKey))

/-- Accepts a bare string, which can at best name a form that lacks its content. -/
def readBare (taken : Except Fault String) : Except ReadError TypeRef := do
  let _ ← chooseName forms (← ofScan taken)
  wrongType .unitVariant .variantValue

/-- A type read as it comes, nested at most `room` deep. -/
def readStreaming : Nat → Node → Except ReadError TypeRef
  | _, .string taken _ => readBare taken
  | 0, .object _ => .error (.fault .malformed)
  | room + 1, .object (.member key value rest) => do
      let t ← match ← chooseName forms (← ofScan key) with
        | .primitive => value.readString.map primitive
        | .named => value.readString.map named
        | .optional => (readStreaming room value).map optional
        | .sequence => (readStreaming room value).map sequence
      rest.finish
      return t
  | _ + 1, .object .close => .error (.fault .malformed)
  | _ + 1, .object (.broken f) => .error (.fault f)
  | _, n => n.unreadable

/-- A type read from a value that has been taken in. -/
def readSettled : Node → Except ReadError TypeRef
  | .string taken _ => readBare taken
  | .object (.member key value .close) => do
      match ← chooseName forms (← ofScan key) with
        | .primitive => value.readString.map primitive
        | .named => value.readString.map named
        | .optional => (readSettled value).map optional
        | .sequence => (readSettled value).map sequence
  | .object _ => notSingle
  | n => n.unlike .stringOrMap

/-- A type as a document of its own. -/
def read (n : Node) : Except ReadError TypeRef :=
  readStreaming maxDepth n

end TypeRef

/-- A field of a record. -/
def Field.read : Node → Except ReadError Field :=
  Node.readRecord .settled "Field"
    [.needed "name" Node.readString fun a s => { s with name := a },
     .needed "type" TypeRef.readSettled fun a s => { s with type := a },
     .optional "doc" Doc.read fun a s => { s with doc := a }]
    default

/-- A case with a raw value. -/
def RawCase.read : Node → Except ReadError RawCase :=
  Node.readRecord .settled "RawCase"
    [.needed "name" Node.readString fun a s => { s with name := a },
     .optional "raw_value" (Node.readOption Node.readString) fun a s => { s with rawValue := a },
     .optional "doc" Doc.read fun a s => { s with doc := a }]
    default

/-- A case with a payload. -/
def UnionCase.read : Node → Except ReadError UnionCase :=
  Node.readRecord .settled "UnionCase"
    [.needed "name" Node.readString fun a s => { s with name := a },
     .optional "payload" (Node.readOption TypeRef.readSettled) fun a s => { s with payload := a },
     .optional "doc" Doc.read fun a s => { s with doc := a }]
    default

namespace Cases

/-- The two forms of cases. -/
inductive Form where
  | raw
  | union

/-- The names of the forms. -/
def forms : List (String × Form) :=
  [("raw_value", .raw), ("tagged_union", .union)]

/-- The form of cases: its name, or an object whose only member has that name and no content. -/
def readForm : Node → Except ReadError Form
  | .string taken _ => do chooseName forms (← ofScan taken)
  | .object (.member key value .close) => do
      let form ← chooseName forms (← ofScan key)
      match value with
      | .object .close => return form
      | value =>
          value.readUnit
          return form
  | .object _ => .error (.mismatch (.wrongValue .map .singleKey))
  | n => n.unlike .stringOrMap

/-- The cases of a known form. -/
def readContent (form : Form) (n : Node) : Except ReadError Cases :=
  match form with
  | .raw => (n.readList RawCase.read).map raw
  | .union => (n.readList UnionCase.read).map union

/-- The members of an object that say something about cases; others are skipped. -/
def relevant : Members → Except ReadError (List (String × Node))
  | .close => .ok []
  | .broken f => .error (.fault f)
  | .member key value rest => do
      let k ← ofScan key
      if k = "form" ∨ k = "cases" then return (k, value) :: (← relevant rest)
      else relevant rest

/-- Accepts only the end of the relevant members. -/
def noMore (cases : Cases) : List (String × Node) → Except ReadError Cases
  | [] => .ok cases
  | (key, _) :: _ => .error (.mismatch (.duplicateField key))

/-- Cases from the relevant members of an object. The form is judged before the cases, in
whichever order they come. -/
def readMembers : List (String × Node) → Except ReadError Cases
  | [] => .error (.mismatch (.missingField "form"))
  | (key, value) :: rest =>
      if key = "form" then do
        let form ← readForm value
        match rest with
        | [] => .error (.mismatch (.missingField "cases"))
        | (key', value') :: rest' =>
            if key' = "form" then .error (.mismatch (.duplicateField "form"))
            else noMore (← readContent form value') rest'
      else
        match rest with
        | [] => .error (.mismatch (.missingField "form"))
        | (key', value') :: rest' =>
            if key' = "cases" then .error (.mismatch (.duplicateField "cases"))
            else do
              let form ← readForm value'
              noMore (← readContent form value) rest'

/-- The cases of an enumeration: an object with form and cases, or an array of the two. -/
def read : Node → Except ReadError Cases
  | .object members => do readMembers (← relevant members)
  | .array .close => .error (.mismatch (.wrongLength 0 (.taggedContent "EnumKind")))
  | .array (.broken f) => .error (.fault f)
  | .array (.item formNode rest) => do
      let form ← readForm formNode
      match rest with
      | .close => .error (.mismatch (.wrongLength 1 (.taggedContent "EnumKind")))
      | .broken f => .error (.fault f)
      | .item content rest' =>
          let cases ← readContent form content
          rest'.finish .settled 2
          return cases
  | n => n.unlike (.taggedContent "EnumKind")

end Cases

/-- An alias. -/
def Alias.read : Node → Except ReadError Alias :=
  Node.readRecord .settled "TypeAlias"
    [.needed "name" Node.readString fun a s => { s with name := a },
     .needed "target" TypeRef.readSettled fun a s => { s with target := a },
     .optional "doc" Doc.read fun a s => { s with doc := a }]
    default

/-- A record. -/
def Record.read : Node → Except ReadError Record :=
  Node.readRecord .settled "StructDecl"
    [.needed "name" Node.readString fun a s => { s with name := a },
     .optional "fields" (Node.readList Field.read) fun a s => { s with fields := a },
     .optional "doc" Doc.read fun a s => { s with doc := a }]
    default

/-- An enumeration. -/
def Enumeration.read : Node → Except ReadError Enumeration :=
  Node.readRecord .settled "EnumDecl"
    [.needed "name" Node.readString fun a s => { s with name := a },
     .needed "enum" Cases.read fun a s => { s with cases := a },
     .optional "doc" Doc.read fun a s => { s with doc := a }]
    default

namespace Declaration

/-- The kinds of declarations. -/
inductive Kind where
  | alias
  | record
  | enumeration

/-- The names of the kinds. -/
def kinds : List (String × Kind) :=
  [("alias", .alias), ("struct", .record), ("enum", .enumeration)]

/-- A declaration of a known kind, from a value that has been taken in. -/
def readKind (kind : Kind) (n : Node) : Except ReadError Declaration :=
  match kind with
  | .alias => (Alias.read n).map Declaration.alias
  | .record => (Record.read n).map Declaration.record
  | .enumeration => (Enumeration.read n).map Declaration.enumeration

/-- Takes in the members of a declaration and finds its kind. -/
def findKind (room : Nat) : Option Kind → Members → Except ReadError Kind
  | none, .close => .error (.mismatch (.missingField "kind"))
  | some kind, .close => .ok kind
  | _, .broken f => .error (.fault f)
  | known, .member key value rest => do
      if (← ofScan key) = "kind" then
        if known.isSome then .error (.mismatch (.duplicateField "kind"))
        else findKind room (some (← value.readName kinds)) rest
      else
        value.settle room
        findKind room known rest

/-- A declaration nested at most `room` deep: an object with its kind among the members, or an
array of its kind and its fields. -/
def readWithin : Nat → Node → Except ReadError Declaration
  | 0, .object _ => .error (.fault .malformed)
  | 0, .array _ => .error (.fault .malformed)
  | room + 1, .object members => do
      let kind ← findKind room none members
      readKind kind (.object members)
  | _ + 1, .array .close => .error (.mismatch (.missingField "kind"))
  | _ + 1, .array (.broken f) => .error (.fault f)
  | room + 1, .array (.item kindNode rest) => do
      let kind ← kindNode.readName kinds
      rest.settle room
      readKind kind (.array rest)
  | _, n => n.unlike (.tagged "Declaration")

/-- A declaration as a document of its own. -/
def read (n : Node) : Except ReadError Declaration :=
  readWithin maxDepth n

end Declaration

namespace Schema

/-- A schema. Its declarations are nested two levels deep in it. -/
def read : Node → Except ReadError Schema :=
  Node.readRecord .streaming "Module"
    [.needed "name" Node.readString fun a s => { s with name := a },
     .optional "doc" Doc.read fun a s => { s with doc := a },
     .optional "declarations" (Node.readList (Declaration.readWithin (maxDepth - 2)))
       fun a s => { s with declarations := a }]
    default

/-- The schema that a JSON text describes. -/
def ofJsonText (text : String) : Except ReadError Schema :=
  (Document.ofText text).read read

end Schema

end SchemaPress
