import SchemaPress.Config.Basic
import SchemaPress.Representation
import SchemaPress.Target.Lexicon
import SchemaPress.Text.Literal

/-!
# Rendering as Swift

Records become structures, enumerations of raw values become enumerations of strings, and
tagged unions become enumerations with associated values.
-/

set_option autoImplicit false

namespace SchemaPress.Swift

open Emit (push line spell)

/-- The native types of primitives. -/
def primitives : List (String × String) :=
  [("bool", "Bool"), ("i32", "Int32"), ("i64", "Int64"), ("f32", "Float"), ("f64", "Double"),
   ("String", "String")]

/-- The reserved words. -/
def reservedWords : List String :=
  ["Any", "Self", "as", "associatedtype", "break", "case", "catch", "class", "continue",
   "default", "defer", "deinit", "do", "else", "enum", "extension", "fallthrough", "false",
   "fileprivate", "for", "func", "guard", "if", "import", "in", "init", "inout", "internal",
   "is", "let", "nil", "open", "operator", "private", "protocol", "public", "repeat",
   "rethrows", "return", "self", "static", "struct", "subscript", "super", "switch", "throw",
   "throws", "true", "try", "typealias", "var", "where", "while"]

/-- Both kinds of enumerations are native. -/
def capabilities : Capabilities :=
  ⟨.native, .associatedValues⟩

variable (o : SwiftOptions)

/-- Reserved words are put between backticks. -/
def lexicon : Lexicon where
  reserved := reservedWords
  strict := o.strictIdentifiers
  escapeReserved _ name := "`" ++ name ++ "`"
  natives := (PrimitiveTable.ofList primitives).insertAll o.primitives.entries

/-- A type. -/
def typeText : TypeRef → Fragment
  | .primitive name => (lexicon o).natives.native name
  | .named name => (lexicon o).reference name
  | .optional inner => typeText inner ++ "?"
  | .sequence inner => "[" ++ typeText inner ++ "]"

/-- A doc, indented by a number of levels. -/
def docText (d : Doc) (level : Nat) : String :=
  d.marked (Text.times level "    ") "///"

/-- What stands between the name of a type and its opening brace: its raw type and protocols. -/
def inheritance (rawType : List String) : String :=
  match rawType ++ o.conformances with
  | [] => ""
  | names => ": " ++ String.intercalate ", " names

/-- The top of the text. -/
def header (s : Schema) : String :=
  (if o.importFoundation then "import Foundation\n\n" else "")
    ++ (if s.doc.isEmpty then "" else docText s.doc 0 ++ "\n")

/-- The identifier for a name. -/
def spellName (position : Position) (name : String) : Emit String :=
  spell .swift ((lexicon o).identifier position name)

/-- A type as it is written. -/
def spellType (type : TypeRef) : Emit String :=
  spell .swift (typeText o type)

/-- Emits an alias. -/
def emitAlias (a : Alias) : Emit Unit := do
  push (docText a.doc 0)
  let name ← spellName o .declaration a.name
  let target ← spellType o a.target
  line 0 ("typealias " ++ name ++ " = " ++ target)

/-- Emits a field of a record. -/
def emitField (f : Field) : Emit Unit := do
  push (docText f.doc 1)
  let name ← spellName o .field f.name
  let type ← spellType o f.type
  line 1 ("var " ++ name ++ ": " ++ type)

/-- Emits a record. -/
def emitRecord (r : Record) : Emit Unit := do
  push (docText r.doc 0)
  let name ← spellName o .declaration r.name
  line 0 ("struct " ++ name ++ inheritance o [] ++ " \x7b")
  r.fields.forM (emitField o)
  line 0 "\x7d"

/-- Emits a case of an enumeration of raw values. -/
def emitRawCase (c : RawCasePlan) : Emit Unit := do
  push (docText c.doc 1)
  let name ← spellName o .case c.name
  line 1 ("case " ++ name ++ " = " ++ Text.bracedLiteral c.rawValue)

/-- Emits an enumeration of raw values. -/
def emitRawEnum (p : RawPlan) : Emit Unit := do
  push (docText p.doc 0)
  let name ← spellName o .declaration p.name
  line 0 ("enum " ++ name ++ inheritance o ["String"] ++ " \x7b")
  p.cases.forM (emitRawCase o)
  line 0 "\x7d"

/-- Emits a case of a tagged union. -/
def emitUnionCase (c : UnionCase) : Emit Unit := do
  push (docText c.doc 1)
  let name ← spellName o .case c.name
  match c.payload with
  | some payload =>
    let type ← spellType o payload
    line 1 ("case " ++ name ++ "(" ++ type ++ ")")
  | none => line 1 ("case " ++ name)

/-- Emits a tagged union. -/
def emitUnion (p : UnionPlan) : Emit Unit := do
  push (docText p.doc 0)
  let name ← spellName o .declaration p.name
  line 0 ("enum " ++ name ++ inheritance o [] ++ " \x7b")
  p.cases.forM (emitUnionCase o)
  line 0 "\x7d"

/-- Emits a declaration. -/
def emit : Representation → Emit Unit
  | .alias a => emitAlias o a
  | .record r => emitRecord o r
  | .rawEnum p => emitRawEnum o p
  | .union p => emitUnion o p

end SchemaPress.Swift
