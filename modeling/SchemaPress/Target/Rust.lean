import SchemaPress.Config.Basic
import SchemaPress.Representation
import SchemaPress.Target.Lexicon
import SchemaPress.Text.Literal

/-!
# Rendering as Rust

Records become structures. Enumerations of raw values become enumerations of unit variants
that are renamed to their raw values for serialization, with an accessor for these. Tagged
unions become enumerations of tuple variants. Names stand as they are in the schema, and the
lints that they would trip are switched off.
-/

set_option autoImplicit false

namespace SchemaPress.Rust

open Emit (push line spell)

/-- The native types of primitives. -/
def primitives : List (String × String) :=
  [("bool", "bool"), ("i32", "i32"), ("i64", "i64"), ("f32", "f32"), ("f64", "f64"),
   ("String", "String")]

/-- The reserved words. -/
def reservedWords : List String :=
  ["Self", "abstract", "as", "async", "await", "become", "box", "break", "const", "continue",
   "crate", "do", "dyn", "else", "enum", "extern", "false", "final", "fn", "for", "gen", "if",
   "impl", "in", "let", "loop", "macro", "match", "mod", "move", "mut", "override", "priv",
   "pub", "ref", "return", "self", "static", "struct", "super", "trait", "true", "try", "type",
   "typeof", "unsafe", "unsized", "use", "virtual", "where", "while", "yield"]

/-- The reserved words that cannot be raw identifiers. -/
def neverRaw : List String :=
  ["self", "Self", "super", "crate"]

/-- Both kinds of enumerations are native. -/
def capabilities : Capabilities :=
  ⟨.native, .associatedValues⟩

variable (o : RustOptions)

/-- Reserved words become raw identifiers, or end in an underscore where they cannot. -/
def lexicon : Lexicon where
  reserved := reservedWords
  strict := o.strictIdentifiers
  escapeReserved _ name := if neverRaw.contains name then name ++ "_" else "r#" ++ name
  natives := (PrimitiveTable.ofList primitives).insertAll o.primitives.entries

/-- A type. -/
def typeText : TypeRef → Fragment
  | .primitive name => (lexicon o).natives.native name
  | .named name => (lexicon o).reference name
  | .optional inner => "Option<" ++ typeText inner ++ ">"
  | .sequence inner => "Vec<" ++ typeText inner ++ ">"

/-- A doc, indented by a number of levels. -/
def docText (d : Doc) (level : Nat) : String :=
  d.marked (Text.times level "    ") "///"

/-- The visibility of types and fields. -/
def visibility : String :=
  if o.isPublic then "pub " else ""

/-- Whether a field's name is not in snake case. -/
def tripsFieldLint (name : String) : Bool :=
  name.toList.any Char.isUpper

/-- Whether a case's name is not in camel case. -/
def tripsCaseLint (name : String) : Bool :=
  name.toList.head?.any Char.isLower || name.toList.contains '_'

/-- The top of the text. -/
def header (s : Schema) : String :=
  (if s.doc.isEmpty then "" else s.doc.marked "" "//!" ++ "\n")
    ++ (if o.serde then "use serde::\x7bDeserialize, Serialize\x7d;\n\n" else "")

/-- The identifier for a name. -/
def spellName (position : Position) (name : String) : Emit String :=
  spell .rust ((lexicon o).identifier position name)

/-- A type as it is written. -/
def spellType (type : TypeRef) : Emit String :=
  spell .rust (typeText o type)

/-- Emits the line of derived traits, if there are any. -/
def emitDerives : Emit Unit :=
  match o.derives ++ (if o.serde then ["Serialize", "Deserialize"] else []) with
  | [] => pure ()
  | names => line 0 ("#[derive(" ++ String.intercalate ", " names ++ ")]")

/-- Emits the line that switches a lint off, if some name trips it. -/
def emitAllow (lint : String) (trips : String → Bool) (names : List String) : Emit Unit :=
  if names.any trips then line 0 ("#[allow(" ++ lint ++ ")]") else pure ()

/-- Emits an alias. -/
def emitAlias (a : Alias) : Emit Unit := do
  push (docText a.doc 0)
  let name ← spellName o .declaration a.name
  let target ← spellType o a.target
  line 0 (visibility o ++ "type " ++ name ++ " = " ++ target ++ ";")

/-- Emits the attribute of a field that may be absent. -/
def emitOptional (f : Field) : Emit Unit :=
  if o.serde && f.type.isOptional then
    line 1 "#[serde(default, skip_serializing_if = \"Option::is_none\")]"
  else pure ()

/-- Emits a field of a record. -/
def emitField (f : Field) : Emit Unit := do
  push (docText f.doc 1)
  emitOptional o f
  let name ← spellName o .field f.name
  let type ← spellType o f.type
  line 1 (visibility o ++ name ++ ": " ++ type ++ ",")

/-- Emits a record. -/
def emitRecord (r : Record) : Emit Unit := do
  push (docText r.doc 0)
  emitDerives o
  emitAllow "non_snake_case" tripsFieldLint (r.fields.map (·.name))
  let name ← spellName o .declaration r.name
  if r.fields.isEmpty then line 0 (visibility o ++ "struct " ++ name ++ " \x7b\x7d")
  else
    line 0 (visibility o ++ "struct " ++ name ++ " \x7b")
    r.fields.forM (emitField o)
    line 0 "\x7d"

/-- Emits the attribute that renames a case to its raw value. -/
def emitSerdeName (rawValue : String) : Emit Unit :=
  if o.serde then line 1 ("#[serde(rename = " ++ Text.bracedLiteral rawValue ++ ")]") else pure ()

/-- Emits a case of an enumeration of raw values, and gives its arm of the accessor. -/
def emitRawCase (c : RawCasePlan) : Emit String := do
  push (docText c.doc 1)
  emitSerdeName o c.rawValue
  let name ← spellName o .case c.name
  line 1 (name ++ ",")
  return "Self::" ++ name ++ " => " ++ Text.bracedLiteral c.rawValue ++ ","

/-- Emits the accessor for raw values with its arms, if there are any. -/
def emitAccessor (name : String) (arms : List String) : Emit Unit := do
  if o.rawValueAccessors && !arms.isEmpty then
    push "\n"
    line 0 ("impl " ++ name ++ " \x7b")
    line 1 "/// Raw value of this case."
    line 1 (visibility o ++ "fn as_str(&self) -> &'static str \x7b")
    line 2 "match self \x7b"
    arms.forM (line 3)
    line 2 "\x7d"
    line 1 "\x7d"
    line 0 "\x7d"

/-- Emits an enumeration of raw values. -/
def emitRawEnum (p : RawPlan) : Emit Unit := do
  push (docText p.doc 0)
  let name ← spellName o .declaration p.name
  emitDerives o
  emitAllow "non_camel_case_types" tripsCaseLint (p.cases.map (·.name))
  line 0 (visibility o ++ "enum " ++ name ++ " \x7b")
  let arms ← p.cases.mapM (emitRawCase o)
  line 0 "\x7d"
  emitAccessor o name arms

/-- Emits a case of a tagged union. -/
def emitUnionCase (c : UnionCase) : Emit Unit := do
  push (docText c.doc 1)
  let name ← spellName o .case c.name
  match c.payload with
  | some payload =>
    let type ← spellType o payload
    line 1 (name ++ "(" ++ type ++ "),")
  | none => line 1 (name ++ ",")

/-- Emits a tagged union. -/
def emitUnion (p : UnionPlan) : Emit Unit := do
  push (docText p.doc 0)
  emitDerives o
  emitAllow "non_camel_case_types" tripsCaseLint (p.cases.map (·.name))
  let name ← spellName o .declaration p.name
  line 0 (visibility o ++ "enum " ++ name ++ " \x7b")
  p.cases.forM (emitUnionCase o)
  line 0 "\x7d"

/-- Emits a declaration. -/
def emit : Representation → Emit Unit
  | .alias a => emitAlias o a
  | .record r => emitRecord o r
  | .rawEnum p => emitRawEnum o p
  | .union p => emitUnion o p

end SchemaPress.Rust
