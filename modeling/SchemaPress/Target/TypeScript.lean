import SchemaPress.Config.Basic
import SchemaPress.Representation
import SchemaPress.Target.Lexicon
import SchemaPress.Text.Blank
import SchemaPress.Text.Literal

/-!
# Rendering as TypeScript

Records become object types or interfaces. Enumerations of raw values become enumerations or
constant objects. A tagged union becomes an alternation of objects with a single key each, in
which a case without a payload is a string.
-/

set_option autoImplicit false

namespace SchemaPress.TypeScript

open Emit (push line spell)

/-- The native types of primitives. -/
def primitives : List (String × String) :=
  [("bool", "boolean"), ("i32", "number"), ("i64", "number"), ("f32", "number"),
   ("f64", "number"), ("String", "string")]

/-- The reserved words. -/
def reservedWords : List String :=
  ["any", "boolean", "break", "case", "catch", "class", "const", "continue", "debugger",
   "default", "delete", "do", "else", "enum", "export", "extends", "false", "finally", "for",
   "function", "if", "import", "in", "instanceof", "let", "never", "new", "null", "number",
   "object", "return", "string", "super", "switch", "symbol", "this", "throw", "true", "try",
   "type", "typeof", "undefined", "unknown", "var", "void", "while", "with", "yield"]

/-- A reserved word ends in an underscore where it names a type, and is quoted where it is a key. -/
def escapeReserved : Position → String → String
  | .declaration, name => name ++ "_"
  | .field, name => "\"" ++ name ++ "\""
  | .case, name => "\"" ++ name ++ "\""

variable (o : TypeScriptOptions)

/-- The style of enumerations decides whether they are native. -/
def capabilities : Capabilities :=
  match o.rawEnumStyle with
  | .enum => ⟨.native, .wrapperAlternation⟩
  | .constObject => ⟨.constantSet, .wrapperAlternation⟩

/-- Reserved words are escaped by their position. -/
def lexicon : Lexicon where
  reserved := reservedWords
  strict := o.strictIdentifiers
  escapeReserved := escapeReserved
  natives := (PrimitiveTable.ofList primitives).insertAll o.primitives.entries

/-- A type. An optional element of a sequence is put between parentheses. -/
def typeText : TypeRef → Fragment
  | .primitive name => (lexicon o).natives.native name
  | .named name => (lexicon o).reference name
  | .optional inner => typeText inner ++ " | undefined"
  | .sequence inner =>
      if inner.isOptional then "(" ++ typeText inner ++ ")[]" else typeText inner ++ "[]"

/-- A doc, indented by a number of levels. -/
def docText (d : Doc) (level : Nat) : String :=
  match o.docStyle with
  | .tripleSlash => d.marked (Text.times level "    ") "///"
  | .jsDoc => d.block (Text.times level "    ")

/-- What stands in front of a declaration. -/
def exportText : String :=
  if o.exported then "export " else ""

/-- The top of the text. -/
def header (s : Schema) : String :=
  if s.doc.isEmpty then "" else docText o s.doc 0 ++ "\n"

/-- The identifier for a name. -/
def spellName (position : Position) (name : String) : Emit String :=
  spell .typeScript ((lexicon o).identifier position name)

/-- A type as it is written. -/
def spellType (type : TypeRef) : Emit String :=
  spell .typeScript (typeText o type)

/-- Emits an alias. -/
def emitAlias (a : Alias) : Emit Unit := do
  push (docText o a.doc 0)
  let name ← spellName o .declaration a.name
  let target ← spellType o a.target
  line 0 (exportText o ++ "type " ++ name ++ " = " ++ target)

/-- The type of a field as it is written: a field that may be absent is marked as such instead. -/
def spellProperty : TypeRef → Emit String
  | .optional inner => return "?: " ++ (← spellType o inner)
  | type => return ": " ++ (← spellType o type)

/-- Emits a field of a record. -/
def emitField (f : Field) : Emit Unit := do
  push (docText o f.doc 1)
  let name ← spellName o .field f.name
  let property ← spellProperty o f.type
  line 1 (name ++ property)

/-- The text that opens a record. -/
def recordOpener (name : String) : String :=
  match o.objectStyle with
  | .typeLiteral => exportText o ++ "type " ++ name ++ " = \x7b"
  | .interface => exportText o ++ "interface " ++ name ++ " \x7b"

/-- Emits a record. -/
def emitRecord (r : Record) : Emit Unit := do
  push (docText o r.doc 0)
  let name ← spellName o .declaration r.name
  line 0 (recordOpener o name)
  r.fields.forM (emitField o)
  line 0 "\x7d"

/-- Emits a case of an enumeration of raw values: its name, a sign, its value, and a comma if
another case follows. -/
def emitRawCase (sign : String) (c : RawCasePlan) (comma : String) : Emit Unit := do
  push (docText o c.doc 1)
  let name ← spellName o .case c.name
  line 1 (name ++ sign ++ " " ++ Text.fourDigitLiteral c.rawValue ++ comma)

/-- Emits the cases of an enumeration of raw values, with commas between them. -/
def emitRawCases (sign : String) : List RawCasePlan → Emit Unit
  | [] => pure ()
  | [c] => emitRawCase o sign c ""
  | c :: rest => do
    emitRawCase o sign c ","
    emitRawCases sign rest

/-- Emits an enumeration of raw values, of its own or as a constant object with the type of its
values. -/
def emitRawEnum (p : RawPlan) : Emit Unit := do
  push (docText o p.doc 0)
  let name ← spellName o .declaration p.name
  match p.form with
  | .native =>
    line 0 (exportText o ++ "enum " ++ name ++ " \x7b")
    emitRawCases o " =" p.cases
    line 0 "\x7d"
  | .constantSet =>
    line 0 (exportText o ++ "const " ++ name ++ " = \x7b")
    emitRawCases o ":" p.cases
    line 0 "\x7d as const"
    line 0 (exportText o ++ "type " ++ name ++ " = (typeof " ++ name ++ ")[keyof typeof " ++ name
      ++ "]")

/-- An alternative of a tagged union as it is written: an object with a single key, or a string. -/
def spellAlternative (c : UnionCase) : Emit String := do
  match c.payload with
  | some payload =>
    let name ← spellName o .case c.name
    let type ← spellType o payload
    return "\x7b " ++ name ++ ": " ++ type ++ " \x7d"
  | none => return Text.fourDigitLiteral c.name

/-- A doc in front of an alternative on the same line: its lines that are not blank, joined by
spaces. -/
def inlineDoc (d : Doc) : String :=
  if d.isEmpty then ""
  else
    let words := (d.lines.map Text.trimBlanks).filter fun line => !line.isEmpty
    "/** " ++ Doc.blockText (String.intercalate " " words) ++ " */ "

/-- An alternative behind its doc, for a union on one line. -/
def spellRemarked (c : UnionCase) : Emit String := do
  let alternative ← spellAlternative o c
  return inlineDoc c.doc ++ alternative

/-- Emits an alternative on its own line, below its doc. -/
def emitAlternative (c : UnionCase) : Emit Unit := do
  push (docText o c.doc 1)
  let alternative ← spellAlternative o c
  line 1 ("| " ++ alternative)

/-- Emits a tagged union. Without cases it has no values. -/
def emitUnion (p : UnionPlan) : Emit Unit := do
  push (docText o p.doc 0)
  let name ← spellName o .declaration p.name
  if p.cases.isEmpty then line 0 (exportText o ++ "type " ++ name ++ " = never")
  else if !p.hasCaseDocs || o.unionLayout = .singleLine then
    let alternatives ← p.cases.mapM (spellRemarked o)
    line 0 (exportText o ++ "type " ++ name ++ " = " ++ String.intercalate " | " alternatives)
  else
    line 0 (exportText o ++ "type " ++ name ++ " =")
    p.cases.forM (emitAlternative o)

/-- Emits a declaration. -/
def emit : Representation → Emit Unit
  | .alias a => emitAlias o a
  | .record r => emitRecord o r
  | .rawEnum p => emitRawEnum o p
  | .union p => emitUnion o p

end SchemaPress.TypeScript
