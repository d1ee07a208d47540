import SchemaPress.Proofs.Schema.Names
import SchemaPress.Proofs.Text.Lines
import SchemaPress.Proofs.Text.Literal
import SchemaPress.Target.Swift

/-!
# Reading Swift

A reader of the Swift texts that this library writes. It takes a text line by line. What it has to
remember from one line to the next is small: comment lines that have not been followed by anything
yet, and the declaration that is open. A blank line after comment lines says that they belong to the
schema; any other line takes them as its doc.

The reader does not check what it reads. It gives each type back as it is spelled, so the leaf of a
type is the token that was written for it.
-/

set_option autoImplicit false

namespace SchemaPress

/-- The doc of lines that hold no line feed. -/
def Doc.ofLines (ls : List String) : Doc :=
  if unbroken : ∀ l ∈ ls, '\n' ∉ l.toList then ⟨ls, unbroken⟩ else {}

@[simp]
theorem Doc.ofLines_lines (d : Doc) : Doc.ofLines d.lines = d := by
  rw [Doc.ofLines, dif_pos d.unbroken]

/-- A declaration with another doc. -/
def Declaration.withDoc (doc : Doc) : Declaration → Declaration
  | .alias a => .alias { a with doc := doc }
  | .record r => .record { r with doc := doc }
  | .enumeration e => .enumeration { e with doc := doc }

/-- A record with one more field; other declarations are left alone. -/
def Declaration.addField (f : Field) : Declaration → Declaration
  | .record r => .record { r with fields := r.fields ++ [f] }
  | d => d

/-- An enumeration of raw values with one more case; other declarations are left alone. -/
def Declaration.addRawCase (c : RawCase) : Declaration → Declaration
  | .enumeration ⟨name, .raw cases, doc⟩ => .enumeration ⟨name, .raw (cases ++ [c]), doc⟩
  | d => d

/-- A tagged union with one more case; other declarations are left alone. -/
def Declaration.addUnionCase (c : UnionCase) : Declaration → Declaration
  | .enumeration ⟨name, .union cases, doc⟩ => .enumeration ⟨name, .union (cases ++ [c]), doc⟩
  | d => d

namespace Swift

open Text (isWordChar)

/-! ## Lines -/

/-- What a line of a text says. Docs stand on lines of their own, so none is given here. -/
inductive Line where
  | blank
  | comment (line : String)
  /-- A declaration on one line. -/
  | whole (d : Declaration)
  /-- The first line of a declaration, which has no members yet. -/
  | opening (d : Declaration)
  | field (f : Field)
  | rawCase (c : RawCase)
  | unionCase (c : UnionCase)
  | closing
  | other

/-- A name, with or without backticks around it, and the text after it. -/
def readName : List Char → String × List Char
  | [] => ("", [])
  | c :: cs =>
    if c = '\x60' then
      (String.ofList (cs.takeWhile isWordChar), (cs.dropWhile isWordChar).drop 1)
    else (String.ofList ((c :: cs).takeWhile isWordChar), (c :: cs).dropWhile isWordChar)

/-- A character of an identifier, backticks included. -/
def isTokenChar (c : Char) : Bool :=
  isWordChar c || c == '\x60'

/-- A type with one more character after it. -/
def closeType (type : TypeRef) (c : Char) : TypeRef :=
  if c = '?' then .optional type else if c = ']' then .sequence type else type

/-- A type. Opening brackets say nothing that the closing ones do not say. -/
def readType (cs : List Char) : TypeRef :=
  let body := cs.dropWhile (· == '[')
  (body.dropWhile isTokenChar).foldl closeType
    (.primitive (String.ofList (body.takeWhile isTokenChar)))

/-- A case, by its name and what stands after it. -/
def readCase (name : String) (rest : List Char) : Line :=
  if rest = [] then .unionCase ⟨name, none, {}⟩
  else if rest.head? = some '(' then .unionCase ⟨name, some (readType (rest.drop 1)), {}⟩
  else .rawCase ⟨name, (Text.readBracedLiteral (rest.drop 3)).map Prod.fst, {}⟩

variable (o : SwiftOptions)

/-- What stands after the name of an enumeration of raw values. -/
def rawEnumEnd : List Char :=
  (inheritance o ["String"] ++ " \x7b").toList

/-- A line by its first word, the name after it and the rest. -/
def readKeyword (keyword name : String) (rest : List Char) : Line :=
  if keyword = "typealias" then .whole (.alias ⟨name, readType (rest.drop 3), {}⟩)
  else if keyword = "struct" then .opening (.record ⟨name, [], {}⟩)
  else if keyword = "enum" then
    .opening (.enumeration ⟨name, if rest = rawEnumEnd o then .raw [] else .union [], {}⟩)
  else if keyword = "var" then .field ⟨name, readType (rest.drop 2), {}⟩
  else if keyword = "case" then readCase name rest
  else .other

/-- A line whose indentation has been taken off. -/
def readContent (cs : List Char) : Line :=
  if cs = [] then .blank
  else if cs.head? = some '/' then .comment (String.ofList (cs.drop 4))
  else if cs.head? = some '\x7d' then .closing
  else
    let (name, rest) := readName ((cs.dropWhile isWordChar).drop 1)
    readKeyword o (String.ofList (cs.takeWhile isWordChar)) name rest

/-- A line. -/
def readLine (line : List Char) : Line :=
  readContent o (line.dropWhile (· == ' '))

/-! ## Texts -/

/-- How far a text has been read. -/
structure Reading where
  /-- The doc of the schema. -/
  doc : List String := []
  /-- Comment lines that nothing has followed yet. -/
  pending : List String := []
  /-- The declaration whose members are being read. -/
  opened : Option Declaration := none
  /-- The declarations that have been read. -/
  closed : List Declaration := []

namespace Reading

/-- The pending comment lines as a doc. -/
def pendingDoc (r : Reading) : Doc :=
  Doc.ofLines r.pending

/-- One more member of the open declaration, which takes the pending lines as its doc. -/
def grow (r : Reading) (add : Doc → Declaration → Declaration) : Reading :=
  { r with opened := r.opened.map (add r.pendingDoc), pending := [] }

/-- Reads one line. -/
def step (r : Reading) : Line → Reading
  | .blank => if r.pending = [] then r else { r with doc := r.pending, pending := [] }
  | .comment line => { r with pending := r.pending ++ [line] }
  | .whole d => { r with closed := r.closed ++ [d.withDoc r.pendingDoc], pending := [] }
  | .opening d => { r with opened := some (d.withDoc r.pendingDoc), pending := [] }
  | .field f => r.grow fun doc => .addField { f with doc := doc }
  | .rawCase c => r.grow fun doc => .addRawCase { c with doc := doc }
  | .unionCase c => r.grow fun doc => .addUnionCase { c with doc := doc }
  | .closing => { r with closed := r.closed ++ r.opened.toList, opened := none }
  | .other => r

/-- Reads all lines of a text. -/
def run (r : Reading) (cs : List Char) : Reading :=
  (Text.split '\n' cs).foldl (fun r line => r.step (readLine o line)) r

/-- What has been read once the text is at its end. Comment lines that nothing follows belong to the
schema. -/
def result (r : Reading) : Doc × List Declaration :=
  (Doc.ofLines (if r.pending = [] then r.doc else r.pending), r.closed)

end Reading

/-- The doc and the declarations of the schema that a text was written for. -/
def read (text : String) : Doc × List Declaration :=
  (Reading.run o {} text.toList).result

end Swift

end SchemaPress
