import SchemaPress.Text.Lines

/-!
# Documentation comments

A doc is a list of lines that goes with a schema, a declaration, a field or a case. Whatever
text it is made from is cut at its line feeds first, so no line holds one. A doc is written
either with a marker at the beginning of each line or as a block comment; in a block the two
characters that would end it are kept apart by a backslash.
-/

set_option autoImplicit false

namespace SchemaPress

/-- No line of an empty list holds a line feed. -/
theorem Text.no_break_of_mem_nil : ∀ line ∈ ([] : List String), '\n' ∉ line.toList :=
  fun _ member => absurd member List.not_mem_nil

/-- The lines of a documentation comment, none of which holds a line feed. -/
structure Doc where
  lines : List String := []
  unbroken : ∀ line ∈ lines, '\n' ∉ line.toList := by exact Text.no_break_of_mem_nil
deriving DecidableEq, Repr

namespace Doc

instance : Inhabited Doc := ⟨{}⟩

/-- The doc of a list of texts, each of which may hold several lines. -/
def ofList (texts : List String) : Doc where
  lines := texts.flatMap Text.pieces
  unbroken := by
    intro line member
    obtain ⟨text, _, piece⟩ := List.mem_flatMap.mp member
    exact Text.no_break_of_mem_pieces piece

/-- The doc of one text. -/
def ofText (text : String) : Doc where
  lines := Text.lines text
  unbroken _ := Text.no_break_of_mem_lines

/-- Whether there is nothing to say. -/
def isEmpty (d : Doc) : Bool :=
  d.lines.isEmpty

/-- One comment line: indentation, marker, and the line after a space unless it is empty. -/
def markedLine (indent marker line : String) : String :=
  indent ++ marker ++ (if line.isEmpty then "" else " " ++ line) ++ "\n"

/-- Each line on its own after a marker. -/
def marked (d : Doc) (indent marker : String) : String :=
  String.join (d.lines.map (markedLine indent marker))

/-- A text in which no block comment ends. -/
def guardBlock : List Char → List Char
  | [] => []
  | '*' :: '/' :: cs => '*' :: '\\' :: '/' :: guardBlock cs
  | c :: cs => c :: guardBlock cs

/-- A line as it stands in a block comment. -/
def blockText (line : String) : String :=
  String.ofList (guardBlock line.toList)

/-- All lines in one block comment; a single line stays on one line. -/
def block (d : Doc) (indent : String) : String :=
  match d.lines with
  | [] => ""
  | [line] => indent ++ "/** " ++ blockText line ++ " */\n"
  | lines =>
      indent ++ "/**\n" ++ String.join (lines.map fun line => markedLine indent " *" (blockText line))
        ++ indent ++ " */\n"

end Doc

end SchemaPress
