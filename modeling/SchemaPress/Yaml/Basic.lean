import SchemaPress.Text.Lines
import SchemaPress.Yaml.Scalar

/-!
# YAML values and how they are written

Collections are written in block style with an indentation of two. A sequence below a key
stands in the column of the key; what stands in a sequence, or after a key on a line of its
own, goes on in the same line.
-/

set_option autoImplicit false

namespace SchemaPress

/-- A YAML value of strings and truth values. -/
inductive Yaml where
  | bool (b : Bool)
  | string (s : String)
  | sequence (items : List Yaml)
  | mapping (entries : List (String × Yaml))

namespace Yaml

/-- A number of spaces. -/
def spaces (n : Nat) : String :=
  String.ofList (List.replicate n ' ')

/-- A truth value that ends its line. -/
def boolLine (b : Bool) : String :=
  if b then "true\n" else "false\n"

/-- A key in front of a value on the same line: after a question mark on a line of its own, if it is
long, and else directly in front of the colon. -/
def keyLine (column : Nat) (key : String) : String :=
  if isLongKey key then "? " ++ scalarLine column key ++ spaces column ++ ": "
  else keyText column key ++ ": "

mutual

/-- A value that goes on in a line, its further lines in the given column. `outer` is the column of
the collection that it stands in. -/
def inlineText (outer column : Nat) : Yaml → String
  | .bool b => boolLine b
  | .string s => scalarLine outer s
  | .sequence [] => "[]\n"
  | .sequence (item :: items) =>
      "- " ++ inlineText column (column + 2) item ++ itemsText column items
  | .mapping [] => "\x7b\x7d\n"
  | .mapping ((key, value) :: entries) => entryText column key value ++ entriesText column entries

/-- Further items of a sequence, each on a line of its own. -/
def itemsText (column : Nat) : List Yaml → String
  | [] => ""
  | item :: items =>
      spaces column ++ "- " ++ inlineText column (column + 2) item ++ itemsText column items

/-- Further entries of a mapping, each on a line of its own. -/
def entriesText (column : Nat) : List (String × Yaml) → String
  | [] => ""
  | (key, value) :: entries =>
      spaces column ++ entryText column key value ++ entriesText column entries

/-- An entry of a mapping. -/
def entryText (column : Nat) (key : String) : Yaml → String
  | .bool b => keyLine column key ++ boolLine b
  | .string s => keyLine column key ++ scalarLine column s
  | .sequence [] => keyLine column key ++ "[]\n"
  | .mapping [] => keyLine column key ++ "\x7b\x7d\n"
  | .sequence (item :: items) =>
      if isLongKey key then
        keyLine column key ++ "- " ++ inlineText (column + 2) (column + 4) item
          ++ itemsText (column + 2) items
      else
        keyText column key ++ ":\n" ++ spaces column ++ "- " ++ inlineText column (column + 2) item
          ++ itemsText column items
  | .mapping ((key', value') :: entries) =>
      if isLongKey key then
        keyLine column key ++ entryText (column + 2) key' value' ++ entriesText (column + 2) entries
      else
        keyText column key ++ ":\n" ++ spaces (column + 2) ++ entryText (column + 2) key' value'
          ++ entriesText (column + 2) entries

end

/-- The text of a value. -/
def text (y : Yaml) : String :=
  inlineText 0 0 y

/-- The text of a value with every line moved to the right, except empty ones. -/
def shiftedText (indent : Nat) (y : Yaml) : String :=
  String.join ((Text.lines y.text).map fun line =>
    if line.isEmpty then "\n" else spaces indent ++ line ++ "\n")

end Yaml

end SchemaPress
