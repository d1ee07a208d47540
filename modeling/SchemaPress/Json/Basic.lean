import SchemaPress.Decimal.Shortest
import SchemaPress.Text.Escape

/-!
# JSON values and how they are written

A JSON value keeps the members of an object in order. It is written in two forms: a
compact one without any space, and an indented one with one item or member to a line, two
spaces for each level, and nothing between the brackets of an empty array or object.
-/

set_option autoImplicit false

namespace SchemaPress

/-- A JSON value whose numbers are integers. -/
inductive Json where
  | null
  | bool (b : Bool)
  | integer (n : Int)
  | string (s : String)
  | array (items : List Json)
  | object (members : List (String × Json))

namespace Json

/-- How one character of a string is written: quotes, backslashes and controls are escaped. -/
def escapeChar (c : Char) : List Char :=
  if c = '"' then ['\\', '"']
  else if c = '\\' then ['\\', '\\']
  else if c = '\x08' then ['\\', 'b']
  else if c = '\x0c' then ['\\', 'f']
  else if c = '\n' then ['\\', 'n']
  else if c = '\r' then ['\\', 'r']
  else if c = '\t' then ['\\', 't']
  else if c.toNat < 0x20 then ['\\', 'u'] ++ Text.hexPadded Text.hexDigit 4 c.toNat
  else [c]

/-- A string between its quotes. -/
def stringChars (s : String) : List Char :=
  '"' :: s.toList.flatMap escapeChar ++ ['"']

/-- The text of a value that has no parts. -/
def boolChars (b : Bool) : List Char :=
  if b then "true".toList else "false".toList

mutual

/-- The characters of a value in compact form. -/
def compactChars : Json → List Char
  | .null => "null".toList
  | .bool b => boolChars b
  | .integer n => (Decimal.intText n).toList
  | .string s => stringChars s
  | .array [] => ['[', ']']
  | .array (v :: vs) => '[' :: compactChars v ++ compactItems vs ++ [']']
  | .object [] => ['{', '}']
  | .object ((k, v) :: ms) =>
      '{' :: stringChars k ++ ':' :: compactChars v ++ compactMembers ms ++ ['}']

/-- Further items of an array, each after its comma. -/
def compactItems : List Json → List Char
  | [] => []
  | v :: vs => ',' :: compactChars v ++ compactItems vs

/-- Further members of an object, each after its comma. -/
def compactMembers : List (String × Json) → List Char
  | [] => []
  | (k, v) :: ms => ',' :: stringChars k ++ ':' :: compactChars v ++ compactMembers ms

end

/-- The start of a new line at a level of nesting. -/
def newLine (level : Nat) : List Char :=
  '\n' :: List.replicate (2 * level) ' '

mutual

/-- The characters of a value in indented form, for a value at the given level of nesting. -/
def indentedChars (level : Nat) : Json → List Char
  | .null => "null".toList
  | .bool b => boolChars b
  | .integer n => (Decimal.intText n).toList
  | .string s => stringChars s
  | .array [] => ['[', ']']
  | .array (v :: vs) =>
      '[' :: newLine (level + 1) ++ indentedChars (level + 1) v ++ indentedItems (level + 1) vs
        ++ newLine level ++ [']']
  | .object [] => ['{', '}']
  | .object ((k, v) :: ms) =>
      '{' :: newLine (level + 1) ++ stringChars k ++ ':' :: ' ' :: indentedChars (level + 1) v
        ++ indentedMembers (level + 1) ms ++ newLine level ++ ['}']

/-- Further items of an array, each after its comma and on its own line. -/
def indentedItems (level : Nat) : List Json → List Char
  | [] => []
  | v :: vs => ',' :: newLine level ++ indentedChars level v ++ indentedItems level vs

/-- Further members of an object, each after its comma and on its own line. -/
def indentedMembers (level : Nat) : List (String × Json) → List Char
  | [] => []
  | (k, v) :: ms =>
      ',' :: newLine level ++ stringChars k ++ ':' :: ' ' :: indentedChars level v
        ++ indentedMembers level ms

end

/-- The compact text of a value. -/
def compact (j : Json) : String :=
  String.ofList j.compactChars

/-- The indented text of a value. -/
def indented (j : Json) : String :=
  String.ofList (j.indentedChars 0)

/-- The array of the given strings. -/
def strings (ss : List String) : Json :=
  .array (ss.map .string)

/-- The value inside an option, or `null`. -/
def ofOption {α : Type} (f : α → Json) : Option α → Json
  | none => .null
  | some a => f a

end Json

end SchemaPress
