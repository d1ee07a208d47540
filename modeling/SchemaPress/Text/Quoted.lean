import SchemaPress.Text.Escape
import SchemaPress.Text.Shapeless

/-!
# Texts quoted in messages

A message shows a text between double quotes in such a way that every character can be
told: quotes, backslashes and the common controls have escapes of two characters, and
whatever has no shape of its own is given by number.
-/

set_option autoImplicit false

namespace SchemaPress.Text

/-- How a message shows one character of a quoted text. -/
def messageEscape (c : Char) : List Char :=
  if c = '\x00' then ['\\', '0']
  else if c = '\t' then ['\\', 't']
  else if c = '\r' then ['\\', 'r']
  else if c = '\n' then ['\\', 'n']
  else if c = '"' then ['\\', '"']
  else if c = '\\' then ['\\', '\\']
  else if isShapeless c then bracedEscape c
  else [c]

/-- A text as a message quotes it. -/
def quoted (s : String) : String :=
  quoteWith messageEscape s

end SchemaPress.Text
