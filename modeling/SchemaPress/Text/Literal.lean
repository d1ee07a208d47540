import SchemaPress.Text.Escape

/-!
# String literals of the target languages

Swift and Rust give control characters by number between braces; TypeScript gives them, and
the two line separators, by four hexadecimal digits.
-/

set_option autoImplicit false

namespace SchemaPress.Text

/-- A character of a string literal of Swift or Rust. -/
def bracedLiteralEscape (c : Char) : List Char :=
  if c = '\\' then ['\\', '\\']
  else if c = '"' then ['\\', '"']
  else if c = '\n' then ['\\', 'n']
  else if c = '\r' then ['\\', 'r']
  else if c = '\t' then ['\\', 't']
  else if c = '\x00' then ['\\', '0']
  else if isControl c then bracedEscape c
  else [c]

/-- A character of a string literal of TypeScript. -/
def fourDigitLiteralEscape (c : Char) : List Char :=
  if c = '\\' then ['\\', '\\']
  else if c = '"' then ['\\', '"']
  else if c = '\n' then ['\\', 'n']
  else if c = '\r' then ['\\', 'r']
  else if c = '\t' then ['\\', 't']
  else if c = '\u2028' || c = '\u2029' || isControl c then
    ['\\', 'u'] ++ hexPadded hexDigit 4 c.toNat
  else [c]

/-- A string literal of Swift or Rust. -/
def bracedLiteral (s : String) : String :=
  quoteWith bracedLiteralEscape s

/-- A string literal of TypeScript. -/
def fourDigitLiteral (s : String) : String :=
  quoteWith fourDigitLiteralEscape s

end SchemaPress.Text
