/-!
# Escaped text

Texts between double quotes, as programming languages and messages write them. A
character that cannot stand for itself is replaced by an escape; each convention is a
function from a character to the characters that are written for it.
-/

set_option autoImplicit false

namespace SchemaPress.Text

/-- The digit of value `n`, below sixteen, in lower case. -/
def hexDigit (n : Nat) : Char :=
  if n < 10 then Char.ofNat (0x30 + n) else Char.ofNat (0x57 + n)

/-- The digit of value `n`, below sixteen, in upper case. -/
def upperHexDigit (n : Nat) : Char :=
  if n < 10 then Char.ofNat (0x30 + n) else Char.ofNat (0x37 + n)

/-- The hexadecimal digits of a number, as many as `width` of them. -/
def hexPadded (digit : Nat → Char) : Nat → Nat → List Char
  | 0, _ => []
  | width + 1, n => hexPadded digit width (n / 16) ++ [digit (n % 16)]

/-- The number of hexadecimal digits of a code point without leading zeros. -/
def hexWidth (n : Nat) : Nat :=
  if n < 0x10 then 1 else if n < 0x100 then 2 else if n < 0x1000 then 3
  else if n < 0x10000 then 4 else if n < 0x100000 then 5 else 6

/-- The fewest hexadecimal digits of a code point, in lower case. -/
def hexShort (n : Nat) : List Char :=
  hexPadded hexDigit (hexWidth n) n

/-- A control character: U+0000 to U+001F and U+007F to U+009F. -/
def isControl (c : Char) : Bool :=
  c.toNat < 0x20 || (0x7F ≤ c.toNat && c.toNat < 0xA0)

/-- A code point by its number between braces. -/
def bracedEscape (c : Char) : List Char :=
  ['\\', 'u', '\x7b'] ++ hexShort c.toNat ++ ['\x7d']

/-- A text between double quotes, each character written as `escape` says. -/
def quoteWith (escape : Char → List Char) (s : String) : String :=
  String.ofList ('"' :: s.toList.flatMap escape ++ ['"'])

end SchemaPress.Text
