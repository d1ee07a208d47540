import SchemaPress.Decimal.Range
import SchemaPress.Text.Digit
import SchemaPress.Text.Escape

/-!
# Strings of a YAML text

A string is written in one of four styles. The first choice is the literal style for a string
with line feeds, single quotes for one that would be taken for something else than a string, and
no quotes for any other. If the string has a character or a place that the chosen style cannot
express, the next style in line is taken: single quotes after none, and double quotes, which can
express anything, after the other two.
-/

set_option autoImplicit false

namespace SchemaPress.Yaml

/-- How a string is written. -/
inductive Style where
  | plain
  | singleQuoted
  | doubleQuoted
  | literal
deriving DecidableEq, Repr

/-! ## Classes of characters -/

/-- A character that ends a line. -/
def isBreak (c : Char) : Bool :=
  c = '\n' || c = '\r' || c = '\u0085' || c = '\u2028' || c = '\u2029'

/-- A character that can stand for itself in a text. -/
def isPrintable (c : Char) : Bool :=
  c = '\n' || (0x20 ≤ c.toNat && c.toNat ≤ 0x7E)
    || (0xA0 ≤ c.toNat && c.toNat ≠ 0xFEFF && c.toNat ≠ 0xFFFE && c.toNat ≠ 0xFFFF)

/-- A character that separates tokens. -/
def isBlank (c : Char) : Bool :=
  c = ' ' || c = '\t' || c = '\x00' || isBreak c

/-- Whether a text ends or goes on with a blank. -/
def blankOrEnd : List Char → Bool
  | [] => true
  | c :: _ => isBlank c

/-! ## Strings that would be taken for something else -/

/-- The number that digits spell in a base; none if there is no digit or another character. -/
def natIn? (base : Nat) (cs : List Char) : Option Nat :=
  if cs.isEmpty then none else Text.numberIn? base cs

/-- The magnitude of an integer in one of the four notations. -/
def magnitude? : List Char → Option Nat
  | '0' :: 'x' :: cs => natIn? 16 cs
  | '0' :: 'o' :: cs => natIn? 8 cs
  | '0' :: 'b' :: cs => natIn? 2 cs
  | cs => natIn? 10 cs

/-- Whether a text is an integer of at most 128 bits. -/
def isInteger : List Char → Bool
  | '-' :: cs => (magnitude? cs).any (· ≤ 1 <<< 127)
  | '+' :: cs => (magnitude? cs).any (· < 1 <<< 128)
  | cs => (magnitude? cs).any (· < 1 <<< 128)

/-- A text without its sign. -/
def unsigned : List Char → List Char
  | '+' :: cs => cs
  | '-' :: cs => cs
  | cs => cs

/-- Whether a text is a zero with further digits behind it. -/
def isPaddedNumber (cs : List Char) : Bool :=
  match unsigned cs with
  | '0' :: c :: rest => (c :: rest).all Char.isDigit
  | _ => false

/-- The exponent of a decimal, if the text is one. -/
def exponent? : List Char → Option Int
  | [] => some 0
  | e :: cs =>
    if e = 'e' ∨ e = 'E' then
      let digits := unsigned cs
      if digits.isEmpty || !digits.all Char.isDigit then none
      else if cs.head? = some '-' then some (-(Decimal.digitsValue digits : Int))
      else some (Decimal.digitsValue digits)
    else none

/-- Whether a text without sign is a decimal that rounds to a finite double. -/
def isDecimal (cs : List Char) : Bool :=
  let whole := cs.takeWhile Char.isDigit
  let afterWhole := cs.dropWhile Char.isDigit
  let afterPoint := if afterWhole.head? = some '.' then afterWhole.drop 1 else []
  let fraction := afterPoint.takeWhile Char.isDigit
  let rest := if afterWhole.head? = some '.' then afterPoint.dropWhile Char.isDigit else afterWhole
  match exponent? rest with
  | none => false
  | some e => !(whole ++ fraction).isEmpty && Decimal.isFinite (whole ++ fraction) (e - fraction.length)

/-- Whether a text is a number with a point or an exponent, an infinity, or no number. -/
def isFloat (cs : List Char) : Bool :=
  [".nan", ".NaN", ".NAN"].contains (String.ofList cs)
    || [".inf", ".Inf", ".INF"].contains (String.ofList (unsigned cs))
    || isDecimal (unsigned cs)

/-- The words for nothing and for truth values. -/
def words : List String :=
  ["", "null", "Null", "NULL", "~", "true", "True", "TRUE", "false", "False", "FALSE"]

/-- Whether a string without quotes would be taken for something else. -/
def isAmbiguous (s : String) : Bool :=
  words.contains s || isInteger s.toList || isPaddedNumber s.toList || isFloat s.toList

/-! ## What a style cannot express -/

/-- Characters that mean something else at the beginning of a text. -/
def indicators : List Char :=
  ['#', ',', '[', ']', '{', '}', '&', '*', '!', '|', '>', '\'', '"', '%', '@', '\x60']

/-- Whether the first character of a text means something else. -/
def startsAsIndicator : List Char → Bool
  | [] => false
  | c :: cs => indicators.contains c || ((c = '?' || c = ':' || c = '-') && blankOrEnd cs)

/-- Whether a colon in front of a blank or a number sign after one stands in a text, which itself
stands after a blank or not. -/
def hasIndicator : Bool → List Char → Bool
  | _, [] => false
  | afterBlank, c :: cs =>
      (c = ':' && blankOrEnd cs) || (c = '#' && afterBlank) || hasIndicator (isBlank c) cs

/-- Whether a text starts with the mark of a new document. -/
def startsAsDocument (cs : List Char) : Bool :=
  "---".toList.isPrefixOf cs || "...".toList.isPrefixOf cs

/-- Whether the first or the last character is a space or ends a line. -/
def hasLooseEnd (cs : List Char) : Bool :=
  let loose (c : Char) : Bool := c = ' ' || isBreak c
  cs.head?.any loose || cs.getLast?.any loose

/-- Whether a character of the first kind stands directly in front of one of the second kind. -/
def hasPair (first second : Char → Bool) : List Char → Bool
  | a :: b :: cs => (first a && second b) || hasPair first second (b :: cs)
  | _ => false

/-- Whether a space stands directly in front of a break. -/
def hasSpaceBreak (cs : List Char) : Bool :=
  hasPair (· = ' ') isBreak cs

/-- Whether a break stands directly in front of a space. -/
def hasBreakSpace (cs : List Char) : Bool :=
  hasPair isBreak (· = ' ') cs

/-- Whether a text can be written without quotes. -/
def allowsPlain (cs : List Char) : Bool :=
  !(startsAsDocument cs || startsAsIndicator cs || hasIndicator false cs || hasLooseEnd cs
    || cs.any isBreak || cs.any (!isPrintable ·))

/-- Whether a text can be written in single quotes. -/
def allowsSingle (cs : List Char) : Bool :=
  !(hasBreakSpace cs || hasSpaceBreak cs || cs.any (!isPrintable ·))

/-- Whether a text can be written in the literal style. -/
def allowsLiteral (cs : List Char) : Bool :=
  !(cs.getLast? = some ' ' || hasSpaceBreak cs || cs.any (!isPrintable ·))

/-! ## The style of a string -/

/-- The style that says best what a string is. -/
def firstChoice (s : String) : Style :=
  if s.toList.contains '\n' then .literal
  else if isAmbiguous s then .singleQuoted
  else .plain

/-- The style of a string, which stands as a key on the line of its value or elsewhere. -/
def style (simpleKey : Bool) (s : String) : Style :=
  let cs := s.toList
  match firstChoice s with
  | .literal => if allowsLiteral cs && !simpleKey then .literal else .doubleQuoted
  | .plain =>
      if allowsPlain cs then .plain else if allowsSingle cs then .singleQuoted else .doubleQuoted
  | _ => if allowsSingle cs then .singleQuoted else .doubleQuoted

/-- Whether a key needs a line of its own. -/
def isLongKey (s : String) : Bool :=
  s.toList.any isBreak || 128 < s.utf8ByteSize

/-! ## Writing a string -/

/-- A string in single quotes after its opening quote. `broken` says that a line has just ended. -/
def singleChars (pad : List Char) : Bool → List Char → List Char
  | broken, [] => (if broken then pad else []) ++ ['\'']
  | broken, c :: cs =>
      if isBreak c then c :: singleChars pad true cs
      else if c = ' ' then c :: singleChars pad broken cs
      else (if broken then pad else []) ++ (if c = '\'' then ['\'', '\''] else [c])
        ++ singleChars pad false cs

/-- A character in double quotes. -/
def doubleEscape (c : Char) : List Char :=
  if c = '\x00' then ['\\', '0']
  else if c = '\x07' then ['\\', 'a']
  else if c = '\x08' then ['\\', 'b']
  else if c = '\t' then ['\\', 't']
  else if c = '\n' then ['\\', 'n']
  else if c = '\x0b' then ['\\', 'v']
  else if c = '\x0c' then ['\\', 'f']
  else if c = '\r' then ['\\', 'r']
  else if c = '\x1b' then ['\\', 'e']
  else if c = '"' then ['\\', '"']
  else if c = '\\' then ['\\', '\\']
  else if c = '\u0085' then ['\\', 'N']
  else if c = '\u2028' then ['\\', 'L']
  else if c = '\u2029' then ['\\', 'P']
  else if isPrintable c then [c]
  else if c.toNat ≤ 0xFF then ['\\', 'x'] ++ Text.hexPadded Text.upperHexDigit 2 c.toNat
  else if c.toNat ≤ 0xFFFF then ['\\', 'u'] ++ Text.hexPadded Text.upperHexDigit 4 c.toNat
  else ['\\', 'U'] ++ Text.hexPadded Text.upperHexDigit 8 c.toNat

/-- The lines of a string in the literal style. `broken` says that a line has just ended. -/
def literalChars (pad : List Char) : Bool → List Char → List Char
  | _, [] => []
  | broken, c :: cs =>
      if isBreak c then c :: literalChars pad true cs
      else (if broken then pad else []) ++ c :: literalChars pad false cs

/-- What the header of the literal style says about the end of a string: it does not end a line,
ends one, or ends several. -/
def chomping (cs : List Char) : List Char :=
  match cs.reverse with
  | [] => ['-']
  | last :: before =>
      if !isBreak last then ['-']
      else if before.head?.all isBreak then ['+']
      else []

/-- The header of the literal style. -/
def literalHeader (cs : List Char) : List Char :=
  ['|'] ++ (if cs.head?.any fun c => c = ' ' || isBreak c then ['2'] else []) ++ chomping cs

/-- A string in a style, for lines indented by `pad`. -/
def styledChars (style : Style) (pad : List Char) (cs : List Char) : List Char :=
  match style with
  | .plain => cs
  | .singleQuoted => '\'' :: singleChars pad false cs
  | .doubleQuoted => '"' :: cs.flatMap doubleEscape ++ ['"']
  | .literal => literalHeader cs ++ '\n' :: literalChars pad true cs

/-- A string that ends its line: a line feed follows unless its own text ends the line. -/
def scalarLine (column : Nat) (s : String) : String :=
  let cs := s.toList
  let style := style false s
  let closed := style = .literal && cs.getLast?.any isBreak
  String.ofList (styledChars style (List.replicate (column + 2) ' ') cs)
    ++ (if closed then "" else "\n")

/-- A string as a key on the line of its value. -/
def keyText (column : Nat) (s : String) : String :=
  String.ofList (styledChars (style true s) (List.replicate (column + 2) ' ') s.toList)

end SchemaPress.Yaml
