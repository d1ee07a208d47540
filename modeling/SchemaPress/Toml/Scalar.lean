import SchemaPress.Decimal.Range
import SchemaPress.Text.Digit
import SchemaPress.Toml.Basic

/-!
# Strings, numbers and dates of a TOML text

Each function takes one token off the beginning of a text and gives its value and the text
after it, or nothing if no such token stands there.
-/

set_option autoImplicit false

namespace SchemaPress.Toml

/-- A blank within a line. -/
def isSpace (c : Char) : Bool :=
  c = ' ' || c = '\t'

/-- A text without the blanks that it begins with. -/
def skipSpace (cs : List Char) : List Char :=
  cs.dropWhile isSpace

/-- The text after a line feed, alone or behind a carriage return. -/
def newline? : List Char → Option (List Char)
  | '\n' :: cs => some cs
  | '\r' :: '\n' :: cs => some cs
  | _ => none

/-- A character that may stand in a comment. -/
def isCommentChar (c : Char) : Bool :=
  c = '\t' || (0x20 ≤ c.toNat && c.toNat ≤ 0x7E) || 0x80 ≤ c.toNat

/-- A text without the comment that it begins with, if any. -/
def skipComment : List Char → List Char
  | '#' :: cs => cs.dropWhile isCommentChar
  | cs => cs

/-! ## Strings -/

/-- The character of a code point; surrogates and numbers beyond the last one are no characters. -/
def codePoint? (n : Nat) : Option Char :=
  if n < 0xD800 ∨ (0xDFFF < n ∧ n < 0x110000) then some (Char.ofNat n) else none

/-- The character that an escape with one letter stands for. -/
def letterEscape? (c : Char) : Option Char :=
  if c = 'b' then some '\x08'
  else if c = 't' then some '\t'
  else if c = 'n' then some '\n'
  else if c = 'f' then some '\x0c'
  else if c = 'r' then some '\r'
  else if c = '"' then some '"'
  else if c = '\\' then some '\\'
  else none

/-- The number of hexadecimal digits after the letter of an escape. -/
def escapeDigits : Char → Nat
  | 'u' => 4
  | 'U' => 8
  | _ => 0

/-- The character that an escape stands for, given what follows the backslash. -/
def escape? : List Char → Option (Char × List Char)
  | [] => none
  | c :: cs =>
    match escapeDigits c with
    | 0 => (letterEscape? c).map fun d => (d, cs)
    | width => do
        let digits := cs.take width
        if digits.length < width then none
        else
          let d ← codePoint? (← Text.numberIn? 16 digits)
          return (d, cs.drop width)

/-- A character that stands for itself in a basic string. -/
def isBasicChar (c : Char) : Bool :=
  c = '\t' || (0x20 ≤ c.toNat && c.toNat ≤ 0x7E && c ≠ '"' && c ≠ '\\') || 0x80 ≤ c.toNat

/-- A character that stands for itself in a literal string. -/
def isLiteralChar (c : Char) : Bool :=
  c = '\t' || (0x20 ≤ c.toNat && c.toNat ≤ 0x7E && c ≠ '\'') || 0x80 ≤ c.toNat

/-- A basic string on one line after its opening quote. -/
def basicString : Nat → List Char → Option (List Char × List Char)
  | 0, _ => none
  | _, [] => none
  | fuel + 1, c :: cs =>
      if c = '"' then some ([], cs)
      else if c = '\\' then do
        let (d, rest) ← escape? cs
        let (ds, rest) ← basicString fuel rest
        return (d :: ds, rest)
      else if isBasicChar c then do
        let (ds, rest) ← basicString fuel cs
        return (c :: ds, rest)
      else none

/-- A literal string on one line after its opening quote. -/
def literalString : List Char → Option (List Char × List Char)
  | [] => none
  | c :: cs =>
      if c = '\'' then some ([], cs)
      else if isLiteralChar c then do
        let (ds, rest) ← literalString cs
        return (c :: ds, rest)
      else none

/-- A text without blanks and line ends at its beginning; a carriage return counts only in front of
a line feed. -/
def skipLines : List Char → List Char
  | '\r' :: '\n' :: cs => skipLines cs
  | c :: cs => if c = '\n' || isSpace c then skipLines cs else c :: cs
  | [] => []

/-- The text after a backslash that joins two lines. -/
def joinLines? (cs : List Char) : Option (List Char) :=
  (newline? (skipSpace cs)).map skipLines

/-- The end of a string over several lines: three quotes, in front of which one or two further
quotes belong to the string. -/
def closeQuotes (quote : Char) (cs : List Char) : Option (List Char × List Char) :=
  let run := (cs.takeWhile (· = quote)).length
  if run < 3 then none
  else
    let inside := min (run - 3) 2
    some (List.replicate inside quote, cs.drop (inside + 3))

/-- A basic string over several lines after its opening quotes. -/
def basicLines : Nat → List Char → Option (List Char × List Char)
  | 0, _ => none
  | _, [] => none
  | fuel + 1, c :: cs =>
      if c = '"' then
        match closeQuotes '"' (c :: cs) with
        | some closed => some closed
        | none => do
            let (ds, rest) ← basicLines fuel cs
            return (c :: ds, rest)
      else if c = '\\' then
        match joinLines? cs with
        | some rest => basicLines fuel rest
        | none => do
            let (d, rest) ← escape? cs
            let (ds, rest) ← basicLines fuel rest
            return (d :: ds, rest)
      else
        match newline? (c :: cs) with
        | some rest => do
            let (ds, rest) ← basicLines fuel rest
            return ('\n' :: ds, rest)
        | none =>
            if isBasicChar c then do
              let (ds, rest) ← basicLines fuel cs
              return (c :: ds, rest)
            else none

/-- A literal string over several lines after its opening quotes. -/
def literalLines : Nat → List Char → Option (List Char × List Char)
  | 0, _ => none
  | _, [] => none
  | fuel + 1, c :: cs =>
      if c = '\'' then
        match closeQuotes '\'' (c :: cs) with
        | some closed => some closed
        | none => do
            let (ds, rest) ← literalLines fuel cs
            return (c :: ds, rest)
      else
        match newline? (c :: cs) with
        | some rest => do
            let (ds, rest) ← literalLines fuel rest
            return ('\n' :: ds, rest)
        | none =>
            if isLiteralChar c then do
              let (ds, rest) ← literalLines fuel cs
              return (c :: ds, rest)
            else none

/-- A text without the line end at its beginning, if any. -/
def dropNewline (cs : List Char) : List Char :=
  (newline? cs).getD cs

/-- A string of any of the four kinds. -/
def string? (cs : List Char) : Option (List Char × List Char) :=
  match cs with
  | '"' :: '"' :: '"' :: rest => basicLines (rest.length + 1) (dropNewline rest)
  | '\'' :: '\'' :: '\'' :: rest => literalLines (rest.length + 1) (dropNewline rest)
  | '"' :: rest => basicString (rest.length + 1) rest
  | '\'' :: rest => literalString rest
  | _ => none

/-! ## Keys -/

/-- A character of a key without quotes. -/
def isBareChar (c : Char) : Bool :=
  c.isAlphanum || c = '-' || c = '_'

/-- A part of a key. -/
def keyPart? (cs : List Char) : Option (String × List Char) :=
  match cs with
  | '"' :: rest => do
      let (key, rest) ← basicString (rest.length + 1) rest
      return (String.ofList key, rest)
  | '\'' :: rest => do
      let (key, rest) ← literalString rest
      return (String.ofList key, rest)
  | _ =>
      let key := cs.takeWhile isBareChar
      if key.isEmpty then none else some (String.ofList key, cs.dropWhile isBareChar)

/-- The parts of a key, which dots divide, with blanks around each. -/
def keyParts? : Nat → List Char → Option (List String × List Char)
  | 0, _ => none
  | fuel + 1, cs => do
      let (part, rest) ← keyPart? (skipSpace cs)
      match skipSpace rest with
      | '.' :: more => do
          let (parts, rest) ← keyParts? fuel more
          return (part :: parts, rest)
      | rest => return ([part], rest)

/-- The number of parts that a key may not reach, and of arrays and tables that may not be nested. -/
def depthLimit : Nat := 80

/-- A key: the parts in front of the last, the last one, and the rest of the text. -/
def key? (cs : List Char) : Option (List String × String × List Char) := do
  let (parts, rest) ← keyParts? (cs.length + 1) cs
  let last ← parts.getLast?
  if depthLimit ≤ parts.length then none else return (parts.dropLast, last, rest)

/-! ## Numbers -/

/-- Digits after the first, which single underscores may divide. An underscore without a digit
behind it is no part of them, and fails. -/
def moreDigits (isDigit : Char → Bool) : List Char → Option (List Char × List Char)
  | '_' :: c :: cs =>
      if isDigit c then (moreDigits isDigit cs).map fun (ds, rest) => (c :: ds, rest) else none
  | c :: cs =>
      if c = '_' then none
      else if isDigit c then (moreDigits isDigit cs).map fun (ds, rest) => (c :: ds, rest)
      else some ([], c :: cs)
  | [] => some ([], [])

/-- One or more digits, which single underscores may divide. -/
def digits? (isDigit : Char → Bool) : List Char → Option (List Char × List Char)
  | [] => none
  | c :: cs =>
      if isDigit c then (moreDigits isDigit cs).map fun (ds, rest) => (c :: ds, rest) else none

/-- The sign at the beginning of a text, and the rest. -/
def sign : List Char → Bool × List Char
  | '+' :: cs => (false, cs)
  | '-' :: cs => (true, cs)
  | cs => (false, cs)

/-- The digits of a decimal integer: a single zero, or digits that do not begin with one. -/
def decimalDigits? : List Char → Option (List Char × List Char)
  | '0' :: cs => some (['0'], cs)
  | cs => digits? Char.isDigit cs

/-- An integer, if it fits in 64 bits. -/
def wordInteger (negative : Bool) (n : Nat) (rest : List Char) : Option (Toml × List Char) :=
  if negative then
    if n ≤ 1 <<< 63 then some (.integer (-(n : Int)), rest) else none
  else if n < 1 <<< 63 then some (.integer n, rest)
  else none

/-- An integer in a base other than ten, after its two leading characters. -/
def basedInteger (base : Nat) (cs : List Char) : Option (Toml × List Char) := do
  let (ds, rest) ← digits? (fun c => (Text.digitIn? base c).isSome) cs
  wordInteger false (← Text.numberIn? base ds) rest

/-- The exponent of a number, if one begins here: its sign and digits. -/
def exponent? (cs : List Char) : Option ((Option (Bool × List Char)) × List Char) :=
  match cs with
  | [] => some (none, [])
  | c :: after =>
    if c = 'e' ∨ c = 'E' then do
      let (negative, unsigned) := sign after
      let (ds, rest) ← digits? Char.isDigit unsigned
      return (some (negative, ds), rest)
    else some (none, cs)

/-- A float with the given digits; a positive one has to be finite. -/
def floatOf (negative : Bool) (whole fraction : List Char) (exponent : Option (Bool × List Char))
    (rest : List Char) : Option (Toml × List Char) :=
  let written : Int := match exponent with
    | none => 0
    | some (negative, ds) =>
        if negative then -(Decimal.digitsValue ds : Int) else Decimal.digitsValue ds
  if negative || Decimal.isFinite (whole ++ fraction) (written - fraction.length) then
    some (.float, rest)
  else none

/-- A number whose sign has been read: an infinity, no number, a float or an integer. -/
def unsignedNumber (negative : Bool) (cs : List Char) : Option (Toml × List Char) :=
  match cs with
  | 'i' :: 'n' :: 'f' :: rest => some (.float, rest)
  | 'n' :: 'a' :: 'n' :: rest => some (.float, rest)
  | _ => do
      let (whole, rest) ← decimalDigits? cs
      match rest with
      | '.' :: after => do
          let (fraction, rest) ← digits? Char.isDigit after
          let (exponent, rest) ← exponent? rest
          floatOf negative whole fraction exponent rest
      | _ => do
          let (exponent, rest) ← exponent? rest
          if exponent.isSome then floatOf negative whole [] exponent rest
          else wordInteger negative (Decimal.digitsValue whole) rest

/-- A number. -/
def number? (cs : List Char) : Option (Toml × List Char) :=
  match cs with
  | '0' :: 'x' :: rest => basedInteger 16 rest
  | '0' :: 'o' :: rest => basedInteger 8 rest
  | '0' :: 'b' :: rest => basedInteger 2 rest
  | _ =>
      let (negative, rest) := sign cs
      unsignedNumber negative rest

/-! ## Dates and times -/

/-- A number of exactly so many digits within bounds. -/
def fixed? (width low high : Nat) (cs : List Char) : Option (Nat × List Char) :=
  let ds := cs.take width
  let n := Decimal.digitsValue ds
  if ds.length = width && ds.all Char.isDigit && low ≤ n && n ≤ high then some (n, cs.drop width)
  else none

/-- The text after an expected character. -/
def expect (c : Char) : List Char → Option (List Char)
  | [] => none
  | d :: cs => if d = c then some cs else none

/-- The number of days of a month. -/
def daysIn (year month : Nat) : Nat :=
  if month = 2 then
    if year % 4 = 0 && (year % 100 ≠ 0 || year % 400 = 0) then 29 else 28
  else if month = 4 || month = 6 || month = 9 || month = 11 then 30
  else 31

/-- A number with leading zeros. -/
def padded (width n : Nat) : List Char :=
  let ds := Nat.toDigits 10 n
  List.replicate (width - ds.length) '0' ++ ds

/-- A date. -/
def date? (cs : List Char) : Option (List Char × List Char) := do
  let (year, cs) ← fixed? 4 0 9999 cs
  let (month, cs) ← fixed? 2 1 12 (← expect '-' cs)
  let (day, cs) ← fixed? 2 1 (daysIn year month) (← expect '-' cs)
  return (padded 4 year ++ ['-'] ++ padded 2 month ++ ['-'] ++ padded 2 day, cs)

/-- The fraction of a second, up to nine places, without closing zeros. -/
def secondFraction (cs : List Char) : List Char × List Char :=
  match cs with
  | '.' :: after =>
      let ds := after.takeWhile Char.isDigit
      if ds.isEmpty then ([], cs)
      else
        let kept := ((ds.take 9).reverse.dropWhile (· = '0')).reverse
        (if kept.isEmpty then [] else '.' :: kept, after.dropWhile Char.isDigit)
  | _ => ([], cs)

/-- A time of day. -/
def time? (cs : List Char) : Option (List Char × List Char) := do
  let (hour, cs) ← fixed? 2 0 23 cs
  let (minute, cs) ← fixed? 2 0 59 (← expect ':' cs)
  let (second, cs) ← fixed? 2 0 60 (← expect ':' cs)
  let (fraction, cs) := secondFraction cs
  return (padded 2 hour ++ [':'] ++ padded 2 minute ++ [':'] ++ padded 2 second ++ fraction, cs)

/-- The distance from universal time, if one is given. -/
def offset? (cs : List Char) : Option (List Char × List Char) :=
  match cs with
  | [] => some ([], [])
  | c :: rest =>
    if c = 'Z' ∨ c = 'z' then some (['Z'], rest)
    else if c = '+' ∨ c = '-' then do
      let (hour, rest) ← fixed? 2 0 23 rest
      let (minute, rest) ← fixed? 2 0 59 (← expect ':' rest)
      let shown := if hour = 0 && minute = 0 then '+' else c
      return (shown :: padded 2 hour ++ [':'] ++ padded 2 minute, rest)
    else some ([], cs)

/-- The time after a date, if one follows. -/
def timeAfterDate? (cs : List Char) : Option (List Char × List Char) :=
  match cs with
  | [] => some ([], [])
  | c :: rest =>
    if c = 'T' ∨ c = 't' ∨ c = ' ' then
      match time? rest with
      | none => some ([], cs)
      | some (time, rest) => do
          let (offset, rest) ← offset? rest
          return ('T' :: time ++ offset, rest)
    else some ([], cs)

/-- A date, a time, or both. -/
def moment? (cs : List Char) : Option (Toml × List Char) :=
  match date? cs with
  | some (date, rest) => do
      let (time, rest) ← timeAfterDate? rest
      return (.moment (String.ofList (date ++ time)), rest)
  | none => (time? cs).map fun (time, rest) => (.moment (String.ofList time), rest)

/-- A value without parts. -/
def scalar? (cs : List Char) : Option (Toml × List Char) :=
  match cs with
  | 't' :: 'r' :: 'u' :: 'e' :: rest => some (.bool true, rest)
  | 'f' :: 'a' :: 'l' :: 's' :: 'e' :: rest => some (.bool false, rest)
  | _ =>
    match string? cs with
    | some (s, rest) => some (.string (String.ofList s), rest)
    | none =>
      match moment? cs with
      | some taken => some taken
      | none => number? cs

end SchemaPress.Toml
