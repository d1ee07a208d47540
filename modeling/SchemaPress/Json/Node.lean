import SchemaPress.Json.Number
import SchemaPress.Text.Digit

/-!
# A JSON text read as far as it goes

A text that is not well formed still has a beginning. `Node` is the tree of a text up to
the first place where it goes wrong: every place where a value, an item or a member was
expected may hold a fault instead. A reader that walks the tree from left to right can then
tell which comes first, a fault of the text or a value of the wrong kind.

A string or a number can be judged in two ways. To *take* it is to find its value; to
*pass* it is only to find where it ends. A string with half of a surrogate pair and a number
that is too large can be passed and not taken.
-/

set_option autoImplicit false

namespace SchemaPress.Json

/-- Why a text is not well formed: a character that cannot stand where it stands, or an end that
comes too early. -/
inductive Fault where
  | malformed
  | truncated
deriving DecidableEq, Repr

mutual

/-- A value of a text, or the fault that stands in its place. -/
inductive Node where
  /-- The word `null`, with the fault in its spelling, if any. -/
  | null (spelled : Except Fault Unit)
  /-- The word `true` or `false`, with the fault in its spelling, if any. -/
  | bool (b : Bool) (spelled : Except Fault Unit)
  /-- A number, as it is taken and as it is passed. -/
  | number (taken : Except Fault Number) (passed : Except Fault Unit)
  /-- A string, as it is taken and as it is passed. -/
  | string (taken : Except Fault String) (passed : Except Fault Unit)
  | array (items : Items)
  | object (members : Members)
  /-- No value begins here. -/
  | missing (fault : Fault)

/-- The rest of an array. -/
inductive Items where
  | close
  /-- Neither a comma nor the closing bracket follows. -/
  | broken (fault : Fault)
  | item (value : Node) (rest : Items)

/-- The rest of an object. -/
inductive Members where
  | close
  /-- Neither a comma nor the closing brace follows, or no member begins. -/
  | broken (fault : Fault)
  | member (key : Except Fault String) (value : Node) (rest : Members)

end

/-! ## Scanning -/

/-- The blanks that may stand between two tokens. -/
def isSpace (c : Char) : Bool :=
  c = ' ' || c = '\n' || c = '\t' || c = '\r'

/-- A text without the blanks it begins with. -/
def skipSpace (cs : List Char) : List Char :=
  cs.dropWhile isSpace

/-- The text after a word, if the word stands at its beginning. -/
def passWord : List Char → List Char → Except Fault (List Char)
  | [], cs => .ok cs
  | _ :: _, [] => .error .truncated
  | w :: ws, c :: cs => if c = w then passWord ws cs else .error .malformed

/-- The value of four hexadecimal digits. -/
def hexFour? (a b c d : Char) : Option Nat :=
  Text.numberIn? 16 [a, b, c, d]

/-- The fault of an escape with less than four hexadecimal digits in front of the end of the
text: it is cut off if less than four bytes remain. -/
def shortEscape (cs : List Char) : Fault :=
  if (String.ofList cs).utf8ByteSize < 4 then .truncated else .malformed

/-- The character that an escape of two characters stands for. -/
def shortEscape? (c : Char) : Option Char :=
  if c = '"' then some '"'
  else if c = '\\' then some '\\'
  else if c = '/' then some '/'
  else if c = 'b' then some '\x08'
  else if c = 'f' then some '\x0c'
  else if c = 'n' then some '\n'
  else if c = 'r' then some '\r'
  else if c = 't' then some '\t'
  else none

/-- A character in front of the string taken from the rest. -/
def consTaken (c : Char) (r : Except Fault (List Char × List Char)) :
    Except Fault (List Char × List Char) :=
  r.map fun (taken, rest) => (c :: taken, rest)

/-- The string up to its closing quote and the text after it. A leading surrogate has to be
followed at once by a trailing one; `lead` is the one that waits. -/
def takeString : Option Nat → List Char → Except Fault (List Char × List Char)
  | _, [] => .error .truncated
  | lead, c :: cs =>
    if c = '\\' then
      match cs with
      | [] => .error .truncated
      | e :: es =>
        if e = 'u' then
          match es with
          | h₁ :: h₂ :: h₃ :: h₄ :: rest =>
            match hexFour? h₁ h₂ h₃ h₄, lead with
            | none, _ => .error .malformed
            | some n, some high =>
              if 0xDC00 ≤ n ∧ n ≤ 0xDFFF then
                consTaken (Char.ofNat (0x10000 + (high - 0xD800) * 0x400 + (n - 0xDC00)))
                  (takeString none rest)
              else .error .malformed
            | some n, none =>
              if 0xDC00 ≤ n ∧ n ≤ 0xDFFF then .error .malformed
              else if 0xD800 ≤ n ∧ n ≤ 0xDBFF then takeString (some n) rest
              else consTaken (Char.ofNat n) (takeString none rest)
          | short => .error (shortEscape short)
        else
          match shortEscape? e, lead with
          | some d, none => consTaken d (takeString none es)
          | _, _ => .error .malformed
    else if lead.isSome then .error .malformed
    else if c = '"' then .ok ([], cs)
    else if c.toNat < 0x20 then .error .malformed
    else consTaken c (takeString none cs)

/-- The text after the closing quote of a string, whatever its escapes stand for. -/
def passString : List Char → Except Fault (List Char)
  | [] => .error .truncated
  | c :: cs =>
    if c = '\\' then
      match cs with
      | [] => .error .truncated
      | e :: es =>
        if e = 'u' then
          match es with
          | h₁ :: h₂ :: h₃ :: h₄ :: rest =>
            if (hexFour? h₁ h₂ h₃ h₄).isSome then passString rest else .error .malformed
          | short => .error (shortEscape short)
        else if (shortEscape? e).isSome then passString es
        else .error .malformed
    else if c = '"' then .ok cs
    else if c.toNat < 0x20 then .error .malformed
    else passString cs

/-- The leading decimal digits of a text, and what follows them. -/
def spanDigits (cs : List Char) : List Char × List Char :=
  (cs.takeWhile Char.isDigit, cs.dropWhile Char.isDigit)

/-- What is found where a digit has to stand: taking notices the end of the text, passing does
not tell it from a wrong character. -/
def lacksDigit (rest : List Char) : Except (Fault × Fault) (Spelling × List Char) :=
  .error (if rest.isEmpty then .truncated else .malformed, .malformed)

/-- The exponent of a number, if one begins here, and the text after it. -/
def spellExponent (s : Spelling) (cs : List Char) :
    Except (Fault × Fault) (Spelling × List Char) :=
  match cs with
  | [] => .ok (s, [])
  | e :: after =>
    if e = 'e' ∨ e = 'E' then
      let negative := after.head? == some '-'
      let unsigned := if negative || after.head? == some '+' then after.drop 1 else after
      let (digits, rest) := spanDigits unsigned
      if digits.isEmpty then lacksDigit rest
      else .ok (⟨s.negative, s.whole, s.fraction, some (negative, digits)⟩, rest)
    else .ok (s, cs)

/-- The fraction and the exponent of a number, if they begin here, and the text after them. -/
def spellFraction (s : Spelling) (cs : List Char) :
    Except (Fault × Fault) (Spelling × List Char) :=
  match cs with
  | '.' :: after =>
    let (digits, rest) := spanDigits after
    if digits.isEmpty then lacksDigit rest
    else spellExponent ⟨s.negative, s.whole, some digits, none⟩ rest
  | _ => spellExponent s cs

/-- The spelling of a number after its sign, and the text after it; or the faults of taking and of
passing it. A zero stands alone in front of the point. -/
def spellNumber (negative : Bool) (cs : List Char) :
    Except (Fault × Fault) (Spelling × List Char) :=
  let (digits, rest) := spanDigits cs
  match digits with
  | [] => lacksDigit rest
  | ['0'] => spellFraction ⟨negative, digits, none, none⟩ rest
  | '0' :: _ => .error (.malformed, .malformed)
  | _ => spellFraction ⟨negative, digits, none, none⟩ rest

/-- A number, from its first digit on. -/
def scanNumber (negative : Bool) (cs : List Char) : Node × List Char :=
  match spellNumber negative cs with
  | .error (taking, passing) => (.number (.error taking) (.error passing), [])
  | .ok (s, rest) =>
    match s.value with
    | some n => (.number (.ok n) (.ok ()), rest)
    | none => (.number (.error .malformed) (.ok ()), rest)

/-- A string, from the character after its opening quote on. -/
def scanString (cs : List Char) : Node × List Char :=
  match takeString none cs, passString cs with
  | .ok (taken, _), .ok rest => (.string (.ok (String.ofList taken)) (.ok ()), rest)
  | .ok (taken, _), .error f => (.string (.ok (String.ofList taken)) (.error f), [])
  | .error f, .ok rest => (.string (.error f) (.ok ()), rest)
  | .error f, .error g => (.string (.error f) (.error g), [])

/-- A word whose first character has been read, and the text after it. -/
def scanWord (make : Except Fault Unit → Node) (word cs : List Char) : Node × List Char :=
  match passWord word cs with
  | .ok rest => (make (.ok ()), rest)
  | .error f => (make (.error f), [])

/-- The fault of a place where a certain character is expected and another one, or none, stands. -/
def faultAt : List Char → Fault
  | [] => .truncated
  | _ :: _ => .malformed

mutual

/-- The value at the beginning of a text, and the text after it. -/
def scanNode : Nat → List Char → Node × List Char
  | 0, _ => (.missing .truncated, [])
  | fuel + 1, text =>
    match skipSpace text with
    | [] => (.missing .truncated, [])
    | c :: cs =>
      if c = 'n' then scanWord .null ['u', 'l', 'l'] cs
      else if c = 't' then scanWord (.bool true) ['r', 'u', 'e'] cs
      else if c = 'f' then scanWord (.bool false) ['a', 'l', 's', 'e'] cs
      else if c = '-' then scanNumber true cs
      else if c.isDigit then scanNumber false (c :: cs)
      else if c = '"' then scanString cs
      else if c = '[' then
        let (items, rest) := scanItems fuel cs
        (.array items, rest)
      else if c = '{' then
        let (members, rest) := scanMembers fuel cs
        (.object members, rest)
      else (.missing .malformed, [])

/-- The items of an array, from the character after its opening bracket on. -/
def scanItems : Nat → List Char → Items × List Char
  | 0, _ => (.broken .truncated, [])
  | fuel + 1, text =>
    match skipSpace text with
    | [] => (.broken .truncated, [])
    | c :: cs =>
      if c = ']' then (.close, cs)
      else
        let (value, rest) := scanNode fuel (c :: cs)
        let (items, rest') := scanMoreItems fuel rest
        (.item value items, rest')

/-- The items of an array after one of them. -/
def scanMoreItems : Nat → List Char → Items × List Char
  | 0, _ => (.broken .truncated, [])
  | fuel + 1, text =>
    match skipSpace text with
    | [] => (.broken .truncated, [])
    | c :: cs =>
      if c = ']' then (.close, cs)
      else if c = ',' then
        let (value, rest) := scanNode fuel cs
        let (items, rest') := scanMoreItems fuel rest
        (.item value items, rest')
      else (.broken .malformed, [])

/-- The members of an object, from the character after its opening brace on. -/
def scanMembers : Nat → List Char → Members × List Char
  | 0, _ => (.broken .truncated, [])
  | fuel + 1, text =>
    match skipSpace text with
    | [] => (.broken .truncated, [])
    | c :: cs =>
      if c = '}' then (.close, cs)
      else if c = '"' then scanMember fuel cs
      else (.broken .malformed, [])

/-- A member, from the character after the opening quote of its key on, and those after it. -/
def scanMember : Nat → List Char → Members × List Char
  | 0, _ => (.broken .truncated, [])
  | fuel + 1, text =>
    let taken := (takeString none text).map fun (key, _) => String.ofList key
    match passString text with
    | .error f => (.member taken (.missing f) .close, [])
    | .ok after =>
      match skipSpace after with
      | ':' :: cs =>
        let (value, rest) := scanNode fuel cs
        let (members, rest') := scanMoreMembers fuel rest
        (.member taken value members, rest')
      | other => (.member taken (.missing (faultAt other)) .close, [])

/-- The members of an object after one of them. -/
def scanMoreMembers : Nat → List Char → Members × List Char
  | 0, _ => (.broken .truncated, [])
  | fuel + 1, text =>
    match skipSpace text with
    | [] => (.broken .truncated, [])
    | c :: cs =>
      if c = '}' then (.close, cs)
      else if c = ',' then
        match skipSpace cs with
        | '"' :: cs' => scanMember fuel cs'
        | other => (.member (.error (faultAt other)) (.missing (faultAt other)) .close, [])
      else (.broken .malformed, [])

end

/-- A text as a tree: its value, and whether anything but blanks follows it. -/
structure Document where
  root : Node
  trailing : Bool

/-- The tree of a text. Every step of the scan uses up a character, so the length of the text
bounds the number of steps. -/
def Document.ofText (text : String) : Document :=
  let cs := text.toList
  let (root, rest) := scanNode (2 * cs.length + 2) cs
  ⟨root, !(skipSpace rest).isEmpty⟩

end SchemaPress.Json
