import Mathlib.Tactic.SplitIfs
import SchemaPress.Proofs.Text.Digit
import SchemaPress.Text.Literal

/-!
# String literals read back

How a compiler reads a string literal: from its opening quote up to the first quote that no escape
hides, each escape standing for one character. Swift and Rust give a code point by hexadecimal
digits between braces, TypeScript by four of them. Escapes that are not listed here, and line
breaks, are refused.

A written literal is read as the text it was written for, whatever follows it
(`readBracedLiteral_append`, `readFourDigitLiteral_append`).
-/

set_option autoImplicit false

namespace SchemaPress.Text

/-! ## Readers -/

/-- A character in front of what is read from the rest of a literal. -/
def consRead (c : Char) (r : Option (List Char × List Char)) : Option (List Char × List Char) :=
  r.map fun p => (c :: p.1, p.2)

/-- The character of an escape of two characters that all target languages share. -/
def sharedEscape? (e : Char) : Option Char :=
  if e = '\\' then some '\\'
  else if e = '"' then some '"'
  else if e = 'n' then some '\n'
  else if e = 'r' then some '\r'
  else if e = 't' then some '\t'
  else none

/-- The character of an escape of two characters in Swift or Rust. -/
def bracedShort? (e : Char) : Option Char :=
  if e = '0' then some '\x00' else sharedEscape? e

/-- The character whose code point is spelled by hexadecimal digits. -/
def scalar? (digits : List Char) : Option Char :=
  (numberIn? 16 digits).bind fun n => if n.isValidChar then some (Char.ofNat n) else none

/-- A code point between braces has one to six digits. -/
def bracedScalar? (digits : List Char) : Option Char :=
  if 1 ≤ digits.length ∧ digits.length ≤ 6 then scalar? digits else none

/-- The contents of a literal of Swift or Rust up to its closing quote, and the text after it.
`pending` holds the digits of a code point whose closing brace has not been reached. -/
def readBraced : Option (List Char) → List Char → Option (List Char × List Char)
  | _, [] => none
  | some digits, c :: cs =>
    if c = '\x7d' then (bracedScalar? digits).bind fun d => consRead d (readBraced none cs)
    else readBraced (some (digits ++ [c])) cs
  | none, c :: cs =>
    if c = '\\' then
      match cs with
      | [] => none
      | [e] => (bracedShort? e).bind fun d => consRead d (readBraced none [])
      | e :: b :: es =>
        if e = 'u' then if b = '\x7b' then readBraced (some []) es else none
        else (bracedShort? e).bind fun d => consRead d (readBraced none (b :: es))
    else if c = '"' then some ([], cs)
    else if c = '\n' ∨ c = '\r' then none
    else consRead c (readBraced none cs)

/-- The contents of a literal of TypeScript up to its closing quote, and the text after it. -/
def readFourDigit : List Char → Option (List Char × List Char)
  | [] => none
  | c :: cs =>
    if c = '\\' then
      match cs with
      | [] => none
      | e :: es =>
        if e = 'u' then
          match es with
          | h₁ :: h₂ :: h₃ :: h₄ :: rest =>
            (scalar? [h₁, h₂, h₃, h₄]).bind fun d => consRead d (readFourDigit rest)
          | _ => none
        else (sharedEscape? e).bind fun d => consRead d (readFourDigit es)
    else if c = '"' then some ([], cs)
    else if c = '\n' ∨ c = '\r' ∨ c = '\u2028' ∨ c = '\u2029' then none
    else consRead c (readFourDigit cs)

/-- A literal from its opening quote on, by a reader of its contents: its text, and what follows. -/
def readQuoted (read : List Char → Option (List Char × List Char)) :
    List Char → Option (String × List Char)
  | [] => none
  | c :: cs => if c = '"' then (read cs).map fun p => (String.ofList p.1, p.2) else none

/-- A string literal of Swift or Rust at the beginning of a text. -/
def readBracedLiteral : List Char → Option (String × List Char) :=
  readQuoted (readBraced none)

/-- A string literal of TypeScript at the beginning of a text. -/
def readFourDigitLiteral : List Char → Option (String × List Char) :=
  readQuoted readFourDigit

/-! ## Reading one written character -/

theorem scalar?_hexPadded {digit : Nat → Char}
    (known : ∀ {d : Nat}, d < 16 → digitIn? 16 (digit d) = some d) {c : Char} {width : Nat}
    (room : c.toNat < 16 ^ width) : scalar? (hexPadded digit width c.toNat) = some c := by
  have valid : c.toNat.isValidChar := c.valid
  simp [scalar?, numberIn?_hexPadded known room, valid]

theorem length_hexPadded (digit : Nat → Char) (width n : Nat) :
    (hexPadded digit width n).length = width := by
  induction width generalizing n with
  | zero => rfl
  | succ width ih => simp [hexPadded, ih]

/-- The digits between braces are collected up to the closing brace. -/
theorem readBraced_digits (pending digits rest : List Char)
    (inside : '\x7d' ∉ digits) :
    readBraced (some pending) (digits ++ '\x7d' :: rest) =
      (bracedScalar? (pending ++ digits)).bind fun d => consRead d (readBraced none rest) := by
  induction digits generalizing pending with
  | nil =>
      rw [List.nil_append, readBraced.eq_def]
      simp
  | cons c digits ih =>
      have open_ : c ≠ '\x7d' := by
        rintro rfl
        exact inside List.mem_cons_self
      have others := ih (pending ++ [c]) fun member => inside (List.mem_cons_of_mem _ member)
      rw [List.append_assoc, List.singleton_append] at others
      rw [List.cons_append, readBraced.eq_def]
      simpa [open_] using others

/-- A code point between braces is its character. -/
theorem bracedScalar?_hexShort (c : Char) : bracedScalar? (hexShort c.toNat) = some c := by
  have below : c.toNat < 0x1000000 := by
    have valid : c.toNat.isValidChar := c.valid
    rcases valid with small | ⟨-, large⟩
    · exact Nat.lt_trans small (by decide)
    · exact Nat.lt_trans large (by decide)
  have short : 1 ≤ hexWidth c.toNat ∧ hexWidth c.toNat ≤ 6 := by
    unfold hexWidth
    split_ifs <;> decide
  rw [bracedScalar?, hexShort, length_hexPadded, if_pos short]
  exact scalar?_hexPadded digitIn?_hexDigit (lt_pow_hexWidth below)

/-- An escape of two characters is read as its character. -/
theorem readBraced_short {e d : Char} (plain : e ≠ 'u') (known : bracedShort? e = some d)
    (rest : List Char) :
    readBraced none ('\\' :: e :: rest) = consRead d (readBraced none rest) := by
  rw [readBraced.eq_def]
  cases rest <;> simp [plain, known]

/-- A character written in Swift or Rust is read back. -/
theorem readBraced_escape (c : Char) (rest : List Char) :
    readBraced none (bracedLiteralEscape c ++ rest) = consRead c (readBraced none rest) := by
  unfold bracedLiteralEscape
  split_ifs with backslash quote feed back tab zero control
  · subst backslash; exact readBraced_short (by decide) rfl rest
  · subst quote; exact readBraced_short (by decide) rfl rest
  · subst feed; exact readBraced_short (by decide) rfl rest
  · subst back; exact readBraced_short (by decide) rfl rest
  · subst tab; exact readBraced_short (by decide) rfl rest
  · subst zero; exact readBraced_short (by decide) rfl rest
  · have digits := readBraced_digits [] (hexShort c.toNat) rest
      fun member => absurd (isAlphanum_of_mem_hexPadded member) (by decide)
    rw [List.nil_append, bracedScalar?_hexShort] at digits
    rw [readBraced.eq_def]
    simpa [bracedEscape] using digits
  · rw [List.singleton_append, readBraced.eq_def]
    simp [backslash, quote, feed, back]

theorem readFourDigit_short {e d : Char} (plain : e ≠ 'u') (known : sharedEscape? e = some d)
    (rest : List Char) :
    readFourDigit ('\\' :: e :: rest) = consRead d (readFourDigit rest) := by
  rw [readFourDigit.eq_def]
  simp [plain, known]

/-- A character written in TypeScript is read back. -/
theorem readFourDigit_escape (c : Char) (rest : List Char) :
    readFourDigit (fourDigitLiteralEscape c ++ rest) = consRead c (readFourDigit rest) := by
  unfold fourDigitLiteralEscape
  split_ifs with backslash quote feed back tab numbered
  · subst backslash; exact readFourDigit_short (by decide) rfl rest
  · subst quote; exact readFourDigit_short (by decide) rfl rest
  · subst feed; exact readFourDigit_short (by decide) rfl rest
  · subst back; exact readFourDigit_short (by decide) rfl rest
  · subst tab; exact readFourDigit_short (by decide) rfl rest
  · have room : c.toNat < 16 ^ 4 := by
      simp only [isControl, Bool.or_eq_true, decide_eq_true_eq, Bool.and_eq_true] at numbered
      rcases numbered with (rfl | rfl) | control
      · decide
      · decide
      · omega
    have known := scalar?_hexPadded digitIn?_hexDigit room
    simp only [hexPadded, List.nil_append, List.cons_append] at known
    rw [readFourDigit.eq_def]
    simp [hexPadded, known]
  · simp only [Bool.or_eq_true, decide_eq_true_eq, not_or] at numbered
    rw [List.singleton_append, readFourDigit.eq_def]
    simp [backslash, quote, feed, back, numbered]

/-! ## Reading a whole literal -/

/-- A reader that reads back every written character reads back a quoted text. -/
theorem readQuoted_quoteWith {escape : Char → List Char}
    {read : List Char → Option (List Char × List Char)}
    (step : ∀ c rest, read (escape c ++ rest) = consRead c (read rest))
    (stop : ∀ rest, read ('"' :: rest) = some ([], rest)) (s : String) (rest : List Char) :
    readQuoted read ((quoteWith escape s).toList ++ rest) = some (s, rest) := by
  have contents : ∀ cs : List Char,
      read (cs.flatMap escape ++ '"' :: rest) = some (cs, rest) := by
    intro cs
    induction cs with
    | nil => exact stop rest
    | cons c cs ih =>
        rw [List.flatMap_cons, List.append_assoc, step, ih]
        rfl
  simp [readQuoted, quoteWith, contents]

/-- **A written literal of Swift or Rust is read as its text**, whatever follows it. -/
theorem readBracedLiteral_append (s : String) (rest : List Char) :
    readBracedLiteral ((bracedLiteral s).toList ++ rest) = some (s, rest) :=
  readQuoted_quoteWith readBraced_escape (fun rest => by rw [readBraced.eq_def]; simp) s rest

/-- **A written literal of TypeScript is read as its text**, whatever follows it. -/
theorem readFourDigitLiteral_append (s : String) (rest : List Char) :
    readFourDigitLiteral ((fourDigitLiteral s).toList ++ rest) = some (s, rest) :=
  readQuoted_quoteWith readFourDigit_escape (fun rest => by rw [readFourDigit.eq_def]; simp) s rest

/-- A written literal of Swift or Rust stays on one line. -/
theorem no_break_of_bracedLiteral (s : String) : '\n' ∉ (bracedLiteral s).toList := by
  have each : ∀ c, '\n' ∉ bracedLiteralEscape c := by
    intro c
    unfold bracedLiteralEscape
    split_ifs with backslash quote feed back tab zero control
    all_goals try decide
    · intro member
      simp only [bracedEscape, List.mem_append] at member
      rcases member with (opening | digit) | closing
      · revert opening; decide
      · exact absurd (isAlphanum_of_mem_hexPadded digit) (by decide)
      · revert closing; decide
    · simpa [eq_comm] using feed
  simp [bracedLiteral, quoteWith, each]

end SchemaPress.Text
