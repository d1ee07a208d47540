import Mathlib.Data.List.Forall2
import Mathlib.Data.List.Induction
import SchemaPress.Proofs.Text.Literal

/-!
# The contents of string literals

Between its quotes a literal is a sequence of pieces: characters that stand for themselves, escapes
of two characters, and escapes that give a code point by its number. A quote or a backslash is never
a piece of its own, and neither is a control character; TypeScript has no line separators either.

Pieces are read one after the other, so a text can be cut into them in at most one way as far as its
meaning goes. The contents of every literal that is written are pieces for the characters of its
text, and no character in them is forbidden (`Language.contents_read_back`).
-/

set_option autoImplicit false

namespace SchemaPress.Text

/-- A language with string literals. -/
inductive Language where
  | swift
  | typeScript
  | rust
deriving DecidableEq, Repr

namespace Language

/-- The literal of a text. -/
def literal : Language → String → String
  | .swift => bracedLiteral
  | .typeScript => fourDigitLiteral
  | .rust => bracedLiteral

/-- How a character is written in a literal. -/
def escape : Language → Char → List Char
  | .swift => bracedLiteralEscape
  | .typeScript => fourDigitLiteralEscape
  | .rust => bracedLiteralEscape

/-- The contents of the literal of a text. -/
def contents (l : Language) (s : String) : List Char :=
  s.toList.flatMap l.escape

/-! ## Pieces -/

/-- The characters that may not stand in a literal at all. -/
def forbids : Language → Char → Bool
  | .typeScript, c => isControl c || c == '\u2028' || c == '\u2029'
  | _, c => isControl c

/-- The character of an escape of two characters. -/
def short? : Language → Char → Option Char
  | .typeScript => sharedEscape?
  | _ => bracedShort?

/-- Characters of a literal that together stand for one character. -/
inductive Piece (l : Language) : List Char → Char → Prop where
  | plain {c : Char} (quote : c ≠ '"') (backslash : c ≠ '\\') (allowed : l.forbids c = false) :
      Piece l [c] c
  | short {e c : Char} (known : l.short? e = some c) : Piece l ['\\', e] c
  /-- One to six hexadecimal digits between braces. -/
  | braced {digits : List Char} {c : Char} (language : l ≠ .typeScript)
      (spelled : bracedScalar? digits = some c) :
      Piece l ('\\' :: 'u' :: '\x7b' :: digits ++ ['\x7d']) c
  /-- Exactly four hexadecimal digits. -/
  | fourDigit {h₁ h₂ h₃ h₄ c : Char} (language : l = .typeScript)
      (spelled : scalar? [h₁, h₂, h₃, h₄] = some c) : Piece l ['\\', 'u', h₁, h₂, h₃, h₄] c

/-- The text of a literal from its contents on, up to the first quote that no escape hides, and
what follows this quote. -/
def read : Language → List Char → Option (List Char × List Char)
  | .typeScript => readFourDigit
  | _ => readBraced none

/-! ## Digits -/

theorem toNat_of_hexValue? {c : Char} {n : Nat} (known : hexValue? c = some n) :
    0x30 ≤ c.toNat ∧ c.toNat ≤ 0x66 := by
  have between : ∀ a b : Char, a ≤ c ∧ c ≤ b → a.toNat ≤ c.toNat ∧ c.toNat ≤ b.toNat :=
    fun _ _ range => range
  unfold hexValue? at known
  split at known
  · rename_i range
    have := between '0' '9' range
    simp at this
    omega
  split at known
  · rename_i range
    have := between 'a' 'f' range
    simp at this
    omega
  split at known
  · rename_i range
    have := between 'A' 'F' range
    simp at this
    omega
  · cases known

/-- Only digits spell a number. -/
theorem toNat_of_numberIn? {digits : List Char} {n : Nat} (spelled : numberIn? 16 digits = some n) :
    ∀ c ∈ digits, 0x30 ≤ c.toNat ∧ c.toNat ≤ 0x66 := by
  induction digits using List.reverseRecOn generalizing n with
  | nil => simp
  | append_singleton digits last ih =>
      rw [numberIn?_concat] at spelled
      obtain ⟨before, earlier, final⟩ := Option.bind_eq_some_iff.mp spelled
      obtain ⟨d, digit, -⟩ := Option.map_eq_some_iff.mp final
      have known := (Option.filter_eq_some_iff.mp digit).1
      intro c member
      rcases List.mem_append.mp member with inside | here
      · exact ih earlier c inside
      · rw [List.mem_singleton.mp here]
        exact toNat_of_hexValue? known

theorem toNat_of_scalar? {digits : List Char} {d : Char} (spelled : scalar? digits = some d) :
    ∀ c ∈ digits, 0x30 ≤ c.toNat ∧ c.toNat ≤ 0x66 := by
  obtain ⟨n, number, -⟩ := Option.bind_eq_some_iff.mp spelled
  exact toNat_of_numberIn? number

theorem scalar?_of_bracedScalar? {digits : List Char} {d : Char}
    (spelled : bracedScalar? digits = some d) : scalar? digits = some d := by
  unfold bracedScalar? at spelled
  split at spelled
  · exact spelled
  · cases spelled

/-! ## What stands in a piece -/

/-- A printable character of the first 128 is allowed everywhere. -/
theorem forbids_of_printable (l : Language) {c : Char} (low : 0x20 ≤ c.toNat)
    (high : c.toNat < 0x7F) : l.forbids c = false := by
  have plain : isControl c = false := by
    simp only [isControl, Bool.or_eq_false_iff, Bool.and_eq_false_iff, decide_eq_false_iff_not]
    omega
  have apart : ∀ d : Char, 0x7F ≤ d.toNat → (c == d) = false := by
    rintro d far
    rw [beq_eq_false_iff_ne]
    rintro rfl
    omega
  cases l with
  | swift => exact plain
  | rust => exact plain
  | typeScript =>
      simp only [forbids, plain, apart '\u2028' (by decide), apart '\u2029' (by decide),
        Bool.or_self]

theorem printable_of_sharedEscape? {e c : Char} (known : sharedEscape? e = some c) :
    0x20 ≤ e.toNat ∧ e.toNat < 0x7F ∧ e ≠ 'u' := by
  unfold sharedEscape? at known
  split_ifs at known with backslash quote feed back tab
  all_goals subst e; decide

/-- The letter of an escape of two characters is printable, and it is not the one in front of a
number. -/
theorem printable_of_short? {l : Language} {e c : Char} (known : l.short? e = some c) :
    0x20 ≤ e.toNat ∧ e.toNat < 0x7F ∧ e ≠ 'u' := by
  have braced : bracedShort? e = some c → 0x20 ≤ e.toNat ∧ e.toNat < 0x7F ∧ e ≠ 'u' := by
    intro short
    unfold bracedShort? at short
    split at short
    · subst e
      decide
    · exact printable_of_sharedEscape? short
  cases l with
  | swift => exact braced known
  | rust => exact braced known
  | typeScript => exact printable_of_sharedEscape? known

/-- No character of a piece is forbidden. -/
theorem Piece.allowed {l : Language} {cs : List Char} {c : Char} (piece : l.Piece cs c) :
    ∀ d ∈ cs, l.forbids d = false := by
  have mark : ∀ d : Char, d ∈ ['\\', 'u', '\x7b', '\x7d'] → l.forbids d = false := by
    intro d member
    simp only [List.mem_cons, List.not_mem_nil, or_false] at member
    rcases member with rfl | rfl | rfl | rfl
    all_goals exact l.forbids_of_printable (by decide) (by decide)
  have digit : ∀ {digits : List Char} {c : Char}, scalar? digits = some c →
      ∀ d ∈ digits, l.forbids d = false := by
    intro digits c spelled d member
    obtain ⟨low, high⟩ := toNat_of_scalar? spelled d member
    exact l.forbids_of_printable (by omega) (by omega)
  cases piece with
  | plain quote backslash allowed => simpa using allowed
  | short known =>
      obtain ⟨low, high, -⟩ := printable_of_short? known
      simp only [List.forall_mem_cons]
      exact ⟨mark _ (by simp), l.forbids_of_printable low high, by simp⟩
  | braced language spelled =>
      have digits := digit (scalar?_of_bracedScalar? spelled)
      simp only [List.cons_append, List.forall_mem_cons, List.forall_mem_append]
      exact ⟨mark _ (by simp), mark _ (by simp), mark _ (by simp), digits, mark _ (by simp),
        by simp⟩
  | fourDigit language spelled =>
      have digits := digit spelled
      simp only [List.forall_mem_cons] at digits ⊢
      exact ⟨mark _ (by simp), mark _ (by simp), digits⟩

/-! ## Reading pieces -/

theorem read_quote (l : Language) (rest : List Char) : l.read ('"' :: rest) = some ([], rest) := by
  have braced : readBraced none ('"' :: rest) = some ([], rest) := by
    rw [readBraced.eq_def]
    simp
  cases l with
  | swift => exact braced
  | rust => exact braced
  | typeScript =>
      change readFourDigit _ = _
      rw [readFourDigit.eq_def]
      simp

theorem ne_break_of_forbids {l : Language} {c : Char} (allowed : l.forbids c = false) :
    c ≠ '\n' ∧ c ≠ '\r' := by
  constructor
  · rintro rfl
    cases l <;> exact absurd allowed (by decide)
  · rintro rfl
    cases l <;> exact absurd allowed (by decide)

/-- A character that stands for itself is read as itself. -/
theorem read_plain {l : Language} {c : Char} (quote : c ≠ '"') (backslash : c ≠ '\\')
    (allowed : l.forbids c = false) (rest : List Char) :
    l.read (c :: rest) = consRead c (l.read rest) := by
  obtain ⟨feed, back⟩ := ne_break_of_forbids allowed
  have braced : readBraced none (c :: rest) = consRead c (readBraced none rest) := by
    rw [readBraced.eq_def]
    simp [quote, backslash, feed, back]
  cases l with
  | swift => exact braced
  | rust => exact braced
  | typeScript =>
      simp only [forbids, Bool.or_eq_false_iff, beq_eq_false_iff_ne] at allowed
      change readFourDigit (c :: rest) = consRead c (readFourDigit rest)
      rw [readFourDigit.eq_def]
      simp [quote, backslash, feed, back, allowed]

theorem read_short {l : Language} {e c : Char} (known : l.short? e = some c) (rest : List Char) :
    l.read ('\\' :: e :: rest) = consRead c (l.read rest) := by
  obtain ⟨-, -, plain⟩ := printable_of_short? known
  cases l with
  | swift => exact readBraced_short plain known rest
  | rust => exact readBraced_short plain known rest
  | typeScript => exact readFourDigit_short plain known rest

/-- **A piece is read as its character**, whatever follows it. -/
theorem Piece.read_append {l : Language} {cs : List Char} {c : Char} (piece : l.Piece cs c)
    (rest : List Char) : l.read (cs ++ rest) = consRead c (l.read rest) := by
  cases piece with
  | plain quote backslash allowed => exact read_plain quote backslash allowed rest
  | short known => exact read_short known rest
  | @braced digits _ language spelled =>
      have inside : '\x7d' ∉ digits := by
        intro member
        have := toNat_of_scalar? (scalar?_of_bracedScalar? spelled) _ member
        simp at this
      have code := readBraced_digits [] digits rest inside
      rw [List.nil_append, spelled, Option.bind_some] at code
      have numbered : readBraced none ('\\' :: 'u' :: '\x7b' :: digits ++ ['\x7d'] ++ rest) =
          consRead c (readBraced none rest) := by
        rw [readBraced.eq_def]
        simpa using code
      cases l with
      | swift => exact numbered
      | rust => exact numbered
      | typeScript => exact absurd rfl language
  | fourDigit language spelled =>
      subst language
      change readFourDigit _ = consRead c (readFourDigit rest)
      rw [List.cons_append, readFourDigit.eq_def]
      simp [spelled]

/-- **Pieces are read as their characters**, up to the quote after them. -/
theorem read_pieces {l : Language} {pieces : List (List Char)} {text : List Char}
    (cut : List.Forall₂ l.Piece pieces text) (rest : List Char) :
    l.read (pieces.flatten ++ '"' :: rest) = some (text, rest) := by
  induction cut with
  | nil => exact l.read_quote rest
  | cons piece _ ih =>
      rw [List.flatten_cons, List.append_assoc, piece.read_append, ih]
      rfl

/-! ## What is written -/

theorem piece_bracedLiteralEscape {l : Language} (language : l ≠ .typeScript) (c : Char) :
    l.Piece (bracedLiteralEscape c) c := by
  have short : ∀ {e c : Char}, bracedShort? e = some c → l.Piece ['\\', e] c := by
    intro e c known
    apply Piece.short
    cases l with
    | swift => exact known
    | rust => exact known
    | typeScript => exact absurd rfl language
  unfold bracedLiteralEscape
  split_ifs with backslash quote feed back tab zero control
  · subst backslash; exact short rfl
  · subst quote; exact short rfl
  · subst feed; exact short rfl
  · subst back; exact short rfl
  · subst tab; exact short rfl
  · subst zero; exact short rfl
  · exact Piece.braced language (bracedScalar?_hexShort c)
  · apply Piece.plain quote backslash
    cases l with
    | swift => exact Bool.not_eq_true _ ▸ control
    | rust => exact Bool.not_eq_true _ ▸ control
    | typeScript => exact absurd rfl language

theorem piece_fourDigitLiteralEscape (c : Char) :
    Piece .typeScript (fourDigitLiteralEscape c) c := by
  unfold fourDigitLiteralEscape
  split_ifs with backslash quote feed back tab numbered
  · subst backslash; exact Piece.short rfl
  · subst quote; exact Piece.short rfl
  · subst feed; exact Piece.short rfl
  · subst back; exact Piece.short rfl
  · subst tab; exact Piece.short rfl
  · have room : c.toNat < 16 ^ 4 := by
      simp only [isControl, Bool.or_eq_true, decide_eq_true_eq, Bool.and_eq_true] at numbered
      rcases numbered with (rfl | rfl) | control
      · decide
      · decide
      · omega
    exact Piece.fourDigit rfl (scalar?_hexPadded digitIn?_hexDigit room)
  · apply Piece.plain quote backslash
    simp only [Bool.or_eq_true, decide_eq_true_eq, not_or, Bool.not_eq_true] at numbered
    simp [forbids, numbered]

/-- What is written for a character is a piece that stands for it. -/
theorem piece_escape (l : Language) (c : Char) : l.Piece (l.escape c) c := by
  cases l with
  | swift => exact piece_bracedLiteralEscape (by decide) c
  | rust => exact piece_bracedLiteralEscape (by decide) c
  | typeScript => exact piece_fourDigitLiteralEscape c

theorem toList_literal (l : Language) (s : String) :
    (l.literal s).toList = '"' :: l.contents s ++ ['"'] := by
  cases l <;> exact String.toList_ofList

theorem flatten_map_escape (l : Language) (s : String) :
    (s.toList.map l.escape).flatten = l.contents s :=
  List.flatMap_def.symm

/-- **String literals read back exactly.** In each language and for every text, the contents of the
literal hold no forbidden character and are pieces for the characters of the text: no quote stands
outside an escape, and every backslash begins an escape of the language. However the contents are
cut into pieces, they stand for the text, and reading them up to the closing quote gives it. -/
theorem contents_read_back (l : Language) (s : String) :
    (l.literal s).toList = '"' :: l.contents s ++ ['"'] ∧
      (∀ c ∈ l.contents s, l.forbids c = false) ∧
      (∃ pieces : List (List Char),
        pieces.flatten = l.contents s ∧ List.Forall₂ l.Piece pieces s.toList) ∧
      (∀ (pieces : List (List Char)) (text : List Char),
        pieces.flatten = l.contents s → List.Forall₂ l.Piece pieces text → text = s.toList) ∧
      ∀ rest : List Char, l.read (l.contents s ++ '"' :: rest) = some (s.toList, rest) := by
  have cut : List.Forall₂ l.Piece (s.toList.map l.escape) s.toList := by
    rw [List.forall₂_map_left_iff, List.forall₂_same]
    exact fun c _ => l.piece_escape c
  have reads : ∀ rest : List Char,
      l.read (l.contents s ++ '"' :: rest) = some (s.toList, rest) := by
    intro rest
    rw [← l.flatten_map_escape]
    exact read_pieces cut rest
  refine ⟨l.toList_literal s, ?_, ⟨_, l.flatten_map_escape s, cut⟩, ?_, reads⟩
  · intro c member
    obtain ⟨d, -, inside⟩ := List.mem_flatMap.mp member
    exact (l.piece_escape d).allowed c inside
  · intro pieces text whole other
    have again := read_pieces other []
    rw [whole, reads, Option.some.injEq, Prod.mk.injEq] at again
    exact again.1.symm

/-- A control character in front of a digit: the braces, or the fixed width, keep the two apart. -/
example : Language.swift.contents "\x071" = "\\u\x7b7\x7d1".toList ∧
    Language.typeScript.contents "\x071" = "\\u00071".toList := by decide

end Language

end SchemaPress.Text
