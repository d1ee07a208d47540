import Mathlib.Tactic.SplitIfs
import SchemaPress.Proofs.Text.Lines
import SchemaPress.Proofs.Text.Literal
import SchemaPress.Yaml.Basic

/-!
# Strings of a YAML text read back

How a YAML text is read as a string. The first character says which of the four styles it is in. A
string in quotes ends at its closing quote. In single quotes a doubled quote stands for one, and the
spaces at the beginning of a further line do not count; in double quotes escapes are undone. A block
takes every line that is empty or indented, and drops the last line break if its header asks for
that. Any other string ends with its line.

A written string is read as itself, whatever the line below it is, as long as that line is indented
less (`readScalar_scalarLine`). A key ends at its colon, and a string that is no key is not taken
for one (`readKey_keyText`, `readKey_scalarLine`).
-/

set_option autoImplicit false

namespace SchemaPress.Yaml

open Text (consRead scalar?)

/-! ## What a style asks of a string -/

theorem style_eq_plain {simpleKey : Bool} {s : String} (chosen : style simpleKey s = .plain) :
    allowsPlain s.toList = true ∧ isAmbiguous s = false := by
  unfold style firstChoice at chosen
  grind

theorem style_eq_single {simpleKey : Bool} {s : String}
    (chosen : style simpleKey s = .singleQuoted) : allowsSingle s.toList = true := by
  unfold style firstChoice at chosen
  grind

theorem style_eq_literal {simpleKey : Bool} {s : String} (chosen : style simpleKey s = .literal) :
    simpleKey = false ∧ s.toList ≠ [] ∧ allowsLiteral s.toList = true := by
  unfold style firstChoice at chosen
  grind

/-- A character of the first kind that is in front of none of the second kind, and what follows. -/
theorem hasPair_cons_eq_false {first second : Char → Bool} {c : Char} {cs : List Char}
    (free : hasPair first second (c :: cs) = false) :
    (first c = true → ∀ d ∈ cs.head?, second d = false) ∧ hasPair first second cs = false := by
  cases cs with
  | nil => simp [hasPair]
  | cons d cs =>
      simp only [hasPair, Bool.or_eq_false_iff, Bool.and_eq_false_iff] at free
      obtain ⟨here, later⟩ := free
      refine ⟨fun holds e head => ?_, later⟩
      rw [List.head?_cons, Option.mem_some_iff] at head
      subst head
      simpa [holds] using here

/-! ## Single quotes -/

/-- The contents of a string in single quotes up to its closing quote, and the text after it.
`broken` says that a line has just ended, so that spaces do not count. -/
def readSingle : Bool → List Char → Option (List Char × List Char)
  | _, [] => none
  | broken, c :: cs =>
    if broken && c = ' ' then readSingle true cs
    else if c = '\'' then
      match cs with
      | '\'' :: rest => consRead '\'' (readSingle false rest)
      | _ => some ([], cs)
    else consRead c (readSingle (isBreak c) cs)

theorem readSingle_spaces (n : Nat) (cs : List Char) :
    readSingle true (List.replicate n ' ' ++ cs) = readSingle true cs := by
  induction n with
  | zero => rfl
  | succ n ih =>
      rw [List.replicate_succ, List.cons_append, readSingle.eq_def]
      simpa using ih

/-- The indentation of a line does not count, whether there is any or not. -/
theorem readSingle_indentation (n : Nat) (broken : Bool) (cs : List Char) :
    readSingle broken ((if broken then List.replicate n ' ' else []) ++ cs) =
      readSingle broken cs := by
  cases broken with
  | false => rfl
  | true => exact readSingle_spaces n cs

theorem readSingle_char {broken : Bool} {c : Char} (other : c ≠ '\'')
    (solid : broken = true → c ≠ ' ') (cs : List Char) :
    readSingle broken (c :: cs) = consRead c (readSingle (isBreak c) cs) := by
  rw [readSingle.eq_def]
  cases broken <;> simp_all

theorem readSingle_doubled (broken : Bool) (cs : List Char) :
    readSingle broken ('\'' :: '\'' :: cs) = consRead '\'' (readSingle false cs) := by
  rw [readSingle.eq_def]
  simp

theorem readSingle_end {rest : List Char} (apart : rest.head? ≠ some '\'') (broken : Bool) :
    readSingle broken ('\'' :: rest) = some ([], rest) := by
  rw [readSingle.eq_def]
  cases rest with
  | nil => simp
  | cons d rest => grind

/-- **A string in single quotes is read back**, if no quote follows it. -/
theorem readSingle_singleChars {n : Nat} {rest : List Char} (apart : rest.head? ≠ some '\'') :
    ∀ {cs : List Char} (broken : Bool), hasBreakSpace cs = false →
      (broken = true → cs.head? ≠ some ' ') →
      readSingle broken (singleChars (List.replicate n ' ') broken cs ++ rest) = some (cs, rest)
  | [], broken, _, _ => by
      rw [singleChars, List.append_assoc, readSingle_indentation, List.singleton_append,
        readSingle_end apart]
  | c :: cs, broken, free, solid => by
      obtain ⟨tight, later⟩ := hasPair_cons_eq_false free
      have firm : broken = true → c ≠ ' ' := fun holds => by simpa using solid holds
      rw [singleChars]
      by_cases ends : isBreak c = true
      · -- Behind a break no space can follow, so all spaces there are indentation.
        have others := readSingle_singleChars (n := n) apart true later
          fun _ head => by simpa using tight ends _ head
        have plain : c ≠ '\'' := by
          rintro rfl
          exact absurd ends (by decide)
        rw [if_pos ends, List.cons_append, readSingle_char plain firm, ends, others]
        rfl
      · rw [Bool.not_eq_true] at ends
        have others := readSingle_singleChars (n := n) apart false later (by simp)
        rw [if_neg (by simp [ends])]
        by_cases blank : c = ' '
        · have unbroken : broken = false := by simpa [blank] using firm
          rw [if_pos blank, List.cons_append, readSingle_char (by simp [blank]) firm, ends,
            unbroken, others]
          rfl
        · rw [if_neg blank, List.append_assoc, List.append_assoc, readSingle_indentation]
          by_cases quote : c = '\''
          · rw [if_pos quote, List.cons_append, List.singleton_append, readSingle_doubled, others,
              quote]
            rfl
          · rw [if_neg quote, List.singleton_append, readSingle_char quote firm, ends, others]
            rfl

/-! ## Double quotes -/

/-- The escapes of two characters: what stands behind the backslash, and what it stands for. -/
def shortEscapes : List (Char × Char) :=
  [('0', '\x00'), ('a', '\x07'), ('b', '\x08'), ('t', '\t'), ('n', '\n'), ('v', '\x0b'),
   ('f', '\x0c'), ('r', '\r'), ('e', '\x1b'), ('"', '"'), ('\\', '\\'), ('N', '\u0085'),
   ('L', '\u2028'), ('P', '\u2029')]

/-- The contents of a string in double quotes up to its closing quote, and the text after it. -/
def readDouble : List Char → Option (List Char × List Char)
  | [] => none
  | c :: cs =>
    if c = '"' then some ([], cs)
    else if c = '\\' then
      match cs with
      | 'x' :: h₁ :: h₂ :: rest =>
        (scalar? [h₁, h₂]).bind fun d => consRead d (readDouble rest)
      | 'u' :: h₁ :: h₂ :: h₃ :: h₄ :: rest =>
        (scalar? [h₁, h₂, h₃, h₄]).bind fun d => consRead d (readDouble rest)
      | 'U' :: h₁ :: h₂ :: h₃ :: h₄ :: h₅ :: h₆ :: h₇ :: h₈ :: rest =>
        (scalar? [h₁, h₂, h₃, h₄, h₅, h₆, h₇, h₈]).bind fun d => consRead d (readDouble rest)
      | e :: rest => (shortEscapes.lookup e).bind fun d => consRead d (readDouble rest)
      | [] => none
    else consRead c (readDouble cs)

theorem doubleEscape_of_mem {p : Char × Char} (known : p ∈ shortEscapes) :
    doubleEscape p.2 = ['\\', p.1] ∧ shortEscapes.lookup p.1 = some p.2 := by
  have each : shortEscapes.all (fun p =>
      doubleEscape p.2 == ['\\', p.1] && shortEscapes.lookup p.1 == some p.2) = true := by decide
  simpa using List.all_eq_true.mp each p known

theorem doubleEscape_of_not_mem {c : Char} (unlisted : c ∉ shortEscapes.map Prod.snd) :
    doubleEscape c =
      if isPrintable c then [c]
      else if c.toNat ≤ 0xFF then ['\\', 'x'] ++ Text.hexPadded Text.upperHexDigit 2 c.toNat
      else if c.toNat ≤ 0xFFFF then ['\\', 'u'] ++ Text.hexPadded Text.upperHexDigit 4 c.toNat
      else ['\\', 'U'] ++ Text.hexPadded Text.upperHexDigit 8 c.toNat := by
  simp only [shortEscapes, List.map_cons, List.map_nil, List.mem_cons, not_or] at unlisted
  simp only [doubleEscape, unlisted, if_false]

theorem readDouble_short {e d : Char} (known : shortEscapes.lookup e = some d) (rest : List Char) :
    readDouble ('\\' :: e :: rest) = consRead d (readDouble rest) := by
  have numbered : ∀ c ∈ ['x', 'u', 'U'], shortEscapes.lookup c = none := by
    simp only [List.forall_mem_cons, List.not_mem_nil, false_implies, implies_true, and_true]
    exact ⟨rfl, rfl, rfl⟩
  have other : e ∉ ['x', 'u', 'U'] := by
    intro listed
    rw [numbered e listed] at known
    cases known
  rw [readDouble.eq_def]
  grind

/-- A character in double quotes is read back. -/
theorem readDouble_escape (c : Char) (rest : List Char) :
    readDouble (doubleEscape c ++ rest) = consRead c (readDouble rest) := by
  by_cases listed : c ∈ shortEscapes.map Prod.snd
  · obtain ⟨p, known, rfl⟩ := List.mem_map.mp listed
    obtain ⟨written, found⟩ := doubleEscape_of_mem known
    rw [written]
    exact readDouble_short found rest
  · have not_quote : c ≠ '"' := by rintro rfl; exact listed (by decide)
    have not_slash : c ≠ '\\' := by rintro rfl; exact listed (by decide)
    rw [doubleEscape_of_not_mem listed]
    split
    · rw [List.singleton_append, readDouble.eq_def]
      simp [not_quote, not_slash]
    · -- The digits of a number are as many as its escape says, and spell the character.
      have digits : ∀ {width : Nat}, c.toNat < 16 ^ width →
          scalar? (Text.hexPadded Text.upperHexDigit width c.toNat) = some c :=
        fun room => Text.scalar?_hexPadded Text.digitIn?_upperHexDigit room
      split
      · have known := digits (show c.toNat < 16 ^ 2 by omega)
        simp only [Text.hexPadded, List.nil_append, List.cons_append] at known
        rw [readDouble.eq_def]
        simp [Text.hexPadded, known]
      · split
        · have known := digits (show c.toNat < 16 ^ 4 by omega)
          simp only [Text.hexPadded, List.nil_append, List.cons_append] at known
          rw [readDouble.eq_def]
          simp [Text.hexPadded, known]
        · have room : c.toNat < 16 ^ 8 := by
            have valid : c.toNat.isValidChar := c.valid
            rcases valid with small | ⟨-, large⟩
            · exact Nat.lt_trans small (by decide)
            · exact Nat.lt_trans large (by decide)
          have known := digits room
          simp only [Text.hexPadded, List.nil_append, List.cons_append] at known
          rw [readDouble.eq_def]
          simp [Text.hexPadded, known]

/-- **A string in double quotes is read back.** -/
theorem readDouble_flatMap_doubleEscape (cs rest : List Char) :
    readDouble (cs.flatMap doubleEscape ++ '"' :: rest) = some (cs, rest) := by
  induction cs with
  | nil =>
      rw [List.flatMap_nil, List.nil_append, readDouble.eq_def]
      simp
  | cons c cs ih =>
      rw [List.flatMap_cons, List.append_assoc, readDouble_escape, ih]
      rfl

/-! ## Blocks -/

/-- A text that is empty or has a first line that is not empty and is indented by less than a number
of spaces. -/
def Outdented (limit : Nat) (rest : List Char) : Prop :=
  rest = [] ∨ ∃ k c cs, rest = List.replicate k ' ' ++ c :: cs ∧ k < limit ∧ c ≠ ' ' ∧
    isBreak c = false

theorem Outdented.mono {limit wider : Nat} (le : limit ≤ wider) {rest : List Char}
    (below : Outdented limit rest) : Outdented wider rest := by
  obtain rfl | ⟨k, c, cs, rfl, small, solid, line⟩ := below
  · exact .inl rfl
  · exact .inr ⟨k, c, cs, rfl, Nat.lt_of_lt_of_le small le, solid, line⟩

/-- The lines of a block that are indented by `pad` or empty, and the text after them. `start` is
the text from the beginning of the line on, and `left` is the number of spaces that the indentation
of the line still lacks. -/
def readBlock (pad : Nat) : List Char → Nat → List Char → List Char × List Char
  | start, _, [] => ([], start)
  | start, left, c :: cs =>
    if isBreak c then (readBlock pad cs pad cs).map (c :: ·) id
    else if left = 0 then (readBlock pad start 0 cs).map (c :: ·) id
    else if c = ' ' then readBlock pad start (left - 1) cs
    else ([], start)

theorem readBlock_spaces (pad : Nat) (start : List Char) (n left : Nat) (cs : List Char) :
    readBlock pad start (n + left) (List.replicate n ' ' ++ cs) = readBlock pad start left cs := by
  induction n with
  | zero => rw [Nat.zero_add, List.replicate_zero, List.nil_append]
  | succ n ih =>
      have space : isBreak ' ' = false := by decide
      have lacking : n + 1 + left ≠ 0 := by omega
      have next : n + 1 + left - 1 = n + left := by omega
      rw [List.replicate_succ, List.cons_append, readBlock]
      simpa [space, lacking, next] using ih

/-- A block ends in front of a line that is indented by less. -/
theorem readBlock_outdented {pad : Nat} {rest : List Char} (below : Outdented pad rest) :
    readBlock pad rest pad rest = ([], rest) := by
  obtain rfl | ⟨k, c, cs, rfl, small, solid, line⟩ := below
  · rfl
  · obtain ⟨left, rfl⟩ := Nat.exists_eq_add_of_lt small
    have step := readBlock_spaces (k + left + 1) (List.replicate k ' ' ++ c :: cs) k (left + 1)
      (c :: cs)
    rw [← Nat.add_assoc] at step
    rw [step, readBlock]
    simp [line, solid]

/-- **The lines of a block are read back**, up to a line that is indented by less. The first
statement is about the beginning of a line, and the second about the inside of one. -/
theorem readBlock_literalChars {pad : Nat} {rest : List Char} (below : Outdented pad rest) :
    ∀ {cs : List Char}, (∀ c ∈ cs.getLast?, isBreak c = true) →
      readBlock pad (literalChars (List.replicate pad ' ') true cs ++ rest) pad
          (literalChars (List.replicate pad ' ') true cs ++ rest) = (cs, rest) ∧
      (cs ≠ [] → ∀ start,
        readBlock pad start 0 (literalChars (List.replicate pad ' ') false cs ++ rest) = (cs, rest))
  | [], _ => ⟨readBlock_outdented below, fun none => absurd rfl none⟩
  | c :: cs, closed => by
      have closedLater : ∀ d ∈ cs.getLast?, isBreak d = true := by
        intro d last
        refine closed d ?_
        cases cs with
        | nil => simp at last
        | cons e cs => rwa [List.getLast?_cons_cons]
      obtain ⟨atStart, inside⟩ := readBlock_literalChars below closedLater
      by_cases ends : isBreak c = true
      · constructor
        · rw [literalChars, if_pos ends, List.cons_append, readBlock, if_pos ends, atStart]
          rfl
        · intro _ start
          rw [literalChars, if_pos ends, List.cons_append, readBlock, if_pos ends, atStart]
          rfl
      · have more : cs ≠ [] := by
          rintro rfl
          exact ends (closed c (by simp))
        have goesOn : ∀ start, readBlock pad start 0
            (c :: literalChars (List.replicate pad ' ') false cs ++ rest) = (c :: cs, rest) := by
          intro start
          rw [List.cons_append, readBlock, if_neg ends, if_pos rfl, inside more]
          rfl
        constructor
        · rw [literalChars, if_neg ends, if_pos rfl, List.append_assoc]
          exact (readBlock_spaces pad _ pad 0 _).trans (goesOn _)
        · intro _ start
          rw [literalChars, if_neg ends, if_neg (by decide), List.nil_append]
          exact goesOn start

theorem literalChars_concat_break (pad : List Char) {c : Char} (ends : isBreak c = true)
    (cs : List Char) (broken : Bool) :
    literalChars pad broken (cs ++ [c]) = literalChars pad broken cs ++ [c] := by
  induction cs generalizing broken with
  | nil => simp [literalChars, ends]
  | cons d cs ih =>
      rw [List.cons_append, literalChars, literalChars]
      split <;> simp [ih]

/-- The header of a block is a bar and signs. It asks for the last line break to be dropped if the
string does not end with one. -/
theorem exists_eq_literalHeader {cs : List Char} (filled : cs ≠ []) :
    ∃ signs, literalHeader cs = '|' :: signs ∧ signs ⊆ ['2', '-', '+'] ∧
      signs.contains '-' = !cs.getLast?.any isBreak := by
  obtain ⟨before, last, whole⟩ := (List.eq_nil_or_concat cs).resolve_left filled
  rw [List.concat_eq_append] at whole
  subst whole
  refine ⟨(if (before ++ [last]).head?.any fun c => c = ' ' || isBreak c then ['2'] else [])
    ++ chomping (before ++ [last]), rfl, ?_, ?_⟩
  · unfold chomping
    simp only [List.reverse_append, List.reverse_singleton, List.singleton_append]
    split_ifs <;> simp
  · unfold chomping
    simp only [List.reverse_append, List.reverse_singleton, List.singleton_append,
      List.getLast?_append, List.getLast?_singleton]
    split_ifs <;> simp_all

theorem not_mem_signs {signs : List Char} (few : signs ⊆ ['2', '-', '+']) {c : Char}
    (other : c ∉ ['2', '-', '+']) : c ∉ signs :=
  fun member => other (few member)

/-! ## A string with what follows it -/

/-- What has been read, if a mark follows; the mark is skipped. -/
def followedBy (mark : Char) (p : List Char × List Char) : Option (String × List Char) :=
  match p.2 with
  | [] => none
  | c :: rest => if c = mark then some (String.ofList p.1, rest) else none

/-- A string up to a mark: in quotes, or by a reader of strings without quotes. -/
def readMarked (mark : Char) (bare : List Char → Option (String × List Char)) :
    List Char → Option (String × List Char)
  | [] => none
  | c :: cs =>
    if c = '\'' then (readSingle false cs).bind (followedBy mark)
    else if c = '"' then (readDouble cs).bind (followedBy mark)
    else bare (c :: cs)

/-- A string in quotes is read back if the mark follows, and refused if anything else does. -/
theorem readMarked_quoted {s : String} {chosen : Style} (mark : Char)
    (bare : List Char → Option (String × List Char))
    (quoted : chosen = .singleQuoted ∧ allowsSingle s.toList = true ∨ chosen = .doubleQuoted)
    (n : Nat) {c : Char} (apart : c ≠ '\'') (rest : List Char) :
    readMarked mark bare (styledChars chosen (List.replicate n ' ') s.toList ++ c :: rest) =
      if c = mark then some (s, rest) else none := by
  obtain ⟨rfl, allowed⟩ | rfl := quoted
  · have tight : hasBreakSpace s.toList = false := by
      simp only [allowsSingle, Bool.not_eq_true', Bool.or_eq_false_iff] at allowed
      exact allowed.1.1
    have contents : readSingle false
        (singleChars (List.replicate n ' ') false s.toList ++ c :: rest) =
          some (s.toList, c :: rest) :=
      readSingle_singleChars (by simpa using apart) false tight (by simp)
    simp [styledChars, readMarked, contents, followedBy]
  · have contents := readDouble_flatMap_doubleEscape s.toList (c :: rest)
    simp [styledChars, readMarked, contents, followedBy]

/-! ## Strings that end their line -/

/-- A block after its bar. -/
def readLiteral (pad : Nat) (cs : List Char) : String × List Char :=
  let body := (cs.dropWhile (· ≠ '\n')).drop 1
  let block := readBlock pad body pad body
  (String.ofList (if (cs.takeWhile (· ≠ '\n')).contains '-' then block.1.dropLast else block.1),
    block.2)

/-- The text up to the end of the line. -/
def readLine (cs : List Char) : Option (String × List Char) :=
  some (String.ofList (cs.takeWhile (· ≠ '\n')), (cs.dropWhile (· ≠ '\n')).drop 1)

/-- A string that ends its line, for blocks indented by `pad`, and the text after it. -/
def readScalar (pad : Nat) : List Char → Option (String × List Char)
  | '|' :: cs => some (readLiteral pad cs)
  | cs => readMarked '\n' readLine cs

theorem toList_scalarLine (column : Nat) (s : String) :
    (scalarLine column s).toList =
      styledChars (style false s) (List.replicate (column + 2) ' ') s.toList
        ++ if style false s = .literal && s.toList.getLast?.any isBreak then [] else ['\n'] := by
  unfold scalarLine
  rw [String.toList_append, String.toList_ofList]
  split <;> rfl

/-- What is asked of a string without quotes. -/
structure IsPlain (cs : List Char) : Prop where
  filled : cs ≠ []
  starts : startsAsIndicator cs = false
  inside : hasIndicator false cs = false
  solid : cs.head? ≠ some ' '
  line : ∀ c ∈ cs, isBreak c = false

theorem isPlain_of_style {simpleKey : Bool} {s : String} (chosen : style simpleKey s = .plain) :
    IsPlain s.toList := by
  obtain ⟨allowed, clear⟩ := style_eq_plain chosen
  simp only [allowsPlain, Bool.not_eq_true', Bool.or_eq_false_iff, List.any_eq_false,
    Bool.not_eq_true, hasLooseEnd] at allowed
  obtain ⟨⟨⟨⟨⟨-, starts⟩, inside⟩, loose, -⟩, line⟩, -⟩ := allowed
  refine ⟨?_, starts, inside, ?_, line⟩
  · intro empty
    have : s = "" := by simpa using empty
    subst this
    exact absurd clear (by decide)
  · intro head
    simp [head] at loose

/-- What stands up to the end of a line, and below it. -/
theorem takeLine {line : List Char} (closed : '\n' ∉ line) (rest : List Char) :
    (line ++ '\n' :: rest).takeWhile (· ≠ '\n') = line ∧
      (line ++ '\n' :: rest).dropWhile (· ≠ '\n') = '\n' :: rest :=
  Text.takeWhile_dropWhile_run (fun c member => by simpa using ne_of_mem_of_not_mem member closed)
    (Text.stop_cons _ (by simp) rest)

/-- The contents of a block are those that its header asks for. -/
theorem readLiteral_header {pad : Nat} {signs body block rest : List Char} (line : '\n' ∉ signs)
    (contents : readBlock pad body pad body = (block, rest)) :
    readLiteral pad (signs ++ '\n' :: body) =
      (String.ofList (if signs.contains '-' then block.dropLast else block), rest) := by
  obtain ⟨taken, left⟩ := takeLine line body
  simp only [readLiteral, taken, left, List.drop_succ_cons, List.drop_zero, contents]

/-- A block is read back, up to a line that is indented by less. -/
theorem readLiteral_scalarLine {column : Nat} {s : String} {rest : List Char}
    (below : Outdented (column + 2) rest) (chosen : style false s = .literal) :
    ∃ cs, (scalarLine column s).toList = '|' :: cs ∧
      readLiteral (column + 2) (cs ++ rest) = (s, rest) := by
  obtain ⟨-, filled, -⟩ := style_eq_literal chosen
  obtain ⟨signs, header, few, dropping⟩ := exists_eq_literalHeader filled
  have line : '\n' ∉ signs := not_mem_signs few (by decide)
  rw [toList_scalarLine, chosen, styledChars, header]
  by_cases closed : s.toList.getLast?.any isBreak = true
  · have ends : ∀ c ∈ s.toList.getLast?, isBreak c = true := by
      intro c last
      simpa [Option.mem_def.mp last] using closed
    have block := readLiteral_header line (readBlock_literalChars below ends).1
    rw [dropping, closed] at block
    refine ⟨signs ++ '\n' :: literalChars (List.replicate (column + 2) ' ') true s.toList,
      by simp [closed], ?_⟩
    simpa using block
  · -- The line feed that ends the last line is read as part of the block and dropped.
    have ends : ∀ c ∈ (s.toList ++ ['\n']).getLast?, isBreak c = true := by
      intro c last
      rw [List.getLast?_concat, Option.mem_some_iff] at last
      rw [← last]
      decide
    have block := readLiteral_header line (readBlock_literalChars below ends).1
    rw [dropping, literalChars_concat_break _ (by decide), List.dropLast_concat] at block
    refine ⟨signs ++ '\n' :: literalChars (List.replicate (column + 2) ' ') true s.toList ++ ['\n'],
      by simp [closed], ?_⟩
    simpa [closed] using block

/-- A string in quotes or without any is followed by a line feed. -/
theorem toList_scalarLine_of_ne_literal (column : Nat) {s : String}
    (other : style false s ≠ .literal) :
    (scalarLine column s).toList =
      styledChars (style false s) (List.replicate (column + 2) ' ') s.toList ++ ['\n'] := by
  rw [toList_scalarLine]
  simp [other]

/-- The beginning of a string without quotes is not taken for another style. -/
theorem IsPlain.exists_cons {cs : List Char} (plain : IsPlain cs) :
    ∃ c rest, cs = c :: rest ∧ c ∉ indicators ∧ c ≠ ' ' ∧ isBreak c = false ∧
      (c = '?' ∨ c = ':' ∨ c = '-' → blankOrEnd rest = false) := by
  obtain ⟨filled, starts, -, solid, line⟩ := plain
  cases cs with
  | nil => exact absurd rfl filled
  | cons c rest =>
      simp only [startsAsIndicator, Bool.or_eq_false_iff, Bool.and_eq_false_iff] at starts
      refine ⟨c, rest, rfl, by simpa using starts.1, by simpa using solid, line c (by simp), ?_⟩
      intro sign
      refine starts.2.resolve_left ?_
      rcases sign with rfl | rfl | rfl <;> decide

theorem ne_of_not_mem_indicators {c : Char} (open_ : c ∉ indicators) :
    c ≠ '|' ∧ c ≠ '\'' ∧ c ≠ '"' := by
  refine ⟨?_, ?_, ?_⟩
  · rintro rfl; exact open_ (by decide)
  · rintro rfl; exact open_ (by decide)
  · rintro rfl; exact open_ (by decide)

/-- A line without quotes is read as it stands. -/
theorem readScalar_line {c : Char} {cs : List Char} (open_ : c ∉ indicators)
    (closed : '\n' ∉ c :: cs) (pad : Nat) (rest : List Char) :
    readScalar pad (c :: cs ++ '\n' :: rest) = some (String.ofList (c :: cs), rest) := by
  obtain ⟨not_bar, not_single, not_double⟩ := ne_of_not_mem_indicators open_
  obtain ⟨taken, left⟩ := takeLine closed rest
  calc readScalar pad (c :: cs ++ '\n' :: rest)
      = readMarked '\n' readLine (c :: cs ++ '\n' :: rest) := by
        rw [readScalar]
        rintro more same
        exact not_bar (List.cons.inj same).1
    _ = readLine (c :: cs ++ '\n' :: rest) := by
        rw [List.cons_append, readMarked, if_neg not_single, if_neg not_double]
    _ = some (String.ofList (c :: cs), rest) := by
        rw [readLine, taken, left, List.drop_one, List.tail_cons]

/-- **A written string is read back**, up to a line that is indented by less. -/
theorem readScalar_scalarLine {column : Nat} {rest : List Char}
    (below : Outdented (column + 2) rest) (s : String) :
    readScalar (column + 2) ((scalarLine column s).toList ++ rest) = some (s, rest) := by
  cases chosen : style false s with
  | literal =>
      obtain ⟨cs, written, contents⟩ := readLiteral_scalarLine below chosen
      rw [written, List.cons_append, readScalar, contents]
  | singleQuoted =>
      have contents := readMarked_quoted '\n' readLine (.inl ⟨rfl, style_eq_single chosen⟩)
        (column + 2) (c := '\n') (by decide) rest
      rw [toList_scalarLine_of_ne_literal _ (by simp [chosen]), chosen, List.append_assoc]
      exact contents
  | doubleQuoted =>
      have contents := readMarked_quoted (s := s) '\n' readLine (.inr rfl) (column + 2) (c := '\n')
        (by decide) rest
      rw [toList_scalarLine_of_ne_literal _ (by simp [chosen]), chosen, List.append_assoc]
      exact contents
  | plain =>
      have plain := isPlain_of_style chosen
      obtain ⟨c, cs, whole, open_, -⟩ := plain.exists_cons
      have closed : '\n' ∉ s.toList := fun member => absurd (plain.line _ member) (by decide)
      have contents := readScalar_line open_ (whole ▸ closed) (column + 2) rest
      rw [toList_scalarLine_of_ne_literal _ (by simp [chosen]), chosen, styledChars,
        List.append_assoc, List.singleton_append]
      rwa [← whole, String.ofList_toList] at contents

/-- Strings can be told from their texts, and so can the lines below them. -/
theorem scalarLine_append_inj {column : Nat} {s t : String} {rest rest' : List Char}
    (below : Outdented (column + 2) rest) (below' : Outdented (column + 2) rest')
    (same : (scalarLine column s).toList ++ rest = (scalarLine column t).toList ++ rest') :
    s = t ∧ rest = rest' := by
  have read := readScalar_scalarLine below s
  rw [same, readScalar_scalarLine below' t, Option.some.injEq, Prod.mk.injEq] at read
  exact ⟨read.1.symm, read.2.symm⟩

/-! ## Keys -/

/-- A key without quotes up to the first colon in front of a blank. -/
def scanKey : List Char → Option (List Char × List Char)
  | [] => none
  | c :: cs =>
    if c = ':' && blankOrEnd cs then some ([], cs)
    else if c = '\n' then none
    else consRead c (scanKey cs)

/-- A key on the line of its value, and the text after its colon. -/
def readKey : List Char → Option (String × List Char) :=
  readMarked ':' fun cs => (scanKey cs).map fun p => (String.ofList p.1, p.2)

theorem blankOrEnd_append {cs : List Char} (solid : blankOrEnd cs = false) (rest : List Char) :
    blankOrEnd (cs ++ rest) = false := by
  cases cs with
  | nil => simp [blankOrEnd] at solid
  | cons c cs => exact solid

/-- A text without a colon in front of a blank is passed. -/
theorem scanKey_append {afterBlank : Bool} {cs : List Char}
    (inside : hasIndicator afterBlank cs = false)
    (line : '\n' ∉ cs) (rest : List Char) :
    scanKey (cs ++ rest) = (scanKey rest).map fun p => (cs ++ p.1, p.2) := by
  induction cs generalizing afterBlank with
  | nil => simp
  | cons c cs ih =>
      simp only [hasIndicator, Bool.or_eq_false_iff, Bool.and_eq_false_iff] at inside
      obtain ⟨⟨colon, -⟩, later⟩ := inside
      rw [List.mem_cons, not_or] at line
      have passed : (c = ':' && blankOrEnd (cs ++ rest)) = false := by
        rcases colon with other | solid
        · simp [other]
        · simp [blankOrEnd_append solid]
      rw [List.cons_append, scanKey, passed, ih later line.2]
      cases scanKey rest <;> simp [consRead, Ne.symm line.1]

theorem readKey_bare {c : Char} (not_single : c ≠ '\'') (not_double : c ≠ '"') (cs : List Char) :
    readKey (c :: cs) = (scanKey (c :: cs)).map fun p => (String.ofList p.1, p.2) := by
  rw [readKey, readMarked, if_neg not_single, if_neg not_double]

/-- A line without a colon is no key. -/
theorem scanKey_line {line : List Char} (closed : '\n' ∉ line) (bare : ':' ∉ line)
    (rest : List Char) : scanKey (line ++ '\n' :: rest) = none := by
  induction line with
  | nil => simp [scanKey]
  | cons c line ih =>
      rw [List.mem_cons, not_or] at closed bare
      rw [List.cons_append, scanKey, ih closed.2 bare.2]
      simp [Ne.symm closed.1, Ne.symm bare.1, consRead]

/-- **A written key is read back** if a blank follows its colon. -/
theorem readKey_keyText (column : Nat) (key : String) {c : Char} (blank : isBlank c = true)
    (rest : List Char) :
    readKey ((keyText column key).toList ++ ':' :: c :: rest) = some (key, c :: rest) := by
  rw [keyText, String.toList_ofList]
  cases chosen : style true key with
  | literal => exact absurd (style_eq_literal chosen).1 (by decide)
  | singleQuoted =>
      exact readMarked_quoted ':' _ (.inl ⟨rfl, style_eq_single chosen⟩) (column + 2) (by decide) _
  | doubleQuoted => exact readMarked_quoted ':' _ (.inr rfl) (column + 2) (by decide) _
  | plain =>
      have plain := isPlain_of_style chosen
      obtain ⟨d, cs, whole, open_, -⟩ := plain.exists_cons
      obtain ⟨-, not_single, not_double⟩ := ne_of_not_mem_indicators open_
      have line : '\n' ∉ key.toList := fun member => absurd (plain.line _ member) (by decide)
      have passed := scanKey_append plain.inside line (':' :: c :: rest)
      have colon : scanKey (':' :: c :: rest) = some ([], c :: rest) := by
        rw [scanKey]
        simp [blankOrEnd, blank]
      rw [whole, colon] at passed
      rw [styledChars, whole, List.cons_append, readKey_bare not_single not_double,
        ← List.cons_append, passed]
      simp [← whole]

/-- **A string that ends its line is not taken for a key.** -/
theorem readKey_scalarLine (column : Nat) (s : String) (rest : List Char) :
    readKey ((scalarLine column s).toList ++ rest) = none := by
  cases chosen : style false s with
  | literal =>
      obtain ⟨-, filled, -⟩ := style_eq_literal chosen
      obtain ⟨signs, header, few, -⟩ := exists_eq_literalHeader filled
      have line : '\n' ∉ signs := not_mem_signs few (by decide)
      have bare : ':' ∉ signs := not_mem_signs few (by decide)
      rw [toList_scalarLine, chosen, styledChars, header]
      simp only [List.cons_append, List.append_assoc]
      rw [readKey_bare (by decide) (by decide), ← List.cons_append,
        scanKey_line (by simp [line]) (by simp [bare])]
      rfl
  | singleQuoted =>
      rw [toList_scalarLine_of_ne_literal _ (by simp [chosen]), chosen, List.append_assoc]
      exact readMarked_quoted ':' _ (.inl ⟨rfl, style_eq_single chosen⟩) (column + 2) (by decide)
        rest
  | doubleQuoted =>
      rw [toList_scalarLine_of_ne_literal _ (by simp [chosen]), chosen, List.append_assoc]
      exact readMarked_quoted ':' _ (.inr rfl) (column + 2) (by decide) rest
  | plain =>
      have plain := isPlain_of_style chosen
      obtain ⟨c, cs, whole, open_, -⟩ := plain.exists_cons
      obtain ⟨-, not_single, not_double⟩ := ne_of_not_mem_indicators open_
      have line : '\n' ∉ s.toList := fun member => absurd (plain.line _ member) (by decide)
      have passed := scanKey_append plain.inside line ('\n' :: rest)
      rw [toList_scalarLine_of_ne_literal _ (by simp [chosen]), chosen, styledChars,
        List.append_assoc, List.singleton_append]
      rw [whole] at passed ⊢
      rw [List.cons_append, readKey_bare not_single not_double, ← List.cons_append, passed, scanKey]
      simp

end SchemaPress.Yaml
