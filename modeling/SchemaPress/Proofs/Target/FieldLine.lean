import SchemaPress.Proofs.Target.PassThrough
import SchemaPress.Proofs.Target.WireName
import SchemaPress.Proofs.Yaml.Shift

/-!
# The fields of a record read line by line

Below the line that opens a record, a language writes for each field its doc, an attribute if there
is one, and a line with the key and the type. A reader of these lines skips what is blank, a comment
or an attribute, and stops at the closing brace. From the line of a field it takes the key and
whether the field may be absent: each language has a sign of its own for that, at the end of the
type, behind the key, or around the type.

What is written for a field is read as an entry for it (`Target.WritesField`), and so are the fields
of a record, one after the other (`Target.readFieldLines_flatten`).
-/

set_option autoImplicit false

namespace SchemaPress

open Text (Word isWordChar split unlines)

/-! ## Entries -/

/-- A field of a record as it is read from a text. -/
structure FieldEntry where
  key : String
  /-- Whether the field may be absent. -/
  absentable : Bool
  /-- Whether the type names the undefined value beside another type. -/
  undefinable : Bool
  /-- Whether the line above says that the field is left out if it is absent. -/
  skippable : Bool
deriving DecidableEq, Repr

/-- Whether a target leaves out a field that is absent. -/
def Backend.skipsAbsent : Backend → Bool
  | .rust o => o.serde
  | _ => false

/-- What a text says about a field. -/
def Backend.fieldEntry (b : Backend) (f : Field) : FieldEntry where
  key := (b.lexicon.identifier .field f.name).text
  absentable := f.type.isOptional
  undefinable := false
  skippable := b.skipsAbsent && f.type.isOptional

/-- A character of the name of a type: one of a key, a dot or a colon. -/
def isTypeChar (c : Char) : Bool :=
  isKeyChar c || c == '.' || c == ':'

/-- The leaf of a type is written as a name. -/
def Lexicon.Names (l : Lexicon) (type : TypeRef) : Prop :=
  ∀ c ∈ (l.token type).text.toList, isTypeChar c = true

instance (l : Lexicon) (type : TypeRef) : Decidable (l.Names type) :=
  decidable_of_iff ((l.token type).text.toList.all isTypeChar = true) List.all_eq_true

theorem Lexicon.Names.not_mem {l : Lexicon} {type : TypeRef} (names : l.Names type) {c : Char}
    (other : isTypeChar c = false) : c ∉ (l.token type).text.toList := by
  intro inside
  rw [names c inside] at other
  cases other

theorem Lexicon.Names.presentType {l : Lexicon} {type : TypeRef} (names : l.Names type) :
    l.Names (OpenApi.presentType type) := by
  cases type with
  | primitive name => exact names
  | named name => exact names
  | sequence inner => exact names
  | optional inner => exact names

/-! ## The reader -/

namespace Text

/-- A line without its indentation. -/
def content (line : List Char) : List Char :=
  line.dropWhile (· == ' ')

/-- A text without what it begins with, if it does. -/
def dropFront (front cs : List Char) : List Char :=
  if front.isPrefixOf cs then cs.drop front.length else cs

/-- A line that is blank, a comment or an attribute. -/
def isAside (line : List Char) : Bool :=
  (content line).head?.all ['/', '*', '#'].contains

end Text

open Text (content dropFront isAside)

/-- The attribute of a field that is left out if it is absent. -/
def Rust.skipAttribute : List Char :=
  '#' :: "[serde(default, skip_serializing_if = \"Option::is_none\")]".toList

namespace Target

/-- What may stand in front of the key of a field. -/
def lead : Target → List Char
  | .swift => "var ".toList
  | .rust => "pub ".toList
  | .typeScript => []
  | .openApi => []

/-- Whether a field may be absent, from what follows its key and the colon, and from whether there
is a question mark between the two. -/
def saysAbsentable (marked : Bool) (type : List Char) : Target → Bool
  | .swift => ['?'].isSuffixOf type
  | .typeScript => marked
  | .rust => "Option<".toList.isPrefixOf type && ['>', ','].isSuffixOf type
  | .openApi => false

variable (t : Target)

/-- The field of a line below another one. -/
def readFieldLine (above line : List Char) : Option FieldEntry :=
  let named := dropFront t.lead (content line)
  let after := named.dropWhile isKeyChar
  let typed := dropFront ['?'] after
  let type := typed.drop 2
  if [':', ' '].isPrefixOf typed then
    some
      { key := String.ofList (named.takeWhile isKeyChar)
        absentable := t.saysAbsentable (['?'].isPrefixOf after) type
        undefinable := " | undefined".toList.isSuffixOf type
        skippable := content above == Rust.skipAttribute }
  else none

/-- The fields of lines below another one, up to the line with the closing brace. -/
def readFieldLines : List Char → List (List Char) → Option (List FieldEntry)
  | _, [] => none
  | above, line :: rest =>
      if line.head? = some '\x7d' then some []
      else if isAside line then readFieldLines line rest
      else do
        let entry ← t.readFieldLine above line
        let entries ← readFieldLines line rest
        some (entry :: entries)

end Target

/-! ## Lines with an indentation -/

namespace Text

theorem content_indented (n : Nat) {c : Char} (solid : c ≠ ' ') (cs : List Char) :
    content (List.replicate n ' ' ++ c :: cs) = c :: cs := by
  have blanks : ∀ d ∈ List.replicate n ' ', (d == ' ') = true := by
    intro d inside
    rw [List.eq_of_mem_replicate inside]
    rfl
  exact (takeWhile_dropWhile_run blanks (stop_cons (· == ' ') (beq_false_of_ne solid) cs)).2

theorem head?_indented_ne (n : Nat) {c d : Char} (other : c ≠ d) (blank : d ≠ ' ')
    (cs : List Char) : (List.replicate n ' ' ++ c :: cs).head? ≠ some d := by
  cases n with
  | zero => exact fun same => other (Option.some.inj same)
  | succ n => exact fun same => blank (Option.some.inj same).symm

theorem isAside_indented (n : Nat) {c : Char} (solid : c ≠ ' ') (cs : List Char) :
    isAside (List.replicate n ' ' ++ c :: cs) = ['/', '*', '#'].contains c := by
  unfold isAside
  rw [content_indented n solid]
  rfl

theorem dropFront_append (front cs : List Char) : dropFront front (front ++ cs) = cs := by
  unfold dropFront
  rw [if_pos (List.isPrefixOf_iff_prefix.mpr ⟨cs, rfl⟩), List.drop_left]

theorem dropFront_of_not_prefix {front cs : List Char} (other : ¬ front <+: cs) :
    dropFront front cs = cs := by
  unfold dropFront
  rw [if_neg (mt List.isPrefixOf_iff_prefix.mp other)]

/-- A comment is a line with a slash or a star behind its indentation. -/
def IsComment (line : List Char) : Prop :=
  ∃ n c cs, line = List.replicate n ' ' ++ c :: cs ∧ (c = '/' ∨ c = '*') ∧ '\n' ∉ line

end Text

namespace Target

open Text

variable {t : Target}

/-- A comment or an attribute is skipped. -/
theorem readFieldLines_aside {n : Nat} {c : Char} {cs : List Char} (sign : c ∈ ['/', '*', '#'])
    (above : List Char) (rest : List (List Char)) :
    t.readFieldLines above ((List.replicate n ' ' ++ c :: cs) :: rest) =
      t.readFieldLines (List.replicate n ' ' ++ c :: cs) rest := by
  have solid : c ≠ ' ' := by
    rintro rfl
    simp at sign
  have inside : c ≠ '\x7d' := by
    rintro rfl
    simp at sign
  rw [readFieldLines, if_neg (head?_indented_ne n inside (by decide) cs), isAside_indented n solid,
    if_pos (List.contains_iff_mem.mpr sign)]

/-- A line that does not begin with a sharp sign is no attribute. -/
theorem content_ne_skipAttribute (n : Nat) {c : Char} (solid : c ≠ ' ') (unsharp : c ≠ '#')
    (cs : List Char) : content (List.replicate n ' ' ++ c :: cs) ≠ Rust.skipAttribute := by
  rw [content_indented n solid]
  intro same
  exact unsharp (List.cons.inj same).1

/-- Comments are skipped, and the last of them is no attribute. -/
theorem readFieldLines_comments {comments : List (List Char)}
    (remarks : ∀ line ∈ comments, IsComment line) {above : List Char}
    (plain : content above ≠ Rust.skipAttribute) (rest : List (List Char)) :
    ∃ last, content last ≠ Rust.skipAttribute ∧
      t.readFieldLines above (comments ++ rest) = t.readFieldLines last rest := by
  induction comments generalizing above with
  | nil => exact ⟨above, plain, rfl⟩
  | cons line comments ih =>
      rw [List.forall_mem_cons] at remarks
      obtain ⟨⟨n, c, cs, rfl, sign, -⟩, others⟩ := remarks
      have solid : c ≠ ' ' ∧ c ≠ '#' := by
        rcases sign with rfl | rfl <;> decide
      have comment := content_ne_skipAttribute n solid.1 solid.2 cs
      obtain ⟨last, ordinary, read⟩ := ih others comment
      refine ⟨last, ordinary, ?_⟩
      rw [List.cons_append, readFieldLines_aside _ above, read]
      rcases sign with rfl | rfl
      · exact List.mem_cons_self
      · exact List.mem_cons_of_mem _ List.mem_cons_self

/-- The line of a field gives its entry. -/
theorem readFieldLines_field {n : Nat} {c : Char} {cs above : List Char} {entry : FieldEntry}
    (code : c ∉ [' ', '/', '*', '#', '\x7d'])
    (read : t.readFieldLine above (List.replicate n ' ' ++ c :: cs) = some entry)
    (rest : List (List Char)) :
    t.readFieldLines above ((List.replicate n ' ' ++ c :: cs) :: rest) =
      (t.readFieldLines (List.replicate n ' ' ++ c :: cs) rest).map (entry :: ·) := by
  simp only [List.mem_cons, List.not_mem_nil, or_false, not_or] at code
  obtain ⟨solid, slash, star, sharp, brace⟩ := code
  have part : isAside (List.replicate n ' ' ++ c :: cs) = false := by
    rw [isAside_indented n solid]
    simp [slash, star, sharp]
  rw [readFieldLines, if_neg (head?_indented_ne n brace (by decide) cs), part, read]
  cases t.readFieldLines (List.replicate n ' ' ++ c :: cs) rest <;> rfl

/-! ## The line of a field -/

/-- A key of a field: it ends where its characters do, and begins no attribute. -/
structure IsKey (key : List Char) : Prop where
  solid : ∀ c ∈ key, isKeyChar c = true
  begins : ∃ c cs, key = c :: cs ∧ c ≠ '#'

/-- What stands in front of a key is not taken for a part of it. -/
theorem dropFront_lead {front key : List Char} (given : front = t.lead ∨ front = [])
    (solid : ∀ c ∈ key, isKeyChar c = true) {c : Char} (stop : isKeyChar c = false)
    (tight : c ≠ ' ') (rest : List Char) :
    dropFront t.lead (front ++ (key ++ c :: rest)) = key ++ c :: rest := by
  -- A word and a blank do not begin a key that is not followed by a blank.
  have apart : ∀ word : List Char, word.all isKeyChar = true →
      ¬ word ++ [' '] <+: key ++ c :: rest := by
    rintro word letters ⟨more, same⟩
    rw [List.append_assoc, List.singleton_append] at same
    have blank := stop_cons isKeyChar (c := ' ') (by decide) more
    have left := (takeWhile_dropWhile_run (List.all_eq_true.mp letters) blank).2
    have right := (takeWhile_dropWhile_run solid (stop_cons isKeyChar stop rest)).2
    rw [same, right] at left
    exact tight (List.cons.inj left).1
  rcases given with rfl | rfl
  · exact dropFront_append _ _
  · rw [List.nil_append]
    cases t with
    | swift => exact dropFront_of_not_prefix (apart ['v', 'a', 'r'] (by decide))
    | rust => exact dropFront_of_not_prefix (apart ['p', 'u', 'b'] (by decide))
    | typeScript => rfl
    | openApi => rfl

/-- The line of a field without its indentation: what stands in front of the key, the key, and
behind a colon the type. -/
def fieldContent (front key : List Char) (marked : Bool) (type : List Char) : List Char :=
  front ++ (key ++ bif marked then '?' :: ':' :: ' ' :: type else ':' :: ' ' :: type)

/-- The line of a field. -/
def fieldLine (front key : List Char) (marked : Bool) (type : List Char) : List Char :=
  List.replicate 4 ' ' ++ fieldContent front key marked type

section FieldLine

variable {front key : List Char} (given : front = t.lead ∨ front = []) (isKey : IsKey key)
include given isKey

/-- The line of a field begins as no other line does. -/
theorem exists_fieldContent_eq (marked : Bool) (type : List Char) :
    ∃ c cs, fieldContent front key marked type = c :: cs ∧
      c ∉ [' ', '/', '*', '#', '\x7d'] := by
  obtain ⟨solid, c, cs, rfl, unsharp⟩ := isKey
  have keyed : isKeyChar c = true := solid c List.mem_cons_self
  have bare : c ∉ [' ', '/', '*', '#', '\x7d'] := by
    simp only [List.mem_cons, List.not_mem_nil, or_false]
    rintro (rfl | rfl | rfl | rfl | rfl)
    · cases keyed
    · cases keyed
    · cases keyed
    · exact unsharp rfl
    · cases keyed
  rcases given with rfl | rfl
  · cases t with
    | swift => exact ⟨'v', _, rfl, by decide⟩
    | rust => exact ⟨'p', _, rfl, by decide⟩
    | typeScript => exact ⟨c, _, rfl, bare⟩
    | openApi => exact ⟨c, _, rfl, bare⟩
  · exact ⟨c, _, rfl, bare⟩

theorem no_break_fieldLine (marked : Bool) {type : List Char} (unbroken : '\n' ∉ type) :
    '\n' ∉ fieldLine front key marked type := by
  have keyFree : '\n' ∉ key := fun inside => absurd (isKey.solid _ inside) (by decide)
  have frontFree : '\n' ∉ front := by
    rcases given with rfl | rfl
    · cases t <;> decide
    · exact List.not_mem_nil
  unfold fieldLine fieldContent
  cases marked <;> simp [keyFree, frontFree, unbroken]

/-- The line of a field is read as its key and the signs of its type. -/
theorem readFieldLine_fieldLine (marked : Bool) (type above : List Char) :
    t.readFieldLine above (fieldLine front key marked type) =
      some
        { key := String.ofList key
          absentable := t.saysAbsentable marked type
          undefinable := " | undefined".toList.isSuffixOf type
          skippable := content above == Rust.skipAttribute } := by
  obtain ⟨c, cs, whole, code⟩ := exists_fieldContent_eq given isKey marked type
  have inner : content (fieldLine front key marked type) = fieldContent front key marked type := by
    unfold fieldLine
    rw [whole]
    exact content_indented 4 (fun blank => code (blank ▸ List.mem_cons_self)) cs
  dsimp only [readFieldLine]
  rw [inner, fieldContent]
  cases marked with
  | true =>
      have parts := takeWhile_dropWhile_run isKey.solid
        (stop_cons isKeyChar (c := '?') (by decide) (':' :: ' ' :: type))
      rw [cond_true, dropFront_lead given isKey.solid (by decide) (by decide), parts.1, parts.2]
      rfl
  | false =>
      have parts := takeWhile_dropWhile_run isKey.solid
        (stop_cons isKeyChar (c := ':') (by decide) (' ' :: type))
      rw [cond_false, dropFront_lead given isKey.solid (by decide) (by decide), parts.1, parts.2]
      rfl

end FieldLine

/-! ## Fields one after the other -/

/-- A text gives an entry for a field: whatever stands below it, the reader finds the entry first,
and goes on below a line that is no attribute. -/
def WritesField (t : Target) (cs : List Char) (entry : FieldEntry) : Prop :=
  ∃ lines, cs = unlines lines ∧ (∀ line ∈ lines, '\n' ∉ line) ∧
    ∀ above rest, content above ≠ Rust.skipAttribute →
      ∃ last, content last ≠ Rust.skipAttribute ∧
        t.readFieldLines above (lines ++ rest) = (t.readFieldLines last rest).map (entry :: ·)

/-- The line of an attribute. -/
def attributeLine : List Char :=
  List.replicate 4 ' ' ++ Rust.skipAttribute

theorem content_attributeLine : content attributeLine = Rust.skipAttribute :=
  content_indented 4 (by decide) _

theorem no_break_attributeLine : '\n' ∉ attributeLine := by decide

/-- Comments, an attribute or none, and the line of a field give an entry for it. -/
theorem WritesField.of_lines {comments : List (List Char)}
    (remarks : ∀ line ∈ comments, IsComment line) (attributed : Bool) {front key : List Char}
    (given : front = t.lead ∨ front = []) (isKey : IsKey key) (marked : Bool) {type : List Char}
    (unbroken : '\n' ∉ type) :
    t.WritesField
      (unlines (comments ++ (bif attributed then [attributeLine] else [])
        ++ [fieldLine front key marked type]))
      { key := String.ofList key
        absentable := t.saysAbsentable marked type
        undefinable := " | undefined".toList.isSuffixOf type
        skippable := attributed } := by
  obtain ⟨c, cs, whole, code⟩ := exists_fieldContent_eq given isKey marked type
  have line : fieldLine front key marked type = List.replicate 4 ' ' ++ c :: cs := by
    rw [fieldLine, whole]
  have ordinary : content (fieldLine front key marked type) ≠ Rust.skipAttribute := by
    simp only [List.mem_cons, List.not_mem_nil, or_false, not_or] at code
    obtain ⟨solid, -, -, unsharp, -⟩ := code
    rw [line]
    exact content_ne_skipAttribute 4 solid unsharp cs
  refine ⟨_, rfl, ?_, ?_⟩
  · intro any member
    rw [List.mem_append, List.mem_append, List.mem_singleton] at member
    rcases member with (comment | marking) | rfl
    · obtain ⟨-, -, -, -, -, free⟩ := remarks any comment
      exact free
    · cases attributed with
      | false => cases marking
      | true =>
          rw [List.mem_singleton.mp marking]
          exact no_break_attributeLine
    · exact no_break_fieldLine given isKey marked unbroken
  · intro above rest plain
    refine ⟨_, ordinary, ?_⟩
    rw [List.append_assoc, List.append_assoc]
    obtain ⟨last, unmarked, skipped⟩ := readFieldLines_comments remarks plain
      ((bif attributed then [attributeLine] else [])
        ++ ([fieldLine front key marked type] ++ rest))
    rw [skipped]
    -- Right above the field stands the attribute, or else a line that is none.
    cases attributed with
    | false =>
        have read := readFieldLine_fieldLine given isKey marked type last
        rw [beq_false_of_ne unmarked, line] at read
        rw [cond_false, List.nil_append, List.singleton_append, line]
        exact readFieldLines_field code read rest
    | true =>
        have read := readFieldLine_fieldLine given isKey marked type attributeLine
        rw [content_attributeLine, beq_self_eq_true, line] at read
        rw [cond_true, List.singleton_append, List.singleton_append, line, attributeLine,
          Rust.skipAttribute, readFieldLines_aside (by decide)]
        exact readFieldLines_field code read rest

/-- The entries of fields are read one after the other, up to the closing brace. -/
theorem readFieldLines_flatten {texts : List (List Char)} {entries : List FieldEntry}
    (written : List.Forall₂ t.WritesField texts entries) :
    ∃ lines, texts.flatten = unlines lines ∧ (∀ line ∈ lines, '\n' ∉ line) ∧
      ∀ above brace rest, content above ≠ Rust.skipAttribute →
        t.readFieldLines above (lines ++ ('\x7d' :: brace) :: rest) = some entries := by
  induction written with
  | nil => exact ⟨[], rfl, fun _ member => absurd member List.not_mem_nil, fun _ _ _ _ => rfl⟩
  | cons first _ ih =>
      obtain ⟨upper, rfl, cleanUpper, read⟩ := first
      obtain ⟨lower, whole, cleanLower, readLower⟩ := ih
      refine ⟨upper ++ lower, ?_, ?_, ?_⟩
      · rw [List.flatten_cons, whole, unlines_append]
      · intro line member
        exact (List.mem_append.mp member).elim (cleanUpper line) (cleanLower line)
      · intro above brace rest plain
        obtain ⟨last, ordinary, next⟩ := read above (lower ++ ('\x7d' :: brace) :: rest) plain
        rw [List.append_assoc, next, readLower last brace rest ordinary]
        rfl

end Target

end SchemaPress
