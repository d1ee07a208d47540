import SchemaPress.Proofs.Schema.Comment
import SchemaPress.Proofs.Schema.Soundness
import SchemaPress.Proofs.Target.RecordObject

/-!
# The fields of a record in all targets

The text of a record in a language is an opening, which ends with a brace, and a body: the text of
each field, and the closing brace. The text of a field is its doc, which is made of comments, and
the line that is read as its entry. The keys end where their characters do, since names are words
and escaping adds only characters of keys. The types have the sign of an optional at the outermost
level exactly if they are optional, since the name of a leaf has none of the signs.

So the fields of a record are read back from its text in each target, and all targets agree on
which of them may be absent (`Backend.fields_read_back`).
-/

set_option autoImplicit false

namespace SchemaPress

open Text (Word isWordChar split unlines unlines_append IsComment)

/-! ## Docs are comments -/

namespace Doc

/-- A text is made of comments, each on a line of its own. -/
def HasComments (cs : List Char) : Prop :=
  ∃ comments, cs = unlines comments ∧ ∀ line ∈ comments, IsComment line

theorem hasComments_nil : HasComments [] :=
  ⟨[], rfl, fun _ member => absurd member List.not_mem_nil⟩

theorem HasComments.append {upper lower : List Char} (first : HasComments upper)
    (second : HasComments lower) : HasComments (upper ++ lower) := by
  obtain ⟨above, rfl, comments⟩ := first
  obtain ⟨below, rfl, others⟩ := second
  refine ⟨above ++ below, (unlines_append above below).symm, ?_⟩
  intro line member
  exact (List.mem_append.mp member).elim (comments line) (others line)

theorem hasComments_line {n : Nat} {c : Char} {cs : List Char} (sign : c = '/' ∨ c = '*')
    (free : '\n' ∉ cs) : HasComments (List.replicate n ' ' ++ c :: cs ++ ['\n']) := by
  have clean : '\n' ∉ List.replicate n ' ' ++ c :: cs := by
    rcases sign with rfl | rfl <;> simpa using free
  refine ⟨[List.replicate n ' ' ++ c :: cs], (List.append_nil _).symm, ?_⟩
  rw [List.forall_mem_singleton]
  exact ⟨n, c, cs, rfl, sign, clean⟩

/-- Lines with a marker are comments. -/
theorem hasComments_marked {indent marker : String} {n : Nat} {c : Char} {tail : List Char}
    (front : (indent ++ marker).toList = List.replicate n ' ' ++ c :: tail)
    (sign : c = '/' ∨ c = '*') (free : '\n' ∉ tail) {lines : List String}
    (unbroken : ∀ line ∈ lines, '\n' ∉ line.toList) :
    HasComments (String.join (lines.map (markedLine indent marker))).toList := by
  induction lines with
  | nil => exact hasComments_nil
  | cons line lines ih =>
      rw [List.forall_mem_cons] at unbroken
      have clean : '\n' ∉ tail ++ (if line.isEmpty then "" else " " ++ line).toList := by
        split
        · simpa using free
        · simpa using ⟨free, unbroken.1⟩
      have text : ∀ lower : List Char,
          List.replicate n ' ' ++ c :: tail ++ (if line.isEmpty then "" else " " ++ line).toList
              ++ '\n' :: lower =
            List.replicate n ' '
              ++ c :: (tail ++ (if line.isEmpty then "" else " " ++ line).toList)
              ++ ['\n'] ++ lower := by
        intro lower
        simp only [List.append_assoc, List.cons_append, List.nil_append]
      rw [toList_join_markedLine, markedChars, front, text]
      exact (hasComments_line sign clean).append (ih unbroken.2)

theorem mem_of_mem_guardBlock {c : Char} {cs : List Char} (member : c ∈ guardBlock cs) :
    c = '\\' ∨ c ∈ cs := by
  fun_induction guardBlock cs with
  | case1 => cases member
  | case2 cs ih => 
      simp only [List.mem_cons] at member ⊢
      tauto
  | case3 d cs _ ih =>
      simp only [List.mem_cons] at member ⊢
      tauto

theorem no_break_blockText {line : String} (unbroken : '\n' ∉ line.toList) :
    '\n' ∉ (blockText line).toList := by
  unfold blockText
  rw [String.toList_ofList]
  intro member
  rcases mem_of_mem_guardBlock member with other | inside
  · cases other
  · exact unbroken inside

/-- A block comment is made of comments. -/
theorem hasComments_block (d : Doc) {indent : String} {n : Nat}
    (spaces : indent.toList = List.replicate n ' ') : HasComments (d.block indent).toList := by
  obtain ⟨lines, unbroken⟩ := d
  unfold block
  match lines with
  | [] => exact hasComments_nil
  | [line] =>
      have clean := no_break_blockText (unbroken line List.mem_cons_self)
      have text : (indent ++ "/** " ++ blockText line ++ " */\n").toList =
          List.replicate n ' ' ++ '/' :: ("** ".toList ++ ((blockText line).toList ++ " */".toList))
            ++ ['\n'] := by
        simp [spaces]
      rw [text]
      exact hasComments_line (.inl rfl) (by simpa using clean)
  | first :: second :: rest =>
      have guarded : ∀ line ∈ (first :: second :: rest).map blockText, '\n' ∉ line.toList := by
        rw [List.forall_mem_map]
        exact fun line member => no_break_blockText (unbroken line member)
      have star : (indent ++ " *").toList = List.replicate (n + 1) ' ' ++ '*' :: [] := by
        rw [String.toList_append, spaces, List.replicate_succ', List.append_assoc]
        rfl
      have middle := hasComments_marked star (.inr rfl) List.not_mem_nil guarded
      rw [List.map_map] at middle
      have text : (indent ++ "/**\n" ++ String.join ((first :: second :: rest).map
            fun line => markedLine indent " *" (blockText line)) ++ indent ++ " */\n").toList =
          List.replicate n ' ' ++ '/' :: ['*', '*'] ++ ['\n']
            ++ (String.join ((first :: second :: rest).map
              (markedLine indent " *" ∘ blockText))).toList
            ++ (List.replicate (n + 1) ' ' ++ '*' :: ['/'] ++ ['\n']) := by
        simp [spaces, List.replicate_succ', Function.comp_def]
      rw [text]
      exact ((hasComments_line (.inl rfl) (by decide)).append middle).append
        (hasComments_line (.inr rfl) (by decide))

end Doc

/-! ## Signs of a type -/

namespace Text

theorem isSuffixOf_eq_false_of_not_mem {c : Char} {back cs : List Char} (own : c ∈ back)
    (free : c ∉ cs) : back.isSuffixOf cs = false := by
  rw [← Bool.not_eq_true, List.isSuffixOf_iff_suffix]
  exact fun ends => free (ends.subset own)

theorem isSuffixOf_concat_eq_false {c d : Char} (other : c ≠ d) (back cs : List Char) :
    (back ++ [c]).isSuffixOf (cs ++ [d]) = false := by
  rw [← Bool.not_eq_true, List.isSuffixOf_iff_suffix]
  rintro ⟨more, same⟩
  rw [← List.append_assoc] at same
  obtain ⟨-, last⟩ := List.append_inj' same rfl
  exact other (List.cons.inj last).1

end Text

open Text (isSuffixOf_eq_false_of_not_mem isSuffixOf_concat_eq_false)

/-- Each layer of a type puts some of the characters `signs` before and after what is inside. -/
def Layer.Add (signs : List Char) (wrap : List Layer → String) : Prop :=
  ∀ layer layers, ∃ before after : String, wrap (layer :: layers) = before ++ wrap layers ++ after ∧
    before.toList ⊆ signs ∧ after.toList ⊆ signs

/-- Layers add no characters to a token but their signs. -/
theorem Layer.Add.not_mem {signs : List Char} {wrap : List Layer → String}
    (add : Layer.Add signs wrap) {c : Char} (free : c ∉ (wrap []).toList) (other : c ∉ signs)
    (layers : List Layer) : c ∉ (wrap layers).toList := by
  induction layers with
  | nil => exact free
  | cons layer layers ih =>
      obtain ⟨before, after, text, left, right⟩ := add layer layers
      rw [text, String.toList_append, String.toList_append, List.mem_append, List.mem_append]
      rintro ((inBefore | inside) | inAfter)
      · exact other (left inBefore)
      · exact ih inside
      · exact other (right inAfter)

theorem Swift.add_surround (token : String) :
    Layer.Add ['[', ']', '?'] (Swift.surround token) := by
  intro layer layers
  cases layer with
  | optional => exact ⟨"", "?", by simp [surround], by simp, by simp⟩
  | sequence => exact ⟨"[", "]", rfl, by simp, by simp⟩

theorem Rust.add_surround (token : String) :
    Layer.Add "Option<Vec>".toList (Rust.surround token) := by
  intro layer layers
  cases layer with
  | optional => exact ⟨"Option<", ">", rfl, by decide, by decide⟩
  | sequence => exact ⟨"Vec<", ">", rfl, by decide, by decide⟩

theorem TypeScript.add_surround (token : String) :
    Layer.Add "()[] | undefined".toList (TypeScript.surround token) := by
  intro layer layers
  rcases layer with _ | _
  · exact ⟨"", " | undefined", by simp [surround], by decide, by decide⟩
  · rcases layers with _ | ⟨_ | _, layers⟩
    · exact ⟨"", "[]", by simp [surround], by decide, by decide⟩
    · exact ⟨"(", ")[]", rfl, by decide, by decide⟩
    · exact ⟨"", "[]", by simp [surround], by decide, by decide⟩

/-- A type in Swift ends with a question mark exactly if it is optional. -/
theorem Swift.saysAbsentable_typeText {o : SwiftOptions} {type : TypeRef}
    (names : (lexicon o).Names type) :
    ['?'].isSuffixOf (typeText o type).text.toList = type.isOptional := by
  cases type with
  | primitive name => exact isSuffixOf_eq_false_of_not_mem List.mem_cons_self (names.not_mem rfl)
  | named name => exact isSuffixOf_eq_false_of_not_mem List.mem_cons_self (names.not_mem rfl)
  | optional inner =>
      change ['?'].isSuffixOf ((typeText o inner).text ++ "?").toList = true
      rw [List.isSuffixOf_iff_suffix, String.toList_append]
      exact List.suffix_append _ _
  | sequence inner =>
      change ['?'].isSuffixOf ("[" ++ (typeText o inner).text ++ "]").toList = false
      rw [String.toList_append]
      exact isSuffixOf_concat_eq_false (by decide) [] _

/-- A type in Rust stands in an option exactly if it is optional. -/
theorem Rust.saysAbsentable_typeText {o : RustOptions} {type : TypeRef}
    (names : (lexicon o).Names type) (marked : Bool) :
    Target.rust.saysAbsentable marked ((typeText o type).text ++ ",").toList =
      type.isOptional := by
  have bare : ∀ token : String, '<' ∉ token.toList →
      Target.rust.saysAbsentable marked (token ++ ",").toList = false := by
    intro token free
    have absent : '<' ∉ (token ++ ",").toList := by simpa using free
    have front : "Option<".toList.isPrefixOf (token ++ ",").toList = false := by
      rw [← Bool.not_eq_true, List.isPrefixOf_iff_prefix]
      exact fun begins => absent (begins.subset (by decide))
    unfold Target.saysAbsentable
    rw [front, Bool.false_and]
  cases type with
  | primitive name => exact bare _ (names.not_mem rfl)
  | named name => exact bare _ (names.not_mem rfl)
  | optional inner =>
      have text : ("Option<" ++ (typeText o inner).text ++ ">" ++ ",").toList =
          "Option<".toList ++ ((typeText o inner).text.toList ++ ['>', ',']) := by
        simp
      change Target.rust.saysAbsentable marked
        ("Option<" ++ (typeText o inner).text ++ ">" ++ ",").toList = true
      rw [text]
      unfold Target.saysAbsentable
      rw [Bool.and_eq_true, List.isPrefixOf_iff_prefix, List.isSuffixOf_iff_suffix]
      refine ⟨List.prefix_append _ _, ?_⟩
      rw [← List.append_assoc]
      exact List.suffix_append _ _
  | sequence inner =>
      have text : ("Vec<" ++ (typeText o inner).text ++ ">" ++ ",").toList =
          'V' :: ("ec<".toList ++ ((typeText o inner).text.toList ++ ['>', ','])) := by
        simp
      change Target.rust.saysAbsentable marked
        ("Vec<" ++ (typeText o inner).text ++ ">" ++ ",").toList = false
      rw [text]
      rfl

/-- A type in TypeScript that is not optional does not name the undefined value at its end. -/
theorem TypeScript.undefinable_typeText {o : TypeScriptOptions} {type : TypeRef}
    (names : (lexicon o).Names type) (present : type.isOptional = false) :
    " | undefined".toList.isSuffixOf (typeText o type).text.toList = false := by
  cases type with
  | primitive name => exact isSuffixOf_eq_false_of_not_mem List.mem_cons_self (names.not_mem rfl)
  | named name => exact isSuffixOf_eq_false_of_not_mem List.mem_cons_self (names.not_mem rfl)
  | optional inner => cases present
  | sequence inner =>
      have text : ∃ cs, (typeText o inner.sequence).text.toList = cs ++ [']'] := by
        unfold typeText
        split
        · exact ⟨'(' :: ((typeText o inner).text.toList ++ [')', '[']), by simp⟩
        · exact ⟨(typeText o inner).text.toList ++ ['['], by simp⟩
      obtain ⟨cs, ends⟩ := text
      rw [ends]
      exact isSuffixOf_concat_eq_false (by decide) " | undefine".toList cs

/-! ## Keys -/

open Target (IsKey)

theorem isKey_of_word {name : String} (word : Word name) : IsKey name.toList := by
  refine ⟨List.all_eq_true.mp (all_isKeyChar_of_word word), ?_⟩
  have filled : name.toList ≠ [] := mt String.toList_eq_nil_iff.mp word.1
  obtain ⟨c, cs, letters⟩ := List.exists_cons_of_ne_nil filled
  refine ⟨c, cs, letters, ?_⟩
  rintro rfl
  exact not_mem_of_word word (c := '#') rfl (letters ▸ List.mem_cons_self)

/-- A word between two marks is a key. -/
theorem isKey_quoted {name mark : String} (word : Word name) {c : Char} (single : mark.toList = [c])
    (key : isKeyChar c = true) (unsharp : c ≠ '#') : IsKey (mark ++ name ++ mark).toList := by
  have whole : (mark ++ name ++ mark).toList = c :: (name.toList ++ [c]) := by
    simp [single]
  rw [whole]
  refine ⟨?_, c, _, rfl, unsharp⟩
  intro d inside
  rw [List.mem_cons, List.mem_append, List.mem_singleton] at inside
  rcases inside with rfl | own | rfl
  · exact key
  · exact (isKey_of_word word).solid d own
  · exact key

/-- The identifier of a field is a key if escaping the name gives one. -/
theorem Lexicon.isKey_identifier {l : Lexicon} {name : String} (word : Word name)
    (escaped : IsKey (l.escapeReserved .field name).toList) :
    IsKey (l.identifier .field name).text.toList := by
  unfold Lexicon.identifier Lexicon.escape
  split
  · exact isKey_of_word word
  · split
    · exact escaped
    · exact isKey_of_word word

theorem Swift.isKey_identifier (o : SwiftOptions) {name : String} (word : Word name) :
    IsKey ((lexicon o).identifier .field name).text.toList :=
  Lexicon.isKey_identifier word (isKey_quoted word (c := '\x60') rfl (by decide) (by decide))

theorem TypeScript.isKey_identifier (o : TypeScriptOptions) {name : String} (word : Word name) :
    IsKey ((lexicon o).identifier .field name).text.toList :=
  Lexicon.isKey_identifier word (isKey_quoted word (c := '"') rfl (by decide) (by decide))

theorem Rust.isKey_identifier (o : RustOptions) {name : String} (word : Word name) :
    IsKey ((lexicon o).identifier .field name).text.toList := by
  obtain ⟨solid, c, cs, letters, unsharp⟩ := isKey_of_word word
  apply Lexicon.isKey_identifier word
  rcases escapeReserved_cases o .field name with ⟨-, under⟩ | ⟨-, raw⟩
  · rw [under, String.toList_append]
    refine ⟨?_, c, cs ++ ['_'], by rw [letters]; rfl, unsharp⟩
    intro d inside
    rcases List.mem_append.mp inside with own | last
    · exact solid d own
    · rw [List.mem_singleton.mp last]
      rfl
  · rw [raw, String.toList_append]
    refine ⟨?_, 'r', '#' :: name.toList, rfl, by decide⟩
    intro d inside
    rcases List.mem_append.mp inside with front | own
    · exact List.all_eq_true.mp (by decide : "r#".toList.all isKeyChar = true) d front
    · exact solid d own

/-! ## Fields -/

open Doc (HasComments hasComments_marked hasComments_block)
open Target (WritesField fieldContent fieldLine attributeLine)

/-- A doc, an attribute or none, and the line of a field give an entry for it. -/
theorem WritesField.of_text {t : Target} {docs front key type cs : List Char}
    {attributed marked : Bool} {entry : FieldEntry} (comments : HasComments docs)
    (given : front = t.lead ∨ front = []) (isKey : IsKey key) (unbroken : '\n' ∉ type)
    (text : cs = docs ++ ((bif attributed then attributeLine ++ ['\n'] else [])
      ++ (fieldLine front key marked type ++ ['\n'])))
    (named : entry.key = String.ofList key)
    (absentable : entry.absentable = t.saysAbsentable marked type)
    (undefinable : entry.undefinable = " | undefined".toList.isSuffixOf type)
    (skippable : entry.skippable = attributed) : t.WritesField cs entry := by
  obtain ⟨lines, rfl, remarks⟩ := comments
  have written := WritesField.of_lines remarks attributed given isKey marked unbroken
  have whole : cs = unlines (lines ++ (bif attributed then [attributeLine] else [])
      ++ [fieldLine front key marked type]) := by
    rw [text, unlines_append, unlines_append, List.append_assoc]
    cases attributed <;> simp [unlines]
  rw [whole]
  obtain ⟨⟩ := entry
  cases named
  cases absentable
  cases undefinable
  cases skippable
  exact written

theorem hasComments_slashes (d : Doc) :
    HasComments (d.marked (Text.times 1 "    ") "///").toList :=
  hasComments_marked (n := 4) (c := '/') rfl (.inl rfl) (by decide) d.unbroken

theorem Swift.writesField_fieldText (o : SwiftOptions) {f : Field} (word : Word f.name)
    (names : (lexicon o).Names f.type) :
    Target.swift.WritesField (fieldText o f).text.toList ((Backend.swift o).fieldEntry f) := by
  have chars : ∀ c, isTypeChar c = false → c ∉ ['[', ']', '?'] →
      c ∉ (typeText o f.type).text.toList := by
    intro c other layer
    rw [text_typeText]
    exact (add_surround _).not_mem (names.not_mem other) layer f.type.layers
  have text : (fieldText o f).text.toList = (docText f.doc 1).toList
      ++ ((bif false then attributeLine ++ ['\n'] else [])
        ++ (fieldLine "var ".toList ((lexicon o).identifier .field f.name).text.toList false
          (typeText o f.type).text.toList ++ ['\n'])) := by
    simp [fieldText, fieldLine, fieldContent, Text.times]
  exact WritesField.of_text (hasComments_slashes f.doc) (.inl rfl)
    (isKey_identifier o word) (chars '\n' rfl (by decide)) text String.ofList_toList.symm
    (saysAbsentable_typeText names).symm
    (isSuffixOf_eq_false_of_not_mem List.mem_cons_self (chars ' ' rfl (by decide))).symm rfl

theorem TypeScript.hasComments_docText (o : TypeScriptOptions) (d : Doc) :
    HasComments (docText o d 1).toList := by
  unfold docText
  split
  · exact hasComments_slashes d
  · exact hasComments_block d (n := 4) rfl

/-- The type of a field without the option of being absent is not optional, if no optional stands
directly inside another one. -/
theorem TypeRef.isOptional_presentType {type : TypeRef} (flat : type.nestsOptional = false) :
    (OpenApi.presentType type).isOptional = false := by
  cases type with
  | primitive name => rfl
  | named name => rfl
  | sequence inner => rfl
  | optional inner => exact (Bool.or_eq_false_iff.mp flat).1

theorem TypeScript.writesField_fieldText (o : TypeScriptOptions) {f : Field} (word : Word f.name)
    (names : (lexicon o).Names f.type) (flat : f.type.nestsOptional = false) :
    Target.typeScript.WritesField (fieldText o f).text.toList
      ((Backend.typeScript o).fieldEntry f) := by
  have present : (lexicon o).Names (OpenApi.presentType f.type) := names.presentType
  have free : '\n' ∉ (typeText o (OpenApi.presentType f.type)).text.toList := by
    rw [text_typeText]
    exact (add_surround _).not_mem (present.not_mem rfl) (by decide) _
  have text : (fieldText o f).text.toList = (docText o f.doc 1).toList
      ++ ((bif false then attributeLine ++ ['\n'] else [])
        ++ (fieldLine [] ((lexicon o).identifier .field f.name).text.toList f.type.isOptional
          (typeText o (OpenApi.presentType f.type)).text.toList ++ ['\n'])) := by
    cases sign : f.type.isOptional <;>
      simp [fieldText, text_propertyText, fieldLine, fieldContent, sign, Text.times]
  exact WritesField.of_text (hasComments_docText o f.doc) (.inr rfl) (isKey_identifier o word) free
    text String.ofList_toList.symm rfl
    (undefinable_typeText present (TypeRef.isOptional_presentType flat)).symm rfl

theorem Rust.toList_optionalAttribute :
    (Fragment.line 1 "#[serde(default, skip_serializing_if = \"Option::is_none\")]").text.toList =
      attributeLine ++ ['\n'] := by
  have sharp : "#[serde(default, skip_serializing_if = \"Option::is_none\")]".toList =
      Rust.skipAttribute := by
    decide
  rw [Fragment.text_line, String.toList_append, String.toList_append, Text.toList_indent,
    Fragment.text_ofText, sharp]
  rfl

theorem Rust.writesField_fieldText (o : RustOptions) {f : Field} (word : Word f.name)
    (names : (lexicon o).Names f.type) :
    Target.rust.WritesField (fieldText o f).text.toList ((Backend.rust o).fieldEntry f) := by
  have free : '\n' ∉ ((typeText o f.type).text ++ ",").toList := by
    rw [text_typeText]
    simpa using (add_surround _).not_mem (names.not_mem rfl) (by decide) f.type.layers
  have front : (visibility o).toList = Target.rust.lead ∨ (visibility o).toList = [] := by
    unfold visibility
    split
    · exact .inl rfl
    · exact .inr rfl
  have upper : (optionalAttribute o f).text.toList =
      bif o.serde && f.type.isOptional then attributeLine ++ ['\n'] else [] := by
    unfold optionalAttribute
    cases o.serde && f.type.isOptional with
    | true => exact Rust.toList_optionalAttribute
    | false => rfl
  have text : (fieldText o f).text.toList = (docText f.doc 1).toList
      ++ ((bif o.serde && f.type.isOptional then attributeLine ++ ['\n'] else [])
        ++ (fieldLine (visibility o).toList ((lexicon o).identifier .field f.name).text.toList false
          ((typeText o f.type).text ++ ",").toList ++ ['\n'])) := by
    rw [← upper]
    simp [fieldText, fieldLine, fieldContent, Text.times]
  have last : ((typeText o f.type).text ++ ",").toList = (typeText o f.type).text.toList ++ [','] :=
    String.toList_append
  refine WritesField.of_text (hasComments_slashes f.doc) front (isKey_identifier o word) free text
    String.ofList_toList.symm (saysAbsentable_typeText names false).symm ?_ rfl
  rw [last]
  exact (isSuffixOf_concat_eq_false (by decide) " | undefine".toList _).symm

/-! ## Records -/

/-- What stands in front of the fields of a record, up to the opening brace. A record of an
interface description is read as a whole. -/
def Backend.recordOpening : Backend → Record → String
  | .swift o, r =>
      Swift.docText r.doc 0 ++ "struct " ++ ((Swift.lexicon o).identifier .declaration r.name).text
        ++ Swift.inheritance o [] ++ " \x7b"
  | .typeScript o, r => TypeScript.docText o r.doc 0 ++ (TypeScript.openRecord o r.name).text
  | .rust o, r =>
      Rust.docText r.doc 0 ++ (Rust.deriveLine o).text
        ++ (Rust.allowLine "non_snake_case" Rust.tripsFieldLint (r.fields.map (·.name))).text
        ++ Rust.visibility o ++ "struct "
        ++ ((Rust.lexicon o).identifier .declaration r.name).text ++ " \x7b"
  | .openApi _, _ => ""

/-- The fields of a record, from what stands behind the opening. -/
def Target.readFields (fuel : Nat) (body : String) : Target → Option (List FieldEntry)
  | .openApi => OpenApi.readFields fuel body
  | t => t.readFieldLines [] (split '\n' body.toList)

/-- The body of a record is read as the entries of its fields. -/
theorem Target.readFieldLines_body {t : Target} {texts : List (List Char)}
    {entries : List FieldEntry} (written : List.Forall₂ t.WritesField texts entries)
    {body : String} (text : body.toList = '\n' :: (texts.flatten ++ ['\x7d', '\n'])) :
    t.readFieldLines [] (split '\n' body.toList) = some entries := by
  obtain ⟨lines, whole, clean, read⟩ := readFieldLines_flatten written
  have feeds : body.toList = unlines ([] :: (lines ++ [['\x7d']])) ++ [] := by
    rw [text, whole, List.append_nil, Text.unlines_cons, unlines_append]
    rfl
  have unbroken : ∀ line ∈ [] :: (lines ++ [['\x7d']]), '\n' ∉ line := by
    intro line member
    rw [List.mem_cons, List.mem_append, List.mem_singleton] at member
    rcases member with rfl | inside | rfl
    · exact List.not_mem_nil
    · exact clean line inside
    · decide
  rw [feeds, Text.split_unlines_append unbroken List.not_mem_nil, List.cons_append,
    List.append_assoc]
  exact read [] [] [[]] (by decide)

theorem forall₂_writesField {t : Target} {text : Field → Fragment} {entry : Field → FieldEntry}
    {fields : List Field}
    (written : ∀ f ∈ fields, t.WritesField (text f).text.toList (entry f)) :
    List.Forall₂ t.WritesField (fields.map fun f => (text f).text.toList) (fields.map entry) := by
  rw [List.forall₂_map_left_iff, List.forall₂_map_right_iff, List.forall₂_same]
  exact written

/-- Fields on lines of their own, up to the closing brace. -/
def bracedBody (text : Field → Fragment) (fields : List Field) : String :=
  "\n" ++ String.join (fields.map fun f => (text f).text) ++ "\x7d\n"

theorem toList_bracedBody (text : Field → Fragment) (fields : List Field) :
    (bracedBody text fields).toList =
      '\n' :: ((fields.map fun f => (text f).text.toList).flatten ++ ['\x7d', '\n']) := by
  simp [bracedBody, List.flatMap_def, Function.comp_def]

theorem Swift.text_recordText_eq (o : SwiftOptions) (r : Record) :
    (recordText o r).text =
      (Backend.swift o).recordOpening r ++ bracedBody (fieldText o) r.fields := by
  rw [← String.toList_inj]
  simp [recordText, Backend.recordOpening, bracedBody, Text.times, Function.comp_def]

theorem TypeScript.text_recordText_eq (o : TypeScriptOptions) (r : Record) :
    (recordText o r).text =
      (Backend.typeScript o).recordOpening r ++ bracedBody (fieldText o) r.fields := by
  rw [← String.toList_inj]
  simp [recordText, Backend.recordOpening, bracedBody, Text.times, Function.comp_def]

theorem Rust.text_recordText_eq (o : RustOptions) (r : Record) :
    (recordText o r).text = (Backend.rust o).recordOpening r ++
      if r.fields.isEmpty then "\x7d\n" else bracedBody (fieldText o) r.fields := by
  rw [← String.toList_inj]
  unfold recordText bodyText
  split
  · simp [Backend.recordOpening]
  · simp [Backend.recordOpening, bracedBody, Text.times, Function.comp_def]

/-- The text of a record has a body from which its fields are read. -/
theorem Backend.exists_body (b : Backend) {r : Record}
    (distinct : (r.fields.map (·.name)).Nodup) (words : ∀ f ∈ r.fields, Word f.name)
    (names : ∀ f ∈ r.fields, b.lexicon.Names f.type)
    (flat : ∀ f ∈ r.fields, f.type.nestsOptional = false) :
    ∃ body, b.chunk (.record r) = b.recordOpening r ++ body ∧
      ∃ enough, ∀ fuel, enough < fuel →
        b.target.readFields fuel body = some (r.fields.map b.fieldEntry) ∧
        (b.target = .openApi → OpenApi.readRequired fuel body =
          some ((r.fields.filter fun f => !f.type.isOptional).map (·.name))) := by
  rw [b.chunk_eq]
  cases b with
  | swift o =>
      refine ⟨_, Swift.text_recordText_eq o r, 0, fun _ _ => ⟨?_, fun other => (by cases other)⟩⟩
      refine Target.readFieldLines_body (forall₂_writesField fun f inside => ?_)
        (toList_bracedBody _ _)
      exact Swift.writesField_fieldText o (words f inside) (names f inside)
  | typeScript o =>
      refine ⟨_, TypeScript.text_recordText_eq o r, 0,
        fun _ _ => ⟨?_, fun other => (by cases other)⟩⟩
      refine Target.readFieldLines_body (forall₂_writesField fun f inside => ?_)
        (toList_bracedBody _ _)
      exact TypeScript.writesField_fieldText o (words f inside) (names f inside) (flat f inside)
  | rust o =>
      refine ⟨_, Rust.text_recordText_eq o r, 0, fun _ _ => ⟨?_, fun other => (by cases other)⟩⟩
      split
      · rename_i none_given
        rw [List.isEmpty_iff.mp none_given]
        rfl
      · refine Target.readFieldLines_body (forall₂_writesField fun f inside => ?_)
          (toList_bracedBody _ _)
        exact Rust.writesField_fieldText o (words f inside) (names f inside)
  | openApi o =>
      refine ⟨(OpenApi.declarationText o (.record r)).text, String.empty_append.symm,
        sizeOf (r.name, (OpenApi.recordObject o r).toYaml), fun fuel enough => ⟨?_, fun _ => ?_⟩⟩
      · exact OpenApi.readFields_record distinct words names enough
      · exact OpenApi.readRequired_record words names enough

/-- No type of a field of an accepted schema has an optional directly inside another one. -/
theorem Schema.nestsOptional_field {s : Schema} (accepted : s.check = .ok ()) {r : Record}
    (member : .record r ∈ s.declarations) {f : Field} (inside : f ∈ r.fields) :
    f.type.nestsOptional = false := by
  have sound := s.check_eq_ok_iff.mp accepted
  rw [← Bool.not_eq_true, f.type.nestsOptional_iff]
  exact sound.flat_fields r member f inside

/-- **The fields of a record agree in all targets.** In the place of a record of an accepted schema
stands a text from whose body one entry for each field is read, in order. Its key is the identifier
of the field, and it may be absent exactly if the type of the field is optional; the type in it does
not say so once more. If Rust serializes records, the attribute that leaves out an absent field
stands above exactly these fields. In an interface description the fields that are not optional are
the required ones. -/
theorem Backend.fields_read_back (b : Backend) {s : Schema} (accepted : s.check = .ok ())
    {r : Record} (member : .record r ∈ s.declarations) (distinct : (r.fields.map (·.name)).Nodup)
    (words : ∀ f ∈ r.fields, Word f.name) (names : ∀ f ∈ r.fields, b.lexicon.Names f.type) :
    ∃ body, b.HasInPlace s r.name (b.recordOpening r ++ body) (b.render s) ∧
      ∃ enough, ∀ fuel, enough < fuel →
        b.target.readFields fuel body = some (r.fields.map b.fieldEntry) ∧
        (b.target = .openApi → OpenApi.readRequired fuel body =
          some ((r.fields.filter fun f => !f.type.isOptional).map (·.name))) := by
  obtain ⟨body, text, read⟩ := b.exists_body distinct words names fun f inside =>
    Schema.nestsOptional_field accepted member inside
  refine ⟨body, ?_, read⟩
  rw [← text]
  exact b.hasInPlace_render member

/-- A record with fields of reserved names, with and without an optional at the outermost level. -/
def absentRecord : Record where
  name := "Node"
  fields := [⟨"in", .optional (.sequence (.named "Node")), .ofList ["Edges", "", "to nodes"]⟩,
    ⟨"self", .sequence (.optional (.primitive "i32")), {}⟩,
    ⟨"class", .optional (.primitive "string"), {}⟩]

/-- A schema with this record. -/
def absentSample : Schema where
  name := "Sample"
  declarations := [.record absentRecord]

theorem Backend.fields_read_back_absentSample :
    absentSample.check = .ok () ∧ ∀ t : Target, ∃ body,
      (ofTarget {} t).HasInPlace absentSample "Node"
        ((ofTarget {} t).recordOpening absentRecord ++ body) ((ofTarget {} t).render absentSample) ∧
      ∃ enough, ∀ fuel, enough < fuel →
        (ofTarget {} t).target.readFields fuel body =
          some (absentRecord.fields.map (ofTarget {} t).fieldEntry) := by
  have accepted : absentSample.check = .ok () := rfl
  refine ⟨accepted, fun t => ?_⟩
  have names : ∀ f ∈ absentRecord.fields, (ofTarget {} t).lexicon.Names f.type := by
    cases t <;> decide
  obtain ⟨body, place, enough, read⟩ := fields_read_back (ofTarget {} t) accepted
    (r := absentRecord) List.mem_cons_self (by decide) (by decide) names
  exact ⟨body, place, enough, fun fuel more => (read fuel more).1⟩

end SchemaPress
