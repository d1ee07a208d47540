import Mathlib.Data.List.Forall2
import SchemaPress.Proofs.Schema.Names
import SchemaPress.Proofs.Target.Emission
import SchemaPress.Proofs.Target.Identifier
import SchemaPress.Proofs.Target.RawEnum
import SchemaPress.Proofs.Target.SchemaObject

/-!
# The names of members on the wire

A value is serialized with a key for each field of a record and for the case of a union. The key
follows from the text of the type: it is the identifier of the member in Swift and Rust, the
property in TypeScript, and the key of the schema object in an interface description, each without
what only escapes a reserved word. A case without payload stands in TypeScript as a string, and in
an interface description as a single value.

The four targets agree on these names (`Target.memberName`), with one exception: four words cannot
be identifiers in Rust in any way, so they are written with an underscore at the end, and with it
they are serialized. The layouts below say where keys stand in a text with default options.
-/

set_option autoImplicit false

namespace SchemaPress

open Text (Word isWordChar)

/-! ## Keys -/

/-- A text without a character. -/
def Text.without (c : Char) (s : String) : String :=
  String.ofList (s.toList.filter (· != c))

/-- A raw identifier without the sign that makes it one. -/
def Rust.unraw (key : String) : String :=
  match key.toList with
  | 'r' :: '#' :: name => String.ofList name
  | _ => key

/-- The name that a key stands for, without what escapes it. -/
def Target.wireName : Target → String → String
  | .swift => Text.without '\x60'
  | .typeScript => Text.without '"'
  | .rust => Rust.unraw
  | .openApi => id

/-- The name under which a member is serialized. -/
def Target.memberName : Target → String → String
  | .rust, name => if name ∈ Rust.neverRaw then name ++ "_" else name
  | _, name => name

/-- A character of a key. -/
def isKeyChar (c : Char) : Bool :=
  isWordChar c || c == '\x60' || c == '"' || c == '#'

/-- A key that stands for the name of a member and ends where its characters do. -/
structure Target.WritesKey (t : Target) (name key : String) : Prop where
  stands : t.wireName key = t.memberName name
  solid : key.toList.all isKeyChar = true

theorem isControl_of_isWordChar {c : Char} (word : isWordChar c = true) :
    Text.isControl c = false := by
  change ((decide (c.val ≥ 'A'.val ∧ c.val ≤ 'Z'.val) || (c.val ≥ 'a'.val && c.val ≤ 'z'.val))
    || (c.val ≥ '0'.val && c.val ≤ '9'.val) || c == '_') = true at word
  simp only [Bool.or_eq_true, Bool.and_eq_true, decide_eq_true_eq, beq_iff_eq,
    UInt32.le_iff_toNat_le] at word
  have range : 0x30 ≤ c.toNat ∧ c.toNat ≤ 0x7A := by
    rcases word with ((⟨low, high⟩ | ⟨low, high⟩) | ⟨low, high⟩) | rfl
    · exact ⟨Nat.le_trans (by decide) low, Nat.le_trans high (by decide)⟩
    · exact ⟨Nat.le_trans (by decide) low, Nat.le_trans high (by decide)⟩
    · exact ⟨Nat.le_trans (by decide) low, Nat.le_trans high (by decide)⟩
    · decide
  simp only [Text.isControl, Bool.or_eq_false_iff, Bool.and_eq_false_iff, decide_eq_false_iff_not]
  omega

section Words

variable {name : String} (word : Word name)
include word

theorem not_mem_of_word {c : Char} (other : isWordChar c = false) : c ∉ name.toList := by
  intro inside
  rw [word.2 c inside] at other
  cases other

theorem filter_ne_of_word {c : Char} (other : isWordChar c = false) :
    name.toList.filter (· != c) = name.toList := by
  rw [List.filter_eq_self]
  intro d inside
  have different : d ≠ c := fun same => not_mem_of_word word other (same ▸ inside)
  simpa using different

theorem all_isKeyChar_of_word : name.toList.all isKeyChar = true := by
  rw [List.all_eq_true]
  intro c inside
  simp [isKeyChar, word.2 c inside]

/-- A word between two marks, or on its own, stands for itself if the marks are taken out. -/
theorem without_quoted (mark : String) (c : Char) (single : mark.toList = [c])
    (other : isWordChar c = false) :
    Text.without c (mark ++ name ++ mark) = name ∧ Text.without c name = name := by
  simp [Text.without, single, filter_ne_of_word word other]

theorem unraw_of_word : Rust.unraw name = name := by
  unfold Rust.unraw
  split
  · rename_i rest raw
    have sharp : '#' ∈ name.toList := by simp [raw]
    exact absurd sharp (not_mem_of_word word (by decide))
  · rfl

theorem Swift.writesKey_identifier (position : Position) :
    Target.swift.WritesKey name ((lexicon {}).identifier position name).text := by
  obtain ⟨quoted, bare⟩ := without_quoted word "`" '\x60' rfl (by decide)
  rw [Lexicon.text_identifier rfl]
  by_cases reserved : name ∈ (lexicon {}).reserved
  · rw [Lexicon.escape_of_mem reserved]
    exact ⟨quoted, by simp [lexicon, all_isKeyChar_of_word word, isKeyChar]⟩
  · rw [Lexicon.escape_of_not_mem reserved]
    exact ⟨bare, all_isKeyChar_of_word word⟩

/-- A word between quotes, or on its own, is a property of its name. -/
theorem TypeScript.writesKey_quoted :
    Target.typeScript.WritesKey name ("\"" ++ name ++ "\"") ∧
      Target.typeScript.WritesKey name name := by
  obtain ⟨quoted, bare⟩ := without_quoted word "\"" '"' rfl (by decide)
  refine ⟨⟨quoted, ?_⟩, ⟨bare, all_isKeyChar_of_word word⟩⟩
  simp [all_isKeyChar_of_word word, isKeyChar]

theorem TypeScript.writesKey_identifier {position : Position} (key : position ≠ .declaration) :
    Target.typeScript.WritesKey name ((lexicon {}).identifier position name).text := by
  obtain ⟨quoted, bare⟩ := writesKey_quoted word
  rw [Lexicon.text_identifier rfl]
  by_cases reserved : name ∈ (lexicon {}).reserved
  · rw [Lexicon.escape_of_mem reserved]
    cases position with
    | declaration => exact absurd rfl key
    | field | case => exact quoted
  · rw [Lexicon.escape_of_not_mem reserved]
    exact bare

/-- A word needs no escapes in a string literal. -/
theorem TypeScript.fourDigitLiteral_of_word :
    Text.fourDigitLiteral name = "\"" ++ name ++ "\"" := by
  have each : ∀ c ∈ name.toList, Text.fourDigitLiteralEscape c = [c] := by
    intro c inside
    have visible := isControl_of_isWordChar (word.2 c inside)
    have differ : ∀ d, isWordChar d = false → c ≠ d := fun d other same =>
      not_mem_of_word word other (same ▸ inside)
    simp [Text.fourDigitLiteralEscape, visible, differ '\\' (by decide), differ '"' (by decide),
      differ '\n' (by decide), differ '\r' (by decide), differ '\t' (by decide),
      differ '\u2028' (by decide), differ '\u2029' (by decide)]
  rw [← String.toList_inj]
  simp [Text.fourDigitLiteral, Text.quoteWith, List.flatMap_congr each]

theorem Rust.writesKey_identifier (position : Position) :
    Target.rust.WritesKey name ((lexicon {}).identifier position name).text := by
  have never : ∀ w ∈ neverRaw, w ∈ reservedWords := by decide
  rw [Lexicon.text_identifier rfl]
  by_cases reserved : name ∈ (lexicon {}).reserved
  · rw [Lexicon.escape_of_mem reserved]
    rcases escapeReserved_cases {} position name with ⟨rigid, under⟩ | ⟨raw, sharp⟩
    · have longer : Word (name ++ "_") := by
        refine ⟨by simp, fun c inside => ?_⟩
        rw [String.toList_append, List.mem_append] at inside
        rcases inside with own | underscore
        · exact word.2 c own
        · have same : c = '_' := by simpa using underscore
          rw [same]
          decide
      rw [under]
      refine ⟨?_, all_isKeyChar_of_word longer⟩
      rw [Target.memberName, if_pos rigid]
      exact unraw_of_word longer
    · rw [sharp]
      refine ⟨?_, by simp [all_isKeyChar_of_word word, isKeyChar, isWordChar]⟩
      rw [Target.memberName, if_neg raw]
      simp [Target.wireName, unraw]
  · rw [Lexicon.escape_of_not_mem reserved]
    have raw : name ∉ neverRaw := fun rigid => reserved (never name rigid)
    refine ⟨?_, all_isKeyChar_of_word word⟩
    rw [Target.memberName, if_neg raw]
    exact unraw_of_word word

end Words

/-! ## Members -/

/-- A field as a language writes it. -/
structure SpelledField where
  doc : Doc
  key : String
  type : String
  isOptional : Bool

/-- A case of a union as a language writes it, with the type of its payload if it has one. -/
structure SpelledUnionCase where
  doc : Doc
  key : String
  payload : Option String

/-- A field is spelled by a key for its name and by its type. -/
structure Field.SpelledAs (t : Target) (typeText : TypeRef → String) (f : Field)
    (spelled : SpelledField) : Prop where
  doc : spelled.doc = f.doc
  key : t.WritesKey f.name spelled.key
  type : spelled.type = typeText f.type
  optional : spelled.isOptional = f.type.isOptional

/-- A case is spelled by a key for its name and by the type of its payload. -/
structure UnionCase.SpelledAs (t : Target) (typeText : TypeRef → String) (c : UnionCase)
    (spelled : SpelledUnionCase) : Prop where
  doc : spelled.doc = c.doc
  key : t.WritesKey c.name spelled.key
  payload : spelled.payload = c.payload.map typeText

/-! ## Layouts -/

/-- A record in Swift. -/
def Swift.recordLayout (name : String) (doc : Doc) (fields : List SpelledField) : String :=
  docText doc 0 ++ "struct " ++ ((lexicon {}).identifier .declaration name).text
    ++ ": Equatable, Codable \x7b\n"
    ++ String.join (fields.map fun f =>
      docText f.doc 1 ++ "    var " ++ f.key ++ ": " ++ f.type ++ "\n")
    ++ "\x7d\n"

/-- A tagged union in Swift. -/
def Swift.unionLayout (name : String) (doc : Doc) (cases : List SpelledUnionCase) : String :=
  docText doc 0 ++ "enum " ++ ((lexicon {}).identifier .declaration name).text
    ++ ": Equatable, Codable \x7b\n"
    ++ String.join (cases.map fun c =>
      docText c.doc 1 ++ "    case " ++ c.key
        ++ (c.payload.map fun type => "(" ++ type ++ ")").getD "" ++ "\n")
    ++ "\x7d\n"

/-- A record in TypeScript. -/
def TypeScript.recordLayout (name : String) (doc : Doc) (fields : List SpelledField) : String :=
  docText {} doc 0 ++ "type " ++ ((lexicon {}).identifier .declaration name).text ++ " = \x7b\n"
    ++ String.join (fields.map fun f =>
      docText {} f.doc 1 ++ "    " ++ f.key ++ (if f.isOptional then "?: " else ": ") ++ f.type
        ++ "\n")
    ++ "\x7d\n"

/-- An alternative in TypeScript: an object with one key, or the key as a string. -/
def SpelledUnionCase.alternative (c : SpelledUnionCase) : String :=
  match c.payload with
  | some type => "\x7b " ++ c.key ++ ": " ++ type ++ " \x7d"
  | none => "\"" ++ c.key ++ "\""

/-- A tagged union in TypeScript, on one line or with each alternative below its doc. -/
def TypeScript.unionLayout (name : String) (doc : Doc) (cases : List SpelledUnionCase) : String :=
  docText {} doc 0 ++ "type " ++ ((lexicon {}).identifier .declaration name).text ++ " ="
    ++ (if cases.isEmpty then " never\n"
      else if cases.all (·.doc.isEmpty) then
        " " ++ String.intercalate " | " (cases.map (·.alternative)) ++ "\n"
      else
        "\n" ++ String.join (cases.map fun c =>
          docText {} c.doc 1 ++ "    | " ++ c.alternative ++ "\n"))

/-- A record in Rust. No attribute changes the name of a field. -/
def Rust.recordLayout (name : String) (doc : Doc) (names : List String)
    (fields : List SpelledField) : String :=
  docText doc 0 ++ "#[derive(Debug, Clone, PartialEq, Serialize, Deserialize)]\n"
    ++ (allowLine "non_snake_case" tripsFieldLint names).text
    ++ "pub struct " ++ ((lexicon {}).identifier .declaration name).text ++ " \x7b"
    ++ (if fields.isEmpty then "" else "\n")
    ++ String.join (fields.map fun f =>
      docText f.doc 1
        ++ (if f.isOptional then
            "    #[serde(default, skip_serializing_if = \"Option::is_none\")]\n" else "")
        ++ "    pub " ++ f.key ++ ": " ++ f.type ++ ",\n")
    ++ "\x7d\n"

/-- A tagged union in Rust. No attribute changes the name of a case. -/
def Rust.unionLayout (name : String) (doc : Doc) (names : List String)
    (cases : List SpelledUnionCase) : String :=
  docText doc 0 ++ "#[derive(Debug, Clone, PartialEq, Serialize, Deserialize)]\n"
    ++ (allowLine "non_camel_case_types" tripsCaseLint names).text
    ++ "pub enum " ++ ((lexicon {}).identifier .declaration name).text ++ " \x7b\n"
    ++ String.join (cases.map fun c =>
      docText c.doc 1 ++ "    " ++ c.key
        ++ (c.payload.map fun type => "(" ++ type ++ ")").getD "" ++ ",\n")
    ++ "\x7d\n"

/-- A schema object for a case has a single property of its name, or its name as the only value. -/
def OpenApi.WritesAlternative (c : UnionCase) (alternative : Yaml) : Prop :=
  ∃ entries, alternative = .mapping entries ∧
    match c.payload with
    | some _ => ∃ object,
        entries.filter (·.1 == "properties") = [("properties", .mapping [(c.name, object)])]
    | none => entries.filter (·.1 == "enum") = [("enum", .sequence [.string c.name])]

/-- What a text holds for a record. -/
def Target.WritesRecord (r : Record) (text : String) : Target → Prop
  | .swift => ∃ spelled,
      List.Forall₂ (Field.SpelledAs .swift fun type => (Swift.typeText {} type).text) r.fields
        spelled ∧
      text = Swift.recordLayout r.name r.doc spelled
  | .typeScript => ∃ spelled,
      List.Forall₂ (Field.SpelledAs .typeScript fun type =>
        (TypeScript.typeText {} (OpenApi.presentType type)).text) r.fields spelled ∧
      text = TypeScript.recordLayout r.name r.doc spelled
  | .rust => ∃ spelled,
      List.Forall₂ (Field.SpelledAs .rust fun type => (Rust.typeText {} type).text) r.fields
        spelled ∧
      text = Rust.recordLayout r.name r.doc (r.fields.map (·.name)) spelled
  | .openApi => ∃ entries properties,
      properties.map Prod.fst = r.fields.map (·.name) ∧
      entries.filter (·.1 == "properties") =
        (if properties = [] then [] else [("properties", .mapping properties)]) ∧
      text = (Yaml.mapping [(r.name, .mapping entries)]).shiftedText 4

/-- What a text holds for a tagged union. -/
def Target.WritesUnion (name : String) (doc : Doc) (cases : List UnionCase) (text : String) :
    Target → Prop
  | .swift => ∃ spelled,
      List.Forall₂ (UnionCase.SpelledAs .swift fun type => (Swift.typeText {} type).text) cases
        spelled ∧
      text = Swift.unionLayout name doc spelled
  | .typeScript => ∃ spelled,
      List.Forall₂ (UnionCase.SpelledAs .typeScript fun type =>
        (TypeScript.typeText {} type).text) cases spelled ∧
      text = TypeScript.unionLayout name doc spelled
  | .rust => ∃ spelled,
      List.Forall₂ (UnionCase.SpelledAs .rust fun type => (Rust.typeText {} type).text) cases
        spelled ∧
      text = Rust.unionLayout name doc (cases.map (·.name)) spelled
  | .openApi => ∃ entries alternatives,
      List.Forall₂ OpenApi.WritesAlternative cases alternatives ∧
      entries.filter (·.1 == "oneOf") =
        (if alternatives = [] then [] else [("oneOf", .sequence alternatives)]) ∧
      text = (Yaml.mapping [(name, .mapping entries)]).shiftedText 4

/-! ## Texts have their layouts -/

/-- How a language spells a field. -/
def Field.spell (lexicon : Lexicon) (typeText : TypeRef → String) (f : Field) : SpelledField where
  doc := f.doc
  key := (lexicon.identifier .field f.name).text
  type := typeText f.type
  isOptional := f.type.isOptional

/-- How a language spells a case of a union. -/
def UnionCase.spell (lexicon : Lexicon) (typeText : TypeRef → String) (c : UnionCase) :
    SpelledUnionCase where
  doc := c.doc
  key := (lexicon.identifier .case c.name).text
  payload := c.payload.map typeText

/-- How TypeScript spells a case of a union: only an object has a key that may be reserved. -/
def UnionCase.spellAlternative (c : UnionCase) : SpelledUnionCase where
  doc := c.doc
  key :=
    match c.payload with
    | some _ => ((TypeScript.lexicon {}).identifier .case c.name).text
    | none => c.name
  payload := c.payload.map fun type => (TypeScript.typeText {} type).text

theorem Swift.inheritance_default : inheritance {} [] = ": Equatable, Codable" := by decide

theorem Swift.text_recordText (r : Record) :
    (recordText {} r).text = recordLayout r.name r.doc
      (r.fields.map (·.spell (lexicon {}) fun type => (typeText {} type).text)) := by
  have each : ∀ f : Field, (fieldText {} f).text = docText f.doc 1 ++ "    var "
      ++ ((lexicon {}).identifier .field f.name).text ++ ": " ++ (typeText {} f.type).text
      ++ "\n" := by
    intro f
    rw [← String.toList_inj]
    simp [fieldText, Text.times]
  rw [← String.toList_inj]
  simp [recordText, recordLayout, Field.spell, each, inheritance_default, Text.times,
    Function.comp_def]

theorem Swift.text_unionText (p : UnionPlan) :
    (unionText {} p).text = unionLayout p.name p.doc
      (p.cases.map (·.spell (lexicon {}) fun type => (typeText {} type).text)) := by
  have each : ∀ c : UnionCase, (unionCaseText {} c).text = docText c.doc 1 ++ "    case "
      ++ ((lexicon {}).identifier .case c.name).text
      ++ ((c.payload.map fun type => (typeText {} type).text).map
        fun type => "(" ++ type ++ ")").getD "" ++ "\n" := by
    intro c
    rw [← String.toList_inj]
    cases payload : c.payload with
    | none => simp [unionCaseText, payloadText, payload, Text.times]
    | some type => simp [unionCaseText, payloadText, payload, Text.times]
  rw [← String.toList_inj]
  simp [unionText, unionLayout, UnionCase.spell, each, inheritance_default, Text.times,
    Function.comp_def]

theorem TypeScript.text_propertyText (o : TypeScriptOptions) (type : TypeRef) :
    (propertyText o type).text =
      (if type.isOptional then "?: " else ": ")
        ++ (typeText o (OpenApi.presentType type)).text := by
  cases type <;> rfl

theorem TypeScript.text_recordText (r : Record) :
    (recordText {} r).text = recordLayout r.name r.doc
      (r.fields.map (·.spell (lexicon {}) fun type =>
        (typeText {} (OpenApi.presentType type)).text)) := by
  have each : ∀ f : Field, (fieldText {} f).text = docText {} f.doc 1 ++ "    "
      ++ ((lexicon {}).identifier .field f.name).text
      ++ (if f.type.isOptional then "?: " else ": ")
      ++ (typeText {} (OpenApi.presentType f.type)).text ++ "\n" := by
    intro f
    rw [← String.toList_inj]
    simp [fieldText, text_propertyText, Text.times]
  rw [← String.toList_inj]
  simp [recordText, recordLayout, openRecord, exportText, Field.spell, each, Text.times,
    Function.comp_def]

theorem TypeScript.text_alternativeText {c : UnionCase} (word : Word c.name) :
    (alternativeText {} c).text = c.spellAlternative.alternative := by
  unfold alternativeText UnionCase.spellAlternative SpelledUnionCase.alternative
  rw [← String.toList_inj]
  cases c.payload with
  | none => simp [fourDigitLiteral_of_word word]
  | some type => simp

theorem TypeScript.text_unionText {p : UnionPlan} (words : ∀ c ∈ p.cases, Word c.name) :
    (unionText {} p).text = unionLayout p.name p.doc (p.cases.map (·.spellAlternative)) := by
  have each : ∀ c ∈ p.cases, (alternativeText {} c).text = c.spellAlternative.alternative :=
    fun c inside => text_alternativeText (words c inside)
  have documented : (p.cases.map (·.spellAlternative)).all (·.doc.isEmpty) = !p.hasCaseDocs := by
    simp [UnionPlan.hasCaseDocs, UnionCase.spellAlternative, List.all_map, Function.comp_def,
      List.not_any_eq_all_not]
  unfold unionText unionLayout
  rw [documented, List.isEmpty_map]
  by_cases none_given : p.cases.isEmpty = true
  · rw [← String.toList_inj]
    simp [none_given, exportText, Text.times]
  · by_cases docs : p.hasCaseDocs = true
    · have lines : p.cases.map (Fragment.text ∘ alternativeLine {}) =
          p.cases.map ((fun c => docText {} c.doc 1 ++ "    | " ++ c.alternative ++ "\n")
            ∘ (·.spellAlternative)) := by
        refine List.map_congr_left fun c inside => ?_
        rw [← String.toList_inj]
        simp [alternativeLine, each c inside, UnionCase.spellAlternative, Text.times]
      rw [← String.toList_inj]
      simp [none_given, docs, exportText, Text.times, lines]
    · have alternatives : (alternativesLine {} p).text =
          String.intercalate " | " ((p.cases.map (·.spellAlternative)).map (·.alternative)) := by
        have silent : ∀ c ∈ p.cases, c.doc.isEmpty = true := by
          simpa [UnionPlan.hasCaseDocs] using docs
        rw [alternativesLine, Fragment.text_join, List.map_map, List.map_map]
        refine congrArg _ (List.map_congr_left fun c inside => ?_)
        simp [inlineDoc, silent c inside, each c inside]
      rw [← String.toList_inj]
      simp [none_given, docs, exportText, Text.times, alternatives]

theorem Rust.text_deriveLine_default : (deriveLine {}).text =
    "#[derive(Debug, Clone, PartialEq, Serialize, Deserialize)]\n" := by
  decide

theorem Rust.text_recordText (r : Record) :
    (recordText {} r).text = recordLayout r.name r.doc (r.fields.map (·.name))
      (r.fields.map (·.spell (lexicon {}) fun type => (typeText {} type).text)) := by
  have each : ∀ f : Field, (fieldText {} f).text = docText f.doc 1
      ++ (if f.type.isOptional then
          "    #[serde(default, skip_serializing_if = \"Option::is_none\")]\n" else "")
      ++ "    pub " ++ ((lexicon {}).identifier .field f.name).text ++ ": "
      ++ (typeText {} f.type).text ++ ",\n" := by
    intro f
    rw [← String.toList_inj]
    cases optional : f.type.isOptional with
    | false => simp [fieldText, optionalAttribute, visibility, optional, Text.times]
    | true => simp [fieldText, optionalAttribute, visibility, optional, Text.times]
  unfold recordText recordLayout bodyText
  rw [List.isEmpty_map]
  rw [← String.toList_inj]
  cases fields : r.fields with
  | nil => simp [text_deriveLine_default, visibility]
  | cons f fs =>
      simp [text_deriveLine_default, visibility, Field.spell, each, Text.times, Function.comp_def]

theorem Rust.text_unionText (p : UnionPlan) :
    (unionText {} p).text = unionLayout p.name p.doc (p.cases.map (·.name))
      (p.cases.map (·.spell (lexicon {}) fun type => (typeText {} type).text)) := by
  have each : ∀ c : UnionCase, (unionCaseText {} c).text = docText c.doc 1 ++ "    "
      ++ ((lexicon {}).identifier .case c.name).text
      ++ ((c.payload.map fun type => (typeText {} type).text).map
        fun type => "(" ++ type ++ ")").getD "" ++ ",\n" := by
    intro c
    rw [← String.toList_inj]
    cases payload : c.payload with
    | none => simp [unionCaseText, payloadText, payload, Text.times]
    | some type => simp [unionCaseText, payloadText, payload, Text.times]
  rw [← String.toList_inj]
  simp [unionText, unionLayout, UnionCase.spell, each, text_deriveLine_default, visibility,
    Text.times, Function.comp_def]

/-! ## Schema objects -/

/-- The keys of the properties of a record are the names of its fields. -/
theorem OpenApi.exists_toYaml_recordObject (r : Record) :
    ∃ entries properties, (recordObject {} r).toYaml = .mapping entries ∧
      properties.map Prod.fst = r.fields.map (·.name) ∧
      entries.filter (·.1 == "properties") =
        if properties = [] then [] else [("properties", .mapping properties)] := by
  refine ⟨_, (recordObject {} r).properties.map fun p => (p.1, p.2.toYaml),
    SchemaObject.toYaml_eq _, ?_, ?_⟩
  · simp [recordObject, Function.comp_def]
  · rw [SchemaObject.filter_of_mem_keywords (SchemaObject.properties_mem_keywords _),
      SchemaObject.propertiesEntry_eq]
    simp

theorem OpenApi.writesAlternative_toYaml (c : UnionCase) :
    WritesAlternative c (alternative {} c).toYaml := by
  refine ⟨_, SchemaObject.toYaml_eq _, ?_⟩
  cases payload : c.payload with
  | none =>
      have single : (alternative {} c).values = [c.name] := by simp [alternative, payload]
      rw [SchemaObject.filter_of_mem_keywords (SchemaObject.values_mem_keywords _), single]
      rfl
  | some type =>
      have single : (alternative {} c).properties = [(c.name, typeObject {} type)] := by
        simp [alternative, payload]
      refine ⟨(typeObject {} type).toYaml, ?_⟩
      rw [SchemaObject.filter_of_mem_keywords (SchemaObject.properties_mem_keywords _), single,
        SchemaObject.propertiesEntry_eq]
      rfl

/-- The alternatives of a union stand below one key. -/
theorem OpenApi.exists_toYaml_unionObject (p : UnionPlan) :
    ∃ entries, (unionObject {} p).toYaml = .mapping entries ∧
      entries.filter (·.1 == "oneOf") =
        if p.cases.map (fun c => (alternative {} c).toYaml) = [] then []
        else [("oneOf", .sequence (p.cases.map fun c => (alternative {} c).toYaml))] := by
  have alternatives : (unionObject {} p).oneOf = p.cases.map (alternative {}) := rfl
  refine ⟨_, SchemaObject.toYaml_eq _, ?_⟩
  rw [SchemaObject.filter_of_mem_keywords (SchemaObject.oneOf_mem_keywords _), alternatives,
    SchemaObject.objectsEntry_eq, List.map_map]
  simp [Function.comp_def]

/-! ## Members keep their names -/

theorem Field.forall₂_spelledAs {t : Target} {lexicon : Lexicon} {typeText : TypeRef → String}
    {fields : List Field}
    (keys : ∀ f ∈ fields, t.WritesKey f.name (lexicon.identifier .field f.name).text) :
    List.Forall₂ (Field.SpelledAs t typeText) fields (fields.map (·.spell lexicon typeText)) := by
  rw [List.forall₂_map_right_iff, List.forall₂_same]
  intro f inside
  exact ⟨rfl, keys f inside, rfl, rfl⟩

theorem UnionCase.forall₂_spelledAs {t : Target} {lexicon : Lexicon} {typeText : TypeRef → String}
    {cases : List UnionCase}
    (keys : ∀ c ∈ cases, t.WritesKey c.name (lexicon.identifier .case c.name).text) :
    List.Forall₂ (UnionCase.SpelledAs t typeText) cases
      (cases.map (·.spell lexicon typeText)) := by
  rw [List.forall₂_map_right_iff, List.forall₂_same]
  intro c inside
  exact ⟨rfl, keys c inside, rfl⟩

theorem UnionCase.forall₂_spellAlternative {cases : List UnionCase}
    (words : ∀ c ∈ cases, Word c.name) :
    List.Forall₂ (UnionCase.SpelledAs .typeScript fun type =>
      (TypeScript.typeText {} type).text) cases (cases.map (·.spellAlternative)) := by
  rw [List.forall₂_map_right_iff, List.forall₂_same]
  intro c inside
  refine ⟨rfl, ?_, rfl⟩
  unfold UnionCase.spellAlternative
  cases c.payload with
  | none => exact (TypeScript.writesKey_quoted (words c inside)).2
  | some type => exact TypeScript.writesKey_identifier (words c inside) (by decide)

/-- The text of a record holds the names of its fields. -/
theorem Target.writesRecord_chunk (t : Target) {r : Record}
    (words : ∀ f ∈ r.fields, Word f.name) :
    t.WritesRecord r ((Backend.ofTarget {} t).chunk (.record r)) := by
  rw [Backend.chunk_eq]
  cases t with
  | swift =>
      exact ⟨_, Field.forall₂_spelledAs fun f inside =>
        Swift.writesKey_identifier (words f inside) .field, Swift.text_recordText r⟩
  | typeScript =>
      exact ⟨_, Field.forall₂_spelledAs fun f inside =>
        TypeScript.writesKey_identifier (words f inside) (by decide), TypeScript.text_recordText r⟩
  | rust =>
      exact ⟨_, Field.forall₂_spelledAs fun f inside =>
        Rust.writesKey_identifier (words f inside) .field, Rust.text_recordText r⟩
  | openApi =>
      obtain ⟨entries, properties, form, names, listed⟩ := OpenApi.exists_toYaml_recordObject r
      refine ⟨entries, properties, names, listed, ?_⟩
      rw [← form]
      exact OpenApi.text_declarationText {} (.record r)

/-- The text of a tagged union holds the names of its cases. -/
theorem Target.writesUnion_chunk (t : Target) (name : String) (doc : Doc)
    {cases : List UnionCase} (words : ∀ c ∈ cases, Word c.name) :
    t.WritesUnion name doc cases
      ((Backend.ofTarget {} t).chunk (.enumeration ⟨name, .union cases, doc⟩)) := by
  rw [Backend.chunk_eq]
  cases t with
  | swift =>
      exact ⟨_, UnionCase.forall₂_spelledAs fun c inside =>
        Swift.writesKey_identifier (words c inside) .case, Swift.text_unionText _⟩
  | typeScript =>
      exact ⟨_, UnionCase.forall₂_spellAlternative words, TypeScript.text_unionText words⟩
  | rust =>
      exact ⟨_, UnionCase.forall₂_spelledAs fun c inside =>
        Rust.writesKey_identifier (words c inside) .case, Rust.text_unionText _⟩
  | openApi =>
      obtain ⟨entries, form, listed⟩ :=
        OpenApi.exists_toYaml_unionObject ⟨name, doc, .wrapperAlternation, cases⟩
      refine ⟨entries, _, ?_, listed, ?_⟩
      · rw [List.forall₂_map_right_iff, List.forall₂_same]
        exact fun c _ => OpenApi.writesAlternative_toYaml c
      · rw [← form]
        exact OpenApi.text_declarationText {} (.union ⟨name, doc, .wrapperAlternation, cases⟩)

/-! ## Schemas -/

/-- **All targets serialize members under the same names.** With default options, the rendering of a
schema of words holds in the place of each record and of each tagged union one key for each member,
in order, and the key stands for the name that the member has in the schema. Four words are the
exception: a key in Rust stands for them with an underscore at the end. -/
theorem Target.members_keep_names (t : Target) {s : Schema}
    (words : ∀ n ∈ s.spelledNames, Word n) :
    (∀ r, .record r ∈ s.declarations → ∃ text,
      (Backend.ofTarget {} t).HasInPlace s r.name text ((Backend.ofTarget {} t).render s) ∧
        t.WritesRecord r text) ∧
    ∀ name cases doc, .enumeration ⟨name, .union cases, doc⟩ ∈ s.declarations → ∃ text,
      (Backend.ofTarget {} t).HasInPlace s name text ((Backend.ofTarget {} t).render s) ∧
        t.WritesUnion name doc cases text := by
  have spelled : ∀ d ∈ s.declarations, ∀ n ∈ d.spelledNames, Word n := fun d member n inside =>
    words n (List.mem_flatMap.mpr ⟨d, member, inside⟩)
  constructor
  · intro r member
    refine ⟨_, Backend.hasInPlace_render _ member, t.writesRecord_chunk ?_⟩
    intro f inside
    apply spelled _ member
    exact List.mem_cons_of_mem _ (List.mem_flatMap.mpr ⟨f, inside, List.mem_cons_self⟩)
  · intro name cases doc member
    refine ⟨_, Backend.hasInPlace_render _ member, t.writesUnion_chunk name doc ?_⟩
    intro c inside
    apply spelled _ member
    exact List.mem_cons_of_mem _ (List.mem_flatMap.mpr ⟨c, inside, List.mem_cons_self⟩)

/-- Fields whose names are reserved in some target. -/
def reservedFields : List Field :=
  [⟨"self", .primitive "i32", {}⟩, ⟨"default", .optional (.named "Choice"), .ofText "Absent."⟩]

/-- Cases whose names are reserved in all languages, with a payload and without. -/
def reservedCases : List UnionCase :=
  [⟨"else", some (.named "Node"), {}⟩, ⟨"in", none, {}⟩]

/-- A schema with these fields and cases. -/
def reservedSample : Schema where
  name := "Sample"
  declarations := [.record ⟨"Node", reservedFields, {}⟩,
    .enumeration ⟨"Choice", .union reservedCases, {}⟩]

/-- A schema with a field that cannot be an identifier in Rust. -/
def selfSample : Schema where
  name := "Sample"
  declarations := [.record ⟨"Node", [⟨"self", .primitive "i32", {}⟩], {}⟩]

/-- All targets keep the reserved names of the sample, in the places of its declarations. -/
theorem Target.members_keep_names_reservedSample :
    (∀ n ∈ reservedSample.spelledNames, Word n) ∧ ∀ t : Target,
      (∃ text, (Backend.ofTarget {} t).HasInPlace reservedSample "Node" text
          ((Backend.ofTarget {} t).render reservedSample) ∧
        t.WritesRecord ⟨"Node", reservedFields, {}⟩ text) ∧
      ∃ text, (Backend.ofTarget {} t).HasInPlace reservedSample "Choice" text
          ((Backend.ofTarget {} t).render reservedSample) ∧
        t.WritesUnion "Choice" {} reservedCases text := by
  have words : ∀ n ∈ reservedSample.spelledNames, Word n := by decide
  refine ⟨words, fun t => ?_⟩
  obtain ⟨records, unions⟩ := Target.members_keep_names t words
  exact ⟨records _ List.mem_cons_self,
    unions _ _ _ (List.mem_cons_of_mem _ List.mem_cons_self)⟩

/-- One word is serialized under two names: in Rust its key has an underscore, which nothing takes
away, and in Swift its key is the word itself. -/
theorem Target.wireName_self :
    (selfSample.check = .ok () ∧ ∀ n ∈ selfSample.spelledNames, Word n) ∧
      ((Backend.rust {}).render selfSample).text =
        "use serde::\x7bDeserialize, Serialize\x7d;\n\n"
          ++ "#[derive(Debug, Clone, PartialEq, Serialize, Deserialize)]\n"
          ++ "pub struct Node \x7b\n    pub self_: i32,\n\x7d\n" ∧
      Target.rust.wireName "self_" ≠ "self" ∧
      ((Backend.swift {}).render selfSample).text =
        "struct Node: Equatable, Codable \x7b\n    var `self`: Int32\n\x7d\n" ∧
      Target.swift.wireName "`self`" = "self" :=
  ⟨⟨rfl, by decide⟩, by decide +kernel, by decide, by decide +kernel, rfl⟩

end SchemaPress
