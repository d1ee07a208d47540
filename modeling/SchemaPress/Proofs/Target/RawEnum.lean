import Mathlib.Data.List.Forall2
import SchemaPress.Proofs.Target.Emission
import SchemaPress.Proofs.Text.Literal

/-!
# Enumerations of raw values in each target

What stands in a text for an enumeration of raw values. The three languages spell each case by an
identifier and a string literal, once or twice, and the layouts below say where. A case is spelled
as it should be (`RawCase.SpelledAs`) if the language's own reader of literals finds the raw value
that the case declares. An interface description has no literals; there the values stand in the list
below the key `enum`.

For every target, the text of an enumeration whose raw values are all declared has its layout, with
one spelled case for each declared case, in order (`Backend.writesRawEnum_chunk`).
-/

set_option autoImplicit false

namespace SchemaPress

/-- A case as a language writes it. -/
structure SpelledCase where
  doc : Doc
  identifier : String
  literal : String

/-- A case is spelled by the identifier of its name after renaming, and by a literal that is read as
its declared raw value, whatever follows the literal. -/
structure RawCase.SpelledAs (lexicon : Lexicon) (rule : Option RenameRule)
    (read : List Char → Option (String × List Char)) (c : RawCase) (spelled : SpelledCase) :
    Prop where
  doc : spelled.doc = c.doc
  identifier : spelled.identifier = (lexicon.identifier .case (renameCase rule c.name)).text
  literal : ∃ raw, c.rawValue = some raw ∧
    ∀ rest, read (spelled.literal.toList ++ rest) = some (raw, rest)

/-! ## Layouts -/

/-- An enumeration of raw values in Swift. -/
def Swift.rawEnumLayout (o : SwiftOptions) (name : String) (doc : Doc)
    (cases : List SpelledCase) : String :=
  docText doc 0 ++ "enum " ++ ((lexicon o).identifier .declaration name).text
    ++ inheritance o ["String"] ++ " \x7b\n"
    ++ String.join (cases.map fun c =>
      docText c.doc 1 ++ "    case " ++ c.identifier ++ " = " ++ c.literal ++ "\n")
    ++ "\x7d\n"

/-- The cases in TypeScript, with commas between them. -/
def TypeScript.rawCasesLayout (o : TypeScriptOptions) (sign : String)
    (cases : List SpelledCase) : String :=
  if cases.isEmpty then ""
  else
    String.intercalate ",\n" (cases.map fun c =>
      docText o c.doc 1 ++ "    " ++ c.identifier ++ sign ++ " " ++ c.literal) ++ "\n"

/-- An enumeration of raw values in TypeScript, in either style. -/
def TypeScript.rawEnumLayout (o : TypeScriptOptions) (name : String) (doc : Doc)
    (cases : List SpelledCase) : String :=
  let identifier := ((lexicon o).identifier .declaration name).text
  docText o doc 0 ++ match o.rawEnumStyle with
    | .enum =>
        exportText o ++ "enum " ++ identifier ++ " \x7b\n" ++ rawCasesLayout o " =" cases
          ++ "\x7d\n"
    | .constObject =>
        exportText o ++ "const " ++ identifier ++ " = \x7b\n" ++ rawCasesLayout o ":" cases
          ++ "\x7d as const\n" ++ exportText o ++ "type " ++ identifier
          ++ " = (typeof " ++ identifier ++ ")[keyof typeof " ++ identifier ++ "]\n"

/-- The variants in Rust, each below the attribute that renames it. -/
def Rust.variantsLayout (o : RustOptions) (cases : List SpelledCase) : String :=
  String.join (cases.map fun c =>
    docText c.doc 1 ++ (if o.serde then "    #[serde(rename = " ++ c.literal ++ ")]\n" else "")
      ++ "    " ++ c.identifier ++ ",\n")

/-- The accessor in Rust, with an arm for each variant. -/
def Rust.accessorLayout (o : RustOptions) (name : String) (cases : List SpelledCase) : String :=
  if o.rawValueAccessors && !cases.isEmpty then
    "\nimpl " ++ ((lexicon o).identifier .declaration name).text ++ " \x7b\n"
      ++ "    /// Raw value of this case.\n"
      ++ "    " ++ visibility o ++ "fn as_str(&self) -> &'static str \x7b\n"
      ++ "        match self \x7b\n"
      ++ String.join (cases.map fun c =>
        "            Self::" ++ c.identifier ++ " => " ++ c.literal ++ ",\n")
      ++ "        \x7d\n    \x7d\n\x7d\n"
  else ""

/-- An enumeration of raw values in Rust. -/
def Rust.rawEnumLayout (o : RustOptions) (name : String) (doc : Doc) (names : List String)
    (cases : List SpelledCase) : String :=
  docText doc 0 ++ (deriveLine o).text
    ++ (allowLine "non_camel_case_types" tripsCaseLint names).text
    ++ visibility o ++ "enum " ++ ((lexicon o).identifier .declaration name).text ++ " \x7b\n"
    ++ variantsLayout o cases ++ "\x7d\n" ++ accessorLayout o name cases

/-- What a text holds for an enumeration of raw values, with the names of its cases changed by a
rule. -/
def Backend.WritesRawEnum (rule : Option RenameRule) (name : String) (doc : Doc)
    (cases : List RawCase) (text : String) : Backend → Prop
  | .swift o => ∃ spelled,
      List.Forall₂ (RawCase.SpelledAs (Swift.lexicon o) rule Text.readBracedLiteral) cases spelled ∧
      text = Swift.rawEnumLayout o name doc spelled
  | .typeScript o => ∃ spelled,
      List.Forall₂ (RawCase.SpelledAs (TypeScript.lexicon o) rule Text.readFourDigitLiteral) cases
        spelled ∧
      text = TypeScript.rawEnumLayout o name doc spelled
  | .rust o => ∃ spelled,
      List.Forall₂ (RawCase.SpelledAs (Rust.lexicon o) rule Text.readBracedLiteral) cases spelled ∧
      text = Rust.rawEnumLayout o name doc (cases.map fun c => renameCase rule c.name) spelled
  | .openApi _ => ∃ raws entries,
      cases.map RawCase.rawValue = raws.map some ∧
      entries.filter (·.1 == "enum") =
        (if raws = [] then [] else [("enum", .sequence (raws.map .string))]) ∧
      text = (Yaml.mapping [(name, .mapping entries)]).shiftedText 4

/-! ## Texts have their layouts -/

/-- How a language spells a case. -/
def RawCasePlan.spell (lexicon : Lexicon) (literal : String → String) (c : RawCasePlan) :
    SpelledCase where
  doc := c.doc
  identifier := (lexicon.identifier .case c.name).text
  literal := literal c.rawValue

theorem Swift.text_rawEnumText (o : SwiftOptions) (p : RawPlan) :
    (rawEnumText o p).text =
      rawEnumLayout o p.name p.doc (p.cases.map (·.spell (lexicon o) Text.bracedLiteral)) := by
  have each : ∀ c : RawCasePlan, (rawCaseText o c).text = docText c.doc 1 ++ "    case "
      ++ ((lexicon o).identifier .case c.name).text ++ " = " ++ Text.bracedLiteral c.rawValue
      ++ "\n" := by
    intro c
    rw [← String.toList_inj]
    simp [rawCaseText, Text.times]
  rw [← String.toList_inj]
  simp [rawEnumText, rawEnumLayout, RawCasePlan.spell, each, Text.times, Function.comp_def]

theorem TypeScript.text_rawCasesText (o : TypeScriptOptions) (sign : String)
    (cases : List RawCasePlan) :
    (rawCasesText o sign cases).text =
      rawCasesLayout o sign (cases.map (·.spell (lexicon o) Text.fourDigitLiteral)) := by
  induction cases with
  | nil => rfl
  | cons c cases ih =>
      cases cases with
      | nil =>
          simp [rawCasesText, rawCasesLayout, rawCaseText, RawCasePlan.spell, Text.times,
            String.append_assoc]
      | cons d cases =>
          rw [rawCasesText, Fragment.text_append, ih]
          · rw [← String.toList_inj]
            simp [rawCasesLayout, rawCaseText, RawCasePlan.spell, Text.times, String.append_assoc]
          · simp

theorem TypeScript.text_rawEnumText (o : TypeScriptOptions) {p : RawPlan}
    (form : p.form = (capabilities o).rawEnums) :
    (rawEnumText o p).text =
      rawEnumLayout o p.name p.doc (p.cases.map (·.spell (lexicon o) Text.fourDigitLiteral)) := by
  unfold rawEnumText rawEnumLayout
  rw [form, capabilities]
  cases o.rawEnumStyle with
  | enum =>
      rw [← String.toList_inj]
      simp [text_rawCasesText, Text.times]
  | constObject =>
      rw [← String.toList_inj]
      simp [text_rawCasesText, Text.times]

theorem Rust.text_rawCaseText (o : RustOptions) (c : RawCasePlan) :
    (rawCaseText o c).text = docText c.doc 1
      ++ (if o.serde then
          "    #[serde(rename = " ++ Text.bracedLiteral c.rawValue ++ ")]\n" else "")
      ++ "    " ++ ((lexicon o).identifier .case c.name).text ++ ",\n" := by
  rw [← String.toList_inj]
  cases on : o.serde with
  | false => simp [rawCaseText, on, Text.times]
  | true => simp [rawCaseText, on, Text.times]

theorem Rust.text_accessorArm (o : RustOptions) (c : RawCasePlan) :
    (accessorArm o c).text = "            Self::" ++ ((lexicon o).identifier .case c.name).text
      ++ " => " ++ Text.bracedLiteral c.rawValue ++ ",\n" := by
  rw [← String.toList_inj]
  simp [accessorArm, Text.times]

theorem Rust.text_accessorText (o : RustOptions) (p : RawPlan) :
    (accessorText o p).text =
      accessorLayout o p.name (p.cases.map (·.spell (lexicon o) Text.bracedLiteral)) := by
  unfold accessorText accessorLayout
  rw [List.isEmpty_map]
  split
  · rw [← String.toList_inj]
    simp [text_accessorArm, RawCasePlan.spell, Text.times, Function.comp_def]
  · rfl

theorem Rust.text_rawEnumText (o : RustOptions) (p : RawPlan) :
    (rawEnumText o p).text =
      rawEnumLayout o p.name p.doc (p.cases.map (·.name))
        (p.cases.map (·.spell (lexicon o) Text.bracedLiteral)) := by
  rw [← String.toList_inj]
  simp [rawEnumText, rawEnumLayout, variantsLayout, text_accessorText, text_rawCaseText,
    RawCasePlan.spell, Text.times, Function.comp_def]

/-- A text keyword has its own key only. -/
theorem OpenApi.filter_textEntry {key other : String} (differ : key ≠ other) (t : Option String) :
    (SchemaObject.textEntry key t).filter (·.1 == other) = [] := by
  cases t with
  | none => rfl
  | some text => simp [SchemaObject.textEntry, differ]

theorem OpenApi.filter_textsEntry {key other : String} (differ : key ≠ other) (ts : List String) :
    (SchemaObject.textsEntry key ts).filter (·.1 == other) = [] := by
  cases ts with
  | nil => rfl
  | cons t ts => simp [SchemaObject.textsEntry, differ]

theorem OpenApi.filter_textsEntry_self (key : String) (ts : List String) :
    (SchemaObject.textsEntry key ts).filter (·.1 == key) =
      if ts = [] then [] else [(key, .sequence (ts.map .string))] := by
  cases ts with
  | nil => rfl
  | cons t ts => simp [SchemaObject.textsEntry]

/-- The schema object of an enumeration lists its raw values below one key. -/
theorem OpenApi.exists_toYaml_rawEnumObject (p : RawPlan) :
    ∃ entries, (rawEnumObject p).toYaml = .mapping entries ∧
      entries.filter (·.1 == "enum") =
        if p.cases.map (·.rawValue) = [] then []
        else [("enum", .sequence ((p.cases.map (·.rawValue)).map .string))] := by
  refine ⟨_, by rw [rawEnumObject, SchemaObject.toYaml], ?_⟩
  simp [filter_textEntry, filter_textsEntry, filter_textsEntry_self, SchemaObject.objectEntry,
    SchemaObject.objectsEntry, SchemaObject.propertiesEntry]

/-! ## Cases keep their raw values -/

/-- A case with its name changed by a rule. -/
def RawCase.renamed (rule : Option RenameRule) (c : RawCase) : RawCase :=
  { c with name := renameCase rule c.name }

/-- A declared raw value is kept: neither the rule nor the name that could stand in matters. -/
theorem RawCase.rawValue_plan_renamed (rule : Option RenameRule) {c : RawCase} {raw : String}
    (known : c.rawValue = some raw) : (c.renamed rule).plan.rawValue = raw := by
  simp [RawCase.plan, RawCase.renamed, known]

/-- Cases are spelled as they should be if all raw values are declared. -/
theorem RawCase.forall₂_spelledAs {lexicon : Lexicon} {rule : Option RenameRule}
    {read : List Char → Option (String × List Char)} {literal : String → String}
    (reads : ∀ s rest, read ((literal s).toList ++ rest) = some (s, rest)) {cases : List RawCase}
    (declared : ∀ c ∈ cases, c.rawValue ≠ none) :
    List.Forall₂ (RawCase.SpelledAs lexicon rule read) cases
      (((cases.map (RawCase.renamed rule)).map RawCase.plan).map (·.spell lexicon literal)) := by
  rw [List.map_map, List.map_map, List.forall₂_map_right_iff, List.forall₂_same]
  intro c inside
  obtain ⟨raw, known⟩ := Option.ne_none_iff_exists'.mp (declared c inside)
  refine ⟨rfl, rfl, raw, known, fun rest => ?_⟩
  rw [← RawCase.rawValue_plan_renamed rule known]
  exact reads _ rest

/-- **The text of an enumeration holds its raw values**, for every target and whatever rule changes
the names of its cases. -/
theorem Backend.writesRawEnum_chunk (b : Backend) (rule : Option RenameRule)
    (name : String) (doc : Doc) {cases : List RawCase}
    (declared : ∀ c ∈ cases, c.rawValue ≠ none) :
    b.WritesRawEnum rule name doc cases (b.chunk
      (.enumeration ⟨name, .raw (cases.map (RawCase.renamed rule)), doc⟩)) := by
  rw [Backend.chunk_eq]
  cases b with
  | swift o =>
      exact ⟨_, RawCase.forall₂_spelledAs Text.readBracedLiteral_append declared,
        Swift.text_rawEnumText o _⟩
  | typeScript o =>
      exact ⟨_, RawCase.forall₂_spelledAs Text.readFourDigitLiteral_append declared,
        TypeScript.text_rawEnumText o rfl⟩
  | rust o =>
      refine ⟨_, RawCase.forall₂_spelledAs Text.readBracedLiteral_append declared, ?_⟩
      have names : cases.map (fun c => renameCase rule c.name) =
          ((cases.map (RawCase.renamed rule)).map RawCase.plan).map (·.name) := by
        rw [List.map_map, List.map_map]
        rfl
      rw [names]
      exact Rust.text_rawEnumText o _
  | openApi o =>
      obtain ⟨entries, form, listed⟩ := OpenApi.exists_toYaml_rawEnumObject
        ⟨name, doc, .native, (cases.map (RawCase.renamed rule)).map RawCase.plan⟩
      refine ⟨_, entries, ?_, listed, ?_⟩
      · rw [List.map_map, List.map_map, List.map_map]
        refine List.map_congr_left fun c inside => ?_
        obtain ⟨raw, known⟩ := Option.ne_none_iff_exists'.mp (declared c inside)
        rw [known]
        exact congrArg some (RawCase.rawValue_plan_renamed rule known).symm
      · rw [← form]
        simp only [Backend.fragment, Backend.representationText, Declaration.represent,
          OpenApi.declarationText, OpenApi.declarationObject, Fragment.text_ofText]
        rfl

end SchemaPress
