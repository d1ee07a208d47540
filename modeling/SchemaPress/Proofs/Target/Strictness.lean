import SchemaPress.Proofs.Target.Collision
import SchemaPress.Proofs.Text.Lines

/-!
# Reporting and escaping

A backend either reports the reserved words among its identifiers and writes them as they are, or it
escapes them. The two ways of rendering a schema go through the same steps, so their texts are put
together from parts that belong together. In each part either no reserved word stands, and then the
texts are equal, or some word has been escaped, and then the escaped text has more characters that
are visible, which are all but line feeds (`Fragment.InStep`). This relation is kept by everything
that puts fragments together. Putting the end of a text in order drops and adds line feeds only, so
it cannot make up for an escaped word.

Thus the two renderings have the same text exactly if the one that reports has nothing to report
(`Backend.text_eq_escaped_iff`).
-/

set_option autoImplicit false

namespace SchemaPress

/-! ## Visible characters -/

namespace Text

/-- The number of characters of a text that are not line feeds. -/
def visible (cs : List Char) : Nat :=
  cs.countP (· ≠ '\n')

theorem visible_append (cs ds : List Char) : visible (cs ++ ds) = visible cs + visible ds :=
  List.countP_append

/-- Putting the end of a text in order changes no visible character. -/
theorem visible_endWithBreak (s : String) : visible (endWithBreak s).toList = visible s.toList := by
  apply apply_endWithBreak (f := visible)
  intro cs
  rw [visible_append]
  rfl

end Text

open Text (visible)

/-! ## Fragments of two runs -/

namespace Fragment

/-- Fragments that two runs write in the same place, the first one reporting reserved words and the
second one escaping them. -/
inductive InStep (reporting escaping : Fragment) : Prop where
  | same (quiet : reporting.collisions = []) (text : reporting.text = escaping.text)
  | longer (clash : reporting.collisions ≠ [])
      (more : visible reporting.text.toList < visible escaping.text.toList)

namespace InStep

variable {f g f' g' : Fragment}

/-- Escaping never makes a text shorter. -/
theorem visible_le (step : InStep f g) : visible f.text.toList ≤ visible g.text.toList := by
  cases step with
  | same quiet text => exact Nat.le_of_eq (congrArg (visible ·.toList) text)
  | longer clash more => exact Nat.le_of_lt more

theorem ofText (s : String) : InStep (Fragment.ofText s) (Fragment.ofText s) :=
  .same rfl rfl

theorem of_quiet (quiet : f.collisions = []) : InStep f f :=
  .same quiet rfl

theorem append (first : InStep f g) (second : InStep f' g') : InStep (f ++ f') (g ++ g') := by
  have collisions : (f ++ f').collisions = f.collisions ++ f'.collisions := rfl
  have reporting : visible (f ++ f').text.toList =
      visible f.text.toList + visible f'.text.toList := by
    rw [text_append, String.toList_append, Text.visible_append]
  have escaping : visible (g ++ g').text.toList =
      visible g.text.toList + visible g'.text.toList := by
    rw [text_append, String.toList_append, Text.visible_append]
  -- A word that is escaped in one of the parts is not outweighed by the other part.
  cases first with
  | same quiet text =>
      cases second with
      | same quiet' text' =>
          apply InStep.same
          · rw [collisions, quiet, quiet', List.append_nil]
          · rw [text_append, text_append, text, text']
      | longer clash more =>
          apply InStep.longer
          · rw [collisions, quiet, List.nil_append]
            exact clash
          · rw [reporting, escaping, text]
            exact Nat.add_lt_add_left more _
  | longer clash more =>
      apply InStep.longer
      · intro empty
        exact clash (List.append_eq_nil_iff.mp empty).1
      · rw [reporting, escaping]
        exact Nat.add_lt_add_of_lt_of_le more second.visible_le

/-- A text in front of both fragments. -/
theorem after (s : String) (step : InStep f g) :
    InStep (Fragment.ofText s ++ f) (Fragment.ofText s ++ g) :=
  (ofText s).append step

/-- A text behind both fragments. -/
theorem before (s : String) (step : InStep f g) :
    InStep (f ++ Fragment.ofText s) (g ++ Fragment.ofText s) :=
  step.append (ofText s)

theorem line (level : Nat) (step : InStep f g) :
    InStep (Fragment.line level f) (Fragment.line level g) :=
  (step.after _).before _

/-- Members and a last line below both fragments. -/
theorem enclose (opening : InStep f g) (members : InStep f' g') (closing : String) :
    InStep (f ++ f' ++ Fragment.line 0 (Fragment.ofText closing))
      (g ++ g' ++ Fragment.line 0 (Fragment.ofText closing)) :=
  (opening.append members).append ((ofText closing).line 0)

variable {α : Type} {text text' : α → Fragment}

/-- Members that are in step one by one are in step together. -/
theorem concat (each : ∀ x, InStep (text x) (text' x)) (xs : List α) :
    InStep (Fragment.concat (xs.map text)) (Fragment.concat (xs.map text')) := by
  induction xs with
  | nil => exact ofText ""
  | cons x xs ih => exact (each x).append ih

theorem join (separator : String) (each : ∀ x, InStep (text x) (text' x)) (xs : List α) :
    InStep (Fragment.join separator (xs.map text)) (Fragment.join separator (xs.map text')) := by
  induction xs with
  | nil => exact ofText ""
  | cons x xs ih =>
      cases xs with
      | nil => exact each x
      | cons next xs => exact ((each x).before separator).append ih

end InStep

end Fragment

open Fragment (InStep)

/-! ## Identifiers -/

namespace Lexicon

/-- The lexicon with reserved words reported or escaped. -/
def withStrict (l : Lexicon) (strict : Bool) : Lexicon :=
  { l with strict := strict }

/-- Escaping a word adds visible characters to it. -/
def Marks (l : Lexicon) : Prop :=
  ∀ position word, visible word.toList < visible (l.escapeReserved position word).toList

variable {l : Lexicon}

@[simp]
theorem strict_withStrict (strict : Bool) : (l.withStrict strict).strict = strict := rfl

@[simp]
theorem isReserved_withStrict (strict : Bool) (name : String) :
    (l.withStrict strict).isReserved name = l.isReserved name := rfl

@[simp]
theorem escapeReserved_withStrict (strict : Bool) :
    (l.withStrict strict).escapeReserved = l.escapeReserved := rfl

@[simp]
theorem natives_withStrict (strict : Bool) : (l.withStrict strict).natives = l.natives := rfl

theorem Marks.inStep_identifier (marks : l.Marks) (position : Position) (name : String) :
    InStep ((l.withStrict true).identifier position name)
      ((l.withStrict false).identifier position name) := by
  cases reserved : l.isReserved name with
  | false =>
      have plain : ∀ strict, (l.withStrict strict).identifier position name =
          Fragment.ofText name := by
        intro strict
        simp [identifier, escape, reserved]
      rw [plain, plain]
      exact .ofText name
  | true =>
      have reporting : (l.withStrict true).identifier position name = ⟨name, [name]⟩ := by
        simp [identifier, reserved]
      have escaping : (l.withStrict false).identifier position name =
          Fragment.ofText (l.escapeReserved position name) := by
        simp [identifier, escape, reserved]
      rw [reporting, escaping]
      exact .longer (List.cons_ne_nil name []) (marks position name)

theorem Marks.inStep_reference (marks : l.Marks) (name : String) :
    InStep ((l.withStrict true).reference name) ((l.withStrict false).reference name) := by
  simp only [reference, natives_withStrict]
  cases l.natives.get? name with
  | some native => exact .ofText native
  | none => exact marks.inStep_identifier .declaration name

end Lexicon

/-! ## Swift -/

namespace Swift

/-- The options with reserved words reported or escaped. -/
def withStrict (o : SwiftOptions) (strict : Bool) : SwiftOptions :=
  { o with strictIdentifiers := strict }

variable (o : SwiftOptions)

theorem marks_lexicon : (lexicon o).Marks := by
  intro position word
  change _ < visible ("`" ++ word ++ "`").toList
  rw [String.toList_append, String.toList_append, Text.visible_append, Text.visible_append]
  have tick : visible "`".toList = 1 := by decide
  omega

theorem inStep_identifier (position : Position) (name : String) :
    InStep ((lexicon (withStrict o true)).identifier position name)
      ((lexicon (withStrict o false)).identifier position name) :=
  (marks_lexicon o).inStep_identifier position name

theorem inStep_typeText (type : TypeRef) :
    InStep (typeText (withStrict o true) type) (typeText (withStrict o false) type) := by
  induction type with
  | primitive name => exact .ofText _
  | named name => exact (marks_lexicon o).inStep_reference name
  | optional inner ih => exact ih.before "?"
  | sequence inner ih => exact (ih.after "[").before "]"

theorem inStep_fieldText (f : Field) :
    InStep (fieldText (withStrict o true) f) (fieldText (withStrict o false) f) := by
  have name := inStep_identifier o .field f.name
  have type := inStep_typeText o f.type
  exact ((((name.after _).before _).append type).line 1).after _

theorem inStep_rawCaseText (c : RawCasePlan) :
    InStep (rawCaseText (withStrict o true) c) (rawCaseText (withStrict o false) c) := by
  have name := inStep_identifier o .case c.name
  exact ((((name.after _).before _).before _).line 1).after _

theorem inStep_unionCaseText (c : UnionCase) :
    InStep (unionCaseText (withStrict o true) c) (unionCaseText (withStrict o false) c) := by
  have name := inStep_identifier o .case c.name
  have payload : InStep (payloadText (withStrict o true) c.payload)
      (payloadText (withStrict o false) c.payload) := by
    cases c.payload with
    | none => exact .ofText ""
    | some type => exact ((inStep_typeText o type).after _).before _
  exact (((name.after _).append payload).line 1).after _

theorem inStep_declarationText (r : Representation) :
    InStep (declarationText (withStrict o true) r) (declarationText (withStrict o false) r) := by
  match r with
  | .alias a =>
      have name := inStep_identifier o .declaration a.name
      have type := inStep_typeText o a.target
      exact ((((name.after _).before _).append type).line 0).after _
  | .record r =>
      have name := inStep_identifier o .declaration r.name
      have fields := InStep.concat (inStep_fieldText o) r.fields
      exact (((((name.after _).before _).before _).line 0).after _).enclose fields _
  | .rawEnum p =>
      have name := inStep_identifier o .declaration p.name
      have members := InStep.concat (inStep_rawCaseText o) p.cases
      exact (((((name.after _).before _).before _).line 0).after _).enclose members _
  | .union p =>
      have name := inStep_identifier o .declaration p.name
      have members := InStep.concat (inStep_unionCaseText o) p.cases
      exact (((((name.after _).before _).before _).line 0).after _).enclose members _

end Swift

/-! ## Rust -/

namespace Rust

/-- The options with reserved words reported or escaped. -/
def withStrict (o : RustOptions) (strict : Bool) : RustOptions :=
  { o with strictIdentifiers := strict }

variable (o : RustOptions)

theorem marks_lexicon : (lexicon o).Marks := by
  intro position word
  change _ < visible (if neverRaw.contains word then word ++ "_" else "r#" ++ word).toList
  have underscore : visible "_".toList = 1 := by decide
  have raw : visible "r#".toList = 2 := by decide
  split
  · rw [String.toList_append, Text.visible_append]
    omega
  · rw [String.toList_append, Text.visible_append]
    omega

theorem inStep_identifier (position : Position) (name : String) :
    InStep ((lexicon (withStrict o true)).identifier position name)
      ((lexicon (withStrict o false)).identifier position name) :=
  (marks_lexicon o).inStep_identifier position name

theorem inStep_typeText (type : TypeRef) :
    InStep (typeText (withStrict o true) type) (typeText (withStrict o false) type) := by
  induction type with
  | primitive name => exact .ofText _
  | named name => exact (marks_lexicon o).inStep_reference name
  | optional inner ih => exact (ih.after "Option<").before ">"
  | sequence inner ih => exact (ih.after "Vec<").before ">"

/-- The lines above a type are the same in both runs. -/
theorem inStep_top (doc : Doc) (lint : String) (trips : String → Bool) (names : List String) :
    InStep (docText doc 0 ++ deriveLine (withStrict o true) ++ allowLine lint trips names)
      (docText doc 0 ++ deriveLine (withStrict o false) ++ allowLine lint trips names) := by
  have derives : InStep (deriveLine (withStrict o true)) (deriveLine (withStrict o false)) :=
    .of_quiet (collisions_deriveLine o)
  exact (derives.after _).append (.of_quiet (collisions_allowLine lint trips names))

theorem inStep_fieldText (f : Field) :
    InStep (fieldText (withStrict o true) f) (fieldText (withStrict o false) f) := by
  have marker : InStep (optionalAttribute (withStrict o true) f)
      (optionalAttribute (withStrict o false) f) :=
    .of_quiet (collisions_optionalAttribute o f)
  have name := inStep_identifier o .field f.name
  have type := inStep_typeText o f.type
  exact (marker.after _).append ((((name.after _).before _).append type).before _ |>.line 1)

theorem inStep_bodyText (fields : List Field) :
    InStep (bodyText (withStrict o true) fields) (bodyText (withStrict o false) fields) := by
  have members := InStep.concat (inStep_fieldText o) fields
  cases fields with
  | nil => exact .ofText _
  | cons f fields => exact (InStep.ofText _).enclose members _

theorem inStep_rawCaseText (c : RawCasePlan) :
    InStep (rawCaseText (withStrict o true) c) (rawCaseText (withStrict o false) c) := by
  have name := inStep_identifier o .case c.name
  have renamed : InStep
      (if o.serde then
        Fragment.line 1 ("#[serde(rename = " ++ Text.bracedLiteral c.rawValue ++ ")]" : String)
      else {})
      (if o.serde then
        Fragment.line 1 ("#[serde(rename = " ++ Text.bracedLiteral c.rawValue ++ ")]" : String)
      else {}) := by
    split
    · exact (InStep.ofText _).line 1
    · exact .ofText ""
  exact (renamed.after _).append ((name.before _).line 1)

theorem inStep_accessorArm (c : RawCasePlan) :
    InStep (accessorArm (withStrict o true) c) (accessorArm (withStrict o false) c) := by
  have name := inStep_identifier o .case c.name
  exact ((((name.after _).before _).before _).before _).line 3

theorem inStep_accessorText (p : RawPlan) :
    InStep (accessorText (withStrict o true) p) (accessorText (withStrict o false) p) := by
  have opening := (((inStep_identifier o .declaration p.name).after "impl ").before " \x7b").line 0
  have arms := InStep.concat (inStep_accessorArm o) p.cases
  have text : ∀ (level : Nat) (s : String),
      InStep (Fragment.line level (Fragment.ofText s)) (Fragment.line level (Fragment.ofText s)) :=
    fun level s => (InStep.ofText s).line level
  change InStep (if o.rawValueAccessors && !p.cases.isEmpty then _ else _)
    (if o.rawValueAccessors && !p.cases.isEmpty then _ else _)
  split
  · exact ((((((((opening.after _).append (text 1 _)).append (text 1 _)).append (text 2 _)).append
      arms).append (text 2 _)).append (text 1 _)).append (text 0 _))
  · exact .ofText ""

theorem inStep_unionCaseText (c : UnionCase) :
    InStep (unionCaseText (withStrict o true) c) (unionCaseText (withStrict o false) c) := by
  have name := inStep_identifier o .case c.name
  have payload : InStep (payloadText (withStrict o true) c.payload)
      (payloadText (withStrict o false) c.payload) := by
    cases c.payload with
    | none => exact .ofText ""
    | some type => exact ((inStep_typeText o type).after _).before _
  exact (((name.append payload).before _).line 1).after _

theorem inStep_declarationText (r : Representation) :
    InStep (declarationText (withStrict o true) r) (declarationText (withStrict o false) r) := by
  match r with
  | .alias a =>
      have name := inStep_identifier o .declaration a.name
      have type := inStep_typeText o a.target
      exact (((((name.after _).before _).append type).before _).line 0).after _
  | .record r =>
      have top := inStep_top o r.doc "non_snake_case" tripsFieldLint (r.fields.map (·.name))
      have name := inStep_identifier o .declaration r.name
      have body := inStep_bodyText o r.fields
      exact ((((top.before _).before _).append name).before _).append body
  | .rawEnum p =>
      have top := inStep_top o p.doc "non_camel_case_types" tripsCaseLint (p.cases.map (·.name))
      have name := inStep_identifier o .declaration p.name
      have members := InStep.concat (inStep_rawCaseText o) p.cases
      exact ((top.append (((name.after _).before _).line 0)).enclose members _).append
        (inStep_accessorText o p)
  | .union p =>
      have top := inStep_top o p.doc "non_camel_case_types" tripsCaseLint (p.cases.map (·.name))
      have name := inStep_identifier o .declaration p.name
      have members := InStep.concat (inStep_unionCaseText o) p.cases
      exact (top.append (((name.after _).before _).line 0)).enclose members _

end Rust

/-! ## TypeScript -/

namespace TypeScript

/-- The options with reserved words reported or escaped. -/
def withStrict (o : TypeScriptOptions) (strict : Bool) : TypeScriptOptions :=
  { o with strictIdentifiers := strict }

variable (o : TypeScriptOptions)

theorem marks_lexicon : (lexicon o).Marks := by
  intro position word
  change _ < visible (escapeReserved position word).toList
  have underscore : visible "_".toList = 1 := by decide
  have quote : visible "\"".toList = 1 := by decide
  cases position with
  | declaration =>
      rw [escapeReserved, String.toList_append, Text.visible_append]
      omega
  | field | case =>
      rw [escapeReserved, String.toList_append, String.toList_append, Text.visible_append,
        Text.visible_append]
      omega

theorem inStep_identifier (position : Position) (name : String) :
    InStep ((lexicon (withStrict o true)).identifier position name)
      ((lexicon (withStrict o false)).identifier position name) :=
  (marks_lexicon o).inStep_identifier position name

theorem inStep_typeText (type : TypeRef) :
    InStep (typeText (withStrict o true) type) (typeText (withStrict o false) type) := by
  induction type with
  | primitive name => exact .ofText _
  | named name => exact (marks_lexicon o).inStep_reference name
  | optional inner ih => exact ih.before " | undefined"
  | sequence inner ih =>
      rw [typeText, typeText]
      split
      · exact (ih.after "(").before ")[]"
      · exact ih.before "[]"

theorem inStep_fieldText (f : Field) :
    InStep (fieldText (withStrict o true) f) (fieldText (withStrict o false) f) := by
  have name := inStep_identifier o .field f.name
  have property : InStep (propertyText (withStrict o true) f.type)
      (propertyText (withStrict o false) f.type) := by
    cases f.type with
    | optional inner => exact (inStep_typeText o inner).after "?: "
    | primitive | named | sequence => exact (inStep_typeText o _).after ": "
  exact ((name.append property).line 1).after _

theorem inStep_openRecord (name : String) :
    InStep (openRecord (withStrict o true) name) (openRecord (withStrict o false) name) := by
  have written := inStep_identifier o .declaration name
  have style : ∀ strict, (withStrict o strict).objectStyle = o.objectStyle := fun _ => rfl
  simp only [openRecord, style]
  cases o.objectStyle with
  | typeLiteral => exact (written.after _).before _
  | interface => exact (written.after _).before _

theorem inStep_rawCaseText (sign : String) (c : RawCasePlan) (comma : String) :
    InStep (rawCaseText (withStrict o true) sign c comma)
      (rawCaseText (withStrict o false) sign c comma) := by
  have name := inStep_identifier o .case c.name
  exact (((((name.before _).before _).before _).before _).line 1).after _

theorem inStep_rawCasesText (sign : String) (cases : List RawCasePlan) :
    InStep (rawCasesText (withStrict o true) sign cases)
      (rawCasesText (withStrict o false) sign cases) := by
  induction cases with
  | nil => exact .ofText ""
  | cons c cases ih =>
      cases cases with
      | nil => exact inStep_rawCaseText o sign c ""
      | cons next cases => exact (inStep_rawCaseText o sign c ",").append ih

theorem inStep_alternativeText (c : UnionCase) :
    InStep (alternativeText (withStrict o true) c) (alternativeText (withStrict o false) c) := by
  obtain ⟨name, payload, doc⟩ := c
  cases payload with
  | none => exact .ofText _
  | some type =>
      have key := inStep_identifier o .case name
      exact (((key.after _).before _).append (inStep_typeText o type)).before _

theorem inStep_rawEnumText (p : RawPlan) :
    InStep (rawEnumText (withStrict o true) p) (rawEnumText (withStrict o false) p) := by
  obtain ⟨written, doc, form, members⟩ := p
  have name := inStep_identifier o .declaration written
  have entries := fun sign => inStep_rawCasesText o sign members
  cases form with
  | native =>
      exact ((((name.after _).before _).line 0).enclose (entries _) _).after _
  | constantSet =>
      -- The type of the values mentions the constant object twice.
      exact (((((name.after _).before _).line 0).enclose (entries _) _).append
        (((((((name.after _).before _).append name).before _).append name).before _).line 0)).after _

theorem inStep_unionText (p : UnionPlan) :
    InStep (unionText (withStrict o true) p) (unionText (withStrict o false) p) := by
  have opening := ((inStep_identifier o .declaration p.name).after
    (exportText o ++ "type ")).before " ="
  have layout : ∀ strict, (withStrict o strict).unionLayout = o.unionLayout := fun _ => rfl
  simp only [unionText, layout]
  apply InStep.after
  split
  · exact (opening.before _).line 0
  · split
    · have alternatives := InStep.join " | "
        (fun c => (inStep_alternativeText o c).after (inlineDoc c.doc)) p.cases
      exact ((opening.before _).append alternatives).line 0
    · have alternatives := InStep.concat
        (fun c => (((inStep_alternativeText o c).after "| ").line 1).after (docText o c.doc 1))
        p.cases
      exact (opening.line 0).append alternatives

theorem inStep_declarationText (r : Representation) :
    InStep (declarationText (withStrict o true) r) (declarationText (withStrict o false) r) := by
  match r with
  | .alias a =>
      have name := inStep_identifier o .declaration a.name
      have type := inStep_typeText o a.target
      exact ((((name.after _).before _).append type).line 0).after _
  | .record r =>
      have fields := InStep.concat (inStep_fieldText o) r.fields
      exact (((inStep_openRecord o r.name).line 0).after _).enclose fields _
  | .rawEnum p => exact inStep_rawEnumText o p
  | .union p => exact inStep_unionText o p

end TypeScript

/-! ## Schemas -/

namespace Backend

/-- The backend with reserved words reported or escaped and all other options as they are. An
interface description has no reserved words. -/
def withStrict (strict : Bool) : Backend → Backend
  | .swift o => .swift (Swift.withStrict o strict)
  | .typeScript o => .typeScript (TypeScript.withStrict o strict)
  | .rust o => .rust (Rust.withStrict o strict)
  | .openApi o => .openApi o

variable (b : Backend)

theorem inStep_fragment (d : Declaration) :
    InStep ((b.withStrict true).fragment d) ((b.withStrict false).fragment d) := by
  cases b with
  | swift o => exact Swift.inStep_declarationText o _
  | typeScript o => exact TypeScript.inStep_declarationText o _
  | rust o => exact Rust.inStep_declarationText o _
  | openApi o => exact .of_quiet rfl

theorem inStep_schemaText (s : Schema) :
    InStep ((b.withStrict true).schemaText s) ((b.withStrict false).schemaText s) := by
  have headers : (b.withStrict true).header s = (b.withStrict false).header s := by
    cases b <;> rfl
  have separators : (b.withStrict true).separator = (b.withStrict false).separator := by
    cases b <;> rfl
  rw [schemaText, schemaText, headers, separators]
  exact (InStep.join _ b.inStep_fragment s.declarations).after _

/-- Nothing is reported exactly if no reserved word stands in the text. -/
theorem diagnostics_render_eq_nil_iff (s : Schema) :
    (b.render s).diagnostics = [] ↔ (b.schemaText s).collisions = [] := by
  rw [diagnostics_render, List.eq_nil_iff_forall_not_mem]
  simp only [Emission.mem_foldl_report, List.not_mem_nil, false_or]
  rw [← List.eq_nil_iff_forall_not_mem, List.map_eq_nil_iff]

/-- **Reporting and escaping agree off collisions.** With all other options alike, the text in which
reserved words stand as they are is the text in which they are escaped exactly if nothing is
reported. -/
theorem text_eq_escaped_iff (s : Schema) :
    ((b.withStrict true).render s).text = ((b.withStrict false).render s).text ↔
      ((b.withStrict true).render s).diagnostics = [] := by
  rw [diagnostics_render_eq_nil_iff, text_render, text_render]
  cases b.inStep_schemaText s with
  | same quiet text =>
      rw [text]
      exact ⟨fun _ => quiet, fun _ => rfl⟩
  | longer clash more =>
      constructor
      · intro alike
        have visible_eq := congrArg (fun t : String => visible t.toList) alike
        simp only [Text.visible_endWithBreak] at visible_eq
        exact absurd visible_eq (Nat.ne_of_lt more)
      · intro quiet
        exact absurd quiet clash

end Backend

end SchemaPress
