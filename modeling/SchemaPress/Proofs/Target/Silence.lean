import SchemaPress.Proofs.Schema.Map
import SchemaPress.Proofs.Target.Emission
import SchemaPress.Proofs.Text.CodeLines

/-!
# Docs do not change the code

Where docs are written with markers, they stand on lines of their own. So a schema without its docs
has the same code as the schema itself: the texts are put together from complete parts, and parts
that belong together either are equal or are docs, which have no code (`Fragment.SameCode`). Two
schemas that differ in their docs only have the same code and the same diagnostics
(`Backend.code_render_eq`).

In Swift and Rust this is so for all schemas. In TypeScript docs may be written as blocks instead,
and the docs of union cases decide how the union is laid out.
-/

set_option autoImplicit false

namespace SchemaPress

open Text (code Complete)

/-! ## Schemas without docs -/

/-- A field without its doc. -/
def Field.silent : Field → Field :=
  Field.mapDocs fun _ => {}

/-- A union case without its doc. -/
def UnionCase.silent : UnionCase → UnionCase :=
  UnionCase.mapDocs fun _ => {}

/-- A declaration without its docs. -/
def Declaration.silent : Declaration → Declaration :=
  Declaration.mapDocs fun _ => {}

/-- A schema without its docs. -/
def Schema.silent : Schema → Schema :=
  Schema.mapDocs fun _ => {}

/-- A raw case without its doc. -/
def RawCasePlan.silent (c : RawCasePlan) : RawCasePlan :=
  { c with doc := {} }

/-- A representation without its docs. -/
def Representation.silent : Representation → Representation
  | .alias a => .alias { a with doc := {} }
  | .record r => .record { r with fields := r.fields.map Field.silent, doc := {} }
  | .rawEnum p => .rawEnum { p with cases := p.cases.map RawCasePlan.silent, doc := {} }
  | .union p => .union { p with cases := p.cases.map UnionCase.silent, doc := {} }

theorem Declaration.represent_silent (caps : Capabilities) (d : Declaration) :
    d.silent.represent caps = (d.represent caps).silent := by
  match d with
  | .alias a => rfl
  | .record r => rfl
  | .enumeration ⟨name, .raw cases, doc⟩ =>
      have plans : (cases.map (RawCase.mapDocs fun _ => {})).map RawCase.plan =
          (cases.map RawCase.plan).map RawCasePlan.silent := by
        rw [List.map_map, List.map_map]
        rfl
      change Representation.rawEnum ⟨name, {}, caps.rawEnums, _⟩ = .rawEnum ⟨name, {}, _, _⟩
      rw [plans]
  | .enumeration ⟨name, .union cases, doc⟩ => rfl

/-- A union case without a doc has nothing to lose. -/
theorem UnionCase.silent_of_isEmpty {c : UnionCase} (none_given : c.doc.isEmpty = true) :
    c.silent = c := by
  obtain ⟨name, payload, ⟨lines, unbroken⟩⟩ := c
  obtain rfl : lines = [] := List.isEmpty_iff.mp none_given
  rfl

/-! ## Fragments with the same code -/

namespace Fragment

/-- Fragments that are put together from complete lines, with the same code and the same reserved
words. -/
structure SameCode (f g : Fragment) : Prop where
  complete : Complete f.text.toList
  complete' : Complete g.text.toList
  code : code f.text.toList = code g.text.toList
  collisions : f.collisions = g.collisions

theorem append_assoc (f g h : Fragment) : f ++ g ++ h = f ++ (g ++ h) := by
  change Fragment.mk (f.text ++ g.text ++ h.text) (f.collisions ++ g.collisions ++ h.collisions) =
    ⟨f.text ++ (g.text ++ h.text), f.collisions ++ (g.collisions ++ h.collisions)⟩
  rw [String.append_assoc, List.append_assoc]

theorem complete_append_line (f : Fragment) (level : Nat) (g : Fragment) :
    Complete (f ++ Fragment.line level g).text.toList := by
  rw [text_append, text_line, ← String.append_assoc, String.toList_append]
  exact Text.complete_concat _

theorem complete_line (level : Nat) (f : Fragment) :
    Complete (Fragment.line level f).text.toList := by
  rw [text_line, String.toList_append]
  exact Text.complete_concat _

namespace SameCode

variable {f g f' g' : Fragment}

theorem of_complete (complete : Complete f.text.toList) : SameCode f f :=
  ⟨complete, complete, rfl, rfl⟩

theorem line (level : Nat) (f : Fragment) :
    SameCode (Fragment.line level f) (Fragment.line level f) :=
  of_complete (complete_line level f)

theorem append (upper : SameCode f g) (lower : SameCode f' g') : SameCode (f ++ f') (g ++ g') where
  complete := by
    rw [text_append, String.toList_append]
    exact upper.complete.append lower.complete
  complete' := by
    rw [text_append, String.toList_append]
    exact upper.complete'.append lower.complete'
  code := by
    rw [text_append, text_append, String.toList_append, String.toList_append,
      Text.code_append upper.complete, Text.code_append upper.complete', upper.code, lower.code]
  collisions := by
    change f.collisions ++ f'.collisions = g.collisions ++ g'.collisions
    rw [upper.collisions, lower.collisions]

/-- Texts without code. -/
theorem remarks {s t : String} (complete : Complete s.toList ∧ Text.code s.toList = [])
    (complete' : Complete t.toList ∧ Text.code t.toList = []) :
    SameCode (Fragment.ofText s) (Fragment.ofText t) :=
  ⟨complete.1, complete'.1, complete.2.trans complete'.2.symm, rfl⟩

/-- Members that have the same code one by one have the same code together. -/
theorem concat {α : Type} (text : α → Fragment) (change : α → α)
    (each : ∀ x, SameCode (text x) (text (change x))) (xs : List α) :
    SameCode (Fragment.concat (xs.map text)) (Fragment.concat ((xs.map change).map text)) := by
  induction xs with
  | nil => exact of_complete Text.complete_nil
  | cons x xs ih => exact (each x).append ih

theorem join {α : Type} (text : α → Fragment) (change : α → α) {separator : String}
    (complete : Complete separator.toList) {xs : List α}
    (each : ∀ x ∈ xs, SameCode (text x) (text (change x))) :
    SameCode (Fragment.join separator (xs.map text))
      (Fragment.join separator ((xs.map change).map text)) := by
  have between : SameCode (Fragment.ofText separator) (Fragment.ofText separator) :=
    ⟨complete, complete, rfl, rfl⟩
  induction xs with
  | nil => exact of_complete Text.complete_nil
  | cons x xs ih =>
      have others := ih fun y member => each y (List.mem_cons_of_mem _ member)
      have first := each x List.mem_cons_self
      cases xs with
      | nil => exact first
      | cons y xs => exact (first.append between).append others

end SameCode

end Fragment

open Fragment (SameCode)

/-- A doc with markers is complete and has no code, whatever its indentation. -/
theorem Text.code_marked_indent (d : Doc) (level : Nat) :
    Complete (d.marked (times level "    ") "///").toList ∧
      code (d.marked (times level "    ") "///").toList = [] :=
  code_marked d (toList_indent level) (.inl rfl)

/-- The doc of a schema is followed by a blank line, which goes with it. -/
theorem Text.code_marked_blank (d : Doc) {marker : String}
    (comment : marker = "///" ∨ marker = "//!") :
    Complete (if d.isEmpty then "" else d.marked "" marker ++ "\n").toList ∧
      code (if d.isEmpty then "" else d.marked "" marker ++ "\n").toList = [] := by
  have flush : "".toList = List.replicate 0 ' ' := rfl
  obtain ⟨complete, silent⟩ := code_marked d flush comment
  split
  · exact ⟨complete_nil, rfl⟩
  · rw [String.toList_append, code_append complete, silent]
    exact ⟨Complete.prepend (by decide) (by decide) _, by decide⟩

/-! ## Swift -/

namespace Swift

variable (o : SwiftOptions)

theorem sameCode_docText (d d' : Doc) (level : Nat) :
    SameCode (docText d level) (docText d' level) :=
  .remarks (Text.code_marked_indent d level) (Text.code_marked_indent d' level)

theorem sameCode_declarationText (r : Representation) :
    SameCode (declarationText o r) (declarationText o r.silent) := by
  match r with
  | .alias a => exact (sameCode_docText a.doc {} 0).append (.line 0 _)
  | .record r =>
      have fields := SameCode.concat (fieldText o) Field.silent
        (fun f => (sameCode_docText f.doc {} 1).append (.line 1 _)) r.fields
      exact (((sameCode_docText r.doc {} 0).append (.line 0 _)).append fields).append (.line 0 _)
  | .rawEnum p =>
      have members := SameCode.concat (rawCaseText o) RawCasePlan.silent
        (fun c => (sameCode_docText c.doc {} 1).append (.line 1 _)) p.cases
      exact (((sameCode_docText p.doc {} 0).append (.line 0 _)).append members).append (.line 0 _)
  | .union p =>
      have members := SameCode.concat (unionCaseText o) UnionCase.silent
        (fun c => (sameCode_docText c.doc {} 1).append (.line 1 _)) p.cases
      exact (((sameCode_docText p.doc {} 0).append (.line 0 _)).append members).append (.line 0 _)

theorem sameCode_header (s : Schema) : SameCode (header o s) (header o s.silent) := by
  have imports : Complete (if o.importFoundation then "import Foundation\n\n" else "").toList := by
    split
    · decide
    · exact Text.complete_nil
  exact (SameCode.of_complete (f := Fragment.ofText _) imports).append
    (.remarks (Text.code_marked_blank s.doc (.inl rfl)) (Text.code_marked_blank {} (.inl rfl)))

end Swift

/-! ## Rust -/

namespace Rust

variable (o : RustOptions)

theorem sameCode_docText (d d' : Doc) (level : Nat) :
    SameCode (docText d level) (docText d' level) :=
  .remarks (Text.code_marked_indent d level) (Text.code_marked_indent d' level)

theorem complete_deriveLine : Complete (deriveLine o).text.toList := by
  unfold deriveLine
  split
  · exact Text.complete_nil
  · exact Fragment.complete_line 0 _

theorem complete_allowLine (lint : String) (trips : String → Bool) (names : List String) :
    Complete (allowLine lint trips names).text.toList := by
  unfold allowLine
  split
  · exact Fragment.complete_line 0 _
  · exact Text.complete_nil

/-- What stands above a type: its doc, and the lines that do not depend on docs. -/
theorem sameCode_top (d : Doc) (lint : String) (trips : String → Bool) (names : List String) :
    SameCode (docText d 0 ++ deriveLine o ++ allowLine lint trips names)
      (docText {} 0 ++ deriveLine o ++ allowLine lint trips names) :=
  ((sameCode_docText d {} 0).append (.of_complete (complete_deriveLine o))).append
    (.of_complete (complete_allowLine lint trips names))

theorem sameCode_fieldText (f : Field) : SameCode (fieldText o f) (fieldText o f.silent) := by
  have above : Complete (optionalAttribute o f).text.toList := by
    unfold optionalAttribute
    split
    · exact Fragment.complete_line 1 _
    · exact Text.complete_nil
  exact ((sameCode_docText f.doc {} 1).append (.of_complete above)).append (.line 1 _)

theorem sameCode_rawCaseText (c : RawCasePlan) :
    SameCode (rawCaseText o c) (rawCaseText o c.silent) := by
  have above : Complete (if o.serde then
      Fragment.line 1 ("#[serde(rename = " ++ Text.bracedLiteral c.rawValue ++ ")]" : String)
      else {}).text.toList := by
    split
    · exact Fragment.complete_line 1 _
    · exact Text.complete_nil
  exact ((sameCode_docText c.doc {} 1).append (.of_complete above)).append (.line 1 _)

/-- The accessor is complete, and docs do not stand in it. -/
theorem sameCode_accessorText (p : RawPlan) :
    SameCode (accessorText o p)
      (accessorText o { p with cases := p.cases.map RawCasePlan.silent, doc := {} }) := by
  have arms :
      (p.cases.map RawCasePlan.silent).map (accessorArm o) = p.cases.map (accessorArm o) := by
    rw [List.map_map]
    rfl
  unfold accessorText
  rw [arms, List.isEmpty_map]
  split
  · exact .of_complete (Fragment.complete_append_line _ 0 _)
  · exact .of_complete Text.complete_nil

theorem sameCode_recordText (r : Record) :
    SameCode (recordText o r)
      (recordText o { r with fields := r.fields.map Field.silent, doc := {} }) := by
  have names : (r.fields.map Field.silent).map (·.name) = r.fields.map (·.name) := by
    rw [List.map_map]
    rfl
  have fields := SameCode.concat (fieldText o) Field.silent (sameCode_fieldText o) r.fields
  have body : ∀ front : Fragment,
      SameCode (front ++ bodyText o r.fields)
        (front ++ bodyText o (r.fields.map Field.silent)) := by
    intro front
    unfold bodyText
    rw [List.isEmpty_map]
    split
    · refine .of_complete ?_
      rw [Fragment.text_append, String.toList_append]
      exact Text.Complete.prepend (by decide) (by decide) _
    · -- The line that opens the body begins with what stands in front.
      have opening : Complete (front ++ Fragment.ofText "\x7b\n").text.toList := by
        rw [Fragment.text_append, String.toList_append]
        exact Text.Complete.prepend (by decide) (by decide) _
      rw [← Fragment.append_assoc, ← Fragment.append_assoc, ← Fragment.append_assoc,
        ← Fragment.append_assoc]
      exact ((SameCode.of_complete opening).append fields).append (.line 0 _)
  have parts : ∀ r : Record, recordText o r =
      (docText r.doc 0 ++ deriveLine o
        ++ allowLine "non_snake_case" tripsFieldLint (r.fields.map (·.name)))
      ++ ((visibility o ++ "struct " ++ (lexicon o).identifier .declaration r.name ++ " ")
        ++ bodyText o r.fields) := by
    intro r
    unfold recordText
    simp only [Fragment.append_assoc]
  rw [parts, parts, names]
  exact (sameCode_top o r.doc _ _ _).append (body _)

theorem sameCode_declarationText (r : Representation) :
    SameCode (declarationText o r) (declarationText o r.silent) := by
  match r with
  | .alias a => exact (sameCode_docText a.doc {} 0).append (.line 0 _)
  | .record r => exact sameCode_recordText o r
  | .rawEnum p =>
      have names : (p.cases.map RawCasePlan.silent).map (·.name) = p.cases.map (·.name) := by
        rw [List.map_map]
        rfl
      have members := SameCode.concat (rawCaseText o) RawCasePlan.silent (sameCode_rawCaseText o)
        p.cases
      change SameCode (rawEnumText o p)
        (rawEnumText o { p with cases := p.cases.map RawCasePlan.silent, doc := {} })
      unfold rawEnumText
      rw [names]
      exact ((((sameCode_top o p.doc _ _ _).append (.line 0 _)).append members).append
        (.line 0 _)).append (sameCode_accessorText o p)
  | .union p =>
      have names : (p.cases.map UnionCase.silent).map (·.name) = p.cases.map (·.name) := by
        rw [List.map_map]
        rfl
      have members := SameCode.concat (unionCaseText o) UnionCase.silent
        (fun c => (sameCode_docText c.doc {} 1).append (.line 1 _)) p.cases
      change SameCode (unionText o p)
        (unionText o { p with cases := p.cases.map UnionCase.silent, doc := {} })
      unfold unionText
      rw [names]
      exact (((sameCode_top o p.doc _ _ _).append (.line 0 _)).append members).append (.line 0 _)

theorem sameCode_header (s : Schema) : SameCode (header o s) (header o s.silent) := by
  have imports : Complete
      (if o.serde then "use serde::\x7bDeserialize, Serialize\x7d;\n\n" else "").toList := by
    split
    · decide
    · exact Text.complete_nil
  exact SameCode.append
    (.remarks (Text.code_marked_blank s.doc (.inr rfl)) (Text.code_marked_blank {} (.inr rfl)))
    (SameCode.of_complete (f := Fragment.ofText _) imports)

end Rust

/-! ## TypeScript -/

namespace TypeScript

variable {o : TypeScriptOptions} (marked : o.docStyle = .tripleSlash)
include marked

theorem sameCode_docText (d d' : Doc) (level : Nat) :
    SameCode (docText o d level) (docText o d' level) := by
  unfold docText
  rw [marked]
  exact .remarks (Text.code_marked_indent d level) (Text.code_marked_indent d' level)

theorem sameCode_rawCasesText (sign : String) (cases : List RawCasePlan) :
    SameCode (rawCasesText o sign cases)
      (rawCasesText o sign (cases.map RawCasePlan.silent)) := by
  have each : ∀ c comma, SameCode (rawCaseText o sign c comma)
      (rawCaseText o sign c.silent comma) := fun c comma =>
    (sameCode_docText marked c.doc {} 1).append (.line 1 _)
  induction cases with
  | nil => exact .of_complete Text.complete_nil
  | cons c cases ih =>
      cases cases with
      | nil => exact each c ""
      | cons next cases => exact (each c ",").append ih

/-- The cases of a union have to be undocumented, since their docs decide about its layout. -/
theorem sameCode_declarationText {r : Representation}
    (plain : ∀ p, r = .union p → ∀ c ∈ p.cases, c.doc.isEmpty = true) :
    SameCode (declarationText o r) (declarationText o r.silent) := by
  match r with
  | .alias a => exact (sameCode_docText marked a.doc {} 0).append (.line 0 _)
  | .record r =>
      have fields := SameCode.concat (fieldText o) Field.silent
        (fun f => (sameCode_docText marked f.doc {} 1).append (.line 1 _)) r.fields
      exact (((sameCode_docText marked r.doc {} 0).append (.line 0 _)).append fields).append
        (.line 0 _)
  | .rawEnum p =>
      have members := fun sign => sameCode_rawCasesText marked sign p.cases
      refine (sameCode_docText marked p.doc {} 0).append ?_
      dsimp only [Representation.silent]
      cases p.form with
      | native => exact ((SameCode.line 0 _).append (members _)).append (.line 0 _)
      | constantSet =>
          exact (((SameCode.line 0 _).append (members _)).append (.line 0 _)).append (.line 0 _)
  | .union p =>
      have undocumented := plain p rfl
      have same : p.cases.map UnionCase.silent = p.cases := by
        rw [List.map_congr_left fun c inside =>
          UnionCase.silent_of_isEmpty (undocumented c inside)]
        exact List.map_id p.cases
      have docless : p.hasCaseDocs = false := by
        simpa [UnionPlan.hasCaseDocs] using undocumented
      change SameCode (unionText o p)
        (unionText o { p with cases := p.cases.map UnionCase.silent, doc := {} })
      rw [same]
      refine (sameCode_docText marked p.doc {} 0).append (.of_complete ?_)
      rw [docless]
      split
      · exact Fragment.complete_line 0 _
      · exact Fragment.complete_line 0 _

theorem sameCode_header (s : Schema) : SameCode (header o s) (header o s.silent) := by
  unfold header docText
  rw [marked]
  exact .remarks (Text.code_marked_blank s.doc (.inl rfl)) (Text.code_marked_blank {} (.inl rfl))

end TypeScript

/-! ## Schemas -/

/-- Docs are written with markers, on lines of their own. In TypeScript this is a matter of style,
and the cases of unions have to be undocumented. -/
def Backend.MarksDocs : Backend → Schema → Prop
  | .swift _, _ => True
  | .rust _, _ => True
  | .typeScript o, s => o.docStyle = .tripleSlash ∧
      ∀ name cases doc, .enumeration ⟨name, .union cases, doc⟩ ∈ s.declarations →
        ∀ c ∈ cases, c.doc.isEmpty = true
  | .openApi _, _ => False

namespace Backend

variable {b : Backend} {s t : Schema}

theorem MarksDocs.sameCode_fragment (marks : b.MarksDocs s) {d : Declaration}
    (member : d ∈ s.declarations) :
    SameCode (b.fragment d) (b.fragment d.silent) := by
  unfold fragment
  rw [Declaration.represent_silent]
  cases b with
  | swift o => exact Swift.sameCode_declarationText o _
  | rust o => exact Rust.sameCode_declarationText o _
  | typeScript o =>
      obtain ⟨style, undocumented⟩ := marks
      refine TypeScript.sameCode_declarationText style ?_
      intro p union
      match d with
      | .enumeration ⟨name, .union cases, doc⟩ =>
          obtain rfl := Representation.union.inj union
          exact undocumented name cases doc member
      | .enumeration ⟨name, .raw cases, doc⟩ => cases union
      | .alias a => cases union
      | .record r => cases union
  | openApi o => exact marks.elim

theorem MarksDocs.sameCode_header (marks : b.MarksDocs s) :
    SameCode (b.header s) (b.header s.silent) := by
  cases b with
  | swift o => exact Swift.sameCode_header o s
  | rust o => exact Rust.sameCode_header o s
  | typeScript o => exact TypeScript.sameCode_header marks.1 s
  | openApi o => exact marks.elim

/-- A schema has the same code with its docs and without. -/
theorem MarksDocs.sameCode_schemaText (marks : b.MarksDocs s) :
    SameCode (b.schemaText s) (b.schemaText s.silent) := by
  have feed : Complete "\n".toList := by decide
  have separator : Complete b.separator.toList := by
    cases b with
    | swift o => exact feed
    | rust o => exact feed
    | typeScript o => exact feed
    | openApi o => exact marks.elim
  exact marks.sameCode_header.append
    (.join b.fragment Declaration.silent separator fun _ => marks.sameCode_fragment)

/-- **Docs do not change the code.** If two schemas differ in their docs only, and these are written
with markers, then the two texts are the same once all comment lines and blank lines are deleted,
and so are the diagnostics. -/
theorem code_render_eq (marks : b.MarksDocs s) (marks' : b.MarksDocs t)
    (same : s.silent = t.silent) :
    code (b.render s).text.toList = code (b.render t).text.toList ∧
      (b.render s).diagnostics = (b.render t).diagnostics := by
  have first := marks.sameCode_schemaText
  have second := marks'.sameCode_schemaText
  rw [← same] at second
  constructor
  · rw [text_render, text_render, Text.code_endWithBreak first.complete,
      Text.code_endWithBreak second.complete, first.code, second.code]
  · have reported : (b.schemaText s).collisions = (b.schemaText t).collisions :=
      first.collisions.trans second.collisions.symm
    rw [diagnostics_render, diagnostics_render, reported]

/-- A schema whose docs are all the same, with names that are reserved and one that looks like a
comment line. -/
def remarkedSample (doc : Doc) : Schema where
  name := "Sample"
  doc := doc
  declarations := [
    .record ⟨"class", [⟨"self", .optional (.named "a\n/// b"), doc⟩], doc⟩,
    .enumeration ⟨"Mode", .raw [⟨"default", some "on\n", doc⟩], doc⟩,
    .enumeration ⟨"Pick", .union [⟨"else", some (.named "class"), {}⟩, ⟨"none", none, {}⟩], doc⟩]

/-- The options under which the sample has something to report. -/
def strictOptions : TypeScriptOptions where
  strictIdentifiers := true

theorem marksDocs_remarkedSample (doc : Doc) :
    (Backend.typeScript strictOptions).MarksDocs (remarkedSample doc) := by
  refine ⟨rfl, ?_⟩
  intro name cases unionDoc member
  simp only [remarkedSample, List.mem_cons, List.not_mem_nil, or_false, reduceCtorEq, false_or,
    Declaration.enumeration.injEq, Enumeration.mk.injEq, false_and, and_false,
    Cases.union.injEq] at member
  obtain ⟨-, rfl, -⟩ := member
  intro c inside
  rcases List.mem_cons.mp inside with rfl | later
  · rfl
  · rw [List.mem_singleton.mp later]
    rfl

/-- A doc whose lines spell code. -/
def codeDoc : Doc :=
  .ofList ["", " var x: Int", "\x7d"]

/-- The sample has the same code with docs that spell code and without any docs. -/
theorem code_render_remarkedSample :
    remarkedSample codeDoc ≠ remarkedSample {} ∧
      code ((Backend.typeScript strictOptions).render (remarkedSample codeDoc)).text.toList =
        code ((Backend.typeScript strictOptions).render (remarkedSample {})).text.toList ∧
      ((Backend.typeScript strictOptions).render (remarkedSample codeDoc)).diagnostics =
        ((Backend.typeScript strictOptions).render (remarkedSample {})).diagnostics :=
  ⟨fun same => absurd (congrArg (·.doc.lines.length) same) (by decide),
    code_render_eq (marksDocs_remarkedSample codeDoc) (marksDocs_remarkedSample {}) rfl⟩

end Backend

end SchemaPress
