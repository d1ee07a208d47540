import Mathlib.Data.List.Forall2
import SchemaPress.Proofs.Target.Collision
import SchemaPress.Proofs.Target.RecordFields
import SchemaPress.Proofs.Target.WireName
import SchemaPress.Proofs.Text.Contents

/-!
# The two layouts of a tagged union

TypeScript has two layouts for the alternatives of a tagged union. On a single line each alternative
stands behind a comment with the doc of its case; otherwise, if some case has a doc, each stands on
a line of its own below this doc. What an alternative says does not depend on the layout, and
neither do the reserved words in it. So both layouts are put together from one list of alternatives,
and report the same words in the same order (`TypeScript.union_layouts_agree`).

A comment between alternatives is made of lines, none of which holds a line feed, and the literal of
a case without a payload has its line feeds escaped. So only identifiers and types could break the
single line.
-/

set_option autoImplicit false

namespace SchemaPress

/-! ## What a declaration adds -/

theorem Emission.diagnostics_pushFragment_congr (target : Target) (e : Emission) {f g : Fragment}
    (same : f.collisions = g.collisions) :
    (e.pushFragment target f).diagnostics = (e.pushFragment target g).diagnostics := by
  unfold pushFragment
  rw [← push_foldl_report, ← push_foldl_report, same]
  rfl

theorem Backend.text_emit (b : Backend) (e : Emission) (d : Declaration) :
    (b.emit e d).text = e.text ++ (b.fragment d).text := by
  rw [b.emit_eq_pushFragment]
  exact Emission.text_foldl_report _ _

namespace TypeScript

/-- The options with another layout of tagged unions. -/
def withLayout (o : TypeScriptOptions) (layout : UnionLayout) : TypeScriptOptions :=
  { o with unionLayout := layout }

variable (o : TypeScriptOptions)

/-! ## Alternatives -/

/-- What stands for a case in either layout: an object that holds the payload under one key, or a
literal that is read as the name of the case, whatever follows. -/
def WritesAlternative (c : UnionCase) (alternative : String) : Prop :=
  match c.payload with
  | some type =>
      alternative = "\x7b " ++ ((lexicon o).identifier .case c.name).text ++ ": "
        ++ (typeText o type).text ++ " \x7d"
  | none => ∀ rest, Text.readFourDigitLiteral (alternative.toList ++ rest) = some (c.name, rest)

theorem writesAlternative_alternativeText (c : UnionCase) :
    WritesAlternative o c (alternativeText o c).text := by
  unfold WritesAlternative alternativeText
  cases c.payload with
  | none => exact Text.readFourDigitLiteral_append c.name
  | some type => rfl

/-! ## Comments -/

/-- A doc as a comment on one line: its lines without the blanks at their ends, those that are left
joined by spaces. -/
def inlineComment (d : Doc) : String :=
  "/** " ++ Doc.blockText (String.intercalate " "
    ((d.lines.map Text.trimBlanks).filter fun line => !line.isEmpty)) ++ " */"

/-- An alternative behind the comment of its case, if the case has a doc. -/
def remarked (c : UnionCase) (alternative : String) : String :=
  if c.doc.isEmpty then alternative else inlineComment c.doc ++ " " ++ alternative

theorem inlineDoc_append (c : UnionCase) (alternative : String) :
    inlineDoc c.doc ++ alternative = remarked c alternative := by
  unfold inlineDoc remarked inlineComment
  split
  · exact String.empty_append
  · rw [← String.toList_inj]
    simp

theorem no_break_inlineComment (d : Doc) : '\n' ∉ (inlineComment d).toList := by
  have trimmed : ∀ line ∈ (d.lines.map Text.trimBlanks).filter fun line => !line.isEmpty,
      '\n' ∉ line.toList := by
    intro line listed inside
    obtain ⟨whole, given, rfl⟩ := List.mem_map.mp (List.mem_of_mem_filter listed)
    apply d.unbroken whole given
    rw [Text.trimBlanks, String.toList_ofList, List.mem_reverse] at inside
    exact (List.dropWhile_sublist _).subset
      (List.mem_reverse.mp ((List.dropWhile_sublist _).subset inside))
  have space : '\n' ∉ " ".toList := by decide
  have body := Doc.no_break_blockText (Text.no_break_intercalate space trimmed)
  simpa [inlineComment] using body

theorem no_break_fourDigitLiteral (name : String) :
    '\n' ∉ (Text.fourDigitLiteral name).toList := by
  intro inside
  rw [Text.fourDigitLiteral, Text.quoteWith, String.toList_ofList] at inside
  simp only [List.cons_append, List.mem_cons, List.mem_append, List.mem_flatMap,
    List.not_mem_nil, or_false] at inside
  rcases inside with quote | ⟨c, -, written⟩ | quote
  · cases quote
  · have allowed := (Text.Language.piece_fourDigitLiteralEscape c).allowed _ written
    exact (Text.Language.ne_break_of_forbids allowed).1 rfl
  · cases quote

/-! ## Layouts -/

/-- What stands in front of the alternatives. -/
def unionOpener (name : String) : String :=
  exportText o ++ "type " ++ ((lexicon o).identifier .declaration name).text ++ " ="

/-- The line of a union that has all alternatives on it. -/
def unionLine (name : String) (cases : List UnionCase) (alternatives : List String) : String :=
  unionOpener o name ++ " " ++ String.intercalate " | " (List.zipWith remarked cases alternatives)

/-- A union on a single line, below its doc. -/
def singleLineUnion (name : String) (doc : Doc) (cases : List UnionCase)
    (alternatives : List String) : String :=
  docText o doc 0 ++ unionLine o name cases alternatives ++ "\n"

/-- A union with each alternative on a line of its own, below the doc of its case. -/
def stackedUnion (name : String) (doc : Doc) (cases : List UnionCase)
    (alternatives : List String) : String :=
  docText o doc 0 ++ unionOpener o name ++ "\n"
    ++ String.join (List.zipWith (fun c alternative =>
      docText o c.doc 1 ++ "    | " ++ alternative ++ "\n") cases alternatives)

/-- The alternatives of cases, in order. -/
def alternatives (cases : List UnionCase) : List String :=
  cases.map fun c => (alternativeText o c).text

theorem zipWith_alternatives {α : Type} (f : UnionCase → String → α) (cases : List UnionCase) :
    List.zipWith f cases (alternatives o cases) =
      cases.map fun c => f c (alternativeText o c).text := by
  rw [alternatives, List.zipWith_map_right, List.zipWith_self]

section Layouts

variable (layout : UnionLayout)

@[simp]
theorem unionLayout_withLayout : (withLayout o layout).unionLayout = layout := rfl

@[simp]
theorem lexicon_withLayout : lexicon (withLayout o layout) = lexicon o := rfl

@[simp]
theorem exportText_withLayout : exportText (withLayout o layout) = exportText o := rfl

@[simp]
theorem docText_withLayout (d : Doc) (level : Nat) :
    docText (withLayout o layout) d level = docText o d level := rfl

@[simp]
theorem typeText_withLayout (type : TypeRef) :
    typeText (withLayout o layout) type = typeText o type := by
  induction type with
  | primitive name => rfl
  | named name => rfl
  | optional inner ih => rw [typeText, typeText, ih]
  | sequence inner ih => rw [typeText, typeText, ih]

/-- What an alternative says does not depend on the layout. -/
@[simp]
theorem alternativeText_withLayout (c : UnionCase) :
    alternativeText (withLayout o layout) c = alternativeText o c := by
  simp only [alternativeText, lexicon_withLayout, typeText_withLayout]

theorem text_alternativesLine_withLayout (p : UnionPlan) :
    (alternativesLine (withLayout o layout) p).text =
      String.intercalate " | " (List.zipWith remarked p.cases (alternatives o p.cases)) := by
  rw [text_alternativesLine, zipWith_alternatives]
  refine congrArg _ (List.map_congr_left fun c _ => ?_)
  rw [alternativeText_withLayout, inlineDoc_append]

theorem text_alternativeLine (c : UnionCase) :
    (alternativeLine (withLayout o layout) c).text =
      docText o c.doc 1 ++ "    | " ++ (alternativeText o c).text ++ "\n" := by
  rw [← String.toList_inj]
  simp [alternativeLine, Text.times]

variable {layout} {p : UnionPlan}

/-- A union is on a single line if this is asked for, and if no case has a doc. -/
theorem text_unionText_single (some_case : p.cases ≠ [])
    (one_line : p.hasCaseDocs = false ∨ layout = .singleLine) :
    (unionText (withLayout o layout) p).text =
      singleLineUnion o p.name p.doc p.cases (alternatives o p.cases) := by
  rw [← String.toList_inj]
  rcases one_line with none_given | rfl
  · simp [unionText, some_case, none_given, singleLineUnion, unionLine, unionOpener,
      text_alternativesLine_withLayout, Text.times]
  · simp [unionText, some_case, singleLineUnion, unionLine, unionOpener,
      text_alternativesLine_withLayout, Text.times]

/-- Otherwise each alternative has a line of its own. -/
theorem text_unionText_stacked (docs : p.hasCaseDocs = true) (stacked : layout ≠ .singleLine) :
    (unionText (withLayout o layout) p).text =
      stackedUnion o p.name p.doc p.cases (alternatives o p.cases) := by
  have some_case : p.cases ≠ [] := by
    obtain ⟨c, listed, -⟩ := List.any_eq_true.mp docs
    exact List.ne_nil_of_mem listed
  rw [← String.toList_inj]
  simp [unionText, some_case, docs, stacked, stackedUnion, unionOpener, zipWith_alternatives,
    text_alternativeLine, Text.times, Function.comp_def]

end Layouts

/-! ## Both layouts -/

/-- Only the opener and the alternatives with a payload can break the line. -/
theorem no_break_unionLine {name : String} {cases : List UnionCase}
    (opener : '\n' ∉ (unionOpener o name).toList)
    (objects : ∀ c ∈ cases, c.payload ≠ none → '\n' ∉ (alternativeText o c).text.toList) :
    '\n' ∉ (unionLine o name cases (alternatives o cases)).toList := by
  have bar : '\n' ∉ " | ".toList := by decide
  have each : ∀ text ∈ List.zipWith remarked cases (alternatives o cases),
      '\n' ∉ text.toList := by
    rw [zipWith_alternatives, List.forall_mem_map]
    intro c listed
    have alternative : '\n' ∉ (alternativeText o c).text.toList := by
      cases payload : c.payload with
      | some type => exact objects c listed (by simp [payload])
      | none =>
          unfold alternativeText
          rw [payload]
          exact no_break_fourDigitLiteral c.name
    unfold remarked
    split
    · exact alternative
    · simpa using ⟨no_break_inlineComment c.doc, alternative⟩
  have joined := Text.no_break_intercalate bar each
  rw [unionLine, String.toList_append, String.toList_append, List.mem_append, List.mem_append,
    not_or, not_or]
  exact ⟨⟨opener, by decide⟩, joined⟩

/-- **The two layouts of a tagged union agree.** For a union with cases there is one list of
alternatives, one for each case in order. On a single line they stand behind the doc and the opener,
joined by bars, and each behind the comment of its case exactly if the case has a doc. The other
layout writes the same text if no case has a doc, and otherwise each alternative on a line of its
own below the doc of its case. Both report the same reserved words in the same order, whatever has
been rendered before. -/
theorem union_layouts_agree (name : String) (doc : Doc) {cases : List UnionCase}
    (some_case : cases ≠ []) :
    let single := Backend.typeScript (withLayout o .singleLine)
    let auto := Backend.typeScript (withLayout o .auto)
    let d : Declaration := .enumeration ⟨name, .union cases, doc⟩
    ∃ alternatives : List String, List.Forall₂ (WritesAlternative o) cases alternatives ∧
      (∀ e, (single.emit e d).text = e.text ++ singleLineUnion o name doc cases alternatives) ∧
      (∀ e, (auto.emit e d).text = e.text ++
        if ∀ c ∈ cases, c.doc.isEmpty = true then singleLineUnion o name doc cases alternatives
        else stackedUnion o name doc cases alternatives) ∧
      (∀ e, (single.emit e d).diagnostics = (auto.emit e d).diagnostics) ∧
      ('\n' ∉ (unionOpener o name).toList →
        (∀ entry ∈ cases.zip alternatives, entry.1.payload ≠ none → '\n' ∉ entry.2.toList) →
          '\n' ∉ (unionLine o name cases alternatives).toList) := by
  intro single auto d
  let p : UnionPlan := ⟨name, doc, (capabilities o).unions, cases⟩
  refine ⟨alternatives o cases, ?_, fun e => ?_, fun e => ?_, fun e => ?_, ?_⟩
  · rw [alternatives, List.forall₂_map_right_iff, List.forall₂_same]
    exact fun c _ => writesAlternative_alternativeText o c
  · rw [Backend.text_emit]
    exact congrArg _ (text_unionText_single o (p := p) some_case (.inr rfl))
  · rw [Backend.text_emit]
    refine congrArg _ ?_
    split
    · rename_i silent
      have none_given : p.hasCaseDocs = false := by simpa [UnionPlan.hasCaseDocs] using silent
      exact text_unionText_single o (p := p) some_case (.inl none_given)
    · rename_i documented
      have docs : p.hasCaseDocs = true := by simpa [UnionPlan.hasCaseDocs] using documented
      exact text_unionText_stacked o (p := p) docs (by decide)
  · rw [Backend.emit_eq_pushFragment, Backend.emit_eq_pushFragment]
    apply Emission.diagnostics_pushFragment_congr
    exact (collisions_unionText (withLayout o .singleLine) p).trans
      (collisions_unionText (withLayout o .auto) p).symm
  · intro opener objects
    apply no_break_unionLine o opener
    intro c listed payload
    have entries : cases.zip (alternatives o cases) =
        cases.map fun c => (c, (alternativeText o c).text) := zipWith_alternatives o Prod.mk cases
    rw [entries, List.forall_mem_map] at objects
    exact objects c listed payload

/-- Cases with and without payloads and docs. One is named by a reserved word, one holds a quote,
and the docs hold bars, the end of a comment and a blank line. -/
def quotedCases : List UnionCase :=
  [{ name := "delete", payload := some (.sequence (.optional (.named "any"))),
     doc := .ofList ["a | b", "", " c */ d "] },
   { name := "\"none\"" },
   { name := "some", payload := some (.primitive "i32") },
   { name := "any", doc := .ofText "\n" }]

/-- The layouts of these cases where reserved words are reported. -/
theorem union_layouts_agree_quotedCases :
    let o : TypeScriptOptions := { exported := true, strictIdentifiers := true }
    let single := Backend.typeScript (withLayout o .singleLine)
    let auto := Backend.typeScript (withLayout o .auto)
    let d : Declaration := .enumeration ⟨"Pick", .union quotedCases, {}⟩
    quotedCases ≠ [] ∧
      (∃ alternatives : List String, List.Forall₂ (WritesAlternative o) quotedCases alternatives ∧
        (single.emit {} d).text = singleLineUnion o "Pick" {} quotedCases alternatives ∧
        (auto.emit {} d).text = stackedUnion o "Pick" {} quotedCases alternatives) ∧
      (single.emit {} d).text = "export type Pick = "
        ++ "/** a | b c *\\/ d */ \x7b delete: (any | undefined)[] \x7d | \"\\\"none\\\"\" | "
        ++ "\x7b some: number \x7d | /**  */ \"any\"\n" ∧
      (auto.emit {} d).text = "export type Pick =\n"
        ++ "    /// a | b\n    ///\n    ///  c */ d \n    | \x7b delete: (any | undefined)[] \x7d\n"
        ++ "    | \"\\\"none\\\"\"\n    | \x7b some: number \x7d\n    ///\n    | \"any\"\n" ∧
      (single.emit {} d).diagnostics = (auto.emit {} d).diagnostics ∧
      (auto.emit {} d).diagnostics =
        [.reservedIdentifier .typeScript "delete", .reservedIdentifier .typeScript "any"] := by
  intro o single auto d
  have some_case : quotedCases ≠ [] := List.cons_ne_nil _ _
  obtain ⟨alternatives, written, onLine, onLines, reported, -⟩ :=
    union_layouts_agree o "Pick" {} some_case
  have documented : ¬ ∀ c ∈ quotedCases, c.doc.isEmpty = true := by decide +kernel
  have stacked := onLines {}
  rw [if_neg documented] at stacked
  exact ⟨some_case, ⟨alternatives, written, (onLine {}).trans String.empty_append,
    stacked.trans String.empty_append⟩, by decide +kernel, by decide +kernel, reported {},
    by decide +kernel⟩

end TypeScript

end SchemaPress
