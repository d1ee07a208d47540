import SchemaPress.Proofs.Schema.Map
import SchemaPress.Proofs.Schema.Soundness
import SchemaPress.Proofs.Swift.Line

/-!
# Swift texts determine their schemas

A text that is written for a sound schema whose names are words is read back: the reader finds the
doc of the schema and its declarations, with every type spelled by its token (`read_render`). Two
such schemas with one text therefore differ in no doc, name, raw value or type that the text could
tell apart.

The argument follows the layout of a text. Each member joins the declaration that is open, each
declaration joins those that have been read, and what follows is read from there.
-/

set_option autoImplicit false

namespace SchemaPress.Swift

open Text (Word isWordChar)

variable {o : SwiftOptions}

/-! ## Members -/

/-- A field joins the record that is open. -/
theorem run_fieldText (plain : o.Plain) {f : Field} (words : ∀ n ∈ f.spelledNames, Word n)
    (doc : List String) (name : String) (fields : List Field) (own : Doc)
    (closed : List Declaration) (rest : List Char) :
    Reading.run o ⟨doc, [], some (.record ⟨name, fields, own⟩), closed⟩
        ((fieldText o f).text.toList ++ rest) =
      Reading.run o
        ⟨doc, [], some (.record ⟨name, fields ++ [f.mapTypes (tokens o)], own⟩), closed⟩ rest := by
  have leaf : Word f.type.leafName := words _ (by simp [Field.spelledNames])
  have text : (fieldText o f).text = docText f.doc 1 ++ (Text.times 1 "    " ++
      ("var " ++ ((lexicon o).identifier .field f.name).text ++ (": " ++ (typeText o f.type).text))
        ++ "\n") := by
    simp [fieldText, String.append_assoc]
  have type := readType_text plain leaf
  have word : Word f.name := words _ (by simp [Field.spelledNames])
  rw [text, run_keywordLine "var" (by decide) (by decide) .field word
    (by simp; decide) (by simp [no_break_typeText plain leaf]) f.doc 1 _ rfl]
  simp [readKeyword, Reading.step, Reading.grow, Reading.pendingDoc, Declaration.addField, type,
    Field.mapTypes]

/-- A raw case joins the enumeration that is open, with the raw value that it declares. -/
theorem run_rawCaseText {c : RawCase} (word : Word c.name) (declared : c.rawValue ≠ none)
    (doc : List String) (name : String) (cases : List RawCase) (own : Doc)
    (closed : List Declaration) (rest : List Char) :
    Reading.run o ⟨doc, [], some (.enumeration ⟨name, .raw cases, own⟩), closed⟩
        ((rawCaseText o c.plan).text.toList ++ rest) =
      Reading.run o ⟨doc, [], some (.enumeration ⟨name, .raw (cases ++ [c]), own⟩), closed⟩
        rest := by
  obtain ⟨raw, known⟩ := Option.ne_none_iff_exists'.mp declared
  have text : (rawCaseText o c.plan).text = docText c.doc 1 ++ (Text.times 1 "    " ++
      ("case " ++ ((lexicon o).identifier .case c.name).text ++ (" = " ++ Text.bracedLiteral raw))
        ++ "\n") := by
    simp [rawCaseText, RawCase.plan, known, String.append_assoc]
  have literal : (Text.readBracedLiteral (Text.bracedLiteral raw).toList).map Prod.fst =
      c.rawValue := by
    have read := Text.readBracedLiteral_append raw []
    rw [List.append_nil] at read
    rw [read, known]
    rfl
  rw [text, run_keywordLine "case" (by decide) (by decide) .case word (by simp; decide)
    (by simp [Text.no_break_of_bracedLiteral]) c.doc 1 _ rfl]
  simp [readKeyword, readCase, Reading.step, Reading.grow, Reading.pendingDoc,
    Declaration.addRawCase, literal]

/-- A union case joins the tagged union that is open. -/
theorem run_unionCaseText (plain : o.Plain) {c : UnionCase}
    (words : ∀ n ∈ c.spelledNames, Word n) (doc : List String) (name : String)
    (cases : List UnionCase) (own : Doc) (closed : List Declaration) (rest : List Char) :
    Reading.run o ⟨doc, [], some (.enumeration ⟨name, .union cases, own⟩), closed⟩
        ((unionCaseText o c).text.toList ++ rest) =
      Reading.run o ⟨doc, [],
        some (.enumeration ⟨name, .union (cases ++ [c.mapTypes (tokens o)]), own⟩), closed⟩
        rest := by
  obtain ⟨caseName, payload, caseDoc⟩ := c
  have word : Word caseName := words _ (by simp [UnionCase.spelledNames])
  have text : (unionCaseText o ⟨caseName, payload, caseDoc⟩).text = docText caseDoc 1 ++
      (Text.times 1 "    " ++ ("case " ++ ((lexicon o).identifier .case caseName).text ++
        (payloadText o payload).text) ++ "\n") := by
    simp [unionCaseText]
  cases payload with
  | none =>
      rw [text, run_keywordLine "case" (by decide) (by decide) .case word (by simp [payloadText])
        (by simp [payloadText]) caseDoc 1 _ rfl]
      simp [readKeyword, readCase, payloadText, Reading.step, Reading.grow, Reading.pendingDoc,
        Declaration.addUnionCase, UnionCase.mapTypes]
  | some type =>
      have leaf : Word type.leafName := words _ (by simp [UnionCase.spelledNames])
      have read : readType ((typeText o type).text.toList ++ [')']) = tokens o type :=
        readType_typeText plain leaf [')'] (by simp)
      rw [text, run_keywordLine "case" (by decide) (by decide) .case word
        (by simp [payloadText]; decide) (by simp [payloadText, no_break_typeText plain leaf])
        caseDoc 1 _ rfl]
      simp [readKeyword, readCase, payloadText, Reading.step, Reading.grow, Reading.pendingDoc,
        Declaration.addUnionCase, UnionCase.mapTypes, read]

/-- Members join the open declaration one after the other. -/
theorem run_members {α β : Type} {text : α → Fragment} {entry : α → β}
    {build : List β → Declaration} {doc : List String} {closed : List Declaration}
    {members : List α}
    (each : ∀ m ∈ members, ∀ done rest,
      Reading.run o ⟨doc, [], some (build done), closed⟩ ((text m).text.toList ++ rest) =
        Reading.run o ⟨doc, [], some (build (done ++ [entry m])), closed⟩ rest)
    (done : List β) (rest : List Char) :
    Reading.run o ⟨doc, [], some (build done), closed⟩
        ((Fragment.concat (members.map text)).text.toList ++ rest) =
      Reading.run o ⟨doc, [], some (build (done ++ members.map entry)), closed⟩ rest := by
  induction members generalizing done with
  | nil => simp
  | cons m members ih =>
      have later := ih (fun n inside => each n (List.mem_cons_of_mem _ inside)) (done ++ [entry m])
      rw [Fragment.text_concat] at later ⊢
      rw [List.map_cons, List.map_cons, String.join_cons, String.toList_append, List.append_assoc,
        each m List.mem_cons_self, later]
      simp

/-! ## Declarations -/

/-- A brace on its own closes the open declaration. -/
theorem run_closing (doc : List String) (d : Declaration) (closed : List Declaration)
    (rest : List Char) :
    Reading.run o ⟨doc, [], some d, closed⟩ ("\x7d\n".toList ++ rest) =
      Reading.run o ⟨doc, [], none, closed ++ [d]⟩ rest :=
  have brace : '\n' ∉ ['\x7d'] := by decide
  run_line brace _ rest

/-- What follows the name of a type does not go on with a word and stays on its line. -/
theorem inheritance_stops (plain : o.Plain) {rawType : List String}
    (words : ∀ n ∈ rawType, Word n) :
    (∀ c ∈ (inheritance o rawType ++ " \x7b").toList.head?, isWordChar c = false) ∧
      '\n' ∉ (inheritance o rawType ++ " \x7b").toList := by
  have free : ∀ n ∈ rawType ++ o.conformances, '\n' ∉ n.toList := by
    intro n inside
    rcases List.mem_append.mp inside with own | protocol
    · exact no_break_of_word (words n own)
    · exact no_break_of_word (plain.conformances n protocol)
  unfold inheritance
  split
  · constructor
    · simp
      decide
    · decide
  · have comma : '\n' ∉ ", ".toList := by decide
    have names := Text.no_break_intercalate comma free
    constructor
    · simp
      decide
    · rw [String.toList_append, String.toList_append, List.mem_append, List.mem_append]
      rintro ((colon | inside) | brace)
      · exact absurd colon (by decide)
      · exact names inside
      · exact absurd brace (by decide)

/-- The raw type tells the two kinds of enumerations apart. -/
theorem inheritance_ne_rawEnumEnd (o : SwiftOptions) :
    (inheritance o [] ++ " \x7b").toList ≠ rawEnumEnd o := by
  intro same
  -- The protocols are the same on both sides, so the raw type makes one of them longer.
  have lengths := congrArg List.length same
  cases protocols : o.conformances with
  | nil => simp [rawEnumEnd, inheritance, protocols] at lengths
  | cons n names =>
      simp [rawEnumEnd, inheritance, protocols, String.intercalate_cons_cons] at lengths

/-- A declaration with members in braces is read as a whole. -/
theorem run_braced {α β : Type} {text : α → Fragment} {entry : α → β} {members : List α}
    {lead name : String} (build : Doc → List β → Declaration) (keyword : String)
    (key : Word keyword) (leads : lead.toList = keyword.toList ++ [' ']) (word : Word name)
    {tail : String} (stops : (∀ c ∈ tail.toList.head?, isWordChar c = false) ∧ '\n' ∉ tail.toList)
    {d : Doc} (begins : readKeyword o keyword name tail.toList = .opening (build {} []))
    (takes : (build {} []).withDoc d = build d [])
    (doc : List String) (closed : List Declaration)
    (each : ∀ m ∈ members, ∀ done rest,
      Reading.run o ⟨doc, [], some (build d done), closed⟩ ((text m).text.toList ++ rest) =
        Reading.run o ⟨doc, [], some (build d (done ++ [entry m])), closed⟩ rest)
    (rest : List Char) :
    Reading.run o ⟨doc, [], none, closed⟩
        ((docText d 0 ++ (Text.times 0 "    " ++
          (lead ++ ((lexicon o).identifier .declaration name).text ++ tail) ++ "\n")
          ++ (Fragment.concat (members.map text)).text ++ "\x7d\n").toList ++ rest) =
      Reading.run o ⟨doc, [], none, closed ++ [build d (members.map entry)]⟩ rest := by
  rw [String.toList_append, String.toList_append, List.append_assoc, List.append_assoc,
    run_keywordLine keyword key leads .declaration word stops.1 stops.2 d 0 _ rfl, begins]
  have opened : Reading.step ⟨doc, d.lines, none, closed⟩ (.opening (build {} [])) =
      ⟨doc, [], some (build d []), closed⟩ := by
    simp [Reading.step, Reading.pendingDoc, takes]
  rw [opened, run_members each, run_closing, List.nil_append]

theorem run_aliasText (plain : o.Plain) {a : Alias} (word : Word a.name)
    (leaf : Word a.target.leafName) (doc : List String) (closed : List Declaration)
    (rest : List Char) :
    Reading.run o ⟨doc, [], none, closed⟩ ((aliasText o a).text.toList ++ rest) =
      Reading.run o
        ⟨doc, [], none, closed ++ [.alias ⟨a.name, tokens o a.target, a.doc⟩]⟩ rest := by
  have text : (aliasText o a).text = docText a.doc 0 ++ (Text.times 0 "    " ++
      ("typealias " ++ ((lexicon o).identifier .declaration a.name).text ++
        (" = " ++ (typeText o a.target).text)) ++ "\n") := by
    simp [aliasText, String.append_assoc]
  have type := readType_text plain leaf
  rw [text, run_keywordLine "typealias" (by decide) (by decide) .declaration word
    (by simp; decide) (by simp [no_break_typeText plain leaf]) a.doc 0 _ rfl]
  simp [readKeyword, Reading.step, Reading.pendingDoc, Declaration.withDoc, type]

theorem run_recordText (plain : o.Plain) {r : Record} (word : Word r.name)
    (words : ∀ f ∈ r.fields, ∀ n ∈ f.spelledNames, Word n) (doc : List String)
    (closed : List Declaration) (rest : List Char) :
    Reading.run o ⟨doc, [], none, closed⟩ ((recordText o r).text.toList ++ rest) =
      Reading.run o ⟨doc, [], none,
        closed ++ [.record ⟨r.name, r.fields.map (Field.mapTypes (tokens o)), r.doc⟩]⟩ rest := by
  have text : (recordText o r).text = docText r.doc 0 ++ (Text.times 0 "    " ++
      ("struct " ++ ((lexicon o).identifier .declaration r.name).text ++
        (inheritance o [] ++ " \x7b")) ++ "\n")
      ++ (Fragment.concat (r.fields.map (fieldText o))).text ++ "\x7d\n" := by
    simp [recordText, String.append_assoc, Text.times]
  rw [text]
  refine run_braced (fun own fields => .record ⟨r.name, fields, own⟩) "struct" (by decide)
    (by decide) word (inheritance_stops plain (by simp)) rfl rfl doc closed ?_ rest
  intro f inside done rest
  exact run_fieldText plain (words f inside) doc r.name done r.doc closed rest

theorem run_rawEnumText (plain : o.Plain) {name : String} (word : Word name)
    {cases : List RawCase} (words : ∀ c ∈ cases, Word c.name)
    (declared : ∀ c ∈ cases, c.rawValue ≠ none) (own : Doc) (form : RawForm) (doc : List String)
    (closed : List Declaration) (rest : List Char) :
    Reading.run o ⟨doc, [], none, closed⟩
        ((rawEnumText o ⟨name, own, form, cases.map RawCase.plan⟩).text.toList ++ rest) =
      Reading.run o ⟨doc, [], none, closed ++ [.enumeration ⟨name, .raw cases, own⟩]⟩ rest := by
  have text : (rawEnumText o ⟨name, own, form, cases.map RawCase.plan⟩).text =
      docText own 0 ++ (Text.times 0 "    " ++
      ("enum " ++ ((lexicon o).identifier .declaration name).text ++
        (inheritance o ["String"] ++ " \x7b")) ++ "\n")
      ++ (Fragment.concat (cases.map fun c => rawCaseText o c.plan)).text ++ "\x7d\n" := by
    simp [rawEnumText, String.append_assoc, Text.times, Function.comp_def]
  have read : Reading.run o ⟨doc, [], none, closed⟩
        ((rawEnumText o ⟨name, own, form, cases.map RawCase.plan⟩).text.toList ++ rest) =
      Reading.run o
        ⟨doc, [], none, closed ++ [.enumeration ⟨name, .raw (cases.map id), own⟩]⟩ rest := by
    rw [text]
    refine run_braced (fun own cases => .enumeration ⟨name, .raw cases, own⟩) "enum" (by decide)
      (by decide) word (inheritance_stops plain (by decide)) ?_ rfl doc closed ?_ rest
    · unfold readKeyword
      rw [if_neg (by decide), if_neg (by decide), if_pos rfl, rawEnumEnd, if_pos rfl]
    · intro c inside done rest
      exact run_rawCaseText (words c inside) (declared c inside) doc name done own closed rest
  rwa [List.map_id] at read

theorem run_unionText (plain : o.Plain) {name : String} (word : Word name)
    {cases : List UnionCase} (words : ∀ c ∈ cases, ∀ n ∈ c.spelledNames, Word n)
    (own : Doc) (form : UnionForm) (doc : List String) (closed : List Declaration)
    (rest : List Char) :
    Reading.run o ⟨doc, [], none, closed⟩
        ((unionText o ⟨name, own, form, cases⟩).text.toList ++ rest) =
      Reading.run o ⟨doc, [], none, closed ++
        [.enumeration ⟨name, .union (cases.map (UnionCase.mapTypes (tokens o))), own⟩]⟩ rest := by
  have text : (unionText o ⟨name, own, form, cases⟩).text =
      docText own 0 ++ (Text.times 0 "    " ++
      ("enum " ++ ((lexicon o).identifier .declaration name).text ++
        (inheritance o [] ++ " \x7b")) ++ "\n")
      ++ (Fragment.concat (cases.map (unionCaseText o))).text ++ "\x7d\n" := by
    simp [unionText, String.append_assoc, Text.times]
  rw [text]
  refine run_braced (fun own cases => .enumeration ⟨name, .union cases, own⟩) "enum" (by decide)
    (by decide) word (inheritance_stops plain (by simp)) ?_ rfl doc closed ?_ rest
  · unfold readKeyword
    rw [if_neg (by decide), if_neg (by decide), if_pos rfl, if_neg (inheritance_ne_rawEnumEnd o)]
  · intro c inside done rest
    exact run_unionCaseText plain (words c inside) doc name done own closed rest

/-- **A declaration of a sound schema is read back** with its types by their tokens. -/
theorem run_declarationText (plain : o.Plain) {s : Schema} (sound : s.Sound) {d : Declaration}
    (member : d ∈ s.declarations) (words : ∀ n ∈ d.spelledNames, Word n) (doc : List String)
    (closed : List Declaration) (rest : List Char) :
    Reading.run o ⟨doc, [], none, closed⟩
        ((declarationText o (d.represent capabilities)).text.toList ++ rest) =
      Reading.run o ⟨doc, [], none, closed ++ [d.mapTypes (tokens o)]⟩ rest := by
  rcases d with a | r | ⟨name, cases | cases, own⟩
  · exact run_aliasText plain (words _ (by simp [Declaration.spelledNames]))
      (words _ (by simp [Declaration.spelledNames])) doc closed rest
  · refine run_recordText plain (words _ List.mem_cons_self) (fun f inside n spelled => ?_) doc
      closed rest
    exact words n (List.mem_cons_of_mem _ (List.mem_flatMap.mpr ⟨f, inside, spelled⟩))
  · refine run_rawEnumText plain (words _ List.mem_cons_self) (fun c inside => ?_)
      (sound.raw_present name own cases member) own _ doc closed rest
    exact words _ (List.mem_cons_of_mem _ (List.mem_map_of_mem inside))
  · refine run_unionText plain (words _ List.mem_cons_self) (fun c inside n spelled => ?_) own _ doc
      closed rest
    exact words n (List.mem_cons_of_mem _ (List.mem_flatMap.mpr ⟨c, inside, spelled⟩))

/-! ## Schemas -/

/-- A blank line says nothing if no comment is pending. -/
theorem run_blank (doc : List String) (closed : List Declaration) (rest : List Char) :
    Reading.run o ⟨doc, [], none, closed⟩ ("\n".toList ++ rest) =
      Reading.run o ⟨doc, [], none, closed⟩ rest :=
  run_line List.not_mem_nil _ rest

/-- An import says nothing about the schema. -/
theorem run_import (rest : List Char) :
    Reading.run o {} ((if o.importFoundation then "import Foundation\n\n" else "").toList ++ rest) =
      Reading.run o {} rest := by
  have other : readLine o "import Foundation".toList = .other := by
    simp [readLine, readContent, readKeyword, isWordChar]
  split
  · have text : "import Foundation\n\n".toList ++ rest =
        "import Foundation".toList ++ '\n' :: ("\n".toList ++ rest) := by simp
    rw [text, run_line (by decide), other]
    exact run_blank [] [] rest
  · rfl

/-- The top of a text gives the doc of the schema. -/
theorem run_header (s : Schema) (rest : List Char) :
    Reading.run o {} ((header o s).toList ++ rest) =
      Reading.run o ⟨s.doc.lines, [], none, []⟩ rest := by
  rw [header, String.toList_append, List.append_assoc, run_import]
  cases lines : s.doc.lines with
  | nil => simp [Doc.isEmpty, lines]
  | cons line others =>
      -- The blank line after the comments says that they belong to the schema.
      have separated : Reading.run o ⟨[], line :: others, none, []⟩ ([] ++ '\n' :: rest) =
          Reading.run o ⟨line :: others, [], none, []⟩ rest :=
        run_line List.not_mem_nil _ rest
      have some_doc : s.doc.isEmpty = false := by simp [Doc.isEmpty, lines]
      rw [some_doc, if_neg (by decide), String.toList_append, List.append_assoc, run_docText, lines]
      exact separated

/-- Declarations are read back one after the other, with a blank line in front of each. -/
theorem run_declarations (plain : o.Plain) {s : Schema} (sound : s.Sound)
    {ds : List Declaration} (members : ∀ d ∈ ds, d ∈ s.declarations)
    (words : ∀ d ∈ ds, ∀ n ∈ d.spelledNames, Word n) (doc : List String)
    (closed : List Declaration) (rest : List Char) :
    Reading.run o ⟨doc, [], none, closed⟩ ((String.join (ds.map fun d =>
        "\n" ++ (declarationText o (d.represent capabilities)).text)).toList ++ rest) =
      Reading.run o ⟨doc, [], none, closed ++ ds.map (Declaration.mapTypes (tokens o))⟩ rest := by
  induction ds generalizing closed with
  | nil => simp
  | cons d ds ih =>
      have later := ih (fun e inside => members e (List.mem_cons_of_mem _ inside))
        (fun e inside => words e (List.mem_cons_of_mem _ inside))
        (closed ++ [d.mapTypes (tokens o)])
      rw [List.map_cons, String.join_cons, String.toList_append, String.toList_append,
        List.append_assoc, List.append_assoc, run_blank,
        run_declarationText plain sound (members d List.mem_cons_self)
          (words d List.mem_cons_self), later]
      simp

/-- A blank line at the end does not change what has been read. -/
theorem result_run_concat (r : Reading) (cs : List Char) :
    (r.run o (cs ++ ['\n'])).result = (r.run o cs).result := by
  rw [Reading.run, Text.split_concat_mark, List.foldl_append]
  change ((r.run o cs).step .blank).result = _
  generalize r.run o cs = final
  -- Pending comments become the doc of the schema, as they would at the end of the text.
  by_cases idle : final.pending = []
  · simp [Reading.step, idle]
  · simp [Reading.step, Reading.result, idle]

/-- The text of a schema is read back before its end is put in order. -/
theorem run_schemaText (plain : o.Plain) {s : Schema} (sound : s.Sound)
    (words : ∀ d ∈ s.declarations, ∀ n ∈ d.spelledNames, Word n) :
    Reading.run o {} ((Backend.swift o).schemaText s).text.toList =
      ⟨s.doc.lines, [], none, s.declarations.map (Declaration.mapTypes (tokens o))⟩ := by
  have text : ((Backend.swift o).schemaText s).text.toList = (header o s).toList ++
      (Fragment.join "\n" (s.declarations.map
        fun d => declarationText o (d.represent capabilities))).text.toList := by
    rw [Backend.schemaText, Fragment.text_append, String.toList_append]
    rfl
  rw [text, run_header]
  cases declared : s.declarations with
  | nil => rfl
  | cons d ds =>
      -- Only the first declaration has no blank line in front of it.
      have first : d ∈ s.declarations := declared ▸ List.mem_cons_self
      have others : ∀ e ∈ ds, e ∈ s.declarations := fun e inside =>
        declared ▸ List.mem_cons_of_mem _ inside
      have later := run_declarations plain sound others (fun e inside => words e (others e inside))
        s.doc.lines [d.mapTypes (tokens o)] []
      rw [List.append_nil] at later
      rw [List.map_cons, Fragment.text_join_cons, String.toList_append,
        run_declarationText plain sound first (words d first), List.map_map]
      exact later

/-- **A text that is written for a sound schema of words is read back.** -/
theorem read_render (plain : o.Plain) {s : Schema} (sound : s.Sound)
    (words : ∀ n ∈ s.spelledNames, Word n) :
    read o ((Backend.swift o).render s).text =
      (s.doc, s.declarations.map (Declaration.mapTypes (tokens o))) := by
  have each : ∀ d ∈ s.declarations, ∀ n ∈ d.spelledNames, Word n := fun d inside n spelled =>
    words n (List.mem_flatMap.mpr ⟨d, inside, spelled⟩)
  have untrimmed := Text.apply_endWithBreak (f := fun cs => (Reading.run o {} cs).result)
    (result_run_concat {}) ((Backend.swift o).schemaText s).text
  rw [read, Backend.text_render, untrimmed, run_schemaText plain sound each]
  simp [Reading.result]

/-- **Swift texts determine their schemas.** If two accepted schemas of words have one text, then
they have the same doc and the same declarations, up to leaves of types that are written with the
same token. -/
theorem render_determines (plain : o.Plain) {s t : Schema} (accepted : s.check = .ok ())
    (accepted' : t.check = .ok ()) (words : ∀ n ∈ s.spelledNames, Word n)
    (words' : ∀ n ∈ t.spelledNames, Word n)
    (same : ((Backend.swift o).render s).text = ((Backend.swift o).render t).text) :
    s.doc = t.doc ∧
      s.declarations.map (Declaration.mapTypes (tokens o)) =
        t.declarations.map (Declaration.mapTypes (tokens o)) := by
  have read := read_render plain (s.check_eq_ok_iff.mp accepted) words
  rw [same, read_render plain (t.check_eq_ok_iff.mp accepted') words', Prod.mk.injEq] at read
  exact ⟨read.1.symm, read.2.symm⟩

/-- A schema with a reserved word, a raw value that needs escapes, and types around a leaf. -/
def leafSample (leaf : TypeRef) : Schema where
  name := "Sample"
  doc := .ofText "Samples\n\nof all kinds"
  declarations := [
    .alias ⟨"Flags", .sequence (.optional leaf), {}⟩,
    .enumeration ⟨"Mode", .raw [⟨"default", some "a \"b\"\n", .ofText "first"⟩], {}⟩,
    .enumeration ⟨"Shape", .union [⟨"empty", none, {}⟩, ⟨"full", some leaf, {}⟩], {}⟩]

/-- Schemas with one text differ in a leaf that is written with the same token. -/
theorem render_determines_leafSample :
    leafSample (.primitive "bool") ≠ leafSample (.named "Bool") ∧
      (leafSample (.primitive "bool")).doc = (leafSample (.named "Bool")).doc ∧
      (leafSample (.primitive "bool")).declarations.map (Declaration.mapTypes (tokens {})) =
        (leafSample (.named "Bool")).declarations.map (Declaration.mapTypes (tokens {})) :=
  ⟨by decide,
    render_determines (o := {}) ⟨by decide, by decide⟩ rfl rfl (by decide) (by decide) rfl⟩

end SchemaPress.Swift
