import SchemaPress.Proofs.Target.Emission
import SchemaPress.Proofs.Target.SchemaObject
import SchemaPress.Proofs.Yaml.Shift
import SchemaPress.Schema.Check

/-!
# Interface descriptions and their texts

An interface description says its title, a text about itself, and the schema objects by name. Its
text is put together by hand: a header, the YAML form of each schema object moved to the right, and
at the end exactly one line feed. Two steps can lose something. Moving an entry adds a line feed to
a last line that lacks one, as it does behind a block that ends with a line or paragraph separator.
And putting the end in order drops the empty lines of a last block.

If neither happens, the description can be told from its text
(`OpenApi.description_eq_of_render_eq`). If the text of the last entry ends with a line feed more,
it is lost (`OpenApi.text_render_eq_of_feed`).
-/

set_option autoImplicit false

namespace SchemaPress.OpenApi

open Yaml Text SchemaObject

/-- What an interface description says. -/
structure Description where
  title : String
  summary : Option String
  schemas : List (String × SchemaObject)

/-- What the interface description of a schema says. -/
def description (o : OpenApiOptions) (s : Schema) : Description where
  title := o.title.getD s.name
  summary := describe s.doc
  schemas := s.declarations.map fun d => declarationObject o (d.represent capabilities)

namespace Description

/-- The YAML forms of the schema objects. -/
def entries (d : Description) : List (String × Yaml) :=
  d.schemas.map fun p => (p.1, p.2.toYaml)

/-- Neither moving the entries nor putting the end in order changes how they end: no last string of
a schema object is a block that ends with a separator, and that of the last one is no block that
ends with empty lines. -/
structure Legible (d : Description) : Prop where
  closed : ∀ entry ∈ d.entries, ∀ s ∈ closing entry.2, Closed s
  once : ∀ entry ∈ d.entries.getLast?, ∀ s ∈ closing entry.2, ClosedOnce s

theorem schemas_eq_of_entries_eq {schemas others : List (String × SchemaObject)}
    (same : schemas.map (fun p => (p.1, p.2.toYaml)) = others.map fun p => (p.1, p.2.toYaml)) :
    schemas = others := by
  refine (List.map_inj_right ?_).mp same
  rintro ⟨name, object⟩ ⟨name', object'⟩ pair
  obtain ⟨sameName, sameForm⟩ := Prod.mk.inj pair
  exact Prod.ext sameName (toYaml_injective sameForm)

end Description

/-! ## The parts of a text -/

/-- A key of what a description says about itself. -/
def infoKey (key : String) : List Char :=
  (spaces 2).toList ++ (keyLine 2 key).toList

/-- What stands in front of the title. -/
def opening (o : OpenApiOptions) : List Char :=
  (entryText 0 "openapi" (.string o.openApiVersion)).toList ++ ((keyText 0 "info").toList
    ++ ':' :: '\n' :: infoKey "title")

/-- The text about the description, if there is any. -/
def summaryText : Option String → List Char
  | none => []
  | some text => infoKey "description" ++ (scalarLine 2 text).toList

/-- The version of the interface. -/
def versionText (o : OpenApiOptions) : List Char :=
  infoKey "version" ++ (scalarLine 2 o.apiVersion).toList

/-- What stands in front of the schema objects. -/
def schemasLine (entries : List (String × Yaml)) : List Char :=
  "components:\n".toList
    ++ if entries.isEmpty then "  schemas: \x7b\x7d\n".toList else "  schemas:\n".toList

/-- The text of an interface description before its end is put in order. -/
def Description.chars (o : OpenApiOptions) (d : Description) : List Char :=
  opening o ++ ((scalarLine 2 d.title).toList ++ (summaryText d.summary ++ (versionText o
    ++ (missingFeed (versionText o) ++ (schemasLine d.entries ++ shiftedEntries 4 d.entries)))))

theorem toList_entriesText_string (key s : String) (entries : List (String × Yaml)) :
    (entriesText 2 ((key, .string s) :: entries)).toList =
      infoKey key ++ ((scalarLine 2 s).toList ++ (entriesText 2 entries).toList) := by
  rw [entriesText, entryText, infoKey]
  simp only [String.toList_append, List.append_assoc]

theorem toList_info_entries (title apiVersion : String) (summary : Option String) :
    (entriesText 2 (("title", .string title) :: (textEntry "description" summary
        ++ [("version", .string apiVersion)]))).toList =
      infoKey "title" ++ ((scalarLine 2 title).toList ++ (summaryText summary ++
        (infoKey "version" ++ (scalarLine 2 apiVersion).toList))) := by
  have none_left : (entriesText 2 []).toList = [] := by rw [entriesText, String.toList_empty]
  cases summary with
  | none =>
      rw [textEntry, List.nil_append, toList_entriesText_string, toList_entriesText_string,
        none_left, List.append_nil]
      rfl
  | some text =>
      rw [textEntry, List.singleton_append, toList_entriesText_string, toList_entriesText_string,
        toList_entriesText_string, none_left, List.append_nil, summaryText, List.append_assoc]

theorem toList_text_info (o : OpenApiOptions) (s : Schema) : (info o s).text.toList =
    opening o ++ ((scalarLine 2 (o.title.getD s.name)).toList ++ (summaryText (describe s.doc) ++
      versionText o)) := by
  have lower := toList_info_entries (o.title.getD s.name) o.apiVersion (describe s.doc)
  have form : info o s = .mapping [("openapi", .string o.openApiVersion),
      ("info", .mapping (("title", .string (o.title.getD s.name)) ::
        (textEntry "description" (describe s.doc) ++ [("version", .string o.apiVersion)])))] := by
    rw [info, List.append_assoc]
    rfl
  rw [form, Yaml.text, inlineText, entriesText, entriesText]
  simp only [String.toList_append, String.toList_empty, List.append_nil]
  rw [toList_entryText_mapping (by decide), lower, opening, versionText]
  simp only [List.append_assoc, List.cons_append]
  rfl

theorem versionText_ne_nil (o : OpenApiOptions) : versionText o ≠ [] := by
  simp [versionText, infoKey, spaces]

theorem toList_header (o : OpenApiOptions) (s : Schema) : (header o s).toList =
    opening o ++ ((scalarLine 2 (o.title.getD s.name)).toList ++ (summaryText (describe s.doc) ++
      (versionText o ++ (missingFeed (versionText o) ++
        schemasLine (description o s).entries)))) := by
  have free := no_return_text (info o s)
  have same : (description o s).entries.isEmpty = s.declarations.isEmpty := by
    simp [Description.entries, description]
  have lines : (header o s).toList =
      ((info o s).shiftedText 0).toList ++ schemasLine (description o s).entries := by
    unfold header schemasLine
    generalize (info o s).shiftedText 0 = upper
    rw [same]
    cases s.declarations.isEmpty <;> simp
  have feed : missingFeed (info o s).text.toList = missingFeed (versionText o) := by
    rw [toList_text_info, ← List.append_assoc, ← List.append_assoc,
      missingFeed_append (versionText_ne_nil o)]
  rw [lines, toList_shiftedText_zero free, feed, toList_text_info]
  simp only [List.append_assoc]

theorem toList_text_declarations (o : OpenApiOptions) (s : Schema) :
    (Fragment.join "" (s.declarations.map (Backend.openApi o).fragment)).text.toList =
      shiftedEntries 4 (description o s).entries := by
  have each : ∀ d : Declaration, ((Backend.openApi o).fragment d).text =
      (Yaml.mapping [((declarationObject o (d.represent capabilities)).1,
        (declarationObject o (d.represent capabilities)).2.toYaml)]).shiftedText 4 :=
    fun d => text_declarationText o (d.represent capabilities)
  rw [Fragment.text_join_empty, String.toList_join]
  unfold shiftedEntries Description.entries description
  simp only [List.map_map, List.flatMap_map, Function.comp_apply, each]

/-- The text of a schema has the parts of its description. -/
theorem toList_schemaText (o : OpenApiOptions) (s : Schema) :
    ((Backend.openApi o).schemaText s).text.toList = (description o s).chars o := by
  have whole : ((Backend.openApi o).schemaText s).text.toList = (header o s).toList ++
      (Fragment.join "" (s.declarations.map (Backend.openApi o).fragment)).text.toList := by
    unfold Backend.schemaText
    rw [Fragment.text_append, String.toList_append]
    rfl
  rw [whole, toList_header, toList_text_declarations]
  unfold Description.chars
  simp only [List.append_assoc, description]

/-! ## The end of a text -/

/-- A text with exactly one line feed at its end is in order. -/
theorem endWithBreak_of_endsOnce {text : String} (once : EndsOnce text.toList) :
    Text.endWithBreak text = text := by
  obtain ⟨front, c, whole, other⟩ := once
  have kept : dropFinalBreaks text.toList = front ++ [c] := by
    simp [dropFinalBreaks, whole, other]
  rw [← String.toList_inj, Text.endWithBreak, kept, whole]
  simp

/-- The text of a legible description has exactly one line feed at its end. -/
theorem Description.Legible.endsOnce_chars {d : Description} (legible : d.Legible)
    (o : OpenApiOptions) : EndsOnce (d.chars o) := by
  have last : EndsOnce (schemasLine d.entries ++ shiftedEntries 4 d.entries) := by
    by_cases none : d.entries = []
    · rw [none]
      exact ⟨"components:\n  schemas: \x7b".toList, '\x7d', rfl, by decide⟩
    · exact isEnding_endsOnce.grows _ (endsOnce_shiftedEntries 4 none legible.once)
  unfold Description.chars
  iterate 5 apply isEnding_endsOnce.grows
  exact last

/-- The text of a legible description is not changed by putting its end in order. -/
theorem toList_text_render {o : OpenApiOptions} {s : Schema} (legible : (description o s).Legible) :
    ((Backend.openApi o).render s).text.toList = (description o s).chars o := by
  have once := legible.endsOnce_chars o
  rw [← toList_schemaText] at once
  rw [Backend.text_render, endWithBreak_of_endsOnce once, toList_schemaText]

/-! ## Reading the parts -/

theorem infoKey_description : infoKey "description" = "  description: ".toList := by decide

theorem infoKey_version : infoKey "version" = "  version: ".toList := by decide

theorem outdented_versionText (o : OpenApiOptions) (rest : List Char) :
    Outdented 4 (versionText o ++ rest) := by
  unfold versionText
  rw [infoKey_version, List.append_assoc]
  exact .inr ⟨2, 'v', _, rfl, by decide, by decide, by decide⟩

theorem outdented_summaryText (summary : Option String) {rest : List Char}
    (below : Outdented 4 rest) : Outdented 4 (summaryText summary ++ rest) := by
  cases summary with
  | none => exact below
  | some text =>
      unfold summaryText
      rw [infoKey_description, List.append_assoc]
      exact .inr ⟨2, 'd', _, rfl, by decide, by decide, by decide⟩

/-- The version is not taken for a text about the description. -/
theorem versionText_append_ne (o : OpenApiOptions) (text : String) (rest rest' : List Char) :
    versionText o ++ rest ≠ summaryText (some text) ++ rest' := by
  unfold versionText summaryText
  rw [infoKey_version, infoKey_description, List.append_assoc, List.append_assoc]
  intro same
  have third := congrArg (·[2]?) same
  exact absurd (Option.some.inj third) (by decide)

/-- The text about a description can be told from what stands below the title. -/
theorem summaryText_append_inj (o : OpenApiOptions) {summary other : Option String}
    {rest rest' : List Char}
    (same : summaryText summary ++ (versionText o ++ rest) =
      summaryText other ++ (versionText o ++ rest')) : summary = other ∧ rest = rest' := by
  cases summary with
  | none =>
      cases other with
      | none => exact ⟨rfl, List.append_cancel_left same⟩
      | some text => exact absurd same (versionText_append_ne o text rest _)
  | some text =>
      cases other with
      | none => exact absurd same.symm (versionText_append_ne o text rest' _)
      | some text' =>
          unfold summaryText at same
          rw [List.append_assoc, List.append_assoc] at same
          obtain ⟨rfl, lower⟩ := scalarLine_append_inj (outdented_versionText o rest)
            (outdented_versionText o rest') (List.append_cancel_left same)
          exact ⟨rfl, List.append_cancel_left lower⟩

/-- Entries can be told from what stands below the header. -/
theorem shiftedEntries_eq_of_schemasLine_append_eq {entries others : List (String × Yaml)}
    (same : schemasLine entries ++ shiftedEntries 4 entries =
      schemasLine others ++ shiftedEntries 4 others) :
    shiftedEntries 4 entries = shiftedEntries 4 others := by
  have differ : ∀ cs, ¬ "  schemas: \x7b\x7d\n".toList = "  schemas:\n".toList ++ cs := by
    intro cs same
    have after_colon := congrArg (·[10]?) same
    exact absurd (Option.some.inj after_colon) (by decide)
  unfold schemasLine at same
  rw [List.append_assoc, List.append_assoc] at same
  have lower := List.append_cancel_left same
  cases entries with
  | nil =>
      cases others with
      | nil => rfl
      | cons other others => exact absurd lower (differ _)
  | cons entry entries =>
      cases others with
      | nil => exact absurd lower.symm (differ _)
      | cons other others => exact List.append_cancel_left lower

/-- A description can be told from its parts. -/
theorem Description.eq_of_chars_eq {o : OpenApiOptions} {d e : Description}
    (closed : ∀ entry ∈ d.entries, ∀ s ∈ closing entry.2, Closed s)
    (closed' : ∀ entry ∈ e.entries, ∀ s ∈ closing entry.2, Closed s)
    (same : d.chars o = e.chars o) : d = e := by
  unfold Description.chars at same
  obtain ⟨sameTitle, below⟩ := scalarLine_append_inj
    (outdented_summaryText _ (outdented_versionText o _))
    (outdented_summaryText _ (outdented_versionText o _)) (List.append_cancel_left same)
  obtain ⟨sameSummary, lower⟩ := summaryText_append_inj o below
  have moved := shiftedEntries_eq_of_schemasLine_append_eq (List.append_cancel_left lower)
  have sameSchemas := schemas_eq_of_entries_eq (shiftedEntries_injective 4 closed closed' moved)
  cases d
  cases e
  exact Description.mk.injEq .. ▸ ⟨sameTitle, sameSummary, sameSchemas⟩

/-- **Texts of interface descriptions determine what they say.** If two schemas have one text, and
the last string of every schema object ends in a way that is kept, then they have the same title,
the same text about themselves, and the same schema objects under the same names. -/
theorem description_eq_of_render_eq {o : OpenApiOptions} {s t : Schema}
    (legible : (description o s).Legible) (legible' : (description o t).Legible)
    (same : ((Backend.openApi o).render s).text = ((Backend.openApi o).render t).text) :
    description o s = description o t := by
  have texts := congrArg String.toList same
  rw [toList_text_render legible, toList_text_render legible'] at texts
  exact Description.eq_of_chars_eq legible.closed legible'.closed texts

/-- A schema with docs of several lines, some of which end with empty lines. -/
def blockSample (leaf : TypeRef) : Schema where
  name := "Sample"
  doc := .ofList ["Samples", "", ""]
  declarations := [
    .alias ⟨"Flag", leaf, .ofList ["up", "", "or down", "", ""]⟩,
    .enumeration ⟨"Mode", .raw
      [⟨"fast", some "a: b\n", {}⟩, ⟨"slow", some "- c", .ofList ["no", "hurry"]⟩], {}⟩]

set_option maxRecDepth 4000 in
/-- Schemas with one text differ in a leaf that is written as the same primitive. -/
theorem description_blockSample :
    blockSample (.primitive "bool") ≠ blockSample (.named "bool") ∧
      (description {} (blockSample (.primitive "bool"))).Legible ∧
      description {} (blockSample (.primitive "bool")) =
        description {} (blockSample (.named "bool")) :=
  ⟨by decide, ⟨by decide, by decide⟩,
    description_eq_of_render_eq ⟨by decide, by decide⟩ ⟨by decide, by decide⟩ rfl⟩

/-! ## What is lost -/

/-- A further line feed at the end of the last entry does not change the text. -/
theorem text_render_eq_of_feed {o : OpenApiOptions} {s t : Schema}
    (sameTitle : (description o s).title = (description o t).title)
    (sameSummary : (description o s).summary = (description o t).summary)
    {before : List (String × Yaml)} {entry entry' : String × Yaml}
    (entries : (description o s).entries = before ++ [entry])
    (entries' : (description o t).entries = before ++ [entry'])
    (feed : (Yaml.mapping [entry']).text.toList = (Yaml.mapping [entry]).text.toList ++ ['\n']) :
    ((Backend.openApi o).render s).text = ((Backend.openApi o).render t).text := by
  have moved := toList_shiftedText_concat 4 feed (no_return_text _)
  have lost : ∀ cs, dropFinalBreaks (cs ++ if missingFeed (Yaml.mapping [entry]).text.toList = []
      then ['\n'] else []) = dropFinalBreaks cs := by
    intro cs
    split <;> simp [dropFinalBreaks]
  generalize (if missingFeed (Yaml.mapping [entry]).text.toList = [] then ['\n'] else []) = more
    at moved lost
  have lower : shiftedEntries 4 (description o t).entries =
      shiftedEntries 4 (description o s).entries ++ more := by
    unfold shiftedEntries
    rw [entries, entries', List.flatMap_append, List.flatMap_append, List.flatMap_singleton,
      List.flatMap_singleton, moved, List.append_assoc]
  have line : schemasLine (description o s).entries = schemasLine (description o t).entries := by
    unfold schemasLine
    simp [entries, entries']
  have chars : (description o t).chars o = (description o s).chars o ++ more := by
    unfold Description.chars
    rw [lower, ← line, ← sameTitle, ← sameSummary]
    simp only [List.append_assoc]
  rw [Backend.text_render, Backend.text_render]
  unfold endWithBreak
  rw [toList_schemaText, toList_schemaText, chars, lost]

/-- An enumeration whose only case has a doc. -/
def docSample (lines : List String) : Schema where
  name := "m"
  declarations := [.enumeration ⟨"E", .raw [⟨"A", some "a", .ofList lines⟩], {}⟩]

/-- The entries of this enumeration in front of the text of the doc. -/
def docFront : List (String × Yaml) :=
  [("type", .string "string"), ("enum", .sequence [.string "a"]),
   ("x-enum-varnames", .sequence [.string "A"])]

/-- The entry of this enumeration, with the text of the doc. -/
def docEntry (text : String) : String × Yaml :=
  ("E", .mapping (("title", .string "E") ::
    (docFront ++ [("x-enum-descriptions", .sequence [.string text])])))

/-- A further line feed at the end of the doc is one at the end of the entry. -/
theorem toList_text_docEntry {text text' : String}
    (feed : (scalarLine 2 text').toList = (scalarLine 2 text).toList ++ ['\n']) :
    (Yaml.mapping [docEntry text']).text.toList =
      (Yaml.mapping [docEntry text]).text.toList ++ ['\n'] := by
  have item : ∀ text : String, (itemsText 2 [.string text]).toList =
      (spaces 2 ++ "- ").toList ++ (scalarLine 2 text).toList := by
    intro text
    rw [itemsText, itemsText, inlineText, String.append_empty, String.toList_append]
  have last : ∀ text : String,
      (entriesText 2 [("x-enum-descriptions", .sequence [.string text])]).toList =
        (spaces 2).toList ++ ((keyText 2 "x-enum-descriptions").toList ++ ':' :: '\n' ::
          ((spaces 2 ++ "- ").toList ++ (scalarLine 2 text).toList)) := by
    intro text
    rw [entriesText, entriesText, String.append_empty, String.toList_append,
      toList_entryText_sequence (by decide), item]
  have whole : ∀ text : String, (Yaml.mapping [docEntry text]).text.toList =
      (keyText 0 "E").toList ++ ':' :: '\n' ::
        ((entriesText 2 (("title", .string "E") :: docFront)).toList ++
          (entriesText 2 [("x-enum-descriptions", .sequence [.string text])]).toList) := by
    intro text
    rw [docEntry, text_mapping_singleton, toList_entryText_mapping (by decide),
      ← List.cons_append, entriesText_append, String.toList_append]
  rw [whole, whole, last, last, feed]
  simp only [List.append_assoc, List.cons_append]

theorem text_render_docSample_eq (text text' : String) {lines lines' : List String}
    (told : (description {} (docSample lines)).entries = [docEntry text])
    (told' : (description {} (docSample lines')).entries = [docEntry text'])
    (feed : (scalarLine 2 text').toList = (scalarLine 2 text).toList ++ ['\n']) :
    ((Backend.openApi {}).render (docSample lines)).text =
      ((Backend.openApi {}).render (docSample lines')).text :=
  text_render_eq_of_feed rfl rfl (told.trans (List.nil_append _).symm)
    (told'.trans (List.nil_append _).symm) (toList_text_docEntry feed)

/-- What is said about cases can be told from a description. -/
theorem Description.ne_of_valueDescriptions {d e : Description}
    (other : d.schemas.map (·.2.valueDescriptions) ≠ e.schemas.map (·.2.valueDescriptions)) :
    d ≠ e :=
  fun same => other (same ▸ rfl)

/-- Empty lines at the end of the last doc are lost, and so is one below a line separator: the
schemas of each pair are accepted, have one text, and say different things. -/
theorem text_render_docSample :
    (∀ lines ∈ [["x", "", ""], ["x", "", "", ""], ["x", "\u2028"], ["x", "\u2028", ""]],
      (docSample lines).check = .ok ()) ∧
    (((Backend.openApi {}).render (docSample ["x", "", ""])).text =
        ((Backend.openApi {}).render (docSample ["x", "", "", ""])).text ∧
      description {} (docSample ["x", "", ""]) ≠ description {} (docSample ["x", "", "", ""])) ∧
    (((Backend.openApi {}).render (docSample ["x", "\u2028"])).text =
        ((Backend.openApi {}).render (docSample ["x", "\u2028", ""])).text ∧
      description {} (docSample ["x", "\u2028"]) ≠
        description {} (docSample ["x", "\u2028", ""])) := by
  refine ⟨?_, ⟨?_, ?_⟩, ?_, ?_⟩
  · simp only [List.forall_mem_cons]
    exact ⟨rfl, rfl, rfl, rfl, by simp⟩
  · exact text_render_docSample_eq "x\n\n" "x\n\n\n" rfl rfl (by decide)
  · exact Description.ne_of_valueDescriptions (by decide)
  · exact text_render_docSample_eq "x\n\u2028" "x\n\u2028\n" rfl rfl (by decide)
  · exact Description.ne_of_valueDescriptions (by decide)

end SchemaPress.OpenApi
