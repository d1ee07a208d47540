import SchemaPress.Proofs.Target.Written
import SchemaPress.Proofs.Text.Lines
import SchemaPress.Schema.Pass

/-!
# Rendering declaration by declaration

A schema is rendered in steps: the header goes into an empty emission, then each declaration is
emitted into what is there already, with the separator between each two. Every emitter adds one
fragment, so a step adds a text at the end that depends on the declaration alone, its chunk
(`Backend.emit_eq`). The diagnostics of a declaration are those that it gives alone; a later step
only leaves out what has been reported before.

So the text of a schema is put together from the chunks of its declarations, in their order, and
only the line feeds at its very end are put in order (`Backend.render_composed`). In particular
every declaration has its chunk in its place in a rendering (`Backend.hasInPlace_render`).
-/

set_option autoImplicit false

namespace SchemaPress

namespace Backend

variable (b : Backend)

/-! ## Steps -/

/-- The fragment of a declaration that has been brought into the shape the target can express. -/
def representationText : Backend → Representation → Fragment
  | .swift o => Swift.declarationText o
  | .typeScript o => TypeScript.declarationText o
  | .rust o => Rust.declarationText o
  | .openApi o => OpenApi.declarationText o

/-- The fragment of a declaration. -/
def fragment (d : Declaration) : Fragment :=
  b.representationText (d.represent b.capabilities)

/-- **A step adds the fragment of the declaration**, whatever is there already. -/
theorem emit_eq_pushFragment (e : Emission) (d : Declaration) :
    b.emit e d = e.pushFragment b.target (b.fragment d) := by
  have adds : Emit.Adds b.target (b.emitRepresentation (d.represent b.capabilities)) ()
      (b.fragment d) := by
    cases b with
    | swift o => exact Swift.adds_emit o _
    | typeScript o => exact TypeScript.adds_emit o _
    | rust o => exact Rust.adds_emit o _
    | openApi o => exact OpenApi.adds_emit o _
  exact congrArg Prod.snd (adds e)

/-- The text that emitting a declaration alone gives. -/
def chunk (d : Declaration) : String :=
  (b.emit {} d).text

theorem chunk_eq (d : Declaration) : b.chunk d = (b.fragment d).text := by
  unfold chunk
  rw [emit_eq_pushFragment]
  exact (Emission.text_foldl_report _ _).trans String.empty_append

/-- **A step is blind to the earlier ones**: it adds the chunk of the declaration, and reports what
the declaration gives alone. -/
theorem emit_eq (e : Emission) (d : Declaration) :
    b.emit e d = (b.emit {} d).diagnostics.foldl Emission.report (e.push (b.chunk d)) := by
  unfold chunk
  rw [emit_eq_pushFragment, emit_eq_pushFragment]
  exact Emission.pushFragment_eq b.target e (b.fragment d)

/-! ## Whole schemas -/

/-- The fragment of a schema before its end is put in order. -/
def schemaText (s : Schema) : Fragment :=
  b.header s ++ Fragment.join b.separator (s.declarations.map b.fragment)

/-- **What a run of steps adds**: the fragments with the separator between each two. -/
theorem emitAll_eq_pushFragment (e : Emission) (ds : List Declaration) :
    b.emitAll e ds = e.pushFragment b.target (Fragment.join b.separator (ds.map b.fragment)) := by
  cases ds with
  | nil => exact (Emission.pushFragment_empty b.target e).symm
  | cons d ds =>
      rw [emitAll, emit_eq_pushFragment]
      induction ds generalizing e d with
      | nil => rfl
      | cons next ds ih =>
          have first : Fragment.join b.separator ((d :: next :: ds).map b.fragment) =
              b.fragment d ++ Fragment.ofText b.separator ++
                Fragment.join b.separator ((next :: ds).map b.fragment) := rfl
          rw [List.foldl_cons, emit_eq_pushFragment, ih, first, Emission.pushFragment_append,
            Emission.pushFragment_append, Emission.pushFragment_ofText]

/-- The steps of a schema push its fragment. -/
theorem emission_eq_pushFragment (s : Schema) :
    b.emitAll (({} : Emission).push (b.header s)) s.declarations =
      ({} : Emission).pushFragment b.target (b.schemaText s) := by
  unfold schemaText
  rw [emitAll_eq_pushFragment, Emission.pushFragment_append, Emission.pushFragment_ofText]

/-- The text of a rendering is that of the schema with its end put in order. -/
theorem text_render (s : Schema) :
    (b.render s).text = Text.endWithBreak (b.schemaText s).text := by
  unfold render
  rw [emission_eq_pushFragment]
  simp [Emission.pushFragment, Emission.text_foldl_report, Emission.push]

/-- The diagnostics of a rendering are the reserved words of the schema, none of them twice. -/
theorem diagnostics_render (s : Schema) :
    (b.render s).diagnostics = (((b.schemaText s).collisions.map
      (.reservedIdentifier b.target)).foldl Emission.report {}).diagnostics := by
  unfold render
  rw [emission_eq_pushFragment]
  exact Emission.diagnostics_pushFragment b.target (b.schemaText s)

/-- The text of a schema is the header and the chunks of its declarations, with the separator
between each two. -/
theorem text_schemaText (s : Schema) :
    (b.schemaText s).text =
      b.header s ++ String.intercalate b.separator (s.declarations.map b.chunk) := by
  have chunks : b.chunk = Fragment.text ∘ b.fragment := funext b.chunk_eq
  unfold schemaText
  rw [Fragment.text_append, Fragment.text_ofText, Fragment.text_join, List.map_map, chunks]

/-- **The text of a rendering** is that of the schema, up to line feeds at its very end. -/
theorem roundsOff_render (s : Schema) :
    Text.RoundsOff (b.header s ++ String.intercalate b.separator (s.declarations.map b.chunk))
      (b.render s).text := by
  rw [text_render, text_schemaText]
  exact Text.roundsOff_endWithBreak _

/-- The diagnostics of a schema are those of its declarations, none of them twice. -/
theorem diagnostics_render_eq (s : Schema) :
    (b.render s).diagnostics =
      ((s.declarations.flatMap fun d => (b.emit {} d).diagnostics).foldl
        Emission.report {}).diagnostics := by
  have words : ∀ (ds : List Declaration) (e : Emission),
      (ds.flatMap fun d => (b.emit {} d).diagnostics).foldl Emission.report e =
        ((ds.flatMap fun d => (b.fragment d).collisions).map
          (.reservedIdentifier b.target)).foldl Emission.report e := by
    intro ds
    induction ds with
    | nil => exact fun _ => rfl
    | cons d ds ih =>
        intro e
        rw [List.flatMap_cons, List.flatMap_cons, List.foldl_append, List.map_append,
          List.foldl_append, ih, emit_eq_pushFragment, Emission.diagnostics_pushFragment,
          Emission.foldl_report_diagnostics]
        rfl
  have listed : (b.schemaText s).collisions =
      s.declarations.flatMap fun d => (b.fragment d).collisions := by
    simp [schemaText, List.flatMap_map]
  rw [diagnostics_render, words, listed]

/-- A header depends on the declarations only through whether there are any. -/
theorem header_congr {s t : Schema} (name : t.name = s.name) (doc : t.doc = s.doc)
    (filled : t.declarations.isEmpty = s.declarations.isEmpty) : b.header t = b.header s := by
  cases b with
  | swift o => simp only [header, Swift.header, doc]
  | typeScript o => simp only [header, TypeScript.header, doc]
  | rust o => simp only [header, Rust.header, doc]
  | openApi o => simp only [header, OpenApi.header, OpenApi.info, name, doc, filled]

/-- **Rendering is compositional.** Emitting a declaration is blind to what earlier ones have left.
The text of a schema is its header and the chunks of its declarations in their order, with the line
feeds at its very end replaced by exactly one; its diagnostics are those of its declarations, none
of them twice. The header depends on the declarations only through whether there are any. So
declarations in another order have the same chunks in that order, and skipping declarations takes
out exactly their chunks. -/
theorem render_composed (s : Schema) :
    (∀ e d, b.emit e d =
      (b.emit {} d).diagnostics.foldl Emission.report (e.push (b.chunk d))) ∧
    Text.RoundsOff (b.header s ++ String.intercalate b.separator (s.declarations.map b.chunk))
      (b.render s).text ∧
    (b.render s).diagnostics =
      ((s.declarations.flatMap fun d => (b.emit {} d).diagnostics).foldl
        Emission.report {}).diagnostics ∧
    (∀ t : Schema, t.name = s.name → t.doc = s.doc →
      t.declarations.isEmpty = s.declarations.isEmpty → b.header t = b.header s) ∧
    (∀ ds, ds.Perm s.declarations →
      (ds.map b.chunk).Perm (s.declarations.map b.chunk) ∧
      Text.RoundsOff (b.header s ++ String.intercalate b.separator (ds.map b.chunk))
        (b.render { s with declarations := ds }).text) ∧
    ∀ names,
      Text.RoundsOff (b.header (s.skip names) ++ String.intercalate b.separator
          ((s.declarations.filter fun d => !names.contains d.name).map b.chunk))
        (b.render (s.skip names)).text := by
  refine ⟨b.emit_eq, b.roundsOff_render s, b.diagnostics_render_eq s,
    fun t name doc filled => b.header_congr name doc filled, ?_, ?_⟩
  · intro ds reordered
    refine ⟨reordered.map b.chunk, ?_⟩
    have header : b.header { s with declarations := ds } = b.header s :=
      b.header_congr rfl rfl reordered.isEmpty_eq
    rw [← header]
    exact b.roundsOff_render { s with declarations := ds }
  · intro names
    exact b.roundsOff_render (s.skip names)

/-- A reserved word and another name, each declared once, below a doc. -/
def orderedSample : Schema where
  name := "m"
  doc := ⟨["Names."], by decide⟩
  declarations := [.alias { name := "any", target := .primitive "bool" },
    .alias { name := "Id", target := .primitive "i32" }]

theorem render_composed_orderedSample :
    let b : Backend := .typeScript { strictIdentifiers := true }
    let ds := orderedSample.declarations.reverse
    ds.Perm orderedSample.declarations ∧
      (b.render { orderedSample with declarations := ds }).text =
        "/// Names.\n\ntype Id = number\n\ntype any = boolean\n" ∧
      (b.render (orderedSample.skip ["any"])).text = "/// Names.\n\ntype Id = number\n" ∧
      (b.render (orderedSample.skip ["any", "Id"])).text = "/// Names.\n" := by
  intro b ds
  obtain ⟨-, -, -, -, reordered, skipped⟩ := render_composed b orderedSample
  have swapped : ds.Perm orderedSample.declarations := List.reverse_perm _
  exact ⟨swapped, (reordered ds swapped).2.eq.trans (by decide +kernel),
    (skipped ["any"]).eq.trans (by decide +kernel),
    (skipped ["any", "Id"]).eq.trans (by decide +kernel)⟩

/-! ## Declarations in their places -/

/-- A text stands in a rendering of a schema in the place of the declaration of a name: after the
header and the earlier declarations, and before the later ones. Only line feeds at the very end of
the rendering are put in order. -/
def HasInPlace (b : Backend) (s : Schema) (name text : String) (r : Rendering) : Prop :=
  ∃ earlier d later, s.declarations = earlier ++ d :: later ∧ d.name = name ∧
    Text.RoundsOff
      (b.header s ++ String.join (earlier.map fun e => b.chunk e ++ b.separator)
        ++ text ++ String.join (later.map fun e => b.separator ++ b.chunk e)) r.text

/-- A rendering has the chunk of each declaration in its place. -/
theorem hasInPlace_render {s : Schema} {d : Declaration} (member : d ∈ s.declarations) :
    b.HasInPlace s d.name (b.chunk d) (b.render s) := by
  obtain ⟨earlier, later, split⟩ := List.append_of_mem member
  refine ⟨earlier, d, later, split, rfl, ?_⟩
  have whole : (b.schemaText s).text =
      b.header s ++ String.join (earlier.map fun e => b.chunk e ++ b.separator) ++ b.chunk d
        ++ String.join (later.map fun e => b.separator ++ b.chunk e) := by
    simp only [chunk_eq]
    rw [schemaText, Fragment.text_append, split, List.map_append, List.map_cons,
      Fragment.text_join_append_cons, List.map_map, List.map_map, ← String.append_assoc,
      ← String.append_assoc]
    rfl
  rw [← whole, text_render]
  exact Text.roundsOff_endWithBreak _

end Backend

/-- The text of a declaration in an interface description is a mapping with one key. -/
theorem OpenApi.text_declarationText (o : OpenApiOptions) (r : Representation) :
    (OpenApi.declarationText o r).text =
      (Yaml.mapping [((OpenApi.declarationObject o r).1,
        (OpenApi.declarationObject o r).2.toYaml)]).shiftedText 4 := rfl

end SchemaPress
