import SchemaPress.Proofs.Generator.Passes
import SchemaPress.Proofs.Schema.Soundness
import SchemaPress.Proofs.Target.RawEnum

/-!
# Raw values through a generator

A generator drops declarations, changes names, checks what is left and renders it. The raw values of
an enumeration that is not dropped come through all of this: renaming does not touch them, the check
refuses a case without one, so that the name of a case never has to stand in, and every target
writes them case by case.
-/

set_option autoImplicit false

namespace SchemaPress.Generator

/-- A generator succeeds exactly if the schema is sound after the passes; then it has one rendering
for each backend. -/
theorem generate_eq_ok_iff (g : Generator) (s : Schema) (rs : List Rendering) :
    g.generate s = .ok rs ↔
      (g.prepare s).Sound ∧ rs = g.backends.map (·.render (g.prepare s)) := by
  rw [← Schema.check_eq_ok_iff, generate]
  cases (g.prepare s).check with
  | error problems => simp [bind, Except.bind]
  | ok accepted => simp [bind, Except.bind, pure, Except.pure, eq_comm]

/-- An enumeration of raw values that is not skipped comes through the passes with the names of its
cases changed. -/
theorem mem_prepare_of_raw {g : Generator} {s : Schema} {name : String} {doc : Doc}
    {cases : List RawCase}
    (member : .enumeration ⟨name, .raw cases, doc⟩ ∈ s.declarations) (kept : name ∉ g.skip) :
    .enumeration ⟨name, .raw (cases.map (RawCase.renamed g.rename.case)), doc⟩ ∈
      (g.prepare s).declarations :=
  (g.mem_prepare_iff s _).mpr ⟨_, member, kept, rfl⟩

/-- A generator has the passes and the backends of its configuration. -/
theorem ofConfig_eq_ok_iff (c : Config) (g : Generator) :
    ofConfig c = .ok g ↔
      Backend.ofConfig c = .ok g.backends ∧ g.skip = c.skip ∧ g.rename = c.rename := by
  obtain ⟨backends, skip, rename⟩ := g
  unfold ofConfig
  cases Backend.ofConfig c with
  | error unknown => simp [Except.map]
  | ok found => simp [Except.map, eq_comm]

/-- **Raw values come through every configuration.** If a generator succeeds on a schema, then every
enumeration of raw values that is not skipped has a raw value for each of its cases, and each
rendering holds, in the place of this enumeration, one entry for each case in order whose literals
are read as this raw value. -/
theorem generate_keeps_raw_values {c : Config} {g : Generator} (made : ofConfig c = .ok g)
    {s : Schema} {rs : List Rendering} (generated : g.generate s = .ok rs) {name : String}
    {doc : Doc} {cases : List RawCase}
    (member : .enumeration ⟨name, .raw cases, doc⟩ ∈ s.declarations) (kept : name ∉ c.skip) :
    (∀ k ∈ cases, ∃ raw, k.rawValue = some raw) ∧
      List.Forall₂ (fun b r => r.target = b.target ∧
        ∃ text, b.HasInPlace (g.prepare s) name text r ∧
          b.WritesRawEnum c.rename.case name doc cases text) g.backends rs := by
  obtain ⟨-, skips, renames⟩ := (ofConfig_eq_ok_iff c g).mp made
  obtain ⟨sound, rfl⟩ := (g.generate_eq_ok_iff s rs).mp generated
  have prepared := mem_prepare_of_raw member (skips ▸ kept)
  have declared : ∀ k ∈ cases, k.rawValue ≠ none := fun k inside =>
    sound.raw_present _ _ _ prepared (k.renamed g.rename.case) (List.mem_map_of_mem inside)
  refine ⟨fun k inside => Option.ne_none_iff_exists'.mp (declared k inside), ?_⟩
  rw [List.forall₂_map_right_iff, List.forall₂_same]
  intro b _
  refine ⟨rfl, _, b.hasInPlace_render prepared, ?_⟩
  rw [renames]
  exact b.writesRawEnum_chunk c.rename.case name doc declared

/-- A configuration that changes names, skips a declaration and asks for all targets. -/
def renamingConfig : Config where
  typeScript := { rawEnumStyle := .constObject }
  skip := ["Old"]
  rename := .all .camel

/-- Cases with raw values that need escapes and names that are changed to reserved words. -/
def escapedCases : List RawCase :=
  [⟨"Default", some "a \"b\"\n", .ofText "first"⟩, ⟨"Type", some "c\\\t\x01", {}⟩]

/-- A schema with these cases and a declaration that could not be rendered. -/
def renamedSample : Schema where
  name := "Sample"
  declarations := [
    .enumeration ⟨"Old", .raw [⟨"Lost", none, {}⟩], {}⟩,
    .enumeration ⟨"Mode", .raw escapedCases, {}⟩]

/-- The raw values of the sample come through, although all its cases are renamed. -/
theorem generate_keeps_raw_values_renamedSample :
    ∃ g rs, ofConfig renamingConfig = .ok g ∧ g.generate renamedSample = .ok rs ∧ rs.length = 4 ∧
      List.Forall₂ (fun b r => r.target = b.target ∧
        ∃ text, b.HasInPlace (g.prepare renamedSample) "Mode" text r ∧
          b.WritesRawEnum (some .camel) "Mode" {} escapedCases text) g.backends rs := by
  have made : ofConfig renamingConfig =
      .ok ⟨Target.all.map (Backend.ofTarget renamingConfig), ["Old"], .all .camel⟩ := rfl
  have member : .enumeration ⟨"Mode", .raw escapedCases, {}⟩ ∈ renamedSample.declarations :=
    List.mem_cons_of_mem _ List.mem_cons_self
  have kept : "Mode" ∉ renamingConfig.skip := by decide
  exact ⟨_, _, made, rfl, rfl, (generate_keeps_raw_values made rfl member kept).2⟩

end SchemaPress.Generator
