import SchemaPress.Proofs.Schema.Reshaped

/-!
# Mentions that lead nowhere after the passes

Unresolved mentions are looked for in a schema that has been prepared. Skipping takes a declaration
away together with its own mentions, and leaves the mentions of it in other declarations, which now
lead nowhere. Renaming changes the places where mentions are found, but neither the names that are
mentioned nor those that are declared.

So the unresolved mentions can be read off the schema as it was before the passes: they are the
named types at the bottom of the types in the declarations that are kept, if their name is skipped
or was not declared in the first place (`Generator.unresolved_prepare`).
-/

set_option autoImplicit false

namespace SchemaPress

/-! ## Types and their places -/

/-- The name at the bottom of a type, if a named type stands there. -/
def TypeRef.named? : TypeRef → Option String
  | .primitive _ => none
  | .named name => some name
  | .optional inner => inner.named?
  | .sequence inner => inner.named?

theorem TypeRef.names_eq_toList (type : TypeRef) : type.names = type.named?.toList := by
  induction type with
  | primitive name => rfl
  | named name => rfl
  | optional inner ih => exact ih
  | sequence inner ih => exact ih

namespace Declaration

/-- The target of an alias, the types of fields, and the payloads of cases. -/
def types : Declaration → List TypeRef
  | .alias a => [a.target]
  | .record r => r.fields.map (·.type)
  | .enumeration ⟨_, .raw _, _⟩ => []
  | .enumeration ⟨_, .union cases, _⟩ => cases.filterMap (·.payload)

/-- The types in a declaration with the texts of their places: the name of the declaration, joined
with the changed name of the member. -/
def placedTypes (o : RenameOptions) : Declaration → List (String × TypeRef)
  | .alias a => [(a.name, a.target)]
  | .record r => r.fields.map fun f => (r.name ++ "." ++ renameField o.field f.name, f.type)
  | .enumeration ⟨_, .raw _, _⟩ => []
  | .enumeration ⟨name, .union cases, _⟩ => cases.filterMap fun c =>
      c.payload.map fun type => (name ++ "::" ++ renameCase o.variant c.name, type)

theorem map_snd_mentions (d : Declaration) : d.mentions.map Prod.snd = d.types := by
  rcases d with a | r | ⟨name, cases | cases, doc⟩
  · rfl
  · simp [mentions, types]
  · rfl
  · simp [mentions, types, List.map_flatMap, List.filterMap_eq_flatMap_toList, Function.comp_def]

theorem map_mentions (o : RenameOptions) (d : Declaration) :
    (d.mentions.map fun m => ((m.1.rename o).text, m.2)) = d.placedTypes o := by
  rcases d with a | r | ⟨name, cases | cases, doc⟩
  · rfl
  · simp [mentions, placedTypes, Location.rename, Location.text]
  · rfl
  · simp [mentions, placedTypes, Location.rename, Location.text, List.map_flatMap,
      List.filterMap_eq_flatMap_toList, Option.toList_map, Function.comp_def]

/-- The mentions of some names in a declaration, each at its place, member by member. -/
theorem flatMap_mentions (o : RenameOptions) (wanted : String → Bool) (d : Declaration) :
    (d.mentions.flatMap fun m =>
        (m.2.names.filter wanted).map fun name => (name, (m.1.rename o).text)) =
      (d.placedTypes o).filterMap fun m =>
        (m.2.named?.filter wanted).map fun name => (name, m.1) := by
  simp only [← map_mentions, List.filterMap_eq_flatMap_toList, List.flatMap_map,
    Option.toList_map, Option.toList_filter, TypeRef.names_eq_toList]

end Declaration

/-! ## Declared names -/

namespace Schema

theorem exists_get?_iff (s : Schema) (name : String) :
    (∃ d, s.get? name = some d) ↔ name ∈ s.names := by
  rw [← Option.isSome_iff_exists, get?, List.find?_isSome]
  simp [names]

theorem names_rename (s : Schema) (o : RenameOptions) : (s.rename o).names = s.names := by
  simp [names, rename]

theorem mem_names_skip (s : Schema) (skipped : List String) (name : String) :
    name ∈ (s.skip skipped).names ↔ name ∈ s.names ∧ name ∉ skipped := by
  simp only [names, skip, List.mem_map, List.mem_filter, Bool.not_eq_true',
    ← Bool.not_eq_true, List.contains_iff_mem]
  constructor
  · rintro ⟨d, ⟨listed, kept⟩, rfl⟩
    exact ⟨⟨d, listed, rfl⟩, kept⟩
  · rintro ⟨⟨d, listed, rfl⟩, kept⟩
    exact ⟨d, ⟨listed, kept⟩, rfl⟩

/-- No mention is unresolved exactly if each named type in the schema can be looked up. -/
theorem unresolved_eq_nil_iff (s : Schema) :
    s.unresolved = [] ↔ ∀ d ∈ s.declarations, ∀ type ∈ d.types, ∀ name,
      type.named? = some name → ∃ found, s.get? name = some found := by
  simp only [unresolved, List.flatMap_eq_nil_iff, List.map_eq_nil_iff, List.filter_eq_nil_iff,
    TypeRef.names_eq_toList, Option.mem_toList, Bool.not_eq_true', Bool.not_eq_false,
    List.contains_iff_mem, exists_get?_iff, ← Declaration.map_snd_mentions, List.forall_mem_map]

end Schema

/-! ## Both passes -/

namespace Generator

theorem not_mem_names_prepare_iff (g : Generator) (s : Schema) (name : String) :
    name ∉ (g.prepare s).names ↔ name ∈ g.skip ∨ name ∉ s.names := by
  rw [prepare_eq, Schema.names_rename, Schema.mem_names_skip, not_and_or, not_not, or_comm]

/-- The unresolved mentions are those of the declarations that are kept, with their places
renamed. -/
theorem unresolved_prepare_eq (g : Generator) (s : Schema) :
    (g.prepare s).unresolved =
      (s.declarations.filter fun d => d.name ∉ g.skip).flatMap fun d => d.mentions.flatMap fun m =>
        (m.2.names.filter fun name => name ∈ g.skip ∨ name ∉ s.names).map fun name =>
          ⟨name, m.1.rename g.rename⟩ := by
  have kept : (g.prepare s).declarations =
      (s.declarations.filter fun d => d.name ∉ g.skip).map (·.rename g.rename) := by
    rw [prepare_eq]
    simp [Schema.rename, Schema.skip]
  have missing : ∀ name, (!(g.prepare s).names.contains name) =
      decide (name ∈ g.skip ∨ name ∉ s.names) := by
    intro name
    rw [Bool.eq_iff_iff, Bool.not_eq_true', ← Bool.not_eq_true, List.contains_iff_mem,
      not_mem_names_prepare_iff, decide_eq_true_eq]
  simp only [Schema.unresolved, missing, kept, List.flatMap_map, Declaration.mentions_rename]

/-- **Unresolved mentions after the passes.** They are, in the order of the declarations that are
kept and of their members and once for each occurrence, the named types at the bottom of a type
whose name is skipped or was never declared. Each is found at the name of its declaration, joined
with the changed name of its member. There is none exactly if each named type in the prepared schema
can be looked up there. -/
theorem unresolved_prepare (g : Generator) (s : Schema) :
    ((g.prepare s).unresolved.map fun u => (u.name, u.location.text)) =
        ((s.declarations.filter fun d => d.name ∉ g.skip).flatMap fun d =>
          (d.placedTypes g.rename).filterMap fun m =>
            (m.2.named?.filter fun name => name ∈ g.skip ∨ name ∉ s.names).map fun name =>
              (name, m.1)) ∧
      ((g.prepare s).unresolved = [] ↔
        ∀ d ∈ (g.prepare s).declarations, ∀ type ∈ d.types, ∀ name, type.named? = some name →
          ∃ found, (g.prepare s).get? name = some found) := by
  refine ⟨?_, (g.prepare s).unresolved_eq_nil_iff⟩
  simp only [unresolved_prepare_eq, List.map_flatMap, List.map_map, Function.comp_def,
    ← Declaration.flatMap_mentions]

end Generator

end SchemaPress
