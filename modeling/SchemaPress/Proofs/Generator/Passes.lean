import SchemaPress.Generator
import SchemaPress.Proofs.Schema.CamelCase

/-!
# The algebra of the passes

Skipping looks at the names of declarations, and renaming changes the names of their members. So the
two do not get in each other's way: skipping in two rounds is skipping once, the order of the passes
does not matter, and renaming a second time by the same rules changes nothing, since names in camel
case stay as they are.

A generator leaves out a pass that has nothing to do. What it prepares is the same as if it ran both
passes, and preparing it again changes nothing (`Generator.passes_laws`).
-/

set_option autoImplicit false

namespace SchemaPress

/-! ## Renaming -/

theorem renameField_renameField (rule : Option RenameRule) (name : String) :
    renameField rule (renameField rule name) = renameField rule name := by
  match rule with
  | none => rfl
  | some .camel => exact camelWords_camelWords name

theorem renameCase_renameCase (rule : Option RenameRule) (name : String) :
    renameCase rule (renameCase rule name) = renameCase rule name := by
  match rule with
  | none => rfl
  | some .camel => exact camelHead_camelHead name

namespace Declaration

@[simp]
theorem name_rename (o : RenameOptions) (d : Declaration) : (d.rename o).name = d.name := by
  cases d <;> rfl

/-- Names that have been changed by rules are not changed by them again. -/
theorem rename_rename (o : RenameOptions) (d : Declaration) :
    (d.rename o).rename o = d.rename o := by
  rcases d with a | r | ⟨name, cases | cases, doc⟩
  · rfl
  · simp [rename, renameField_renameField]
  · simp [rename, Cases.rename, renameCase_renameCase]
  · simp [rename, Cases.rename, renameCase_renameCase]

theorem rename_of_isNoop {o : RenameOptions} (idle : o.isNoop = true) (d : Declaration) :
    d.rename o = d := by
  simp only [RenameOptions.isNoop, Bool.and_eq_true, Option.isNone_iff_eq_none] at idle
  obtain ⟨⟨noCase, noVariant⟩, noField⟩ := idle
  rcases d with a | r | ⟨name, cases | cases, doc⟩
  · rfl
  · simp [rename, renameField, noField]
  · simp [rename, Cases.rename, renameCase, noCase]
  · simp [rename, Cases.rename, renameCase, noVariant]

end Declaration

namespace Schema

theorem rename_rename (s : Schema) (o : RenameOptions) : (s.rename o).rename o = s.rename o := by
  have twice : (fun d : Declaration => (d.rename o).rename o) = fun d => d.rename o := by
    funext d
    exact d.rename_rename o
  simp only [rename, List.map_map, Function.comp_def, twice]

theorem rename_of_isNoop {o : RenameOptions} (idle : o.isNoop = true) (s : Schema) :
    s.rename o = s := by
  have same : (fun d : Declaration => d.rename o) = id := by
    funext d
    exact d.rename_of_isNoop idle
  rw [rename, same, List.map_id]

/-! ## Skipping -/

/-- What is skipped depends only on which names are given. -/
theorem skip_congr {names others : List String} (same : ∀ name, name ∈ names ↔ name ∈ others)
    (s : Schema) : s.skip names = s.skip others := by
  have alike : ∀ name, names.contains name = others.contains name := by
    intro name
    rw [Bool.eq_iff_iff, List.contains_iff_mem, List.contains_iff_mem]
    exact same name
  simp only [skip, alike]

theorem skip_skip (s : Schema) (names others : List String) :
    (s.skip names).skip others = s.skip (names ++ others) := by
  simp only [skip, List.filter_filter, List.contains_append, Bool.not_or, Bool.and_comm]

theorem skip_nil (s : Schema) : s.skip [] = s := by
  have all : s.declarations.filter (fun d => !([] : List String).contains d.name) =
      s.declarations := by
    apply List.filter_eq_self.mpr
    intro d _
    rfl
  rw [skip, all]

/-- **The passes do not get in each other's way**: renaming keeps the names that skipping looks at. -/
theorem rename_skip (s : Schema) (names : List String) (o : RenameOptions) :
    (s.skip names).rename o = (s.rename o).skip names := by
  simp only [skip, rename, List.filter_map, Function.comp_def, Declaration.name_rename]

end Schema

/-! ## Preparing -/

namespace Generator

/-- A generator runs both passes; leaving one out makes no difference where it has nothing to do. -/
theorem prepare_eq (g : Generator) (s : Schema) :
    g.prepare s = (s.skip g.skip).rename g.rename := by
  have skipped : (if g.skip.isEmpty then s else s.skip g.skip) = s.skip g.skip := by
    split
    · rename_i none
      rw [List.isEmpty_iff.mp none, s.skip_nil]
    · rfl
  unfold prepare
  rw [skipped]
  split
  · rename_i idle
    exact (Schema.rename_of_isNoop idle _).symm
  · rfl

/-- The declarations that are not skipped are prepared, each with its names changed. -/
theorem mem_prepare_iff (g : Generator) (s : Schema) (prepared : Declaration) :
    prepared ∈ (g.prepare s).declarations ↔
      ∃ d ∈ s.declarations, d.name ∉ g.skip ∧ d.rename g.rename = prepared := by
  rw [prepare_eq, Schema.rename, List.mem_map]
  simp only [Schema.skip, List.mem_filter, Bool.not_eq_true', ← Bool.not_eq_true,
    List.contains_iff_mem, and_assoc]

theorem prepare_prepare (g : Generator) (s : Schema) : g.prepare (g.prepare s) = g.prepare s := by
  have again : ∀ name, name ∈ g.skip ++ g.skip ↔ name ∈ g.skip := by
    intro name
    rw [List.mem_append, or_self]
  calc g.prepare (g.prepare s)
      = ((((s.skip g.skip).rename g.rename).skip g.skip).rename g.rename) := by
        rw [prepare_eq, prepare_eq]
    _ = ((((s.skip g.skip).skip g.skip).rename g.rename).rename g.rename) := by
        rw [Schema.rename_skip (s.skip g.skip)]
    _ = (s.skip g.skip).rename g.rename := by
        rw [Schema.rename_rename, Schema.skip_skip, Schema.skip_congr again]
    _ = g.prepare s := (g.prepare_eq s).symm

/-- **The laws of the passes.** Skipping in two rounds is skipping once, and depends only on which
names are given; the passes commute; renaming twice by the same rules is renaming once. A generator
prepares a schema by both passes, whether or not it leaves one out, and preparing it again changes
nothing. -/
theorem passes_laws (s : Schema) (names others : List String) (o : RenameOptions)
    (g : Generator) :
    (s.skip names).skip others = s.skip (names ++ others) ∧
      ((∀ name, name ∈ names ↔ name ∈ others) → s.skip names = s.skip others) ∧
      (s.skip names).rename o = (s.rename o).skip names ∧
      (s.rename o).rename o = s.rename o ∧
      g.prepare s = (s.skip g.skip).rename g.rename ∧
      g.prepare (g.prepare s) = g.prepare s :=
  ⟨s.skip_skip names others, fun same => Schema.skip_congr same s, s.rename_skip names o,
    s.rename_rename o, g.prepare_eq s, g.prepare_prepare s⟩

/-- A schema with a declaration that is skipped, a case whose first letter becomes two characters,
and a field with underscores at its beginning, in a row and at its end. -/
def casedSample : Schema where
  name := "m"
  declarations :=
    [.alias { name := "Old", target := .primitive "bool" },
     .enumeration { name := "Mode", cases := .raw [{ name := "İd", rawValue := some "x" }] },
     .record { name := "Row", fields := [{ name := "_ß__id_", type := .primitive "i32" }] }]

/-- The names are given in different orders and one of them twice. -/
theorem passes_laws_casedSample :
    let g : Generator := { skip := ["Old", "Gone", "Old"], rename := .all .camel }
    (∀ name, name ∈ g.skip ↔ name ∈ ["Gone", "Old"]) ∧
      casedSample.skip g.skip = casedSample.skip ["Gone", "Old"] ∧
      (g.prepare casedSample).declarations =
        [.enumeration
          { name := "Mode", cases := .raw [{ name := "i̇d", rawValue := some "x" }] },
         .record { name := "Row", fields := [{ name := "SSId", type := .primitive "i32" }] }] ∧
      g.prepare (g.prepare casedSample) = g.prepare casedSample := by
  intro g
  obtain ⟨-, only_names, -, -, -, again⟩ :=
    passes_laws casedSample g.skip ["Gone", "Old"] g.rename g
  have same : ∀ name, name ∈ g.skip ↔ name ∈ ["Gone", "Old"] := by
    intro name
    simp only [g, List.mem_cons, List.not_mem_nil, or_false]
    constructor
    · rintro (old | gone | old)
      · exact .inr old
      · exact .inl gone
      · exact .inr old
    · rintro (gone | old)
      · exact .inr (.inl gone)
      · exact .inl old
  exact ⟨same, only_names same, by decide +kernel, again⟩

end Generator

end SchemaPress
