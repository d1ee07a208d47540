import SchemaPress.Proofs.Generator.RawValues
import SchemaPress.Proofs.Schema.Reshaped

/-!
# Names of fields through a generator

The names of fields that differ can become the same in camel case, and a name of underscores is lost
altogether. Repeated cases are refused after renaming, but the check looks only at the types of
fields. So whether a generator succeeds does not depend on the rule for fields
(`exists_generate_iff`), and a record may come out with two fields of one name or with a field
without a name (`not_fieldsApart_prepare_numberedSample`).

The fields stay apart exactly if camel case tells apart the names within each record that is kept
and loses none of them. In particular this is so for names in snake case whose words begin with a
letter (`fieldsApart_prepare`).
-/

set_option autoImplicit false

namespace SchemaPress

/-! ## Fields that can be told apart -/

namespace Declaration

/-- The names of the fields of a record, in order. -/
def fieldNames : Declaration → List String
  | .record r => r.fields.map (·.name)
  | _ => []

/-- The names of the fields differ, and none of them is empty. -/
def FieldsApart (d : Declaration) : Prop :=
  d.fieldNames.Nodup ∧ "" ∉ d.fieldNames

instance (d : Declaration) : Decidable d.FieldsApart :=
  inferInstanceAs (Decidable (_ ∧ _))

/-- In camel case the names of the fields still differ, and none of them is lost. -/
def CamelApart (d : Declaration) : Prop :=
  (∀ name ∈ d.fieldNames, ∃ c ∈ name.toList, c ≠ '_') ∧
    ∀ name ∈ d.fieldNames, ∀ other ∈ d.fieldNames,
      camelWords name = camelWords other → name = other

theorem fieldNames_rename (o : RenameOptions) (d : Declaration) :
    (d.rename o).fieldNames = d.fieldNames.map (renameField o.field) := by
  match d with
  | .alias a => rfl
  | .record r => simp [rename, fieldNames]
  | .enumeration e => rfl

/-- Without a rule for fields, their names stay. -/
theorem fieldsApart_rename_none {o : RenameOptions} (free : o.field = none) (d : Declaration) :
    (d.rename o).FieldsApart ↔ d.FieldsApart := by
  have same : renameField o.field = id := by
    funext name
    rw [free]
    rfl
  rw [FieldsApart, FieldsApart, fieldNames_rename, same, List.map_id]

theorem fieldsApart_rename_camel {o : RenameOptions} (camel : o.field = some .camel)
    {d : Declaration} (distinct : d.fieldNames.Nodup) :
    (d.rename o).FieldsApart ↔ d.CamelApart := by
  have changed : (d.rename o).fieldNames = d.fieldNames.map camelWords := by
    rw [fieldNames_rename, camel]
    rfl
  have kept : "" ∉ d.fieldNames.map camelWords ↔
      ∀ name ∈ d.fieldNames, ∃ c ∈ name.toList, c ≠ '_' := by
    rw [List.mem_map, not_exists]
    apply forall_congr'
    intro name
    simp only [not_and, camelWords_eq_empty_iff, not_forall, exists_prop, ne_eq]
  rw [FieldsApart, changed, List.nodup_map_iff_inj_on distinct, kept, and_comm]
  rfl

/-- Names in snake case stay apart in camel case. -/
theorem camelApart_of_snakeCase {d : Declaration}
    (snake : ∀ name ∈ d.fieldNames, SnakeCase name) : d.CamelApart := by
  constructor
  · intro name listed
    have kept := (snake name listed).camelWords_ne_empty
    simpa only [ne_eq, camelWords_eq_empty_iff, not_forall, exists_prop] using kept
  · intro name listed other listed' same
    exact (snake name listed).eq_of_camelWords_eq (snake other listed') same

end Declaration

/-- The fields of each record can be told apart. -/
def Schema.FieldsApart (s : Schema) : Prop :=
  ∀ d ∈ s.declarations, d.FieldsApart

instance (s : Schema) : Decidable s.FieldsApart :=
  inferInstanceAs (Decidable (∀ d ∈ s.declarations, _))

/-! ## The check does not see names of fields -/

theorem Declaration.caseProblems_rename_congr {o o' : RenameOptions} (case : o.case = o'.case)
    (variant : o.variant = o'.variant) (d : Declaration) :
    (d.rename o).caseProblems = (d.rename o').caseProblems := by
  match d with
  | .alias a => rfl
  | .record r => rfl
  | .enumeration ⟨name, .raw cases, doc⟩ => rw [rename, rename, Cases.rename, Cases.rename, case]
  | .enumeration ⟨name, .union cases, doc⟩ =>
      rw [rename, rename, Cases.rename, Cases.rename, variant]

/-- **A step**: the rule for fields makes no problem within a declaration. -/
theorem Declaration.problems_rename_eq_nil_iff {o o' : RenameOptions} (case : o.case = o'.case)
    (variant : o.variant = o'.variant) (d : Declaration) :
    (d.rename o).problems = [] ↔ (d.rename o').problems = [] := by
  rw [problems_eq_append, problems_eq_append, List.append_eq_nil_iff, List.append_eq_nil_iff,
    typeProblems_rename, typeProblems_rename, List.map_eq_nil_iff, List.map_eq_nil_iff,
    caseProblems_rename_congr case variant]

theorem problemsAfter_rename_eq_nil_iff {o o' : RenameOptions} (case : o.case = o'.case)
    (variant : o.variant = o'.variant) (seen : List String) (ds : List Declaration) :
    problemsAfter seen (ds.map (·.rename o)) = [] ↔
      problemsAfter seen (ds.map (·.rename o')) = [] := by
  induction ds generalizing seen with
  | nil => rfl
  | cons d ds ih =>
      simp only [List.map_cons, problemsAfter_cons, Declaration.problemsAmong,
        Declaration.name_rename, List.append_eq_nil_iff, ih,
        d.problems_rename_eq_nil_iff case variant]

theorem Schema.diagnose_rename_eq_nil_iff {o o' : RenameOptions} (case : o.case = o'.case)
    (variant : o.variant = o'.variant) (s : Schema) :
    (s.rename o).diagnose = [] ↔ (s.rename o').diagnose = [] :=
  problemsAfter_rename_eq_nil_iff case variant [] s.declarations

namespace Generator

theorem exists_generate_iff_diagnose (g : Generator) (s : Schema) :
    (∃ rs, g.generate s = .ok rs) ↔ (g.prepare s).diagnose = [] := by
  rw [Schema.diagnose_eq, Schema.violations_eq_nil_iff]
  constructor
  · rintro ⟨rs, generated⟩
    exact ((g.generate_eq_ok_iff s rs).mp generated).1
  · intro sound
    exact ⟨_, (g.generate_eq_ok_iff s _).mpr ⟨sound, rfl⟩⟩

/-- The generator without its rule for fields. -/
def keepingFields (g : Generator) : Generator :=
  { g with rename := { g.rename with field := none } }

/-- Whether a generator succeeds does not depend on its rule for fields. -/
theorem exists_generate_iff (g : Generator) (s : Schema) :
    (∃ rs, g.generate s = .ok rs) ↔ ∃ rs, g.keepingFields.generate s = .ok rs := by
  rw [exists_generate_iff_diagnose, exists_generate_iff_diagnose, prepare_eq, prepare_eq]
  apply Schema.diagnose_rename_eq_nil_iff
  · rfl
  · rfl

/-! ## Fields of what is prepared -/

theorem fieldsApart_prepare_iff_rename (g : Generator) (s : Schema) :
    (g.prepare s).FieldsApart ↔
      ∀ d ∈ s.declarations, d.name ∉ g.skip → (d.rename g.rename).FieldsApart := by
  constructor
  · intro apart d member kept
    exact apart _ ((g.mem_prepare_iff s _).mpr ⟨d, member, kept, rfl⟩)
  · intro apart prepared listed
    obtain ⟨d, member, kept, rfl⟩ := (g.mem_prepare_iff s prepared).mp listed
    exact apart d member kept

theorem fieldsApart_prepare_iff {g : Generator} {s : Schema} (apart : s.FieldsApart) :
    (g.prepare s).FieldsApart ↔
      g.rename.field = none ∨ ∀ d ∈ s.declarations, d.name ∉ g.skip → d.CamelApart := by
  rw [fieldsApart_prepare_iff_rename]
  match rule : g.rename.field with
  | none =>
      refine iff_of_true ?_ (.inl rfl)
      intro d member _
      exact (d.fieldsApart_rename_none rule).mpr (apart d member)
  | some .camel =>
      rw [or_iff_right (Option.some_ne_none _)]
      apply forall₂_congr
      intro d member
      rw [Declaration.fieldsApart_rename_camel rule (apart d member).1]

/-- **When fields stay apart.** If the fields of each record can be told apart, then they still can
after the passes exactly if fields are not renamed or camel case tells them apart in each record
that is kept, and this is so if their names are in snake case. The generator does not make sure of
it: it succeeds exactly if it does without renaming fields. -/
theorem fieldsApart_prepare {g : Generator} {s : Schema} (apart : s.FieldsApart) :
    ((g.prepare s).FieldsApart ↔
        g.rename.field = none ∨ ∀ d ∈ s.declarations, d.name ∉ g.skip → d.CamelApart) ∧
      ((∀ d ∈ s.declarations, d.name ∉ g.skip → ∀ name ∈ d.fieldNames, SnakeCase name) →
        (g.prepare s).FieldsApart) ∧
      ((∃ rs, g.generate s = .ok rs) ↔
        ∃ rs, g.keepingFields.generate s = .ok rs) := by
  refine ⟨fieldsApart_prepare_iff apart, ?_, g.exists_generate_iff s⟩
  intro snake
  apply (fieldsApart_prepare_iff apart).mpr
  right
  intro d member kept
  exact Declaration.camelApart_of_snakeCase (snake d member kept)

/-- A generator for TypeScript that skips a declaration and renames fields. -/
def fieldRenamer : Generator where
  backends := [.typeScript {}]
  skip := ["Old"]
  rename := { field := some .camel }

/-- An address with numbers instead of words in its fields. -/
def numberedAddress (name : String) : Declaration :=
  .record
    { name, fields := [⟨"line_1", .primitive "String", {}⟩, ⟨"line1", .primitive "bool", {}⟩] }

/-- An address in snake case, and one that is skipped. -/
def addressSample : Schema where
  name := "m"
  declarations :=
    [numberedAddress "Old",
     .record
      { name := "Address",
        fields := [⟨"line_one", .primitive "String", {}⟩, ⟨"line_two", .primitive "String", {}⟩,
                   ⟨"zip5", .primitive "String", {}⟩] }]

/-- The fields of the address stay apart, also where they are renamed. -/
theorem fieldsApart_prepare_addressSample :
    addressSample.FieldsApart ∧
      (∀ d ∈ addressSample.declarations, d.name ∉ fieldRenamer.skip →
        ∀ name ∈ d.fieldNames, SnakeCase name) ∧
      (∃ rs, fieldRenamer.generate addressSample = .ok rs) ∧
      (fieldRenamer.prepare addressSample).declarations.map (·.fieldNames) =
        [["lineOne", "lineTwo", "zip5"]] ∧
      (fieldRenamer.prepare addressSample).FieldsApart := by
  have apart : addressSample.FieldsApart := by decide +kernel
  have snake : ∀ d ∈ addressSample.declarations, d.name ∉ fieldRenamer.skip →
      ∀ name ∈ d.fieldNames, SnakeCase name := by decide +kernel
  obtain ⟨-, stay, succeeds⟩ := fieldsApart_prepare (g := fieldRenamer) apart
  exact ⟨apart, snake, succeeds.mpr ⟨_, rfl⟩, by decide +kernel, stay snake⟩

/-- A record whose fields are merged, and one whose field is lost. -/
def numberedSample : Schema where
  name := "m"
  declarations :=
    [numberedAddress "Address", .record { name := "Gap", fields := [⟨"_", .primitive "bool", {}⟩] }]

/-- The generator succeeds, with two fields `line1` in the one record and a field without a name in
the other. -/
theorem not_fieldsApart_prepare_numberedSample :
    numberedSample.FieldsApart ∧
      (fieldRenamer.generate numberedSample).toOption.map (·.map (·.text)) =
        some ["type Address = \x7b\n    line1: string\n    line1: boolean\n\x7d\n\n"
          ++ "type Gap = \x7b\n    : boolean\n\x7d\n"] ∧
      ¬ (fieldRenamer.prepare numberedSample).FieldsApart := by
  decide +kernel

end Generator

end SchemaPress
