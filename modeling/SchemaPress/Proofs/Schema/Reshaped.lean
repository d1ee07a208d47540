import SchemaPress.Proofs.Generator.Passes
import SchemaPress.Schema.Check

/-!
# Problems of reshaped schemas

The checks remember what they have seen, and a pass changes what they see. Skipping drops all
declarations of a name at once. So the names that are left are seen as often as before, and the
problems of what is left are those of the schema that lie outside the dropped declarations.

Renaming changes the names of members only. The names that declarations are compared by, the raw
values and the types stay, so the problems stay with other names of members in them. The names of
cases are compared as they are afterwards, and two that were the same still are: of repeated cases
there can only be more (`Schema.diagnose_passes`).
-/

set_option autoImplicit false

namespace SchemaPress

/-! ## Where problems lie -/

/-- The declaration that a place lies in. -/
def Location.declaration : Location → String
  | .alias name => name
  | .field record _ => record
  | .payload enumeration _ => enumeration

namespace Diagnostic

/-- The declaration that a problem lies in. What a target complains about lies in none. -/
def declaration? : Diagnostic → Option String
  | .duplicateName name => some name
  | .duplicateCase enumeration _ => some enumeration
  | .missingRawValue enumeration _ => some enumeration
  | .duplicateRawValue enumeration _ _ _ => some enumeration
  | .nestedOptional location => some location.declaration
  | .reservedIdentifier _ _ => none
  | .encodingFailed _ _ _ => none

/-- Whether a problem lies in none of the declarations with the given names. -/
def outside (names : List String) (p : Diagnostic) : Bool :=
  p.declaration?.all fun name => !names.contains name

/-- The enumeration with a repeated case, if this is the problem. -/
def repeatsCaseOf? : Diagnostic → Option String
  | .duplicateCase enumeration _ => some enumeration
  | _ => none

end Diagnostic

/-- The problems other than repeated cases, in order. -/
def otherProblems (ps : List Diagnostic) : List Diagnostic :=
  ps.filter (·.repeatsCaseOf?.isNone)

/-- How many repeated cases are found in the enumerations of a name. -/
def repeatedCases (enumeration : String) (ps : List Diagnostic) : Nat :=
  ps.countP (·.repeatsCaseOf? == some enumeration)

section Parts

variable {ps : List Diagnostic}

theorem otherProblems_append (ps qs : List Diagnostic) :
    otherProblems (ps ++ qs) = otherProblems ps ++ otherProblems qs :=
  List.filter_append ps qs

theorem repeatedCases_append (enumeration : String) (ps qs : List Diagnostic) :
    repeatedCases enumeration (ps ++ qs) =
      repeatedCases enumeration ps + repeatedCases enumeration qs :=
  List.countP_append

theorem otherProblems_eq_self (others : ∀ p ∈ ps, p.repeatsCaseOf? = none) :
    otherProblems ps = ps := by
  apply List.filter_eq_self.mpr
  intro p listed
  rw [others p listed]
  rfl

theorem repeatedCases_eq_zero (others : ∀ p ∈ ps, p.repeatsCaseOf? = none)
    (enumeration : String) : repeatedCases enumeration ps = 0 := by
  apply List.countP_eq_zero.mpr
  intro p listed
  rw [others p listed]
  exact Bool.false_ne_true

theorem otherProblems_duplicateCase (enumeration : String) (names : List String) :
    otherProblems (names.map (.duplicateCase enumeration)) = [] := by
  rw [otherProblems, List.filter_map, List.map_eq_nil_iff]
  exact List.filter_false _

end Parts

theorem of_mem_rawValueProblems {enumeration : String}
    {earlier : List (String × String)} {cases : List RawCase} {p : Diagnostic}
    (listed : p ∈ rawValueProblems enumeration earlier cases) :
    p.declaration? = some enumeration ∧ p.repeatsCaseOf? = none := by
  induction cases generalizing earlier with
  | nil => cases listed
  | cons c cases ih =>
      rw [rawValueProblems] at listed
      split at listed
      · rcases List.mem_cons.mp listed with rfl | later
        · exact ⟨rfl, rfl⟩
        · exact ih later
      · split at listed
        · rcases List.mem_cons.mp listed with rfl | later
          · exact ⟨rfl, rfl⟩
          · exact ih later
        · exact ih listed

theorem Enumeration.declaration?_of_mem_problems {e : Enumeration} {p : Diagnostic}
    (listed : p ∈ e.problems) : p.declaration? = some e.name := by
  rcases List.mem_append.mp listed with byName | byValue
  · obtain ⟨name, -, rfl⟩ := List.mem_map.mp byName
    rfl
  · split at byValue
    · exact (of_mem_rawValueProblems byValue).1
    · cases byValue

theorem Declaration.location_of_mem_mentions {d : Declaration} {m : Location × TypeRef}
    (listed : m ∈ d.mentions) : m.1.declaration = d.name := by
  rcases d with a | r | ⟨name, cases | cases, doc⟩
  · rw [List.mem_singleton.mp listed]
    rfl
  · obtain ⟨f, -, rfl⟩ := List.mem_map.mp listed
    rfl
  · cases listed
  · obtain ⟨c, -, inside⟩ := List.mem_flatMap.mp listed
    obtain ⟨payload, -, rfl⟩ := List.mem_map.mp inside
    rfl

/-- The problems within a declaration lie in it. -/
theorem Declaration.declaration?_of_mem_problems {d : Declaration} {p : Diagnostic}
    (listed : p ∈ d.problems) : p.declaration? = some d.name := by
  rcases List.mem_append.mp listed with inCases | inTypes
  · split at inCases
    · exact Enumeration.declaration?_of_mem_problems inCases
    · cases inCases
  · obtain ⟨m, mentioned, rfl⟩ := List.mem_map.mp inTypes
    have place := location_of_mem_mentions (List.mem_of_mem_filter mentioned)
    exact congrArg some place

/-- The problems that a declaration adds if those with the names `seen` stand before it. -/
def Declaration.problemsAmong (seen : List String) (d : Declaration) : List Diagnostic :=
  (if seen.contains d.name then [.duplicateName d.name] else []) ++ d.problems

theorem problemsAfter_cons (seen : List String) (d : Declaration) (ds : List Declaration) :
    problemsAfter seen (d :: ds) = d.problemsAmong seen ++ problemsAfter (d.name :: seen) ds := rfl

theorem Declaration.declaration?_of_mem_problemsAmong {seen : List String} {d : Declaration}
    {p : Diagnostic} (listed : p ∈ d.problemsAmong seen) : p.declaration? = some d.name := by
  rcases List.mem_append.mp listed with byName | inside
  · split at byName
    · rw [List.mem_singleton.mp byName]
      rfl
    · cases byName
  · exact declaration?_of_mem_problems inside

/-! ## Skipping -/

/-- A step is left out as a whole or not at all. -/
theorem Declaration.filter_problemsAmong (names seen : List String) (d : Declaration) :
    (d.problemsAmong seen).filter (·.outside names) =
      if names.contains d.name then [] else d.problemsAmong seen := by
  have each : ∀ p ∈ d.problemsAmong seen, p.outside names = !names.contains d.name := by
    intro p listed
    rw [Diagnostic.outside, declaration?_of_mem_problemsAmong listed]
    rfl
  cases dropped : names.contains d.name with
  | true =>
      apply List.filter_eq_nil_iff.mpr
      intro p listed
      rw [each p listed, dropped]
      exact Bool.false_ne_true
  | false =>
      apply List.filter_eq_self.mpr
      intro p listed
      rw [each p listed, dropped]
      rfl

/-- **Skipping takes out the problems of what is skipped**, whatever has been seen of it. -/
theorem problemsAfter_filter {names seen seen' : List String}
    (alike : ∀ name, name ∉ names → (name ∈ seen ↔ name ∈ seen')) (ds : List Declaration) :
    problemsAfter seen' (ds.filter fun d => !names.contains d.name) =
      (problemsAfter seen ds).filter (·.outside names) := by
  induction ds generalizing seen seen' with
  | nil => rfl
  | cons d ds ih =>
      rw [problemsAfter_cons, List.filter_append, d.filter_problemsAmong]
      by_cases dropped : d.name ∈ names
      · have next : ∀ name, name ∉ names → (name ∈ d.name :: seen ↔ name ∈ seen') := by
          intro name kept
          have other : name ≠ d.name := fun same => kept (same ▸ dropped)
          rw [List.mem_cons, alike name kept]
          exact ⟨fun listed => listed.resolve_left other, .inr⟩
        rw [List.filter_cons_of_neg (by simpa using dropped),
          if_pos (List.contains_iff_mem.mpr dropped), List.nil_append, ih next]
      · have known : d.problemsAmong seen' = d.problemsAmong seen := by
          have same : seen'.contains d.name = seen.contains d.name := by
            rw [Bool.eq_iff_iff, List.contains_iff_mem, List.contains_iff_mem]
            exact (alike d.name dropped).symm
          rw [Declaration.problemsAmong, same, Declaration.problemsAmong]
        have next : ∀ name, name ∉ names →
            (name ∈ d.name :: seen ↔ name ∈ d.name :: seen') := by
          intro name kept
          rw [List.mem_cons, List.mem_cons, alike name kept]
        rw [List.filter_cons_of_pos (by simpa using dropped), problemsAfter_cons, known,
          if_neg (mt List.contains_iff_mem.mp dropped), ih next]

theorem Schema.diagnose_skip (s : Schema) (names : List String) :
    (s.skip names).diagnose = s.diagnose.filter (·.outside names) :=
  problemsAfter_filter (fun _ _ => Iff.rfl) s.declarations

/-! ## Renaming -/

/-- A place with the name of the member changed. -/
def Location.rename (o : RenameOptions) : Location → Location
  | .alias name => .alias name
  | .field record name => .field record (renameField o.field name)
  | .payload enumeration case => .payload enumeration (renameCase o.variant case)

/-- A problem with the names of members in it changed. -/
def Diagnostic.rename (o : RenameOptions) : Diagnostic → Diagnostic
  | .missingRawValue enumeration case => .missingRawValue enumeration (renameCase o.case case)
  | .duplicateRawValue enumeration case first rawValue =>
      .duplicateRawValue enumeration (renameCase o.case case) (renameCase o.case first) rawValue
  | .nestedOptional location => .nestedOptional (location.rename o)
  | p => p

/-- What is repeated is still repeated after a change of all names. -/
theorem map_repeated_sublist (change : String → String) (seen names : List String) :
    ((repeated seen names).map change).Sublist (repeated (seen.map change) (names.map change)) := by
  induction names generalizing seen with
  | nil => exact List.Sublist.refl _
  | cons name names ih =>
      rw [repeated, List.map_append, List.map_cons, repeated]
      apply List.Sublist.append
      · by_cases known : name ∈ seen
        · have known' : change name ∈ seen.map change := List.mem_map_of_mem known
          simp [known, known']
        · simp [known]
      · exact ih (name :: seen)

theorem lookup_map_snd (change : String → String) (raw : String)
    (earlier : List (String × String)) :
    (earlier.map fun entry => (entry.1, change entry.2)).lookup raw =
      (earlier.lookup raw).map change := by
  induction earlier with
  | nil => rfl
  | cons entry earlier ih =>
      rw [List.map_cons, List.lookup_cons, List.lookup_cons, ih]
      cases raw == entry.1 <;> rfl

/-- The raw values are compared as before, with other names of cases beside them. -/
theorem rawValueProblems_rename (o : RenameOptions) (enumeration : String)
    (earlier : List (String × String)) (cases : List RawCase) :
    rawValueProblems enumeration (earlier.map fun entry => (entry.1, renameCase o.case entry.2))
        (cases.map fun c => { c with name := renameCase o.case c.name }) =
      (rawValueProblems enumeration earlier cases).map (·.rename o) := by
  induction cases generalizing earlier with
  | nil => rfl
  | cons c cases ih =>
      rw [List.map_cons, rawValueProblems, rawValueProblems]
      cases c.rawValue with
      | none => exact congrArg _ (ih earlier)
      | some raw =>
          dsimp only
          rw [lookup_map_snd]
          cases earlier.lookup raw with
          | some first => exact congrArg _ (ih earlier)
          | none =>
              have next := ih (earlier ++ [(raw, c.name)])
              rw [List.map_append] at next
              exact next

/-- The names of the cases are changed by one rule for all of them. -/
theorem Enumeration.exists_caseNames_rename (o : RenameOptions) (e : Enumeration) :
    ∃ change, ({ e with cases := e.cases.rename o } : Enumeration).caseNames =
      e.caseNames.map change := by
  obtain ⟨name, cases | cases, doc⟩ := e
  · exact ⟨renameCase o.case, by simp [caseNames, Cases.rename]⟩
  · exact ⟨renameCase o.variant, by simp [caseNames, Cases.rename]⟩

theorem Declaration.mentions_rename (o : RenameOptions) (d : Declaration) :
    (d.rename o).mentions = d.mentions.map fun m => (m.1.rename o, m.2) := by
  rcases d with a | r | ⟨name, cases | cases, doc⟩
  · rfl
  · simp [rename, mentions, Location.rename]
  · rfl
  · simp [rename, Cases.rename, mentions, Location.rename, List.map_flatMap, List.flatMap_map,
      Function.comp_def]

/-! ### Problems other than repeated cases -/

/-- The problems of raw values, if there are any. -/
def Cases.valueProblems (enumeration : String) : Cases → List Diagnostic
  | .raw cases => rawValueProblems enumeration [] cases
  | .union _ => []

/-- The problems of cases, if there are any. -/
def Declaration.caseProblems : Declaration → List Diagnostic
  | .enumeration e => e.problems
  | _ => []

/-- The problems of types. -/
def Declaration.typeProblems (d : Declaration) : List Diagnostic :=
  (d.mentions.filter fun m => m.2.nestsOptional).map fun m => .nestedOptional m.1

theorem Enumeration.problems_eq_append (e : Enumeration) :
    e.problems = (repeated [] e.caseNames).map (.duplicateCase e.name)
      ++ e.cases.valueProblems e.name := by
  obtain ⟨name, cases | cases, doc⟩ := e
  · rfl
  · rfl

theorem Declaration.problems_eq_append (d : Declaration) :
    d.problems = d.caseProblems ++ d.typeProblems := by
  cases d <;> rfl

theorem Cases.valueProblems_rename (o : RenameOptions) (enumeration : String) (cs : Cases) :
    (cs.rename o).valueProblems enumeration =
      (cs.valueProblems enumeration).map (·.rename o) := by
  cases cs with
  | raw cases => exact rawValueProblems_rename o enumeration [] cases
  | union cases => rfl

theorem Declaration.typeProblems_rename (o : RenameOptions) (d : Declaration) :
    (d.rename o).typeProblems = d.typeProblems.map (·.rename o) := by
  rw [typeProblems, typeProblems, mentions_rename, List.filter_map, List.map_map, List.map_map]
  rfl

theorem Cases.repeatsCaseOf?_of_mem_valueProblems {enumeration : String} {cs : Cases} :
    ∀ p ∈ cs.valueProblems enumeration, p.repeatsCaseOf? = none := by
  intro p listed
  cases cs with
  | raw cases => exact (of_mem_rawValueProblems listed).2
  | union cases => cases listed

theorem Declaration.repeatsCaseOf?_of_mem_typeProblems {d : Declaration} :
    ∀ p ∈ d.typeProblems, p.repeatsCaseOf? = none := by
  intro p listed
  obtain ⟨m, -, rfl⟩ := List.mem_map.mp listed
  rfl

/-- Without the repeated cases, the problems of raw values are left. -/
theorem Enumeration.otherProblems_problems (e : Enumeration) :
    otherProblems e.problems = e.cases.valueProblems e.name := by
  rw [problems_eq_append, otherProblems_append, otherProblems_duplicateCase, List.nil_append,
    otherProblems_eq_self Cases.repeatsCaseOf?_of_mem_valueProblems]

theorem Declaration.otherProblems_caseProblems_rename (o : RenameOptions) (d : Declaration) :
    otherProblems (d.rename o).caseProblems =
      (otherProblems d.caseProblems).map (·.rename o) := by
  match d with
  | .alias a => rfl
  | .record r => rfl
  | .enumeration e =>
      have renamed := Cases.valueProblems_rename o e.name e.cases
      rw [← Enumeration.otherProblems_problems] at renamed
      exact (Enumeration.otherProblems_problems { e with cases := e.cases.rename o }).trans renamed

/-- **A step of renaming** keeps the problems that a declaration adds other than repeated cases. -/
theorem Declaration.otherProblems_problemsAmong_rename (o : RenameOptions) (seen : List String)
    (d : Declaration) :
    otherProblems ((d.rename o).problemsAmong seen) =
      (otherProblems (d.problemsAmong seen)).map (·.rename o) := by
  have within : otherProblems (d.rename o).problems =
      (otherProblems d.problems).map (·.rename o) := by
    rw [problems_eq_append, problems_eq_append, otherProblems_append, otherProblems_append,
      List.map_append, otherProblems_caseProblems_rename,
      otherProblems_eq_self repeatsCaseOf?_of_mem_typeProblems,
      otherProblems_eq_self repeatsCaseOf?_of_mem_typeProblems, typeProblems_rename]
  rw [problemsAmong, problemsAmong, name_rename, otherProblems_append, otherProblems_append,
    List.map_append, within]
  congr 1
  split
  · rfl
  · rfl

/-- The declarations are compared by the same names, so a run of steps keeps what each one keeps. -/
theorem otherProblems_problemsAfter_rename (o : RenameOptions) (seen : List String)
    (ds : List Declaration) :
    otherProblems (problemsAfter seen (ds.map (·.rename o))) =
      (otherProblems (problemsAfter seen ds)).map (·.rename o) := by
  induction ds generalizing seen with
  | nil => rfl
  | cons d ds ih =>
      rw [List.map_cons, problemsAfter_cons, problemsAfter_cons, otherProblems_append,
        otherProblems_append, List.map_append, Declaration.otherProblems_problemsAmong_rename,
        Declaration.name_rename, ih]

/-! ### Repeated cases -/

theorem Enumeration.repeatedCases_problems (name : String) (e : Enumeration) :
    repeatedCases name e.problems =
      (repeated [] e.caseNames).countP fun _ => e.name == name := by
  rw [problems_eq_append, repeatedCases_append,
    repeatedCases_eq_zero Cases.repeatsCaseOf?_of_mem_valueProblems, repeatedCases,
    List.countP_map]
  rfl

theorem Enumeration.repeatedCases_problems_rename (o : RenameOptions) (name : String)
    (e : Enumeration) :
    repeatedCases name e.problems ≤
      repeatedCases name { e with cases := e.cases.rename o : Enumeration }.problems := by
  obtain ⟨change, renamed⟩ := e.exists_caseNames_rename o
  rw [repeatedCases_problems, repeatedCases_problems, renamed]
  calc (repeated [] e.caseNames).countP (fun _ => e.name == name)
      = ((repeated [] e.caseNames).map change).countP (fun _ => e.name == name) := by
        rw [List.countP_map]
        rfl
    _ ≤ (repeated [] (e.caseNames.map change)).countP (fun _ => e.name == name) :=
        (map_repeated_sublist change [] e.caseNames).countP_le

/-- **A step of renaming** loses no repeated case of a declaration. -/
theorem Declaration.repeatedCases_problems_rename (o : RenameOptions) (name : String)
    (d : Declaration) :
    repeatedCases name d.problems ≤ repeatedCases name (d.rename o).problems := by
  rw [problems_eq_append, problems_eq_append, repeatedCases_append, repeatedCases_append,
    repeatedCases_eq_zero repeatsCaseOf?_of_mem_typeProblems,
    repeatedCases_eq_zero repeatsCaseOf?_of_mem_typeProblems]
  match d with
  | .alias a => exact Nat.le_refl _
  | .record r => exact Nat.le_refl _
  | .enumeration e => exact e.repeatedCases_problems_rename o name

theorem repeatedCases_problemsAfter_rename (o : RenameOptions) (name : String)
    (seen : List String) (ds : List Declaration) :
    repeatedCases name (problemsAfter seen ds) ≤
      repeatedCases name (problemsAfter seen (ds.map (·.rename o))) := by
  induction ds generalizing seen with
  | nil => exact Nat.le_refl _
  | cons d ds ih =>
      rw [List.map_cons, problemsAfter_cons, problemsAfter_cons, Declaration.problemsAmong,
        Declaration.problemsAmong, Declaration.name_rename]
      simp only [repeatedCases_append]
      have within := d.repeatedCases_problems_rename o name
      have later := ih (d.name :: seen)
      omega

/-! ## Both passes -/

/-- **The passes add no hidden problems.** Skipping leaves the problems outside the skipped
declarations, so a schema without problems has none afterwards. Renaming keeps the problems other
than repeated cases, in their order and with only the names of members in them changed, and each
enumeration has at least as many repeated cases as before. -/
theorem Schema.diagnose_passes (s : Schema) (names : List String) (o : RenameOptions) :
    (s.skip names).diagnose = s.diagnose.filter (·.outside names) ∧
      (s.diagnose = [] → (s.skip names).diagnose = []) ∧
      otherProblems (s.rename o).diagnose = (otherProblems s.diagnose).map (·.rename o) ∧
      (∀ name, repeatedCases name s.diagnose ≤ repeatedCases name (s.rename o).diagnose) ∧
      ∀ d ∈ s.declarations, ∀ name,
        repeatedCases name d.problems ≤ repeatedCases name (d.rename o).problems := by
  refine ⟨s.diagnose_skip names, ?_, otherProblems_problemsAfter_rename o [] s.declarations,
    fun name => repeatedCases_problemsAfter_rename o name [] s.declarations,
    fun d _ name => d.repeatedCases_problems_rename o name⟩
  intro clean
  rw [diagnose_skip, clean, List.filter_nil]

/-- Cases that differ in their first letters. -/
def metalCases : Enumeration where
  name := "Metal"
  cases := .raw [⟨"Iron", some "Fe", {}⟩, ⟨"iron", some "fe", {}⟩]

/-- A schema without problems until its cases are renamed. -/
def metalSample : Schema where
  name := "m"
  declarations := [.alias { name := "Id", target := .primitive "i32" }, .enumeration metalCases]

/-- A schema with a problem of each kind. -/
def flawedSample : Schema where
  name := "m"
  declarations :=
    [.record { name := "Row", fields := [⟨"row_id", .optional (.optional (.named "Id")), {}⟩] },
     .enumeration
      { name := "Metal",
        cases := .raw [⟨"Iron", some "Fe", {}⟩, ⟨"Steel", some "Fe", {}⟩, ⟨"Iron", none, {}⟩] },
     .alias { name := "Row", target := .named "Metal" }]

/-- Skipping keeps the first sample without problems, and renaming shows the repeated case. In the
second one renaming keeps all problems, with the names of the members changed in them. -/
theorem Schema.diagnose_passes_flawedSample :
    metalSample.diagnose = [] ∧ (metalSample.skip ["Id", "Gone"]).diagnose = [] ∧
      .enumeration metalCases ∈ metalSample.declarations ∧
      repeatedCases "Metal" (Declaration.enumeration metalCases).problems ≤
        repeatedCases "Metal" ((Declaration.enumeration metalCases).rename (.all .camel)).problems ∧
      (metalSample.rename (.all .camel)).diagnose = [.duplicateCase "Metal" "iron"] ∧
      flawedSample.diagnose =
        [.nestedOptional (.field "Row" "row_id"), .duplicateCase "Metal" "Iron",
         .duplicateRawValue "Metal" "Steel" "Iron" "Fe", .missingRawValue "Metal" "Iron",
         .duplicateName "Row"] ∧
      (flawedSample.skip ["Row"]).diagnose = flawedSample.diagnose.filter (·.outside ["Row"]) ∧
      otherProblems (flawedSample.rename (.all .camel)).diagnose =
        [.nestedOptional (.field "Row" "rowId"),
         .duplicateRawValue "Metal" "steel" "iron" "Fe", .missingRawValue "Metal" "iron",
         .duplicateName "Row"] := by
  obtain ⟨-, stays, -, -, each⟩ := diagnose_passes metalSample ["Id", "Gone"] (.all .camel)
  obtain ⟨skipped, -, others, -, -⟩ := diagnose_passes flawedSample ["Row"] (.all .camel)
  have clean : metalSample.diagnose = [] := by decide +kernel
  have member : .enumeration metalCases ∈ metalSample.declarations :=
    List.mem_cons_of_mem _ List.mem_cons_self
  exact ⟨clean, stays clean, member, each _ member "Metal", by decide +kernel, by decide +kernel,
    skipped, others.trans (by decide +kernel)⟩

end SchemaPress
