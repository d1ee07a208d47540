import Mathlib.Data.List.Nodup
import SchemaPress.Schema.Check

/-!
# What the checks report

The checks run through a schema once and remember what they have seen: declared names, names of
cases, and the first case of each raw value. What they report can be said without any memory.
`withEarlier` puts beside each element of a list the elements before it, and a violation is a
matter of one element and those before it: a name that stands among the earlier names, a raw value
that an earlier case has, a type that holds an optional directly inside an optional. Which elements
are looked at is said form by form of a declaration: the target of an alias, the fields of a record,
and the cases of an enumeration with raw values or with payloads.

The problems that are found are exactly these violations, in the order of the declarations, so a
schema is accepted exactly if it is sound, and every problem that is found is one of the schema
itself (`Schema.diagnose_exact`).
-/

set_option autoImplicit false

namespace SchemaPress

/-! ## Elements with those before them -/

section Earlier

variable {α β : Type}

/-- Each element of a list together with the elements that stand before it. -/
def withEarlier (l : List α) : List (List α × α) :=
  l.zipIdx.map fun p => (l.take p.2, p.1)

/-- The elements of a list that follows `before`, each with all that stand before it. -/
def earlierFrom (before : List α) : List α → List (List α × α)
  | [] => []
  | a :: l => (before, a) :: earlierFrom (before ++ [a]) l

theorem map_zipIdx_eq_earlierFrom (before l : List α) :
    ((l.zipIdx before.length).map fun p => ((before ++ l).take p.2, p.1)) =
      earlierFrom before l := by
  induction l generalizing before with
  | nil => rfl
  | cons a l ih =>
      have rest := ih (before ++ [a])
      simp only [List.length_append, List.length_singleton, List.append_assoc,
        List.singleton_append] at rest
      rw [List.zipIdx_cons, List.map_cons, rest, List.take_left, earlierFrom]

/-- The elements before an element can be collected on the way. -/
theorem withEarlier_eq_earlierFrom (l : List α) : withEarlier l = earlierFrom [] l :=
  map_zipIdx_eq_earlierFrom [] l

theorem earlierFrom_map (f : α → β) (before l : List α) :
    earlierFrom (before.map f) (l.map f) =
      (earlierFrom before l).map fun p => (p.1.map f, f p.2) := by
  induction l generalizing before with
  | nil => rfl
  | cons a l ih =>
      have rest := ih (before ++ [a])
      rw [List.map_append, List.map_singleton] at rest
      rw [List.map_cons, earlierFrom, earlierFrom, List.map_cons, rest]

theorem withEarlier_map (f : α → β) (l : List α) :
    withEarlier (l.map f) = (withEarlier l).map fun p => (p.1.map f, f p.2) := by
  rw [withEarlier_eq_earlierFrom, withEarlier_eq_earlierFrom]
  exact earlierFrom_map f [] l

theorem snd_mem_of_mem_earlierFrom {before l : List α} {p : List α × α}
    (member : p ∈ earlierFrom before l) : p.2 ∈ l := by
  induction l generalizing before with
  | nil => simp [earlierFrom] at member
  | cons a l ih =>
      rcases List.mem_cons.mp member with rfl | other
      · exact List.mem_cons_self
      · exact List.mem_cons_of_mem _ (ih other)

theorem exists_mem_earlierFrom (before : List α) {l : List α} {a : α} (member : a ∈ l) :
    ∃ p ∈ earlierFrom before l, p.2 = a := by
  induction l generalizing before with
  | nil => simp at member
  | cons b l ih =>
      rcases List.mem_cons.mp member with rfl | other
      · exact ⟨_, List.mem_cons_self, rfl⟩
      · obtain ⟨p, inside, same⟩ := ih (before ++ [b]) other
        exact ⟨p, List.mem_cons_of_mem _ inside, same⟩

/-- What holds of all elements of a list does not depend on those before them. -/
theorem forall_withEarlier {l : List α} {P : α → Prop} :
    (∀ p ∈ withEarlier l, P p.2) ↔ ∀ a ∈ l, P a := by
  rw [withEarlier_eq_earlierFrom]
  constructor
  · intro each a member
    obtain ⟨p, inside, rfl⟩ := exists_mem_earlierFrom [] member
    exact each p inside
  · intro each p inside
    exact each p.2 (snd_mem_of_mem_earlierFrom inside)

theorem nodup_append_iff_earlierFrom (before l : List α) :
    (before ++ l).Nodup ↔ before.Nodup ∧ ∀ p ∈ earlierFrom before l, p.2 ∉ p.1 := by
  induction l generalizing before with
  | nil => simp [earlierFrom]
  | cons a l ih =>
      have rest := ih (before ++ [a])
      rw [List.append_assoc, List.singleton_append] at rest
      rw [rest, earlierFrom, List.forall_mem_cons, ← and_assoc]
      refine and_congr_left fun _ => ?_
      simp only [List.nodup_append, List.nodup_singleton, List.mem_singleton, ne_eq, true_and,
        forall_eq]
      refine and_congr_right fun _ => ?_
      exact ⟨fun apart inside => apart a inside rfl, fun absent b inside same =>
        absent (same ▸ inside)⟩

/-- The elements of a list differ if none of them stands before itself. -/
theorem nodup_iff_withEarlier (l : List α) : l.Nodup ↔ ∀ p ∈ withEarlier l, p.2 ∉ p.1 := by
  rw [withEarlier_eq_earlierFrom]
  simpa using nodup_append_iff_earlierFrom [] l

end Earlier

/-! ## Violations -/

namespace TypeRef

/-- `Within u t` says that the type `u` is `t` itself or stands somewhere inside it. -/
inductive Within (u : TypeRef) : TypeRef → Prop where
  | here : Within u u
  | optional {t : TypeRef} : Within u t → Within u (.optional t)
  | sequence {t : TypeRef} : Within u t → Within u (.sequence t)

/-- An optional stands directly inside an optional, at any depth. -/
def HoldsNestedOptional (t : TypeRef) : Prop :=
  ∃ inner, Within (.optional (.optional inner)) t

/-- The check for nested optionals finds them at any depth, and nothing else. -/
theorem nestsOptional_iff (t : TypeRef) : t.nestsOptional = true ↔ t.HoldsNestedOptional := by
  induction t with
  | primitive name =>
      refine ⟨fun found => absurd found (by simp [nestsOptional]), ?_⟩
      rintro ⟨inner, within⟩
      cases within
  | named name =>
      refine ⟨fun found => absurd found (by simp [nestsOptional]), ?_⟩
      rintro ⟨inner, within⟩
      cases within
  | sequence t ih =>
      rw [nestsOptional, ih]
      constructor
      · rintro ⟨inner, within⟩
        exact ⟨inner, .sequence within⟩
      · rintro ⟨inner, within⟩
        cases within with
        | sequence deeper => exact ⟨inner, deeper⟩
  | optional t ih =>
      rw [nestsOptional, Bool.or_eq_true, ih]
      constructor
      · rintro (direct | ⟨inner, within⟩)
        · cases t with
          | optional inner => exact ⟨inner, .here⟩
          | primitive | named | sequence => simp [isOptional] at direct
        · exact ⟨inner, .optional within⟩
      · rintro ⟨inner, within⟩
        cases within with
        | here => exact .inl rfl
        | optional deeper => exact .inr ⟨inner, deeper⟩

instance (t : TypeRef) : Decidable t.HoldsNestedOptional :=
  decidable_of_iff _ t.nestsOptional_iff

end TypeRef

/-- What is wrong with the raw value of a case that follows other cases: it is absent, or an
earlier case has it, the first of which is named. -/
def RawCase.violations (enumeration : String) (before : List RawCase) (c : RawCase) :
    List Diagnostic :=
  match c.rawValue with
  | none => [.missingRawValue enumeration c.name]
  | some raw =>
    match before.find? fun b => b.rawValue = some raw with
    | some first => [.duplicateRawValue enumeration c.name first.name raw]
    | none => []

/-- What is wrong with the names of cases: each that an earlier case has already is repeated. -/
def caseNameViolations {α : Type} (enumeration : String) (name : α → String) (cases : List α) :
    List Diagnostic :=
  (withEarlier cases).flatMap fun p =>
    if name p.2 ∈ p.1.map name then [.duplicateCase enumeration (name p.2)] else []

/-- What is wrong with a type at a place: it holds an optional directly inside an optional. -/
def TypeRef.violations (place : Location) (t : TypeRef) : List Diagnostic :=
  if t.HoldsNestedOptional then [.nestedOptional place] else []

/-- What is wrong within a declaration: the target of an alias, the types of fields, the names of
cases of either form, the raw values of raw cases, and the payloads of union cases. -/
def Declaration.violations : Declaration → List Diagnostic
  | .alias a => a.target.violations (.alias a.name)
  | .record r => r.fields.flatMap fun f => f.type.violations (.field r.name f.name)
  | .enumeration ⟨name, .raw cases, _⟩ =>
      caseNameViolations name RawCase.name cases
        ++ (withEarlier cases).flatMap fun p => p.2.violations name p.1
  | .enumeration ⟨name, .union cases, _⟩ =>
      caseNameViolations name UnionCase.name cases
        ++ cases.flatMap fun c =>
          match c.payload with
          | some payload => payload.violations (.payload name c.name)
          | none => []

/-- What is wrong with a schema, declaration by declaration: a name that an earlier declaration
has, and what is wrong within the declaration. -/
def Schema.violations (s : Schema) : List Diagnostic :=
  (withEarlier s.declarations).flatMap fun p =>
    (if p.2.name ∈ p.1.map Declaration.name then [.duplicateName p.2.name] else [])
      ++ p.2.violations

/-! ## The checks find the violations -/

/-- Names that have been seen are the names before, in any order. -/
theorem repeated_eq (seen before names : List String) (same : ∀ n, n ∈ seen ↔ n ∈ before) :
    repeated seen names = ((earlierFrom before names).filter fun p => p.2 ∈ p.1).map Prod.snd := by
  induction names generalizing seen before with
  | nil => rfl
  | cons name names ih =>
      have next : ∀ n, n ∈ name :: seen ↔ n ∈ before ++ [name] := by
        intro n
        rw [List.mem_cons, List.mem_append, List.mem_singleton, same n, or_comm]
      rw [repeated, earlierFrom, ih _ _ next]
      by_cases known : name ∈ before
      · simp [known, same name]
      · simp [known, same name]

/-- The raw values that are remembered belong to the first case that has them. -/
theorem rawValueProblems_eq (enumeration : String) (earlier : List (String × String))
    (before cases : List RawCase)
    (remembered : ∀ raw, earlier.lookup raw =
      (before.find? fun b => b.rawValue = some raw).map RawCase.name) :
    rawValueProblems enumeration earlier cases =
      (earlierFrom before cases).flatMap fun p => p.2.violations enumeration p.1 := by
  induction cases generalizing earlier before with
  | nil => rfl
  | cons c cases ih =>
      rw [rawValueProblems, earlierFrom, List.flatMap_cons, RawCase.violations]
      cases value : c.rawValue with
      | none =>
          have next : ∀ raw, earlier.lookup raw =
              ((before ++ [c]).find? fun b => b.rawValue = some raw).map RawCase.name := by
            intro raw
            simp [remembered raw, value]
          simp [ih _ _ next]
      | some raw =>
          cases found : before.find? fun b => b.rawValue = some raw with
          | some first =>
              -- The case is not remembered, since an earlier one has its raw value.
              have next : ∀ raw', earlier.lookup raw' =
                  ((before ++ [c]).find? fun b => b.rawValue = some raw').map RawCase.name := by
                intro raw'
                by_cases equal : raw = raw'
                · subst equal
                  simp [remembered raw, found]
                · simp [remembered raw', value, equal]
              simp [remembered raw, found, ih _ _ next]
          | none =>
              have next : ∀ raw', (earlier ++ [(raw, c.name)]).lookup raw' =
                  ((before ++ [c]).find? fun b => b.rawValue = some raw').map RawCase.name := by
                intro raw'
                rw [List.lookup_append, remembered raw', List.find?_append]
                by_cases equal : raw = raw'
                · subst equal
                  simp [found, value]
                · have other : (raw' == raw) = false := by simpa using Ne.symm equal
                  simp [List.lookup_cons, other, value, equal]
              simp [remembered raw, found, ih _ _ next]

/-- Names that are repeated among the names of cases are those of cases with an earlier one of the
same name. -/
theorem map_repeated_eq {α : Type} (enumeration : String) (name : α → String) (cases : List α) :
    (repeated [] (cases.map name)).map (.duplicateCase enumeration) =
      caseNameViolations enumeration name cases := by
  have names : repeated [] (cases.map name) =
      ((withEarlier (cases.map name)).filter fun p => p.2 ∈ p.1).map Prod.snd := by
    rw [withEarlier_eq_earlierFrom]
    exact repeated_eq [] [] (cases.map name) fun _ => Iff.rfl
  rw [names, caseNameViolations, withEarlier_map, List.filter_map, List.map_map, List.map_map,
    ← List.filterMap_eq_map, List.filterMap_filter, List.filterMap_eq_flatMap_toList]
  refine List.flatMap_congr fun p _ => ?_
  by_cases known : name p.2 ∈ p.1.map name <;> simp [known]

theorem rawValueProblems_nil_eq (enumeration : String) (cases : List RawCase) :
    rawValueProblems enumeration [] cases =
      (withEarlier cases).flatMap fun p => p.2.violations enumeration p.1 := by
  rw [withEarlier_eq_earlierFrom]
  exact rawValueProblems_eq enumeration [] [] cases fun _ => rfl

/-- The types that are found to nest optionals are those with a violation. -/
theorem map_filter_nestsOptional {α : Type} (place : α → Location) (type : α → TypeRef)
    (l : List α) :
    ((l.map fun a => (place a, type a)).filter fun m => m.2.nestsOptional).map
        (fun m => Diagnostic.nestedOptional m.1) =
      l.flatMap fun a => (type a).violations (place a) := by
  induction l with
  | nil => rfl
  | cons a l ih =>
      rw [List.map_cons, List.filter_cons, List.flatMap_cons, ← ih, TypeRef.violations]
      by_cases nested : (type a).HoldsNestedOptional
      · simp [nested, (type a).nestsOptional_iff.mpr nested]
      · simp [nested, (type a).nestsOptional_iff]

theorem Declaration.problems_eq (d : Declaration) : d.problems = d.violations := by
  rcases d with a | r | ⟨name, cases | cases, doc⟩
  · simpa [problems, violations, mentions] using
      map_filter_nestsOptional (fun a : Alias => .alias a.name) Alias.target [a]
  · exact map_filter_nestsOptional (fun f => .field r.name f.name) Field.type r.fields
  · simp only [problems, violations, mentions, Enumeration.problems, Enumeration.caseNames,
      map_repeated_eq, rawValueProblems_nil_eq, List.filter_nil, List.map_nil, List.append_nil]
  · have payloads : mentions (.enumeration ⟨name, .union cases, doc⟩) =
        (cases.flatMap fun c => c.payload.toList.map (c.name, ·)).map
          fun p => (.payload name p.1, p.2) := by
      simp [mentions, List.map_flatMap, Function.comp_def]
    simp only [problems, violations, payloads, Enumeration.problems, Enumeration.caseNames,
      map_repeated_eq, map_filter_nestsOptional, List.append_nil, List.flatMap_assoc]
    refine congrArg _ (List.flatMap_congr fun c _ => ?_)
    cases c.payload <;> simp

theorem problemsAfter_eq (seen : List String) (before ds : List Declaration)
    (same : ∀ n, n ∈ seen ↔ n ∈ before.map Declaration.name) :
    problemsAfter seen ds = (earlierFrom before ds).flatMap fun p =>
      (if p.2.name ∈ p.1.map Declaration.name then [.duplicateName p.2.name] else [])
        ++ p.2.violations := by
  induction ds generalizing seen before with
  | nil => rfl
  | cons d ds ih =>
      have next : ∀ n, n ∈ d.name :: seen ↔ n ∈ (before ++ [d]).map Declaration.name := by
        intro n
        rw [List.map_append, List.map_singleton, List.mem_cons, List.mem_append,
          List.mem_singleton, same n, or_comm]
      have known : seen.contains d.name = decide (d.name ∈ before.map Declaration.name) := by
        rw [Bool.eq_iff_iff, List.contains_iff_mem, decide_eq_true_iff]
        exact same d.name
      rw [problemsAfter, earlierFrom, List.flatMap_cons, ih _ _ next, d.problems_eq, known]
      simp only [decide_eq_true_eq]

/-- **The problems found are the violations**, in the order of the declarations. -/
theorem Schema.diagnose_eq (s : Schema) : s.diagnose = s.violations := by
  rw [Schema.violations, withEarlier_eq_earlierFrom]
  exact problemsAfter_eq [] [] s.declarations fun _ => by simp

/-! ## Sound schemas -/

/-- A schema is sound if its declared names differ, the names of the cases of each enumeration
differ, each raw case has a raw value of its own, and neither the target of an alias nor the type
of a field nor a payload holds an optional directly inside an optional. -/
structure Schema.Sound (s : Schema) : Prop where
  names_differ : (s.declarations.map Declaration.name).Nodup
  raw_cases_differ : ∀ name doc cases, .enumeration ⟨name, .raw cases, doc⟩ ∈ s.declarations →
    (cases.map RawCase.name).Nodup
  union_cases_differ : ∀ name doc cases,
    .enumeration ⟨name, .union cases, doc⟩ ∈ s.declarations → (cases.map UnionCase.name).Nodup
  raw_present : ∀ name doc cases, .enumeration ⟨name, .raw cases, doc⟩ ∈ s.declarations →
    ∀ c ∈ cases, c.rawValue ≠ none
  raw_differ : ∀ name doc cases, .enumeration ⟨name, .raw cases, doc⟩ ∈ s.declarations →
    (cases.map RawCase.rawValue).Nodup
  flat_targets : ∀ a, .alias a ∈ s.declarations → ¬ a.target.HoldsNestedOptional
  flat_fields : ∀ r, .record r ∈ s.declarations →
    ∀ f ∈ r.fields, ¬ f.type.HoldsNestedOptional
  flat_payloads : ∀ name doc cases, .enumeration ⟨name, .union cases, doc⟩ ∈ s.declarations →
    ∀ c ∈ cases, ∀ payload ∈ c.payload, ¬ payload.HoldsNestedOptional

theorem RawCase.violations_eq_nil_iff (enumeration : String) (before : List RawCase)
    (c : RawCase) :
    c.violations enumeration before = [] ↔
      c.rawValue ≠ none ∧ c.rawValue ∉ before.map RawCase.rawValue := by
  unfold RawCase.violations
  cases value : c.rawValue with
  | none => simp
  | some raw =>
      cases found : before.find? fun b => b.rawValue = some raw with
      | none =>
          have absent := List.find?_eq_none.mp found
          simp only [decide_eq_true_eq] at absent
          simpa [found] using absent
      | some first =>
          have inside := List.mem_of_find?_eq_some found
          have same : first.rawValue = some raw := by simpa using List.find?_some found
          simpa [found] using ⟨first, inside, same⟩

theorem rawViolations_eq_nil_iff (enumeration : String) (cases : List RawCase) :
    ((withEarlier cases).flatMap fun p => p.2.violations enumeration p.1) = [] ↔
      (∀ c ∈ cases, c.rawValue ≠ none) ∧ (cases.map RawCase.rawValue).Nodup := by
  rw [List.flatMap_eq_nil_iff, nodup_iff_withEarlier, withEarlier_map, List.forall_mem_map]
  simp only [RawCase.violations_eq_nil_iff]
  rw [forall₂_and]
  exact and_congr_left fun _ => forall_withEarlier (P := fun c : RawCase => c.rawValue ≠ none)

theorem caseNameViolations_eq_nil_iff {α : Type} (enumeration : String) (name : α → String)
    (cases : List α) :
    caseNameViolations enumeration name cases = [] ↔ (cases.map name).Nodup := by
  rw [caseNameViolations, List.flatMap_eq_nil_iff, nodup_iff_withEarlier, withEarlier_map,
    List.forall_mem_map]
  simp only [ite_eq_right_iff, List.cons_ne_nil, imp_false]

theorem TypeRef.violations_eq_nil_iff (place : Location) (t : TypeRef) :
    t.violations place = [] ↔ ¬ t.HoldsNestedOptional := by
  simp [TypeRef.violations]

theorem Declaration.raw_violations_eq_nil_iff (name : String) (cases : List RawCase) (doc : Doc) :
    violations (.enumeration ⟨name, .raw cases, doc⟩) = [] ↔
      (cases.map RawCase.name).Nodup ∧ (∀ c ∈ cases, c.rawValue ≠ none) ∧
        (cases.map RawCase.rawValue).Nodup := by
  rw [violations, List.append_eq_nil_iff, caseNameViolations_eq_nil_iff, rawViolations_eq_nil_iff]

theorem Declaration.union_violations_eq_nil_iff (name : String) (cases : List UnionCase)
    (doc : Doc) :
    violations (.enumeration ⟨name, .union cases, doc⟩) = [] ↔
      (cases.map UnionCase.name).Nodup ∧
        ∀ c ∈ cases, ∀ payload ∈ c.payload, ¬ payload.HoldsNestedOptional := by
  rw [violations, List.append_eq_nil_iff, caseNameViolations_eq_nil_iff, List.flatMap_eq_nil_iff]
  refine and_congr_right fun _ => forall₂_congr fun c _ => ?_
  cases c.payload <;> simp [TypeRef.violations_eq_nil_iff]

/-- A schema has no violations exactly if it is sound. -/
theorem Schema.violations_eq_nil_iff (s : Schema) : s.violations = [] ↔ s.Sound := by
  have split : s.violations = [] ↔
      (∀ p ∈ withEarlier s.declarations, p.2.name ∉ p.1.map Declaration.name) ∧
        ∀ d ∈ s.declarations, d.violations = [] := by
    rw [Schema.violations, List.flatMap_eq_nil_iff,
      ← forall_withEarlier (P := fun d : Declaration => d.violations = []), ← forall₂_and]
    simp only [List.append_eq_nil_iff, ite_eq_right_iff, List.cons_ne_nil, imp_false]
  have names : (s.declarations.map Declaration.name).Nodup ↔
      ∀ p ∈ withEarlier s.declarations, p.2.name ∉ p.1.map Declaration.name := by
    rw [nodup_iff_withEarlier, withEarlier_map, List.forall_mem_map]
  rw [split, ← names]
  constructor
  · rintro ⟨differ, clean⟩
    have raw := fun name doc cases member =>
      (Declaration.raw_violations_eq_nil_iff name cases doc).mp (clean _ member)
    have union := fun name doc cases member =>
      (Declaration.union_violations_eq_nil_iff name cases doc).mp (clean _ member)
    exact
      { names_differ := differ
        raw_cases_differ := fun name doc cases member => (raw name doc cases member).1
        union_cases_differ := fun name doc cases member => (union name doc cases member).1
        raw_present := fun name doc cases member => (raw name doc cases member).2.1
        raw_differ := fun name doc cases member => (raw name doc cases member).2.2
        flat_targets := fun a member =>
          (TypeRef.violations_eq_nil_iff _ _).mp (clean (.alias a) member)
        flat_fields := fun r member f inside =>
          (TypeRef.violations_eq_nil_iff _ _).mp
            (List.flatMap_eq_nil_iff.mp (clean (.record r) member) f inside)
        flat_payloads := fun name doc cases member => (union name doc cases member).2 }
  · intro sound
    refine ⟨sound.names_differ, ?_⟩
    rintro (a | r | ⟨name, cases | cases, doc⟩) member
    · exact (TypeRef.violations_eq_nil_iff _ _).mpr (sound.flat_targets a member)
    · exact List.flatMap_eq_nil_iff.mpr fun f inside =>
        (TypeRef.violations_eq_nil_iff _ _).mpr (sound.flat_fields r member f inside)
    · exact (Declaration.raw_violations_eq_nil_iff name cases doc).mpr
        ⟨sound.raw_cases_differ name doc cases member, sound.raw_present name doc cases member,
          sound.raw_differ name doc cases member⟩
    · exact (Declaration.union_violations_eq_nil_iff name cases doc).mpr
        ⟨sound.union_cases_differ name doc cases member,
          sound.flat_payloads name doc cases member⟩

/-- A schema is accepted exactly if it is sound. -/
theorem Schema.check_eq_ok_iff (s : Schema) : s.check = .ok () ↔ s.Sound := by
  rw [← s.violations_eq_nil_iff, ← s.diagnose_eq, Schema.check]
  cases s.diagnose <;> simp

/-! ## Every problem is fatal -/

theorem RawCase.fatal_of_mem_violations {enumeration : String} {before : List RawCase}
    {c : RawCase} {d : Diagnostic} (member : d ∈ c.violations enumeration before) :
    d.isFatal = true := by
  unfold RawCase.violations at member
  split at member
  · rw [List.mem_singleton.mp member]
    rfl
  · split at member
    · rw [List.mem_singleton.mp member]
      rfl
    · simp at member

theorem fatal_of_mem_caseNameViolations {α : Type} {enumeration : String} {name : α → String}
    {cases : List α} {d : Diagnostic} (member : d ∈ caseNameViolations enumeration name cases) :
    d.isFatal = true := by
  obtain ⟨p, _, inside⟩ := List.mem_flatMap.mp member
  split at inside
  · rw [List.mem_singleton.mp inside]
    rfl
  · simp at inside

theorem TypeRef.fatal_of_mem_violations {place : Location} {t : TypeRef} {d : Diagnostic}
    (member : d ∈ t.violations place) : d.isFatal = true := by
  unfold TypeRef.violations at member
  split at member
  · rw [List.mem_singleton.mp member]
    rfl
  · simp at member

theorem Declaration.fatal_of_mem_violations {d : Declaration} {problem : Diagnostic}
    (member : problem ∈ d.violations) : problem.isFatal = true := by
  rcases d with a | r | ⟨name, cases | cases, doc⟩
  · exact TypeRef.fatal_of_mem_violations member
  · obtain ⟨f, _, inside⟩ := List.mem_flatMap.mp member
    exact TypeRef.fatal_of_mem_violations inside
  · rcases List.mem_append.mp member with byName | byValue
    · exact fatal_of_mem_caseNameViolations byName
    · obtain ⟨p, _, inside⟩ := List.mem_flatMap.mp byValue
      exact RawCase.fatal_of_mem_violations inside
  · rcases List.mem_append.mp member with byName | byPayload
    · exact fatal_of_mem_caseNameViolations byName
    · obtain ⟨c, _, inside⟩ := List.mem_flatMap.mp byPayload
      split at inside
      · exact TypeRef.fatal_of_mem_violations inside
      · simp at inside

theorem Schema.fatal_of_mem_violations {s : Schema} {problem : Diagnostic}
    (member : problem ∈ s.violations) : problem.isFatal = true := by
  obtain ⟨p, _, inside⟩ := List.mem_flatMap.mp member
  rcases List.mem_append.mp inside with byName | within
  · split at byName
    · rw [List.mem_singleton.mp byName]
      rfl
    · simp at byName
  · exact Declaration.fatal_of_mem_violations within

/-- **The checks are exact.** The problems that are found are the violations, declaration by
declaration; a schema is accepted exactly if it is sound; and every problem is fatal. -/
theorem Schema.diagnose_exact (s : Schema) :
    s.diagnose = s.violations ∧ (s.check = .ok () ↔ s.Sound) ∧
      ∀ problem ∈ s.diagnose, problem.isFatal = true := by
  refine ⟨s.diagnose_eq, s.check_eq_ok_iff, ?_⟩
  intro problem member
  rw [s.diagnose_eq] at member
  exact Schema.fatal_of_mem_violations member

/-- A schema with violations of each kind. Its record has the name of its alias; the alias, a field
and a payload hold nested optionals; cases of either form have names of earlier ones; one raw value
is absent, and one is that of the first case. -/
def unsoundSample : Schema where
  name := "flawed"
  declarations :=
    [.alias ⟨"A", .optional (.optional (.primitive "bool")), {}⟩,
      .record ⟨"A", [⟨"plain", .optional (.named "A"), {}⟩,
        ⟨"deep", .sequence (.optional (.optional (.named "A"))), {}⟩], {}⟩,
      .enumeration ⟨"E", .raw [⟨"first", some "1", {}⟩, ⟨"other", some "2", {}⟩,
        ⟨"first", none, {}⟩, ⟨"last", some "1", {}⟩], {}⟩,
      .enumeration ⟨"U", .union [⟨"one", none, {}⟩,
        ⟨"one", some (.optional (.sequence (.optional (.optional (.primitive "u8"))))), {}⟩], {}⟩]

theorem diagnose_exact_unsoundSample :
    unsoundSample.diagnose =
        [.nestedOptional (.alias "A"), .duplicateName "A", .nestedOptional (.field "A" "deep"),
          .duplicateCase "E" "first", .missingRawValue "E" "first",
          .duplicateRawValue "E" "last" "first" "1", .duplicateCase "U" "one",
          .nestedOptional (.payload "U" "one")] ∧
      ¬ unsoundSample.Sound := by
  obtain ⟨found, accepted, -⟩ := Schema.diagnose_exact unsoundSample
  have listed : unsoundSample.violations =
      [.nestedOptional (.alias "A"), .duplicateName "A", .nestedOptional (.field "A" "deep"),
        .duplicateCase "E" "first", .missingRawValue "E" "first",
        .duplicateRawValue "E" "last" "first" "1", .duplicateCase "U" "one",
        .nestedOptional (.payload "U" "one")] := by
    decide
  refine ⟨found.trans listed, fun sound => ?_⟩
  have clean := accepted.mpr sound
  rw [Schema.check, found, listed] at clean
  cases clean

end SchemaPress
