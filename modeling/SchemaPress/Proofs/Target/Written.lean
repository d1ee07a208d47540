import SchemaPress.Proofs.Target.Fragment
import SchemaPress.Target.Backend

/-!
# What the emitters write

An emitter is given the emission so far and could do anything with it. What it does is to add text
at the end and to report reserved words, and neither depends on what is there already. A step that
keeps to this adds a fragment (`Emit.Adds`), and so does a sequence of such steps, a loop over a
list, and a loop that collects values.

So each emitter of a target is described by one fragment, which is put together without an emission:
the text of an alias, of a record with its fields, of an enumeration with its cases
(`Swift.adds_emit`, `Rust.adds_emit`, `TypeScript.adds_emit`, `OpenApi.adds_emit`). A fragment may
list a reserved word again where an emitter writes it again without reporting it; nothing is
reported twice in either case.
-/

set_option autoImplicit false

namespace SchemaPress

/-! ## Steps -/

theorem Emission.pushFragment_empty (target : Target) (e : Emission) :
    e.pushFragment target {} = e := by
  change e.push "" = e
  unfold Emission.push
  rw [String.append_empty]

/-- Words that a fragment lists again at its end make no difference. -/
theorem Emission.pushFragment_again (target : Target) (e : Emission) {f g : Fragment}
    {again : List String} (text : g.text = f.text) (listed : g.collisions = f.collisions ++ again)
    (known : again ⊆ f.collisions) : e.pushFragment target g = e.pushFragment target f := by
  unfold Emission.pushFragment
  rw [text, listed, List.map_append, List.foldl_append]
  refine Emission.foldl_report_of_subset fun d member => ?_
  exact Emission.mem_foldl_report.mpr (.inr (List.map_subset _ known member))

namespace Emit

variable {α β γ : Type} {target : Target}

/-- A step gives a value and adds a fragment to whatever is there already. -/
def Adds (target : Target) (step : Emit α) (a : α) (f : Fragment) : Prop :=
  ∀ e, step e = (a, e.pushFragment target f)

theorem adds_pure (a : α) : Adds target (pure a) a {} := by
  intro e
  rw [Emission.pushFragment_empty]
  rfl

theorem adds_push (s : String) : Adds target (push s) () (Fragment.ofText s) :=
  fun _ => rfl

theorem adds_line (level : Nat) (s : String) :
    Adds target (line level s) () (Fragment.line level (Fragment.ofText s)) :=
  fun _ => rfl

theorem adds_spell (f : Fragment) : Adds target (spell target f) f.text ⟨"", f.collisions⟩ :=
  fun _ => rfl

namespace Adds

variable {a : α} {b : β} {f g : Fragment}

/-- A step after another one adds its fragment after the other one's. -/
theorem bind {step : Emit α} {next : α → Emit β} (first : Adds target step a f)
    (second : Adds target (next a) b g) : Adds target (step >>= next) b (f ++ g) := by
  intro e
  change next (step e).1 (step e).2 = _
  rw [first e, second, Emission.pushFragment_append]

/-- A step is described by any fragment with the same text and the same reserved words. -/
theorem of_parts {step : Emit α} (adds : Adds target step a f) (text : f.text = g.text)
    (collisions : f.collisions = g.collisions) : Adds target step a g := by
  rwa [Fragment.ext text collisions] at adds

/-- A fragment that lists words again describes the same step. -/
theorem of_again {step : Emit α} (adds : Adds target step a f) {again : List String}
    (text : g.text = f.text) (listed : g.collisions = f.collisions ++ again)
    (known : again ⊆ f.collisions) : Adds target step a g := by
  intro e
  rw [adds e, Emission.pushFragment_again target e text listed known]

/-- A loop adds the fragments of its steps. -/
theorem forM {step : γ → Emit Unit} {piece : γ → Fragment} (l : List γ)
    (each : ∀ c, Adds target (step c) () (piece c)) :
    Adds target (l.forM step) () (Fragment.concat (l.map piece)) := by
  induction l with
  | nil => exact adds_pure ()
  | cons c l ih => exact (each c).bind ih

/-- A loop that collects values adds the fragments of its steps. -/
theorem mapM {step : γ → Emit α} {value : γ → α} {piece : γ → Fragment} (l : List γ)
    (each : ∀ c, Adds target (step c) (value c) (piece c)) :
    Adds target (l.mapM step) (l.map value) (Fragment.concat (l.map piece)) := by
  induction l with
  | nil => exact adds_pure []
  | cons c l ih =>
      rw [List.mapM_cons]
      refine ((each c).bind (ih.bind (adds_pure (value c :: l.map value)))).of_parts ?_ ?_
      · simp
      · simp

/-- A loop that collects texts without adding any reports the words of its steps. -/
theorem mapM_of_quiet {step : γ → Emit α} {value : γ → α} {words : γ → List String} (l : List γ)
    (each : ∀ c, Adds target (step c) (value c) ⟨"", words c⟩) :
    Adds target (l.mapM step) (l.map value) ⟨"", l.flatMap words⟩ := by
  refine (mapM l each).of_parts ?_ ?_
  · rw [← String.toList_inj]
    simp
  · simp [List.flatMap_map]

end Adds

end Emit

open Emit

/-! ## Swift -/

namespace Swift

variable (o : SwiftOptions)

/-- An alias. -/
def aliasText (a : Alias) : Fragment :=
  docText a.doc 0 ++ Fragment.line 0
    ("typealias " ++ (lexicon o).identifier .declaration a.name ++ " = " ++ typeText o a.target)

/-- A field of a record. -/
def fieldText (f : Field) : Fragment :=
  docText f.doc 1 ++ Fragment.line 1
    ("var " ++ (lexicon o).identifier .field f.name ++ ": " ++ typeText o f.type)

/-- A record. -/
def recordText (r : Record) : Fragment :=
  docText r.doc 0
    ++ Fragment.line 0
      ("struct " ++ (lexicon o).identifier .declaration r.name ++ inheritance o [] ++ " \x7b")
    ++ Fragment.concat (r.fields.map (fieldText o))
    ++ Fragment.line 0 "\x7d"

/-- A case of an enumeration of raw values. -/
def rawCaseText (c : RawCasePlan) : Fragment :=
  docText c.doc 1 ++ Fragment.line 1
    ("case " ++ (lexicon o).identifier .case c.name ++ " = " ++ Text.bracedLiteral c.rawValue)

/-- An enumeration of raw values. -/
def rawEnumText (p : RawPlan) : Fragment :=
  docText p.doc 0
    ++ Fragment.line 0
      ("enum " ++ (lexicon o).identifier .declaration p.name ++ inheritance o ["String"] ++ " \x7b")
    ++ Fragment.concat (p.cases.map (rawCaseText o))
    ++ Fragment.line 0 "\x7d"

/-- The value that a case of a tagged union carries. -/
def payloadText : Option TypeRef → Fragment
  | none => {}
  | some type => "(" ++ typeText o type ++ ")"

/-- A case of a tagged union. -/
def unionCaseText (c : UnionCase) : Fragment :=
  docText c.doc 1 ++ Fragment.line 1
    ("case " ++ (lexicon o).identifier .case c.name ++ payloadText o c.payload)

/-- A tagged union. -/
def unionText (p : UnionPlan) : Fragment :=
  docText p.doc 0
    ++ Fragment.line 0
      ("enum " ++ (lexicon o).identifier .declaration p.name ++ inheritance o [] ++ " \x7b")
    ++ Fragment.concat (p.cases.map (unionCaseText o))
    ++ Fragment.line 0 "\x7d"

/-- A declaration. -/
def declarationText : Representation → Fragment
  | .alias a => aliasText o a
  | .record r => recordText o r
  | .rawEnum p => rawEnumText o p
  | .union p => unionText o p

theorem adds_spellName (position : Position) (name : String) :
    Adds .swift (spellName o position name) ((lexicon o).identifier position name).text
      ⟨"", ((lexicon o).identifier position name).collisions⟩ :=
  adds_spell _

theorem adds_spellType (type : TypeRef) :
    Adds .swift (spellType o type) (typeText o type).text ⟨"", (typeText o type).collisions⟩ :=
  adds_spell _

theorem adds_emitAlias (a : Alias) : Adds .swift (emitAlias o a) () (aliasText o a) := by
  refine .of_parts (.bind (adds_push _) (.bind (adds_spellName o _ _)
    (.bind (adds_spellType o _) (adds_line _ _)))) ?_ ?_
  · simp [aliasText, String.append_assoc]
  · simp [aliasText]

theorem adds_emitField (f : Field) : Adds .swift (emitField o f) () (fieldText o f) := by
  refine .of_parts (.bind (adds_push _) (.bind (adds_spellName o _ _)
    (.bind (adds_spellType o _) (adds_line _ _)))) ?_ ?_
  · simp [fieldText, String.append_assoc]
  · simp [fieldText]

theorem adds_emitRecord (r : Record) : Adds .swift (emitRecord o r) () (recordText o r) := by
  refine .of_parts (.bind (adds_push _) (.bind (adds_spellName o _ _) (.bind (adds_line _ _)
    (.bind (Adds.forM r.fields (adds_emitField o)) (adds_line _ _))))) ?_ ?_
  · simp [recordText, String.append_assoc]
  · simp [recordText]

theorem adds_emitRawCase (c : RawCasePlan) :
    Adds .swift (emitRawCase o c) () (rawCaseText o c) := by
  refine .of_parts (.bind (adds_push _) (.bind (adds_spellName o _ _) (adds_line _ _))) ?_ ?_
  · simp [rawCaseText, String.append_assoc]
  · simp [rawCaseText]

theorem adds_emitRawEnum (p : RawPlan) : Adds .swift (emitRawEnum o p) () (rawEnumText o p) := by
  refine .of_parts (.bind (adds_push _) (.bind (adds_spellName o _ _) (.bind (adds_line _ _)
    (.bind (Adds.forM p.cases (adds_emitRawCase o)) (adds_line _ _))))) ?_ ?_
  · simp [rawEnumText, String.append_assoc]
  · simp [rawEnumText]

theorem adds_emitUnionCase (c : UnionCase) :
    Adds .swift (emitUnionCase o c) () (unionCaseText o c) := by
  obtain ⟨name, payload, doc⟩ := c
  cases payload with
  | none =>
      refine .of_parts (.bind (adds_push _) (.bind (adds_spellName o _ _) (adds_line _ _))) ?_ ?_
      · simp [unionCaseText, payloadText, String.append_assoc]
      · simp [unionCaseText, payloadText]
  | some type =>
      refine .of_parts (.bind (adds_push _) (.bind (adds_spellName o _ _)
        (.bind (adds_spellType o _) (adds_line _ _)))) ?_ ?_
      · simp [unionCaseText, payloadText, String.append_assoc]
      · simp [unionCaseText, payloadText]

theorem adds_emitUnion (p : UnionPlan) : Adds .swift (emitUnion o p) () (unionText o p) := by
  refine .of_parts (.bind (adds_push _) (.bind (adds_spellName o _ _) (.bind (adds_line _ _)
    (.bind (Adds.forM p.cases (adds_emitUnionCase o)) (adds_line _ _))))) ?_ ?_
  · simp [unionText, String.append_assoc]
  · simp [unionText]

/-- **Each emitter adds the text of its declaration.** -/
theorem adds_emit (r : Representation) : Adds .swift (emit o r) () (declarationText o r) := by
  rcases r with a | r | p | p
  · exact adds_emitAlias o a
  · exact adds_emitRecord o r
  · exact adds_emitRawEnum o p
  · exact adds_emitUnion o p

end Swift

/-! ## Rust -/

namespace Rust

variable (o : RustOptions)

/-- The line of derived traits, if there are any. -/
def deriveLine : Fragment :=
  match o.derives ++ (if o.serde then ["Serialize", "Deserialize"] else []) with
  | [] => {}
  | names => Fragment.line 0 ("#[derive(" ++ String.intercalate ", " names ++ ")]" : String)

/-- The line that switches a lint off, if some name trips it. -/
def allowLine (lint : String) (trips : String → Bool) (names : List String) : Fragment :=
  if names.any trips then Fragment.line 0 ("#[allow(" ++ lint ++ ")]" : String) else {}

/-- An alias. -/
def aliasText (a : Alias) : Fragment :=
  docText a.doc 0 ++ Fragment.line 0
    (visibility o ++ "type " ++ (lexicon o).identifier .declaration a.name ++ " = "
      ++ typeText o a.target ++ ";")

/-- The attribute of a field that may be absent. -/
def optionalAttribute (f : Field) : Fragment :=
  if o.serde && f.type.isOptional then
    Fragment.line 1 "#[serde(default, skip_serializing_if = \"Option::is_none\")]"
  else {}

/-- A field of a record. -/
def fieldText (f : Field) : Fragment :=
  docText f.doc 1 ++ optionalAttribute o f ++ Fragment.line 1
    (visibility o ++ (lexicon o).identifier .field f.name ++ ": " ++ typeText o f.type ++ ",")

/-- The body of a record, from its opening brace on. -/
def bodyText (fields : List Field) : Fragment :=
  if fields.isEmpty then "\x7b\x7d\n"
  else "\x7b\n" ++ Fragment.concat (fields.map (fieldText o)) ++ Fragment.line 0 "\x7d"

/-- A record. -/
def recordText (r : Record) : Fragment :=
  docText r.doc 0 ++ deriveLine o
    ++ allowLine "non_snake_case" tripsFieldLint (r.fields.map (·.name))
    ++ visibility o ++ "struct " ++ (lexicon o).identifier .declaration r.name ++ " "
    ++ bodyText o r.fields

/-- A case of an enumeration of raw values. -/
def rawCaseText (c : RawCasePlan) : Fragment :=
  docText c.doc 1
    ++ (if o.serde then
        Fragment.line 1 ("#[serde(rename = " ++ Text.bracedLiteral c.rawValue ++ ")]" : String)
      else {})
    ++ Fragment.line 1 ((lexicon o).identifier .case c.name ++ ",")

/-- The arm of the accessor for a case. -/
def accessorArm (c : RawCasePlan) : Fragment :=
  Fragment.line 3
    ("Self::" ++ (lexicon o).identifier .case c.name ++ " => " ++ Text.bracedLiteral c.rawValue
      ++ ",")

/-- The accessor for raw values, if there are any cases. -/
def accessorText (p : RawPlan) : Fragment :=
  if o.rawValueAccessors && !p.cases.isEmpty then
    "\n"
      ++ Fragment.line 0 ("impl " ++ (lexicon o).identifier .declaration p.name ++ " \x7b")
      ++ Fragment.line 1 "/// Raw value of this case."
      ++ Fragment.line 1 (visibility o ++ "fn as_str(&self) -> &'static str \x7b" : String)
      ++ Fragment.line 2 "match self \x7b"
      ++ Fragment.concat (p.cases.map (accessorArm o))
      ++ Fragment.line 2 "\x7d"
      ++ Fragment.line 1 "\x7d"
      ++ Fragment.line 0 "\x7d"
  else {}

/-- An enumeration of raw values. -/
def rawEnumText (p : RawPlan) : Fragment :=
  docText p.doc 0 ++ deriveLine o
    ++ allowLine "non_camel_case_types" tripsCaseLint (p.cases.map (·.name))
    ++ Fragment.line 0
      (visibility o ++ "enum " ++ (lexicon o).identifier .declaration p.name ++ " \x7b")
    ++ Fragment.concat (p.cases.map (rawCaseText o))
    ++ Fragment.line 0 "\x7d"
    ++ accessorText o p

/-- The value that a case of a tagged union carries. -/
def payloadText : Option TypeRef → Fragment
  | none => {}
  | some type => "(" ++ typeText o type ++ ")"

/-- A case of a tagged union. -/
def unionCaseText (c : UnionCase) : Fragment :=
  docText c.doc 1 ++ Fragment.line 1
    ((lexicon o).identifier .case c.name ++ payloadText o c.payload ++ ",")

/-- A tagged union. -/
def unionText (p : UnionPlan) : Fragment :=
  docText p.doc 0 ++ deriveLine o
    ++ allowLine "non_camel_case_types" tripsCaseLint (p.cases.map (·.name))
    ++ Fragment.line 0
      (visibility o ++ "enum " ++ (lexicon o).identifier .declaration p.name ++ " \x7b")
    ++ Fragment.concat (p.cases.map (unionCaseText o))
    ++ Fragment.line 0 "\x7d"

/-- A declaration. -/
def declarationText : Representation → Fragment
  | .alias a => aliasText o a
  | .record r => recordText o r
  | .rawEnum p => rawEnumText o p
  | .union p => unionText o p

theorem adds_spellName (position : Position) (name : String) :
    Adds .rust (spellName o position name) ((lexicon o).identifier position name).text
      ⟨"", ((lexicon o).identifier position name).collisions⟩ :=
  adds_spell _

theorem adds_spellType (type : TypeRef) :
    Adds .rust (spellType o type) (typeText o type).text ⟨"", (typeText o type).collisions⟩ :=
  adds_spell _

@[simp]
theorem collisions_deriveLine : (deriveLine o).collisions = [] := by
  unfold deriveLine
  split
  · rfl
  · rfl

@[simp]
theorem collisions_allowLine (lint : String) (trips : String → Bool) (names : List String) :
    (allowLine lint trips names).collisions = [] := by
  unfold allowLine
  split
  · rfl
  · rfl

theorem adds_emitDerives : Adds .rust (emitDerives o) () (deriveLine o) := by
  unfold emitDerives deriveLine
  cases o.derives ++ (if o.serde then ["Serialize", "Deserialize"] else []) with
  | nil => exact adds_pure ()
  | cons name names => exact adds_line 0 _

theorem adds_emitAllow (lint : String) (trips : String → Bool) (names : List String) :
    Adds .rust (emitAllow lint trips names) () (allowLine lint trips names) := by
  unfold emitAllow allowLine
  split
  · exact adds_line 0 _
  · exact adds_pure ()

theorem adds_emitAlias (a : Alias) : Adds .rust (emitAlias o a) () (aliasText o a) := by
  refine .of_parts (.bind (adds_push _) (.bind (adds_spellName o _ _)
    (.bind (adds_spellType o _) (adds_line _ _)))) ?_ ?_
  · simp [aliasText, String.append_assoc]
  · simp [aliasText]

theorem adds_emitOptional (f : Field) :
    Adds .rust (emitOptional o f) () (optionalAttribute o f) := by
  unfold emitOptional optionalAttribute
  split
  · exact adds_line 1 _
  · exact adds_pure ()

theorem adds_emitField (f : Field) : Adds .rust (emitField o f) () (fieldText o f) := by
  refine .of_parts (.bind (adds_push _) (.bind (adds_emitOptional o f)
    (.bind (adds_spellName o _ _) (.bind (adds_spellType o _) (adds_line _ _))))) ?_ ?_
  · simp [fieldText, String.append_assoc]
  · simp [fieldText]

/-- The line that opens a record and what follows it. -/
theorem adds_body (opening : String) (fields : List Field) :
    Adds .rust
      (if fields.isEmpty then line 0 (opening ++ " \x7b\x7d")
      else do
        line 0 (opening ++ " \x7b")
        fields.forM (emitField o)
        line 0 "\x7d") ()
      (opening ++ " " ++ bodyText o fields) := by
  have flush : Text.times 0 "    " = "" := rfl
  have opened : ∀ rest, " \x7b\n" ++ rest = " " ++ ("\x7b\n" ++ rest) := by
    intro rest
    rw [← String.append_assoc]
    rfl
  unfold bodyText
  split
  · refine .of_parts (adds_line _ _) ?_ ?_
    · simp [flush, String.append_assoc]
    · simp
  · refine .of_parts (.bind (adds_line _ _) (.bind (Adds.forM fields (adds_emitField o))
      (adds_line _ _))) ?_ ?_
    · simp [flush, opened, String.append_assoc]
    · simp

theorem adds_emitRecord (r : Record) : Adds .rust (emitRecord o r) () (recordText o r) := by
  refine .of_parts (.bind (adds_push _) (.bind (adds_emitDerives o) (.bind (adds_emitAllow _ _ _)
    (.bind (adds_spellName o _ _) (adds_body o _ r.fields))))) ?_ ?_
  · simp [recordText, String.append_assoc]
  · simp [recordText]

theorem adds_emitSerdeName (rawValue : String) :
    Adds .rust (emitSerdeName o rawValue) () (if o.serde then
        Fragment.line 1 ("#[serde(rename = " ++ Text.bracedLiteral rawValue ++ ")]" : String)
      else {}) := by
  unfold emitSerdeName
  split
  · exact adds_line 1 _
  · exact adds_pure ()

/-- The text of a case's arm. -/
def armText (c : RawCasePlan) : String :=
  "Self::" ++ ((lexicon o).identifier .case c.name).text ++ " => "
    ++ Text.bracedLiteral c.rawValue ++ ","

theorem adds_emitRawCase (c : RawCasePlan) :
    Adds .rust (emitRawCase o c) (armText o c) (rawCaseText o c) := by
  refine .of_parts (.bind (adds_push _) (.bind (adds_emitSerdeName o _)
    (.bind (adds_spellName o _ _) (.bind (adds_line _ _) (adds_pure _))))) ?_ ?_
  · simp [rawCaseText, String.append_assoc]
  · simp [rawCaseText]

/-- The accessor is written without reporting its identifiers again. -/
theorem adds_emitAccessor (p : RawPlan) :
    Adds .rust (emitAccessor o ((lexicon o).identifier .declaration p.name).text
      (p.cases.map (armText o))) () ⟨(accessorText o p).text, []⟩ := by
  unfold emitAccessor accessorText
  rw [List.isEmpty_map]
  split
  · refine .of_parts (.bind (adds_push _) (.bind (adds_line _ _) (.bind (adds_line _ _)
      (.bind (adds_line _ _) (.bind (adds_line _ _)
        (.bind (Adds.forM (p.cases.map (armText o)) (adds_line 3))
          (.bind (adds_line _ _) (.bind (adds_line _ _) (adds_line _ _))))))))) ?_ ?_
    · simp [accessorArm, armText, Function.comp_def, String.append_assoc]
    · simp
  · exact adds_pure ()

/-- The accessor lists no other words than the enumeration. -/
theorem collisions_accessorText_subset (p : RawPlan) :
    (accessorText o p).collisions ⊆ ((lexicon o).identifier .declaration p.name).collisions ++
      (p.cases.map (rawCaseText o)).flatMap Fragment.collisions := by
  have arm : ∀ c, (accessorArm o c).collisions = (rawCaseText o c).collisions := by
    intro c
    unfold accessorArm rawCaseText
    cases o.serde with
    | false => simp
    | true => simp
  unfold accessorText
  split
  · simp [List.flatMap_map, arm]
  · exact List.nil_subset _

theorem adds_emitRawEnum (p : RawPlan) : Adds .rust (emitRawEnum o p) () (rawEnumText o p) := by
  refine .of_again (.bind (adds_push _) (.bind (adds_spellName o _ _) (.bind (adds_emitDerives o)
    (.bind (adds_emitAllow _ _ _) (.bind (adds_line _ _)
      (.bind (Adds.mapM p.cases (adds_emitRawCase o)) (.bind (adds_line _ _)
        (adds_emitAccessor o p)))))))) ?_ ?_ (?_ : (accessorText o p).collisions ⊆ _)
  · simp [rawEnumText, String.append_assoc]
  · simp [rawEnumText]
  · simpa using collisions_accessorText_subset o p

theorem adds_emitUnionCase (c : UnionCase) :
    Adds .rust (emitUnionCase o c) () (unionCaseText o c) := by
  obtain ⟨name, payload, doc⟩ := c
  cases payload with
  | none =>
      refine .of_parts (.bind (adds_push _) (.bind (adds_spellName o _ _) (adds_line _ _))) ?_ ?_
      · simp [unionCaseText, payloadText, String.append_assoc]
      · simp [unionCaseText, payloadText]
  | some type =>
      refine .of_parts (.bind (adds_push _) (.bind (adds_spellName o _ _)
        (.bind (adds_spellType o _) (adds_line _ _)))) ?_ ?_
      · simp [unionCaseText, payloadText, String.append_assoc]
      · simp [unionCaseText, payloadText]

theorem adds_emitUnion (p : UnionPlan) : Adds .rust (emitUnion o p) () (unionText o p) := by
  refine .of_parts (.bind (adds_push _) (.bind (adds_emitDerives o) (.bind (adds_emitAllow _ _ _)
    (.bind (adds_spellName o _ _) (.bind (adds_line _ _)
      (.bind (Adds.forM p.cases (adds_emitUnionCase o)) (adds_line _ _))))))) ?_ ?_
  · simp [unionText, String.append_assoc]
  · simp [unionText]

/-- **Each emitter adds the text of its declaration.** -/
theorem adds_emit (r : Representation) : Adds .rust (emit o r) () (declarationText o r) := by
  rcases r with a | r | p | p
  · exact adds_emitAlias o a
  · exact adds_emitRecord o r
  · exact adds_emitRawEnum o p
  · exact adds_emitUnion o p

end Rust

/-! ## TypeScript -/

namespace TypeScript

variable (o : TypeScriptOptions)

/-- An alias. -/
def aliasText (a : Alias) : Fragment :=
  docText o a.doc 0 ++ Fragment.line 0
    (exportText o ++ "type " ++ (lexicon o).identifier .declaration a.name ++ " = "
      ++ typeText o a.target)

/-- The type of a field: a field that may be absent is marked as such instead. -/
def propertyText : TypeRef → Fragment
  | .optional inner => "?: " ++ typeText o inner
  | type => ": " ++ typeText o type

/-- A field of a record. -/
def fieldText (f : Field) : Fragment :=
  docText o f.doc 1 ++ Fragment.line 1
    ((lexicon o).identifier .field f.name ++ propertyText o f.type)

/-- The line that opens a record. -/
def openRecord (name : String) : Fragment :=
  match o.objectStyle with
  | .typeLiteral =>
      exportText o ++ "type " ++ (lexicon o).identifier .declaration name ++ " = \x7b"
  | .interface =>
      exportText o ++ "interface " ++ (lexicon o).identifier .declaration name ++ " \x7b"

/-- A record. -/
def recordText (r : Record) : Fragment :=
  docText o r.doc 0 ++ Fragment.line 0 (openRecord o r.name)
    ++ Fragment.concat (r.fields.map (fieldText o)) ++ Fragment.line 0 "\x7d"

/-- A case of an enumeration of raw values: its name, a sign, its value, and a comma if another
case follows. -/
def rawCaseText (sign : String) (c : RawCasePlan) (comma : String) : Fragment :=
  docText o c.doc 1 ++ Fragment.line 1
    ((lexicon o).identifier .case c.name ++ sign ++ " " ++ Text.fourDigitLiteral c.rawValue
      ++ comma)

/-- The cases of an enumeration of raw values, with commas between them. -/
def rawCasesText (sign : String) : List RawCasePlan → Fragment
  | [] => {}
  | [c] => rawCaseText o sign c ""
  | c :: rest => rawCaseText o sign c "," ++ rawCasesText sign rest

/-- An enumeration of raw values, of its own or as a constant object with the type of its values. -/
def rawEnumText (p : RawPlan) : Fragment :=
  let name := (lexicon o).identifier .declaration p.name
  docText o p.doc 0 ++ match p.form with
    | .native =>
        Fragment.line 0 (exportText o ++ "enum " ++ name ++ " \x7b")
          ++ rawCasesText o " =" p.cases ++ Fragment.line 0 "\x7d"
    | .constantSet =>
        Fragment.line 0 (exportText o ++ "const " ++ name ++ " = \x7b")
          ++ rawCasesText o ":" p.cases ++ Fragment.line 0 "\x7d as const"
          ++ Fragment.line 0
            (exportText o ++ "type " ++ name ++ " = (typeof " ++ name ++ ")[keyof typeof " ++ name
              ++ "]")

/-- An alternative of a tagged union: an object with a single key, or a string. -/
def alternativeText (c : UnionCase) : Fragment :=
  match c.payload with
  | some type =>
      "\x7b " ++ (lexicon o).identifier .case c.name ++ ": " ++ typeText o type ++ " \x7d"
  | none => Text.fourDigitLiteral c.name

/-- The alternatives of a union on one line. -/
def alternativesLine (p : UnionPlan) : Fragment :=
  Fragment.join " | " (p.cases.map fun c => inlineDoc c.doc ++ alternativeText o c)

/-- An alternative on its own line, below its doc. -/
def alternativeLine (c : UnionCase) : Fragment :=
  docText o c.doc 1 ++ Fragment.line 1 ("| " ++ alternativeText o c)

/-- A tagged union. Without cases it has no values. -/
def unionText (p : UnionPlan) : Fragment :=
  let opening := exportText o ++ "type " ++ (lexicon o).identifier .declaration p.name ++ " ="
  docText o p.doc 0 ++
    if p.cases.isEmpty then Fragment.line 0 (opening ++ " never")
    else if !p.hasCaseDocs || o.unionLayout = .singleLine then
      Fragment.line 0 (opening ++ " " ++ alternativesLine o p)
    else
      Fragment.line 0 opening ++ Fragment.concat (p.cases.map (alternativeLine o))

/-- A declaration. -/
def declarationText : Representation → Fragment
  | .alias a => aliasText o a
  | .record r => recordText o r
  | .rawEnum p => rawEnumText o p
  | .union p => unionText o p

theorem adds_spellName (position : Position) (name : String) :
    Adds .typeScript (spellName o position name) ((lexicon o).identifier position name).text
      ⟨"", ((lexicon o).identifier position name).collisions⟩ :=
  adds_spell _

theorem adds_spellType (type : TypeRef) :
    Adds .typeScript (spellType o type) (typeText o type).text
      ⟨"", (typeText o type).collisions⟩ :=
  adds_spell _

theorem adds_emitAlias (a : Alias) : Adds .typeScript (emitAlias o a) () (aliasText o a) := by
  refine .of_parts (.bind (adds_push _) (.bind (adds_spellName o _ _)
    (.bind (adds_spellType o _) (adds_line _ _)))) ?_ ?_
  · simp [aliasText, String.append_assoc]
  · simp [aliasText]

theorem adds_spellProperty (type : TypeRef) :
    Adds .typeScript (spellProperty o type) (propertyText o type).text
      ⟨"", (propertyText o type).collisions⟩ := by
  cases type with
  | optional inner =>
      refine .of_parts (.bind (adds_spellType o inner) (adds_pure _)) ?_ ?_
      · simp
      · simp [propertyText]
  | primitive | named | sequence =>
      refine .of_parts (.bind (adds_spellType o _) (adds_pure _)) ?_ ?_
      · simp
      · simp [propertyText]

theorem adds_emitField (f : Field) : Adds .typeScript (emitField o f) () (fieldText o f) := by
  refine .of_parts (.bind (adds_push _) (.bind (adds_spellName o _ _)
    (.bind (adds_spellProperty o _) (adds_line _ _)))) ?_ ?_
  · simp [fieldText, String.append_assoc]
  · simp [fieldText]

theorem text_openRecord (name : String) :
    (openRecord o name).text =
      recordOpener o ((lexicon o).identifier .declaration name).text := by
  unfold openRecord recordOpener
  cases o.objectStyle with
  | typeLiteral => rfl
  | interface => rfl

theorem collisions_openRecord_eq (name : String) :
    (openRecord o name).collisions = ((lexicon o).identifier .declaration name).collisions := by
  unfold openRecord
  cases o.objectStyle with
  | typeLiteral => simp
  | interface => simp

theorem adds_emitRecord (r : Record) : Adds .typeScript (emitRecord o r) () (recordText o r) := by
  refine .of_parts (.bind (adds_push _) (.bind (adds_spellName o _ _) (.bind (adds_line _ _)
    (.bind (Adds.forM r.fields (adds_emitField o)) (adds_line _ _))))) ?_ ?_
  · simp [recordText, text_openRecord, String.append_assoc]
  · simp [recordText, collisions_openRecord_eq]

theorem adds_emitRawCase (sign : String) (c : RawCasePlan) (comma : String) :
    Adds .typeScript (emitRawCase o sign c comma) () (rawCaseText o sign c comma) := by
  refine .of_parts (.bind (adds_push _) (.bind (adds_spellName o _ _) (adds_line _ _))) ?_ ?_
  · simp [rawCaseText, String.append_assoc]
  · simp [rawCaseText]

theorem adds_emitRawCases (sign : String) (cases : List RawCasePlan) :
    Adds .typeScript (emitRawCases o sign cases) () (rawCasesText o sign cases) := by
  induction cases with
  | nil => exact adds_pure ()
  | cons c cases ih =>
      cases cases with
      | nil => exact adds_emitRawCase o sign c ""
      | cons next cases => exact (adds_emitRawCase o sign c ",").bind ih

/-- A constant object is followed by its type, which writes the name again without reporting it. -/
theorem adds_emitRawEnum (p : RawPlan) :
    Adds .typeScript (emitRawEnum o p) () (rawEnumText o p) := by
  obtain ⟨name, doc, form, cases⟩ := p
  let word := ((lexicon o).identifier .declaration name).collisions
  cases form with
  | native =>
      refine .of_parts (.bind (adds_push _) (.bind (adds_spellName o _ _) (.bind (adds_line _ _)
        (.bind (adds_emitRawCases o _ _) (adds_line _ _))))) ?_ ?_
      · simp [rawEnumText, String.append_assoc]
      · simp [rawEnumText]
  | constantSet =>
      refine .of_again (.bind (adds_push _) (.bind (adds_spellName o _ _) (.bind (adds_line _ _)
        (.bind (adds_emitRawCases o _ _) (.bind (adds_line _ _) (adds_line _ _)))))) ?_ ?_
          (?_ : word ++ (word ++ word) ⊆ _)
      · simp [rawEnumText, String.append_assoc]
      · simp [rawEnumText, word]
      · simp [word]

theorem adds_spellAlternative (c : UnionCase) :
    Adds .typeScript (spellAlternative o c) (alternativeText o c).text
      ⟨"", (alternativeText o c).collisions⟩ := by
  obtain ⟨name, payload, doc⟩ := c
  cases payload with
  | none => exact adds_pure _
  | some type =>
      refine .of_parts (.bind (adds_spellName o _ _) (.bind (adds_spellType o _)
        (adds_pure _))) ?_ ?_
      · simp
      · simp [alternativeText]

theorem adds_spellRemarked (c : UnionCase) :
    Adds .typeScript (spellRemarked o c) (inlineDoc c.doc ++ (alternativeText o c).text)
      ⟨"", (alternativeText o c).collisions⟩ := by
  refine .of_parts (.bind (adds_spellAlternative o c) (adds_pure _)) ?_ ?_
  · simp
  · simp

theorem adds_emitAlternative (c : UnionCase) :
    Adds .typeScript (emitAlternative o c) () (alternativeLine o c) := by
  refine .of_parts (.bind (adds_push _) (.bind (adds_spellAlternative o c) (adds_line _ _))) ?_ ?_
  · simp [alternativeLine, String.append_assoc]
  · simp [alternativeLine]

theorem text_alternativesLine (p : UnionPlan) :
    (alternativesLine o p).text = String.intercalate " | "
      (p.cases.map fun c => inlineDoc c.doc ++ (alternativeText o c).text) := by
  unfold alternativesLine
  rw [Fragment.text_join, List.map_map]
  rfl

theorem adds_emitUnion (p : UnionPlan) : Adds .typeScript (emitUnion o p) () (unionText o p) := by
  unfold emitUnion unionText
  dsimp only
  split
  · refine .of_parts (.bind (adds_push _) (.bind (adds_spellName o _ _) (adds_line _ _))) ?_ ?_
    · simp [String.append_assoc]
    · simp
  · split
    · refine .of_parts (.bind (adds_push _) (.bind (adds_spellName o _ _)
        (.bind (Adds.mapM_of_quiet p.cases (adds_spellRemarked o)) (adds_line _ _)))) ?_ ?_
      · simp [text_alternativesLine, String.append_assoc]
      · simp [alternativesLine, List.flatMap_map]
    · refine .of_parts (.bind (adds_push _) (.bind (adds_spellName o _ _) (.bind (adds_line _ _)
        (Adds.forM p.cases (adds_emitAlternative o))))) ?_ ?_
      · simp [String.append_assoc]
      · simp

/-- **Each emitter adds the text of its declaration.** -/
theorem adds_emit (r : Representation) :
    Adds .typeScript (emit o r) () (declarationText o r) := by
  rcases r with a | r | p | p
  · exact adds_emitAlias o a
  · exact adds_emitRecord o r
  · exact adds_emitRawEnum o p
  · exact adds_emitUnion o p

end TypeScript

/-! ## OpenAPI -/

namespace OpenApi

/-- A declaration. -/
def declarationText (o : OpenApiOptions) (r : Representation) : Fragment :=
  let (name, object) := declarationObject o r
  (Yaml.mapping [(name, object.toYaml)]).shiftedText 4

/-- **The emitter adds the text of its declaration.** -/
theorem adds_emit (o : OpenApiOptions) (r : Representation) :
    Adds .openApi (emit o r) () (declarationText o r) :=
  adds_push _

end OpenApi

end SchemaPress
