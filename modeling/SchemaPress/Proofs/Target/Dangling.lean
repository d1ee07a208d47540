import SchemaPress.Proofs.Target.Description

/-!
# References that lead nowhere

A reader of an interface description finds the references in a schema object by going through its
keywords: a reference itself, the items of an array, the properties, the alternatives, and what is
held or excluded. A property is a schema object whatever its name is.

A reference leads nowhere if the description has no schema object of its name. These references are
the mentions of names that the schema does not declare, in the same order, apart from names that the
table of primitives maps, which are not written as references (`OpenApi.dangling_eq_unresolved`).
-/

set_option autoImplicit false

namespace SchemaPress

/-! ## Finding references -/

namespace Yaml

mutual

/-- The targets of the references in a schema object, in the order of its text. -/
def refTargets : Yaml → List String
  | .mapping entries => keywordsTargets entries
  | _ => []

/-- The targets in the keywords of a schema object. -/
def keywordsTargets : List (String × Yaml) → List String
  | [] => []
  | (key, value) :: entries => keywordTargets key value ++ keywordsTargets entries

/-- The targets in the value of a keyword. -/
def keywordTargets (key : String) : Yaml → List String
  | .string target => if key = "$ref" then [target] else []
  | .mapping entries =>
      if key = "items" ∨ key = "not" then keywordsTargets entries
      else if key = "properties" then propertiesTargets entries
      else []
  | .sequence items => if key = "oneOf" ∨ key = "allOf" then listTargets items else []
  | .bool _ => []

/-- The targets in properties, each of which is a schema object. -/
def propertiesTargets : List (String × Yaml) → List String
  | [] => []
  | (_, value) :: entries => refTargets value ++ propertiesTargets entries

/-- The targets in a list of schema objects. -/
def listTargets : List Yaml → List String
  | [] => []
  | item :: items => refTargets item ++ listTargets items

end

theorem keywordsTargets_append (entries others : List (String × Yaml)) :
    keywordsTargets (entries ++ others) = keywordsTargets entries ++ keywordsTargets others := by
  induction entries with
  | nil => rfl
  | cons entry entries ih =>
      obtain ⟨key, value⟩ := entry
      simp only [List.cons_append, keywordsTargets, ih, List.append_assoc]

theorem propertiesTargets_eq (entries : List (String × Yaml)) :
    propertiesTargets entries = entries.flatMap fun entry => entry.2.refTargets := by
  induction entries with
  | nil => rfl
  | cons entry entries ih =>
      obtain ⟨key, value⟩ := entry
      simp only [propertiesTargets, List.flatMap_cons, ih]

theorem listTargets_eq (items : List Yaml) : listTargets items = items.flatMap refTargets := by
  induction items with
  | nil => rfl
  | cons item items ih => simp only [listTargets, List.flatMap_cons, ih]

end Yaml

namespace OpenApi

open Yaml SchemaObject

/-! ## References of schema objects -/

namespace SchemaObject

/-- The targets of the references in a schema object. -/
def targets (s : SchemaObject) : List String :=
  s.toYaml.refTargets

theorem keywordsTargets_textEntry (key : String) (other : key ≠ "$ref") (text : Option String) :
    keywordsTargets (textEntry key text) = [] := by
  cases text with
  | none => rfl
  | some text => simp only [textEntry, keywordsTargets, keywordTargets, other, ↓reduceIte,
      List.append_nil]

theorem keywordsTargets_reference (reference : Option String) :
    keywordsTargets (textEntry "$ref" reference) = reference.toList := by
  cases reference with
  | none => rfl
  | some target => simp only [textEntry, keywordsTargets, keywordTargets, ↓reduceIte,
      List.append_nil, Option.toList_some]

theorem keywordsTargets_nullable (nullable : Bool) :
    keywordsTargets (if nullable then [("nullable", .bool true)] else []) = [] := by
  cases nullable with
  | false => rfl
  | true => rfl

theorem listTargets_string (texts : List String) : listTargets (texts.map .string) = [] := by
  rw [listTargets_eq, List.flatMap_eq_nil_iff]
  intro item member
  obtain ⟨text, -, rfl⟩ := List.mem_map.mp member
  rfl

theorem keywordsTargets_textsEntry (key : String) (texts : List String) :
    keywordsTargets (textsEntry key texts) = [] := by
  cases texts with
  | nil => rfl
  | cons text texts =>
      simp only [textsEntry, keywordsTargets, keywordTargets, listTargets_string, ite_self,
        List.append_nil]

theorem keywordsTargets_objectEntry {key : String} (known : key = "items" ∨ key = "not")
    (s : Option SchemaObject) : keywordsTargets (objectEntry key s) = s.toList.flatMap targets := by
  cases s with
  | none => rfl
  | some s =>
      have inside : keywordTargets key s.toYaml = s.targets := by
        rw [targets, toYaml_eq, keywordTargets, if_pos known, refTargets]
      simp only [objectEntry, keywordsTargets, inside, Option.toList_some, List.flatMap_cons,
        List.flatMap_nil]

theorem keywordsTargets_propertiesEntry (properties : List (String × SchemaObject)) :
    keywordsTargets (propertiesEntry properties) = properties.flatMap fun p => p.2.targets := by
  cases properties with
  | nil => rfl
  | cons p properties =>
      have other : ¬ ("properties" = "items" ∨ "properties" = "not") := by decide
      rw [propertiesEntry_eq, if_neg (List.cons_ne_nil p properties), keywordsTargets,
        keywordTargets, if_neg other, if_pos rfl, propertiesTargets_eq, List.flatMap_map,
        keywordsTargets, List.append_nil]
      rfl

theorem keywordsTargets_objectsEntry {key : String} (known : key = "oneOf" ∨ key = "allOf")
    (objects : List SchemaObject) :
    keywordsTargets (objectsEntry key objects) = objects.flatMap targets := by
  cases objects with
  | nil => rfl
  | cons s objects =>
      rw [objectsEntry_eq, if_neg (List.cons_ne_nil s objects), keywordsTargets, keywordTargets,
        if_pos known, listTargets_eq, List.flatMap_map, keywordsTargets, List.append_nil]
      rfl

/-- **The references in a schema object** are its own and those of the schema objects in it. -/
theorem targets_eq (s : SchemaObject) :
    s.targets = s.reference.toList ++ s.items.toList.flatMap targets
      ++ (s.properties.flatMap fun p => p.2.targets) ++ s.oneOf.flatMap targets
      ++ s.allOf.flatMap targets ++ s.excluded.toList.flatMap targets := by
  rw [targets, toYaml_eq, refTargets]
  simp only [keywords, List.flatMap_cons, List.flatMap_nil, keywordsTargets_append,
    keywordsTargets_reference, keywordsTargets_nullable, keywordsTargets_propertiesEntry,
    keywordsTargets_textsEntry, keywordsTargets_objectEntry (.inl rfl),
    keywordsTargets_objectEntry (.inr rfl), keywordsTargets_objectsEntry (.inl rfl),
    keywordsTargets_objectsEntry (.inr rfl), keywordsTargets_textEntry "title" (by decide),
    keywordsTargets_textEntry "description" (by decide),
    keywordsTargets_textEntry "type" (by decide), keywordsTargets_textEntry "format" (by decide),
    List.nil_append, List.append_nil, List.append_assoc]

theorem targets_opened (s : SchemaObject) : s.opened.targets = s.targets := by
  unfold opened
  split
  · rfl
  · rw [targets_eq]
    simp

theorem targets_orNull (s : SchemaObject) : s.orNull.targets = s.targets := by
  rw [← targets_opened s, targets_eq s.orNull, targets_eq s.opened]
  rfl

theorem targets_annotate (s : SchemaObject) (title : Option String) (d : Doc) :
    (s.annotate title d).targets = s.targets := by
  unfold annotate
  split
  · rfl
  · rw [← targets_opened s, targets_eq, targets_eq s.opened]

theorem targets_toDeclaration (name : String) :
    (toDeclaration name).targets = [schemaPath ++ name] :=
  targets_eq _

theorem targets_ofNative (native : String) : (ofNative native).targets = [] := by
  dsimp only [ofNative]
  split
  · exact targets_eq _
  · exact targets_eq _

end SchemaObject

/-! ## References of types and declarations -/

section Mentions

variable (o : OpenApiOptions)

/-- Whether a named type is written as a reference: the table does not map it. -/
def refersTo (name : String) : Bool :=
  ((lexicon o).natives.get? name).isNone

/-- The references that are written for names. -/
def referencesTo (names : List String) : List String :=
  (names.filter (refersTo o)).map (schemaPath ++ ·)

theorem referencesTo_flatMap {α : Type} (names : α → List String) (as : List α) :
    referencesTo o (as.flatMap names) = as.flatMap fun a => referencesTo o (names a) := by
  simp only [referencesTo, List.filter_flatMap, List.map_flatMap]

/-- A type is written with the references to the named types in it. -/
theorem targets_typeObject (type : TypeRef) :
    (typeObject o type).targets = referencesTo o type.names := by
  induction type with
  | primitive name => exact targets_ofNative _
  | named name =>
      unfold typeObject
      cases mapped : (lexicon o).natives.get? name with
      | none =>
          have written : refersTo o name = true := by
            simp only [refersTo, mapped, Option.isNone_none]
          simp [targets_toDeclaration, referencesTo, TypeRef.names, written]
      | some native =>
          have skipped : refersTo o name = false := by
            simp only [refersTo, mapped, Option.isNone_some]
          simp [targets_ofNative, referencesTo, TypeRef.names, skipped]
  | optional inner ih => exact (targets_orNull _).trans ih
  | sequence inner ih =>
      change SchemaObject.targets { type := some "array", items := some (typeObject o inner) } = _
      rw [targets_eq, TypeRef.names]
      simpa using ih

theorem names_presentType (type : TypeRef) : (presentType type).names = type.names := by
  cases type with
  | primitive name => rfl
  | named name => rfl
  | optional inner => rfl
  | sequence inner => rfl

theorem targets_recordObject (r : Record) :
    (recordObject o r).targets = r.fields.flatMap fun f => referencesTo o f.type.names := by
  rw [targets_eq]
  simp only [recordObject, Option.toList_none, List.flatMap_nil, List.nil_append, List.append_nil,
    List.flatMap_map, targets_annotate, targets_typeObject, names_presentType]

theorem targets_rawEnumObject (p : RawPlan) : (rawEnumObject p).targets = [] := by
  rw [targets_eq]
  rfl

/-- A case is written with the references of its payload, if it has one. -/
theorem targets_alternative (c : UnionCase) :
    (alternative o c).targets = c.payload.toList.flatMap fun type => referencesTo o type.names := by
  unfold alternative
  cases c.payload with
  | none => exact targets_eq _
  | some type =>
      rw [targets_eq]
      simp [targets_typeObject]

theorem targets_unionObject (p : UnionPlan) :
    (unionObject o p).targets =
      p.cases.flatMap fun c => c.payload.toList.flatMap fun type => referencesTo o type.names := by
  -- Without cases the union excludes the schema object that says nothing.
  have excluded : (if p.cases.isEmpty then some ({} : SchemaObject) else none).toList.flatMap
      targets = [] := by
    split
    · exact (List.append_nil _).trans (targets_eq _)
    · rfl
  rw [targets_eq]
  simp only [unionObject, Option.toList_none, List.flatMap_nil, List.nil_append, List.append_nil,
    List.flatMap_map, targets_alternative, excluded]

/-- **A declaration is written with the references to the names that it mentions**, in order. -/
theorem targets_declarationObject (d : Declaration) :
    (declarationObject o (d.represent capabilities)).2.targets =
      d.mentions.flatMap fun m => referencesTo o m.2.names := by
  rcases d with a | r | ⟨name, cases | cases, doc⟩
  · change ((typeObject o a.target).annotate (some a.name) a.doc).targets = _
    rw [targets_annotate, targets_typeObject]
    exact (List.append_nil _).symm
  · change (recordObject o r).targets = _
    rw [targets_recordObject, Declaration.mentions, List.flatMap_map]
  · exact targets_rawEnumObject _
  · change (unionObject o _).targets = _
    rw [targets_unionObject, Declaration.mentions, List.flatMap_assoc]
    simp only [List.flatMap_map]

end Mentions

/-! ## References that lead nowhere -/

namespace Description

/-- Whether a reference leads to one of the schema objects. -/
def resolves (d : Description) (target : String) : Bool :=
  d.entries.any fun entry => schemaPath ++ entry.1 == target

/-- The references that lead to none of the schema objects, in the order of the text. -/
def dangling (d : Description) : List String :=
  (d.entries.flatMap fun entry => entry.2.refTargets).filter fun target => !d.resolves target

end Description

theorem fst_declarationObject (o : OpenApiOptions) (d : Declaration) :
    (declarationObject o (d.represent capabilities)).1 = d.name := by
  rcases d with a | r | ⟨name, cases | cases, doc⟩
  · rfl
  · rfl
  · rfl
  · rfl

/-- A reference to a name leads to a schema object exactly if the schema declares the name. -/
theorem resolves_schemaPath (o : OpenApiOptions) (s : Schema) (name : String) :
    (description o s).resolves (schemaPath ++ name) = s.names.contains name := by
  have path : ∀ other : String, (schemaPath ++ other == schemaPath ++ name) = (name == other) := by
    intro other
    rw [Bool.eq_iff_iff, beq_iff_eq, beq_iff_eq, ← String.toList_inj, String.toList_append,
      String.toList_append, List.append_cancel_left_eq, String.toList_inj, eq_comm]
  simp only [Description.resolves, Description.entries, description, List.map_map, List.any_map,
    Function.comp_def, fst_declarationObject, path, Schema.names, List.contains_eq_any_beq]

/-- The text of a description is made of its header and the YAML forms of its schema objects. -/
theorem text_schemaText_eq (o : OpenApiOptions) (s : Schema) :
    ((Backend.openApi o).schemaText s).text = header o s ++ String.join
      ((description o s).entries.map fun entry => (Yaml.mapping [entry]).shiftedText 4) := by
  change header o s ++ (Fragment.join "" _).text = _
  rw [Fragment.text_join_empty, Description.entries, description, List.map_map, List.map_map,
    List.map_map]
  rfl

/-- **The references that lead nowhere are the unresolved ones.** In the schema objects that an
interface description is made of, with any options, the references that lead to none of them are,
in order, those to the names that the schema mentions and does not declare, without the names that
the table of primitives maps. -/
theorem dangling_eq_unresolved (o : OpenApiOptions) (s : Schema) :
    ((Backend.openApi o).render s).text =
        Text.endWithBreak (header o s ++ String.join
          ((description o s).entries.map fun entry => (Yaml.mapping [entry]).shiftedText 4)) ∧
      (description o s).dangling =
        ((s.unresolved.map fun r => r.name).filter fun name =>
          ((lexicon o).natives.get? name).isNone).map ("#/components/schemas/" ++ ·) := by
  refine ⟨(Backend.text_render _ s).trans (congrArg _ (text_schemaText_eq o s)), ?_⟩
  have written : ((description o s).entries.flatMap fun entry => entry.2.refTargets) =
      referencesTo o (s.declarations.flatMap fun d => d.mentions.flatMap fun m => m.2.names) := by
    simp only [Description.entries, description, List.map_map, List.flatMap_map,
      referencesTo_flatMap]
    exact List.flatMap_congr fun d _ => targets_declarationObject o d
  have undeclared : (s.unresolved.map fun r => r.name) =
      (s.declarations.flatMap fun d => d.mentions.flatMap fun m => m.2.names).filter
        fun name => !s.names.contains name := by
    simp only [Schema.unresolved, List.map_flatMap, List.filter_flatMap, List.map_map,
      Function.comp_def, List.map_id']
  rw [Description.dangling, written, undeclared, referencesTo, List.filter_map, List.filter_filter,
    List.filter_filter]
  simp only [Function.comp_def, resolves_schemaPath, refersTo, Bool.and_comm]
  rfl

end OpenApi

end SchemaPress
