import Mathlib.Data.List.Basic
import SchemaPress.Target.OpenApi

/-!
# Schema objects and their YAML form

The YAML form of a schema object has its keywords in a fixed order, and a keyword without contents
is left out. So what is written for a keyword is found by its name, and a schema object can be told
from its YAML form (`SchemaObject.toYaml_injective`).
-/

set_option autoImplicit false

namespace SchemaPress.OpenApi

/-! ## Groups of entries -/

/-- Entries in groups, each of which holds only entries of its own key. -/
def Grouped (groups : List (String × List (String × Yaml))) : Prop :=
  (groups.map Prod.fst).Nodup ∧ ∀ group ∈ groups, ∀ entry ∈ group.2, entry.1 = group.1

theorem Grouped.tail {group : String × List (String × Yaml)}
    {groups : List (String × List (String × Yaml))} (grouped : Grouped (group :: groups)) :
    Grouped groups := by
  obtain ⟨distinct, own⟩ := grouped
  exact ⟨(List.nodup_cons.mp distinct).2, fun g member => own g (List.mem_cons_of_mem _ member)⟩

/-- The entries of the first key are those of the first group, and the other entries those of the
other groups. -/
theorem Grouped.filter_head {key : String} {entries : List (String × Yaml)}
    {groups : List (String × List (String × Yaml))} (grouped : Grouped ((key, entries) :: groups)) :
    (entries ++ groups.flatMap Prod.snd).filter (·.1 == key) = entries ∧
      (entries ++ groups.flatMap Prod.snd).filter (·.1 != key) = groups.flatMap Prod.snd := by
  obtain ⟨distinct, own⟩ := grouped
  have here : ∀ entry ∈ entries, entry.1 = key := own (key, entries) List.mem_cons_self
  have elsewhere : ∀ entry ∈ groups.flatMap Prod.snd, entry.1 ≠ key := by
    intro entry member
    obtain ⟨group, inside, found⟩ := List.mem_flatMap.mp member
    rw [own group (List.mem_cons_of_mem _ inside) entry found]
    have listed : group.1 ∈ groups.map Prod.fst := List.mem_map_of_mem inside
    exact fun same => (List.nodup_cons.mp distinct).1 (same ▸ listed)
  constructor
  · rw [List.filter_append, List.filter_eq_self.mpr (by simpa using here),
      List.filter_eq_nil_iff.mpr (by simpa using elsewhere), List.append_nil]
  · rw [List.filter_append, List.filter_eq_nil_iff.mpr (by simpa using here),
      List.filter_eq_self.mpr (by simpa using elsewhere), List.nil_append]

/-- The entries of a key are those of its group. -/
theorem Grouped.filter_of_mem {key : String} {entries : List (String × Yaml)}
    {groups : List (String × List (String × Yaml))} (grouped : Grouped groups)
    (member : (key, entries) ∈ groups) :
    (groups.flatMap Prod.snd).filter (·.1 == key) = entries := by
  induction groups with
  | nil => simp at member
  | cons group groups ih =>
      rw [List.flatMap_cons]
      rcases List.mem_cons.mp member with rfl | later
      · exact grouped.filter_head.1
      · have other : group.1 ≠ key := fun same =>
          (List.nodup_cons.mp grouped.1).1 (same ▸ List.mem_map_of_mem later)
        have none_here : group.2.filter (·.1 == key) = [] := by
          rw [List.filter_eq_nil_iff]
          intro entry inside
          simpa [grouped.2 group List.mem_cons_self entry inside] using other
        rw [List.filter_append, none_here, List.nil_append, ih grouped.tail later]

/-- Groups of the same keys can be told from their entries. -/
theorem Grouped.eq_of_flatMap_eq : ∀ {groups others : List (String × List (String × Yaml))},
    Grouped groups → Grouped others → groups.map Prod.fst = others.map Prod.fst →
      groups.flatMap Prod.snd = others.flatMap Prod.snd → groups = others
  | [], [], _, _, _, _ => rfl
  | [], _ :: _, _, _, keys, _ => by simp at keys
  | _ :: _, [], _, _, keys, _ => by simp at keys
  | (key, entries) :: groups, (key', entries') :: others, grouped, groupedOthers, keys, same => by
      rw [List.map_cons, List.map_cons, List.cons.injEq] at keys
      obtain ⟨rfl, keys⟩ := keys
      rw [List.flatMap_cons, List.flatMap_cons] at same
      have first := grouped.filter_head
      have firstOthers := groupedOthers.filter_head
      rw [same] at first
      have heads : entries = entries' := first.1.symm.trans firstOthers.1
      have tails : groups.flatMap Prod.snd = others.flatMap Prod.snd :=
        first.2.symm.trans firstOthers.2
      rw [heads, eq_of_flatMap_eq grouped.tail groupedOthers.tail keys tails]

namespace SchemaObject

/-! ## Keywords -/

/-- The entries of each keyword. -/
def keywords (s : SchemaObject) : List (String × List (String × Yaml)) :=
  [("$ref", textEntry "$ref" s.reference), ("title", textEntry "title" s.title),
   ("description", textEntry "description" s.description), ("type", textEntry "type" s.type),
   ("format", textEntry "format" s.format),
   ("nullable", if s.nullable then [("nullable", .bool true)] else []),
   ("items", objectEntry "items" s.items), ("properties", propertiesEntry s.properties),
   ("required", textsEntry "required" s.required), ("enum", textsEntry "enum" s.values),
   ("x-enum-varnames", textsEntry "x-enum-varnames" s.valueNames),
   ("x-enum-descriptions", textsEntry "x-enum-descriptions" s.valueDescriptions),
   ("oneOf", objectsEntry "oneOf" s.oneOf), ("allOf", objectsEntry "allOf" s.allOf),
   ("not", objectEntry "not" s.excluded)]

theorem toYaml_eq (s : SchemaObject) : s.toYaml = .mapping (s.keywords.flatMap Prod.snd) := by
  cases s
  simp [toYaml, keywords]

theorem keywords_names (s t : SchemaObject) :
    s.keywords.map Prod.fst = t.keywords.map Prod.fst := rfl

section Keys

variable {key : String} {entry : String × Yaml}

theorem fst_of_mem_textEntry {text : Option String} (member : entry ∈ textEntry key text) :
    entry.1 = key := by
  cases text <;> simp_all [textEntry]

theorem fst_of_mem_textsEntry {texts : List String} (member : entry ∈ textsEntry key texts) :
    entry.1 = key := by
  cases texts <;> simp_all [textsEntry]

theorem fst_of_mem_objectEntry {s : Option SchemaObject} (member : entry ∈ objectEntry key s) :
    entry.1 = key := by
  cases s <;> simp_all [objectEntry]

theorem fst_of_mem_objectsEntry {objects : List SchemaObject}
    (member : entry ∈ objectsEntry key objects) : entry.1 = key := by
  cases objects <;> simp_all [objectsEntry]

theorem fst_of_mem_propertiesEntry {properties : List (String × SchemaObject)}
    (member : entry ∈ propertiesEntry properties) : entry.1 = "properties" := by
  cases properties <;> simp_all [propertiesEntry]

end Keys

theorem grouped_keywords (s : SchemaObject) : Grouped s.keywords := by
  refine ⟨by simp [keywords], ?_⟩
  simp only [keywords, List.forall_mem_cons]
  refine ⟨fun _ => fst_of_mem_textEntry, fun _ => fst_of_mem_textEntry,
    fun _ => fst_of_mem_textEntry, fun _ => fst_of_mem_textEntry, fun _ => fst_of_mem_textEntry, ?_,
    fun _ => fst_of_mem_objectEntry, fun _ => fst_of_mem_propertiesEntry,
    fun _ => fst_of_mem_textsEntry, fun _ => fst_of_mem_textsEntry,
    fun _ => fst_of_mem_textsEntry, fun _ => fst_of_mem_textsEntry,
    fun _ => fst_of_mem_objectsEntry, fun _ => fst_of_mem_objectsEntry,
    fun _ => fst_of_mem_objectEntry, by simp⟩
  cases s.nullable <;> simp

/-- **What is written for each keyword can be told from the YAML form.** -/
theorem keywords_eq_of_toYaml_eq {s t : SchemaObject} (same : s.toYaml = t.toYaml) :
    s.keywords = t.keywords := by
  rw [toYaml_eq, toYaml_eq, Yaml.mapping.injEq] at same
  exact (grouped_keywords s).eq_of_flatMap_eq (grouped_keywords t) (keywords_names s t) same

theorem properties_mem_keywords (s : SchemaObject) :
    ("properties", propertiesEntry s.properties) ∈ s.keywords := by
  simp [keywords]

theorem values_mem_keywords (s : SchemaObject) :
    ("enum", textsEntry "enum" s.values) ∈ s.keywords := by
  simp [keywords]

theorem oneOf_mem_keywords (s : SchemaObject) :
    ("oneOf", objectsEntry "oneOf" s.oneOf) ∈ s.keywords := by
  simp [keywords]

theorem filter_of_mem_keywords {s : SchemaObject} {key : String} {entries : List (String × Yaml)}
    (member : (key, entries) ∈ s.keywords) :
    (s.keywords.flatMap Prod.snd).filter (·.1 == key) = entries :=
  (grouped_keywords s).filter_of_mem member

/-! ## Lists of objects -/

theorem propertiesToYaml_eq (properties : List (String × SchemaObject)) :
    propertiesToYaml properties = properties.map fun p => (p.1, p.2.toYaml) := by
  induction properties with
  | nil => rfl
  | cons p properties ih => simp [propertiesToYaml, ih]

theorem listToYaml_eq (objects : List SchemaObject) :
    listToYaml objects = objects.map toYaml := by
  induction objects with
  | nil => rfl
  | cons s objects ih => simp [listToYaml, ih]

theorem propertiesEntry_eq (properties : List (String × SchemaObject)) :
    propertiesEntry properties = if properties = [] then []
      else [("properties", .mapping (properties.map fun p => (p.1, p.2.toYaml)))] := by
  cases properties with
  | nil => rfl
  | cons p properties => simp [propertiesEntry, propertiesToYaml_eq]

theorem objectsEntry_eq (key : String) (objects : List SchemaObject) :
    objectsEntry key objects =
      if objects = [] then [] else [(key, .sequence (objects.map toYaml))] := by
  cases objects with
  | nil => rfl
  | cons s objects => simp [objectsEntry, listToYaml_eq]

/-! ## Injectivity -/

theorem textEntry_injective {key : String} {text other : Option String}
    (same : textEntry key text = textEntry key other) : text = other := by
  cases text <;> cases other <;> simp_all [textEntry]

theorem textsEntry_injective {key : String} {texts others : List String}
    (same : textsEntry key texts = textsEntry key others) : texts = others := by
  cases texts with
  | nil => cases others <;> simp_all [textsEntry]
  | cons s texts =>
      cases others with
      | nil => simp [textsEntry] at same
      | cons t others =>
          simp only [textsEntry, List.cons.injEq, Prod.mk.injEq, true_and, and_true,
            Yaml.sequence.injEq] at same
          exact (List.map_inj_right fun _ _ => Yaml.string.inj).mp same

theorem nullableEntry_injective {nullable other : Bool}
    (same : (if nullable then [("nullable", Yaml.bool true)] else []) =
      if other then [("nullable", Yaml.bool true)] else []) : nullable = other := by
  cases nullable <;> cases other <;> simp_all

mutual

/-- **A schema object can be told from its YAML form.** -/
theorem toYaml_injective : ∀ {s t : SchemaObject}, s.toYaml = t.toYaml → s = t
  | ⟨reference, title, description, type, format, nullable, items, properties, required, values,
      valueNames, valueDescriptions, oneOf, allOf, excluded⟩, t, same => by
      have keywords := keywords_eq_of_toYaml_eq same
      cases t
      simp only [SchemaObject.keywords, List.cons.injEq, Prod.mk.injEq, true_and, and_true]
        at keywords
      obtain ⟨sameReference, sameTitle, sameDescription, sameType, sameFormat, sameNullable,
        sameItems, sameProperties, sameRequired, sameValues, sameNames, sameDescriptions, sameOneOf,
        sameAllOf, sameExcluded⟩ := keywords
      rw [SchemaObject.mk.injEq]
      exact ⟨textEntry_injective sameReference, textEntry_injective sameTitle,
        textEntry_injective sameDescription, textEntry_injective sameType,
        textEntry_injective sameFormat, nullableEntry_injective sameNullable,
        objectEntry_injective sameItems, propertiesEntry_injective sameProperties,
        textsEntry_injective sameRequired, textsEntry_injective sameValues,
        textsEntry_injective sameNames, textsEntry_injective sameDescriptions,
        objectsEntry_injective sameOneOf, objectsEntry_injective sameAllOf,
        objectEntry_injective sameExcluded⟩
termination_by structural s => s

theorem objectEntry_injective {key : String} : ∀ {s t : Option SchemaObject},
    objectEntry key s = objectEntry key t → s = t
  | none, none, _ => rfl
  | none, some _, same => by simp [objectEntry] at same
  | some _, none, same => by simp [objectEntry] at same
  | some s, some t, same => by
      simp only [objectEntry, List.cons.injEq, Prod.mk.injEq, true_and, and_true] at same
      rw [toYaml_injective same]
termination_by structural s => s

theorem objectsEntry_injective {key : String} : ∀ {objects others : List SchemaObject},
    objectsEntry key objects = objectsEntry key others → objects = others
  | [], [], _ => rfl
  | [], _ :: _, same => by simp [objectsEntry] at same
  | _ :: _, [], same => by simp [objectsEntry] at same
  | s :: objects, t :: others, same => by
      simp only [objectsEntry, List.cons.injEq, Prod.mk.injEq, true_and, and_true,
        Yaml.sequence.injEq] at same
      rw [toYaml_injective same.1, listToYaml_injective same.2]
termination_by structural s => s

theorem listToYaml_injective : ∀ {objects others : List SchemaObject},
    listToYaml objects = listToYaml others → objects = others
  | [], [], _ => rfl
  | [], _ :: _, same => by simp [listToYaml] at same
  | _ :: _, [], same => by simp [listToYaml] at same
  | s :: objects, t :: others, same => by
      simp only [listToYaml, List.cons.injEq] at same
      rw [toYaml_injective same.1, listToYaml_injective same.2]
termination_by structural s => s

theorem propertiesEntry_injective : ∀ {properties others : List (String × SchemaObject)},
    propertiesEntry properties = propertiesEntry others → properties = others
  | [], [], _ => rfl
  | [], (_, _) :: _, same => by simp [propertiesEntry] at same
  | (_, _) :: _, [], same => by simp [propertiesEntry] at same
  | (name, s) :: properties, (name', t) :: others, same => by
      simp only [propertiesEntry, List.cons.injEq, Prod.mk.injEq, true_and, and_true,
        Yaml.mapping.injEq] at same
      rw [same.1.1, toYaml_injective same.1.2, propertiesToYaml_injective same.2]
termination_by structural s => s

theorem propertiesToYaml_injective : ∀ {properties others : List (String × SchemaObject)},
    propertiesToYaml properties = propertiesToYaml others → properties = others
  | [], [], _ => rfl
  | [], (_, _) :: _, same => by simp [propertiesToYaml] at same
  | (_, _) :: _, [], same => by simp [propertiesToYaml] at same
  | (name, s) :: properties, (name', t) :: others, same => by
      simp only [propertiesToYaml, List.cons.injEq, Prod.mk.injEq] at same
      rw [same.1.1, toYaml_injective same.1.2, propertiesToYaml_injective same.2]
termination_by structural s => s

end

end SchemaObject

end SchemaPress.OpenApi
