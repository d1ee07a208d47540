import SchemaPress.Proofs.Target.FieldLine
import SchemaPress.Proofs.Target.SchemaObject

/-!
# The fields of a record in an interface description

The text of a record in an interface description is read as a value after each line has been moved
back to the left. The properties of this value are the fields, and a field may be absent if it is
not in the list of the required ones.

Moving a text to the right keeps it as long as its last string is no block that ends with a
separator (`Yaml.Closed`). The last string of a record is the name of a field, of a type or of a
format, or a reference, so the text of a record can be read if these are names
(`OpenApi.readObject_record`).
-/

set_option autoImplicit false

namespace SchemaPress

open Text (Word split unlines split_unlines_append)

/-! ## Moving back to the left -/

/-- A text whose lines have been moved to the left. -/
def Text.unindent (n : Nat) (cs : List Char) : List Char :=
  List.intercalate ['\n'] ((split '\n' cs).map (List.drop n))

theorem Text.intercalate_concat_nil (lines : List (List Char)) :
    List.intercalate ['\n'] (lines ++ [[]]) = unlines lines := by
  induction lines with
  | nil => rfl
  | cons line lines ih =>
      have filled : lines ++ [[]] ≠ [] := by simp
      rw [List.cons_append, List.intercalate_cons_of_ne_nil filled, ih, unlines_cons,
        List.append_assoc, List.singleton_append]

theorem Yaml.drop_indented (n : Nat) (line : List Char) : (indented n line).drop n = line := by
  unfold indented
  split
  · rename_i empty
    rw [List.isEmpty_iff.mp empty, List.drop_nil]
  · rw [List.drop_left' (List.length_replicate ..)]

/-- Lines that have been moved to the right and back are the same. -/
theorem Text.unindent_unlines (n : Nat) {lines : List (List Char)}
    (clean : ∀ line ∈ lines, '\n' ∉ line) :
    unindent n (unlines (lines.map (Yaml.indented n))) = unlines lines := by
  have moved : ∀ line ∈ lines.map (Yaml.indented n), '\n' ∉ line := by
    rw [List.forall_mem_map]
    exact fun line member => Yaml.no_feed_indented (clean line member)
  have cut := split_unlines_append moved List.not_mem_nil
  have back : (List.drop n ∘ Yaml.indented n) = id := funext (Yaml.drop_indented n)
  rw [List.append_nil] at cut
  unfold unindent
  rw [cut, List.map_append, List.map_map, back, List.map_id, List.map_singleton, List.drop_nil,
    intercalate_concat_nil]

/-! ## Last strings -/

namespace Yaml

theorem closed_of_not_mem {s : String} (line : '\u2028' ∉ s.toList)
    (paragraph : '\u2029' ∉ s.toList) : Closed s :=
  fun _ => ⟨fun last => line (List.mem_of_getLast? last),
    fun last => paragraph (List.mem_of_getLast? last)⟩

theorem exists_of_mem_closingItem {s : String} {items : List Yaml} (last : s ∈ closingItem items) :
    ∃ item ∈ items, s ∈ closing item := by
  induction items with
  | nil => cases last
  | cons item items ih =>
      cases items with
      | nil => exact ⟨item, List.mem_cons_self, last⟩
      | cons next items =>
          obtain ⟨found, member, ends⟩ := ih last
          exact ⟨found, List.mem_cons_of_mem _ member, ends⟩

theorem exists_of_mem_closingEntry {s : String} {entries : List (String × Yaml)}
    (last : s ∈ closingEntry entries) : ∃ entry ∈ entries, s ∈ closing entry.2 := by
  induction entries with
  | nil => cases last
  | cons entry entries ih =>
      cases entries with
      | nil => exact ⟨entry, List.mem_cons_self, last⟩
      | cons next entries =>
          obtain ⟨found, member, ends⟩ := ih last
          exact ⟨found, List.mem_cons_of_mem _ member, ends⟩

/-- Entries end as the last ones of them do. -/
theorem closingEntry_append (upper : List (String × Yaml)) {lower : List (String × Yaml)}
    (filled : lower ≠ []) : closingEntry (upper ++ lower) = closingEntry lower := by
  induction upper with
  | nil => rfl
  | cons entry upper ih =>
      obtain ⟨next, others, rest⟩ : ∃ next others, upper ++ lower = next :: others :=
        List.exists_cons_of_ne_nil (List.append_ne_nil_of_right_ne_nil upper filled)
      rw [List.cons_append, rest, closingEntry, ← rest, ih]

end Yaml

namespace OpenApi

open Yaml SchemaObject

/-! ## The end of a schema object -/

namespace SchemaObject

/-- The entries of a schema object behind its title and description. -/
def back (s : SchemaObject) : List (String × Yaml) :=
  (s.keywords.drop 3).flatMap Prod.snd

/-- Entries that each end with a closed string, or with none. -/
def ClosedEntries (entries : List (String × Yaml)) : Prop :=
  ∀ entry ∈ entries, ∀ text ∈ closing entry.2, Closed text

/-- A schema object that ends with a closed string, whatever its title and description are. Only a
reference has nothing behind them. -/
structure Sealed (s : SchemaObject) : Prop where
  behind : s.reference = none → s.back ≠ [] ∧ ClosedEntries s.back
  closed : ∀ text ∈ closing s.toYaml, Closed text

/-- A schema object ends as the entries behind its description do. -/
theorem Sealed.of_back {s : SchemaObject} (filled : s.back ≠ []) (closed : ClosedEntries s.back) :
    s.Sealed := by
  refine ⟨fun _ => ⟨filled, closed⟩, ?_⟩
  intro text last
  have whole : s.toYaml = .mapping ((s.keywords.take 3).flatMap Prod.snd ++ s.back) := by
    rw [toYaml_eq, back, ← List.flatMap_append, List.take_append_drop]
  rw [whole, closing, closingEntry_append _ filled] at last
  obtain ⟨entry, member, final⟩ := exists_of_mem_closingEntry last
  exact closed entry member text final

/-- A schema object that is put inside another one keeps its end. -/
theorem Sealed.closedEntries_allOf {s : SchemaObject} (ends : s.Sealed) :
    ClosedEntries [("nullable", .bool true), ("allOf", .sequence [s.toYaml])] := by
  unfold ClosedEntries
  simp only [List.forall_mem_cons]
  exact ⟨fun _ none => (by cases none), ends.closed, fun _ none => absurd none List.not_mem_nil⟩

theorem Sealed.orNull {s : SchemaObject} (ends : s.Sealed) : s.orNull.Sealed := by
  unfold SchemaObject.orNull opened
  cases target : s.reference with
  | some path => exact .of_back (List.cons_ne_nil _ _) ends.closedEntries_allOf
  | none =>
      obtain ⟨-, closed⟩ := ends.behind target
      -- Nothing but the keyword for nothing is added, and it ends with no string.
      let lower := (s.keywords.drop 6).flatMap Prod.snd
      have old : s.back = textEntry "type" s.type ++ (textEntry "format" s.format ++
          ((if s.nullable then [("nullable", .bool true)] else []) ++ lower)) := rfl
      have new : ({ s with nullable := true } : SchemaObject).back =
          textEntry "type" s.type ++ (textEntry "format" s.format ++
            (("nullable", .bool true) :: lower)) := rfl
      change ({ s with nullable := true } : SchemaObject).Sealed
      refine .of_back (by simp [new]) ?_
      intro entry member
      rw [new, List.mem_append, List.mem_append, List.mem_cons] at member
      rcases member with type | format | rfl | behind
      · exact closed entry (old ▸ List.mem_append_left _ type)
      · exact closed entry (old ▸ List.mem_append_right _ (List.mem_append_left _ format))
      · exact fun _ none => by cases none
      · exact closed entry (old ▸ List.mem_append_right _ (List.mem_append_right _
          (List.mem_append_right _ behind)))

theorem Sealed.annotate {s : SchemaObject} (ends : s.Sealed) (d : Doc) :
    (s.annotate none d).Sealed := by
  unfold SchemaObject.annotate opened
  split
  · exact ends
  · cases target : s.reference with
    | some path =>
        refine .of_back (List.cons_ne_nil _ _) ?_
        exact fun entry member =>
          ends.closedEntries_allOf entry (List.mem_cons_of_mem _ member)
    | none =>
        obtain ⟨filled, closed⟩ := ends.behind target
        exact .of_back filled closed

end SchemaObject

theorem textsEntry_eq (key : String) (texts : List String) :
    textsEntry key texts =
      if texts = [] then [] else [(key, .sequence (texts.map Yaml.string))] := by
  cases texts <;> rfl

theorem required_mem_keywords (s : SchemaObject) :
    ("required", textsEntry "required" s.required) ∈ s.keywords := by
  simp [keywords]

theorem closed_of_typeChars {s : String} (chars : ∀ c ∈ s.toList, isTypeChar c = true) :
    Closed s :=
  closed_of_not_mem (fun inside => absurd (chars _ inside) (by decide))
    (fun inside => absurd (chars _ inside) (by decide))

theorem sealed_ofNative {native : String} (chars : ∀ c ∈ native.toList, isTypeChar c = true) :
    (ofNative native).Sealed := by
  have front : Closed (String.ofList (native.toList.takeWhile (· ≠ ':'))) := by
    refine closed_of_typeChars fun c inside => chars c ?_
    rw [String.toList_ofList] at inside
    exact List.takeWhile_subset _ inside
  dsimp only [ofNative]
  split
  · refine .of_back (List.cons_ne_nil _ _) ?_
    rintro entry member text last
    obtain rfl := List.mem_singleton.mp member
    obtain rfl := Option.some.inj last
    exact front
  · rename_i colon format cut
    have behind : Closed (String.ofList format) := by
      refine closed_of_typeChars fun c inside => chars c ?_
      rw [String.toList_ofList] at inside
      exact (List.dropWhile_sublist _).subset (cut ▸ List.mem_cons_of_mem _ inside)
    refine .of_back (List.cons_ne_nil _ _) ?_
    rintro entry member text last
    rcases List.mem_cons.mp member with rfl | other
    · obtain rfl := Option.some.inj last
      exact front
    · obtain rfl := List.mem_singleton.mp other
      obtain rfl := Option.some.inj last
      exact behind

theorem sealed_toDeclaration {name : String} (chars : ∀ c ∈ name.toList, isTypeChar c = true) :
    (toDeclaration name).Sealed := by
  have apart : ∀ c, isTypeChar c = false → c ∉ schemaPath.toList →
      c ∉ (schemaPath ++ name).toList := by
    intro c other free inside
    rw [String.toList_append, List.mem_append] at inside
    rcases inside with path | own
    · exact free path
    · rw [chars c own] at other
      cases other
  have single : closing (toDeclaration name).toYaml = some (schemaPath ++ name) := by
    unfold toDeclaration
    rw [toYaml_eq]
    rfl
  constructor
  · intro absent
    unfold toDeclaration at absent
    cases absent
  · intro text last
    rw [single] at last
    obtain rfl := Option.some.inj last
    exact closed_of_not_mem (apart _ (by decide) (by decide)) (apart _ (by decide) (by decide))

/-- The schema object of a type ends with the name of a type or of a format, or with a reference. -/
theorem sealed_typeObject {o : OpenApiOptions} {type : TypeRef}
    (names : (lexicon o).Names type) : (typeObject o type).Sealed := by
  induction type with
  | primitive name => exact sealed_ofNative names
  | named name =>
      unfold Lexicon.Names Lexicon.token Lexicon.reference at names
      unfold typeObject
      split
      · rename_i native mapped
        rw [mapped] at names
        exact sealed_ofNative names
      · rename_i unmapped
        rw [unmapped] at names
        exact sealed_toDeclaration names
  | optional inner ih => exact (ih names).orNull
  | sequence inner ih =>
      refine .of_back (List.cons_ne_nil _ _) ?_
      rintro entry member text last
      rcases List.mem_cons.mp member with rfl | other
      · obtain rfl := Option.some.inj last
        exact closed_of_typeChars (List.all_eq_true.mp (by decide))
      · obtain rfl := List.mem_singleton.mp other
        exact (ih names).closed text last

/-! ## Records -/

/-- The schema object of a record ends with the name of a field, or as that of a type does. -/
theorem closed_recordObject {o : OpenApiOptions} {r : Record}
    (words : ∀ f ∈ r.fields, Word f.name) (names : ∀ f ∈ r.fields, (lexicon o).Names f.type) :
    ∀ text ∈ closing (recordObject o r).toYaml, Closed text := by
  have back : (recordObject o r).back = ("type", .string "object") ::
      (propertiesEntry (recordObject o r).properties ++
        (textsEntry "required" (recordObject o r).required ++ [])) := rfl
  have filled : (recordObject o r).back ≠ [] := List.cons_ne_nil _ _
  refine (Sealed.of_back filled ?_).closed
  intro entry member text last
  rw [back, List.mem_cons, List.mem_append, List.append_nil] at member
  rcases member with rfl | property | required
  · obtain rfl := Option.some.inj last
    exact closed_of_typeChars (List.all_eq_true.mp (by decide))
  · rw [propertiesEntry_eq] at property
    split at property
    · cases property
    · obtain rfl := List.mem_singleton.mp property
      obtain ⟨p, inside, ends⟩ := exists_of_mem_closingEntry last
      obtain ⟨q, listed, rfl⟩ := List.mem_map.mp inside
      obtain ⟨f, field, rfl⟩ := List.mem_map.mp listed
      exact ((sealed_typeObject (names f field).presentType).annotate f.doc).closed text ends
  · rw [textsEntry_eq] at required
    split at required
    · cases required
    · obtain rfl := List.mem_singleton.mp required
      obtain ⟨item, inside, ends⟩ := exists_of_mem_closingItem last
      obtain ⟨name, listed, rfl⟩ := List.mem_map.mp inside
      obtain ⟨f, field, rfl⟩ := List.mem_map.mp listed
      obtain rfl := Option.some.inj ends
      have word := words f (List.mem_filter.mp field).1
      exact closed_of_not_mem (not_mem_of_word word rfl) (not_mem_of_word word rfl)

/-! ## Reading a record -/

/-- The value that is read from the text of a declaration. -/
def readObject (fuel : Nat) (body : String) : Option Yaml :=
  (readEntry fuel 0 (Text.unindent 4 body.toList)).map fun p => p.1.2

/-- The keys of a mapping. -/
def keysOf : Yaml → List String
  | .mapping entries => entries.map Prod.fst
  | _ => []

/-- The strings of a sequence. -/
def stringsOf : Yaml → List String
  | .sequence items => items.filterMap fun
      | .string s => some s
      | _ => none
  | _ => []

/-- The values of a key of a mapping. -/
def valuesAt (key : String) : Yaml → List Yaml
  | .mapping entries => (entries.filter (·.1 == key)).map Prod.snd
  | _ => []

/-- The names of the properties of an object. -/
def propertyNames (object : Yaml) : List String :=
  (valuesAt "properties" object).flatMap keysOf

/-- The names of the properties that an object must have. -/
def requiredNames (object : Yaml) : List String :=
  (valuesAt "required" object).flatMap stringsOf

/-- The fields of an object: those that it need not have may be absent. -/
def readFields (fuel : Nat) (body : String) : Option (List FieldEntry) :=
  (readObject fuel body).map fun object => (propertyNames object).map fun key =>
    { key := key, absentable := !(requiredNames object).contains key, undefinable := false,
      skippable := false }

/-- The names of the required fields of an object. -/
def readRequired (fuel : Nat) (body : String) : Option (List String) :=
  (readObject fuel body).map requiredNames

/-- **The text of a record is read back.** -/
theorem readObject_record {o : OpenApiOptions} {r : Record}
    (words : ∀ f ∈ r.fields, Word f.name) (names : ∀ f ∈ r.fields, (lexicon o).Names f.type)
    {fuel : Nat} (enough : sizeOf (r.name, (recordObject o r).toYaml) < fuel) :
    readObject fuel (declarationText o (.record r)).text = some (recordObject o r).toYaml := by
  have closed : ∀ entry ∈ [(r.name, (recordObject o r).toYaml)], ∀ text ∈ closing entry.2,
      Closed text := by
    rw [List.forall_mem_singleton]
    exact closed_recordObject words names
  obtain ⟨lines, clean, written, moved⟩ := exists_shiftedEntries_eq 4 _ closed
  have single : (entriesText 0 [(r.name, (recordObject o r).toYaml)]).toList =
      (entryText 0 r.name (recordObject o r).toYaml).toList := by
    simp [entriesText, spaces]
  have text : (declarationText o (.record r)).text.toList = unlines (lines.map (indented 4)) := by
    rw [← moved, text_declarationText]
    exact (List.flatMap_singleton ..).symm
  have nothing : Below 0 [] := Outdented.below (.inl rfl)
  have read := readEntry_entryText r.name _ enough nothing
  rw [List.append_nil] at read
  unfold readObject
  rw [text, Text.unindent_unlines 4 clean, ← written, single, read]
  rfl

/-- The properties of a record are its fields. -/
theorem propertyNames_record (o : OpenApiOptions) (r : Record) :
    propertyNames (recordObject o r).toYaml = r.fields.map (·.name) := by
  have keys : (recordObject o r).properties.map Prod.fst = r.fields.map (·.name) := by
    unfold recordObject
    rw [List.map_map]
    rfl
  unfold propertyNames
  rw [toYaml_eq, valuesAt, filter_of_mem_keywords (properties_mem_keywords _), propertiesEntry_eq,
    ← keys]
  split
  · rename_i none_given
    rw [none_given]
    rfl
  · rw [List.map_singleton, List.flatMap_singleton, keysOf, List.map_map]
    rfl

/-- A record must have the fields that are not optional. -/
theorem requiredNames_record (o : OpenApiOptions) (r : Record) :
    requiredNames (recordObject o r).toYaml =
      (r.fields.filter fun f => !f.type.isOptional).map (·.name) := by
  have strings : ∀ texts : List String, stringsOf (.sequence (texts.map .string)) = texts := by
    intro texts
    rw [stringsOf, List.filterMap_map]
    exact List.filterMap_some
  unfold requiredNames
  rw [toYaml_eq, valuesAt, filter_of_mem_keywords (required_mem_keywords _), textsEntry_eq]
  change _ = (recordObject o r).required
  split
  · rename_i none_given
    rw [none_given]
    rfl
  · rw [List.map_singleton, List.flatMap_singleton, strings]

/-- A field may be absent exactly if it is not required, as long as no other field has its name. -/
theorem contains_required {r : Record} (distinct : (r.fields.map (·.name)).Nodup) {f : Field}
    (member : f ∈ r.fields) :
    ((r.fields.filter fun f => !f.type.isOptional).map (·.name)).contains f.name =
      !f.type.isOptional := by
  rw [Bool.eq_iff_iff, List.contains_iff_mem, List.mem_map]
  constructor
  · rintro ⟨other, listed, same⟩
    obtain ⟨inside, needed⟩ := List.mem_filter.mp listed
    rwa [← List.inj_on_of_nodup_map distinct inside member same]
  · intro needed
    exact ⟨f, List.mem_filter.mpr ⟨member, needed⟩, rfl⟩

/-- **The fields of a record are read back from an interface description.** -/
theorem readFields_record {o : OpenApiOptions} {r : Record}
    (distinct : (r.fields.map (·.name)).Nodup) (words : ∀ f ∈ r.fields, Word f.name)
    (names : ∀ f ∈ r.fields, (lexicon o).Names f.type) {fuel : Nat}
    (enough : sizeOf (r.name, (recordObject o r).toYaml) < fuel) :
    readFields fuel (declarationText o (.record r)).text =
      some (r.fields.map (Backend.openApi o).fieldEntry) := by
  unfold readFields
  rw [readObject_record words names enough, Option.map_some, propertyNames_record,
    requiredNames_record, List.map_map]
  refine congrArg some (List.map_congr_left ?_)
  intro f member
  have absent := contains_required distinct member
  have key : ((lexicon o).identifier .field f.name).text = f.name := rfl
  unfold Backend.fieldEntry Backend.skipsAbsent Backend.lexicon
  rw [key, Function.comp_apply, absent, Bool.not_not, Bool.false_and]

theorem readRequired_record {o : OpenApiOptions} {r : Record}
    (words : ∀ f ∈ r.fields, Word f.name) (names : ∀ f ∈ r.fields, (lexicon o).Names f.type)
    {fuel : Nat} (enough : sizeOf (r.name, (recordObject o r).toYaml) < fuel) :
    readRequired fuel (declarationText o (.record r)).text =
      some ((r.fields.filter fun f => !f.type.isOptional).map (·.name)) := by
  unfold readRequired
  rw [readObject_record words names enough, Option.map_some, requiredNames_record]

end OpenApi

end SchemaPress
