import SchemaPress.Proofs.Target.Annotation
import SchemaPress.Proofs.Target.PassThrough

/-!
# Types read from schema objects

A schema object of a type says one thing only, and can be read: if it allows nothing it is an
optional, else with items it is a sequence, and else it is a leaf. A reference, alone or held by
another object, is a named type. Otherwise the type and the format give back the token of a
primitive.

What is read is the type that was written, with the native types of the table in place of its leaf
(`OpenApi.typeObject_reads_back`). There must be no optional directly inside an optional, since an
object cannot allow nothing twice.
-/

set_option autoImplicit false

namespace SchemaPress

/-- A type with a native type in place of its leaf. A named type that the table does not map stays as
it is. -/
def TypeRef.natively (t : PrimitiveTable) : TypeRef → TypeRef
  | .primitive name => .primitive (t.native name)
  | .named name =>
    match t.get? name with
    | some native => .primitive native
    | none => .named name
  | .optional inner => .optional (inner.natively t)
  | .sequence inner => .sequence (inner.natively t)

namespace OpenApi

namespace SchemaObject

/-! ## The reader -/

/-- The named type behind the path of schema objects. -/
def readReference (target : String) : Option TypeRef :=
  if schemaPath.toList.isPrefixOf target.toList then
    some (.named (String.ofList (target.toList.drop schemaPath.toList.length)))
  else none

/-- The token of a type with a format or without. -/
def nativeToken (type : String) : Option String → String
  | none => type
  | some format => type ++ ":" ++ format

/-- The leaf of a reference, of a single reference that is held, or of a type. -/
def readLeaf (reference type format : Option String) (allOf : List SchemaObject) :
    Option TypeRef :=
  match reference, allOf with
  | some target, _ => readReference target
  | none, [held] => held.reference.bind readReference
  | none, _ => type.map fun type => .primitive (nativeToken type format)

mutual

/-- The type that a schema object stands for, if it says nothing else. -/
def readType : SchemaObject → Option TypeRef
  | ⟨reference, title, description, type, format, nullable, items, properties, required, values,
      valueNames, valueDescriptions, oneOf, allOf, excluded⟩ =>
    if title.isNone && description.isNone && properties.isEmpty && required.isEmpty
        && values.isEmpty && valueNames.isEmpty && valueDescriptions.isEmpty && oneOf.isEmpty
        && excluded.isNone then
      (readElements (readLeaf reference type format allOf) items).map fun type =>
        if nullable then .optional type else type
    else none

/-- The sequence of what items stand for, or a leaf if there are none. -/
def readElements (leaf : Option TypeRef) : Option SchemaObject → Option TypeRef
  | none => leaf
  | some s => (readType s).map .sequence

end

/-- A schema object without a title and a description. -/
def unannotated (s : SchemaObject) : SchemaObject :=
  { s with title := none, description := none }

/-! ## Leaves -/

theorem readReference_schemaPath (name : String) :
    readReference (schemaPath ++ name) = some (.named name) := by
  have leading : schemaPath.toList <+: (schemaPath ++ name).toList := by
    rw [String.toList_append]
    exact List.prefix_append _ _
  unfold readReference
  rw [if_pos (List.isPrefixOf_iff_prefix.mpr leading), String.toList_append, List.drop_left,
    String.ofList_toList]

theorem readType_toDeclaration (name : String) :
    (toDeclaration name).readType = some (.named name) := by
  change (readReference (schemaPath ++ name)).map _ = _
  rw [readReference_schemaPath]
  rfl

/-- A type and its format are the two sides of the first colon. -/
theorem readType_ofNative (native : String) :
    (ofNative native).readType = some (.primitive native) := by
  by_cases colon : ':' ∈ native.toList
  · obtain ⟨before, after, cut, free⟩ := List.eq_append_cons_of_mem colon
    have joined : native = String.ofList before ++ ":" ++ String.ofList after := by
      rw [← String.toList_inj, cut]
      simp
    have apart : ':' ∉ (String.ofList before).toList := by rwa [String.toList_ofList]
    rw [joined, ofNative_colon _ _ apart]
    rfl
  · rw [(ofNative_eq_ofType_iff native).mpr colon]
    rfl

/-! ## Layers and annotations -/

section Layers

variable {s : SchemaObject}

/-- Opening an object does not change what it stands for. -/
theorem Tidy.readType_opened (tidy : s.Tidy) : s.opened.readType = s.readType := by
  rcases tidy.opened_cases with ⟨-, same⟩ | ⟨target, bare, held⟩
  · rw [same]
  · rw [held, bare]
    rfl

theorem nullable_opened (solid : s.nullable = false) : s.opened.nullable = false := by
  unfold opened
  split
  · exact solid
  · rfl

theorem readType_nullable (solid : s.nullable = false) :
    readType { s with nullable := true } = s.readType.map .optional := by
  cases s
  obtain rfl : _ = false := solid
  rw [readType, readType]
  split
  · rw [Option.map_map]
    rfl
  · rfl

theorem Tidy.readType_orNull (tidy : s.Tidy) (solid : s.nullable = false) :
    s.orNull.readType = s.readType.map .optional := by
  rw [← tidy.readType_opened]
  exact readType_nullable (nullable_opened solid)

theorem unannotated_eq_self (untitled : s.title = none) (undescribed : s.description = none) :
    s.unannotated = s := by
  cases s
  obtain rfl : _ = none := untitled
  obtain rfl : _ = none := undescribed
  rfl

/-- Without its title and description, an annotated object is the same or has been opened. -/
theorem Tidy.readType_annotate (tidy : s.Tidy) (untitled : s.title = none)
    (undescribed : s.description = none) (title : Option String) (d : Doc) :
    (s.annotate title d).unannotated.readType = s.readType := by
  unfold annotate
  split
  · rw [unannotated_eq_self untitled undescribed]
  · change s.opened.unannotated.readType = _
    rw [← tidy.readType_opened]
    rcases tidy.opened_cases with ⟨-, same⟩ | ⟨target, -, held⟩
    · rw [same, unannotated_eq_self untitled undescribed]
    · rw [held]
      rfl

end Layers

end SchemaObject

open SchemaObject

/-! ## Types -/

section Types

variable (o : OpenApiOptions)

/-- At its own position, the schema object of a type says only whether nothing is allowed. -/
theorem remarks_typeObject (type : TypeRef) :
    (typeObject o type).title = none ∧ (typeObject o type).description = none ∧
      (typeObject o type).nullable = type.isOptional := by
  have outline := outline_typeObject o type
  rw [outline_eq, typeOutline, Outline.node.injEq] at outline
  exact ⟨outline.1, outline.2.1, outline.2.2.1⟩

theorem readType_typeObject {type : TypeRef} (flat : type.nestsOptional = false) :
    (typeObject o type).readType = some (type.natively (lexicon o).natives) := by
  induction type with
  | primitive name => exact readType_ofNative _
  | named name =>
      unfold typeObject TypeRef.natively
      cases (lexicon o).natives.get? name with
      | none => exact readType_toDeclaration name
      | some native => exact readType_ofNative native
  | optional inner ih =>
      obtain ⟨single, deeper⟩ := Bool.or_eq_false_iff.mp flat
      have solid : (typeObject o inner).nullable = false :=
        (remarks_typeObject o inner).2.2.trans single
      change (typeObject o inner).orNull.readType = _
      rw [(tidied_typeObject o inner).tidy.readType_orNull solid, ih deeper]
      rfl
  | sequence inner ih =>
      change Option.map _ (Option.map _ (typeObject o inner).readType) = _
      rw [ih flat]
      rfl

/-- **Schema objects keep the structure of types.** The schema object of a type without an optional
directly inside an optional is read as this type, with the native types of the table in place of its
leaf. So it is with a title and a doc, once these are taken off again. -/
theorem typeObject_reads_back {type : TypeRef} (flat : type.nestsOptional = false) :
    (typeObject o type).readType = some (type.natively (lexicon o).natives) ∧
      ∀ (title : Option String) (d : Doc),
        ((typeObject o type).annotate title d).unannotated.readType =
          some (type.natively (lexicon o).natives) := by
  have object := readType_typeObject o flat
  obtain ⟨untitled, undescribed, -⟩ := remarks_typeObject o type
  refine ⟨object, fun title d => ?_⟩
  rw [(tidied_typeObject o type).tidy.readType_annotate untitled undescribed, object]

end Types

/-- A named type that may be absent, in a sequence that may be absent. -/
def sparseSample : TypeRef :=
  .optional (.sequence (.optional (.named "User")))

theorem typeObject_reads_back_sparseSample :
    sparseSample.nestsOptional = false ∧
      ((typeObject {} sparseSample).annotate (some "Users") {}).unannotated.readType =
        some (.optional (.sequence (.optional (.named "User")))) ∧
      (typeObject {} (.sequence (.named "i64"))).readType =
        some (.sequence (.primitive "integer:int64")) := by
  have flat : sparseSample.nestsOptional = false := rfl
  have named : sparseSample.natively (lexicon {}).natives = sparseSample := by decide
  have native : (TypeRef.sequence (.named "i64")).natively (lexicon {}).natives =
      .sequence (.primitive "integer:int64") := by decide
  refine ⟨flat, ((typeObject_reads_back {} flat).2 (some "Users") {}).trans ?_, ?_⟩
  · rw [named]
    rfl
  · rw [← native]
    exact (typeObject_reads_back {} rfl).1

end OpenApi

end SchemaPress
