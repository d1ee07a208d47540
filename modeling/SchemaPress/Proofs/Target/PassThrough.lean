import SchemaPress.Proofs.Target.Emission
import SchemaPress.Proofs.Target.Identifier
import SchemaPress.Proofs.Text.Lines

/-!
# Names that pass through

A type is a leaf, which is a primitive or a named type, inside layers of optionals and sequences.
The three languages write the layers around a token for the leaf. An interface description has a
schema object for the leaf: it is found by going into the items of arrays, and into the objects
that are held by another one.

A name that no table maps and no target reserves is written as it is, by every target and inside any
layers. There is one exception: the entries of the table of an interface description give a type
and a format with a colon between them, and a primitive that is not in the table is cut in the same
way. So a primitive passes through there exactly if it has no colon
(`TypeRef.leaf_passes_through`).
-/

set_option autoImplicit false

namespace SchemaPress

/-! ## Leaves and layers -/

/-- What a type may be wrapped in. -/
inductive Layer where
  | optional
  | sequence
deriving DecidableEq, Repr

namespace TypeRef

/-- The primitive or the named type in a type. -/
def leaf : TypeRef → TypeRef
  | .primitive name => .primitive name
  | .named name => .named name
  | .optional inner => inner.leaf
  | .sequence inner => inner.leaf

/-- What the leaf of a type is wrapped in, from the outside to the inside. -/
def layers : TypeRef → List Layer
  | .primitive _ => []
  | .named _ => []
  | .optional inner => .optional :: inner.layers
  | .sequence inner => .sequence :: inner.layers

end TypeRef

/-- Layers around a token in Swift. -/
def Swift.surround (token : String) : List Layer → String
  | [] => token
  | .optional :: layers => surround token layers ++ "?"
  | .sequence :: layers => "[" ++ surround token layers ++ "]"

/-- Layers around a token in TypeScript. Only the optional needs parentheses inside a sequence. -/
def TypeScript.surround (token : String) : List Layer → String
  | [] => token
  | .optional :: layers => surround token layers ++ " | undefined"
  | .sequence :: .optional :: layers => "(" ++ surround token (.optional :: layers) ++ ")[]"
  | .sequence :: layers => surround token layers ++ "[]"

/-- Layers around a token in Rust. -/
def Rust.surround (token : String) : List Layer → String
  | [] => token
  | .optional :: layers => "Option<" ++ surround token layers ++ ">"
  | .sequence :: layers => "Vec<" ++ surround token layers ++ ">"

/-- What a language writes for the leaf of a type. -/
def Lexicon.token (l : Lexicon) : TypeRef → Fragment
  | .primitive name => l.natives.native name
  | .named name => l.reference name
  | .optional inner => l.token inner
  | .sequence inner => l.token inner

theorem Swift.text_typeText (o : SwiftOptions) (type : TypeRef) :
    (typeText o type).text = surround ((lexicon o).token type).text type.layers := by
  induction type with
  | primitive name => rfl
  | named name => rfl
  | optional inner ih =>
      change (typeText o inner).text ++ "?" = surround _ inner.layers ++ "?"
      rw [ih]
      rfl
  | sequence inner ih =>
      change "[" ++ (typeText o inner).text ++ "]" = "[" ++ surround _ inner.layers ++ "]"
      rw [ih]
      rfl

theorem Rust.text_typeText (o : RustOptions) (type : TypeRef) :
    (typeText o type).text = surround ((lexicon o).token type).text type.layers := by
  induction type with
  | primitive name => rfl
  | named name => rfl
  | optional inner ih =>
      change "Option<" ++ (typeText o inner).text ++ ">" =
        "Option<" ++ surround _ inner.layers ++ ">"
      rw [ih]
      rfl
  | sequence inner ih =>
      change "Vec<" ++ (typeText o inner).text ++ ">" = "Vec<" ++ surround _ inner.layers ++ ">"
      rw [ih]
      rfl

theorem TypeScript.text_typeText (o : TypeScriptOptions) (type : TypeRef) :
    (typeText o type).text = surround ((lexicon o).token type).text type.layers := by
  induction type with
  | primitive name => rfl
  | named name => rfl
  | optional inner ih =>
      change (typeText o inner).text ++ " | undefined" = surround _ inner.layers ++ " | undefined"
      rw [ih]
      rfl
  | sequence inner ih =>
      -- The parentheses depend on the outermost layer of the element.
      cases inner with
      | optional inner =>
          change "(" ++ (typeText o inner.optional).text ++ ")[]" =
            "(" ++ surround _ inner.optional.layers ++ ")[]"
          rw [ih]
          rfl
      | primitive name => rfl
      | named name => rfl
      | sequence inner =>
          change (typeText o inner.sequence).text ++ "[]" =
            surround _ inner.sequence.layers ++ "[]"
          rw [ih]
          rfl

theorem PrimitiveTable.native_of_unmapped {t : PrimitiveTable} {name : String}
    (unmapped : t.get? name = none) : t.native name = name := by
  unfold PrimitiveTable.native
  rw [unmapped]
  rfl

/-! ## Leaves of schema objects -/

namespace OpenApi

mutual

/-- The innermost schema object: that of the items of an array, the one that is held by another one,
or else the object itself, which may allow nothing as well. -/
def SchemaObject.leaf : SchemaObject → SchemaObject
  | ⟨reference, title, description, type, format, _, items, properties, required, values,
      valueNames, valueDescriptions, oneOf, allOf, excluded⟩ =>
    leafOfItems
      (leafOfHeld
        ⟨reference, title, description, type, format, false, items, properties, required, values,
          valueNames, valueDescriptions, oneOf, allOf, excluded⟩ allOf) items

/-- The innermost schema object in the items of an array, if there are any. -/
def leafOfItems (other : SchemaObject) : Option SchemaObject → SchemaObject
  | none => other
  | some s => s.leaf

/-- The innermost schema object in a single one that is held by another one. -/
def leafOfHeld (other : SchemaObject) : List SchemaObject → SchemaObject
  | [s] => s.leaf
  | _ => other

end

open SchemaObject

/-- A schema object that also allows nothing has the same leaf. -/
theorem leaf_orNull (s : SchemaObject) : s.orNull.leaf = s.leaf := by
  cases held : s.reference with
  | none =>
      obtain ⟨⟩ := s
      obtain rfl : _ = none := held
      rfl
  | some target =>
      unfold orNull opened
      rw [held]
      rfl

theorem leaf_ofNative (native : String) : (ofNative native).leaf = ofNative native := by
  dsimp only [ofNative]
  split
  · rfl
  · rfl

/-- The leaf of the schema object of a type is that of its leaf. -/
theorem leaf_typeObject (o : OpenApiOptions) (type : TypeRef) :
    (typeObject o type).leaf = typeObject o type.leaf := by
  induction type with
  | primitive name => exact leaf_ofNative _
  | named name =>
      change (typeObject o (.named name)).leaf = typeObject o (.named name)
      unfold typeObject
      split
      · exact leaf_ofNative _
      · rfl
  | optional inner ih => exact (leaf_orNull _).trans ih
  | sequence inner ih => exact ih

theorem notColon_of_not_mem {cs : List Char} (free : ':' ∉ cs) :
    ∀ c ∈ cs, decide (c ≠ ':') = true := by
  intro c inside
  exact decide_eq_true fun same => free (same ▸ inside)

/-- A native type is written whole, and without a format, exactly if it has no colon. -/
theorem ofNative_eq_ofType_iff (native : String) :
    ofNative native = ofType native ↔ ':' ∉ native.toList := by
  dsimp only [ofNative]
  constructor
  · intro whole colon
    split at whole
    · rename_i nothing
      exact absurd (List.dropWhile_eq_nil_iff.mp nothing ':' colon) (by decide)
    · cases congrArg SchemaObject.format whole
  · intro free
    have apart := notColon_of_not_mem free
    rw [List.dropWhile_eq_nil_iff.mpr apart, List.takeWhile_eq_self_iff.mpr apart,
      String.ofList_toList]

/-- A native type with a colon is cut at the first one. -/
theorem ofNative_colon (before after : String) (free : ':' ∉ before.toList) :
    ofNative (before ++ ":" ++ after) = { type := some before, format := some after } := by
  have letters : (before ++ ":" ++ after).toList = before.toList ++ ':' :: after.toList := by
    rw [String.toList_append, String.toList_append, List.append_assoc]
    rfl
  have stop := Text.stop_cons (fun c => decide (c ≠ ':')) (decide_eq_false (not_not.mpr rfl))
    after.toList
  obtain ⟨taken, left⟩ := Text.takeWhile_dropWhile_run (notColon_of_not_mem free) stop
  dsimp only [ofNative]
  rw [letters, taken, left]
  simp only [String.ofList_toList]

theorem typeObject_primitive {o : OpenApiOptions} {name : String}
    (unmapped : (lexicon o).natives.get? name = none) :
    typeObject o (.primitive name) = ofNative name :=
  congrArg ofNative (PrimitiveTable.native_of_unmapped unmapped)

/-- A named type that is not in the table is a reference to its declaration. -/
theorem typeObject_named {o : OpenApiOptions} {name : String}
    (unmapped : (lexicon o).natives.get? name = none) :
    typeObject o (.named name) = toDeclaration name := by
  unfold typeObject
  rw [unmapped]

end OpenApi

/-! ## Names that no table maps -/

/-- Whether the leaf of a type is a primitive or a named type of a name. -/
def TypeRef.IsOf (name : String) (type : TypeRef) : Prop :=
  type.leaf = .primitive name ∨ type.leaf = .named name

namespace Lexicon

variable {l : Lexicon} {name : String}

/-- A name that is neither mapped nor reserved is written as it is. -/
theorem reference_of_unmapped (unmapped : l.natives.get? name = none) (free : name ∉ l.reserved) :
    l.reference name = Fragment.ofText name := by
  have word : l.isReserved name = false := by
    rw [← Bool.not_eq_true, l.isReserved_iff]
    exact free
  unfold reference identifier escape
  rw [unmapped, word, Bool.and_false]
  rfl

theorem token_of_unmapped (unmapped : l.natives.get? name = none) (free : name ∉ l.reserved)
    (type : TypeRef) (leaf : type.IsOf name) : l.token type = Fragment.ofText name := by
  induction type with
  | primitive other =>
      rcases leaf with same | differs
      · cases same
        exact congrArg Fragment.ofText (PrimitiveTable.native_of_unmapped unmapped)
      · cases differs
  | named other =>
      rcases leaf with differs | same
      · cases differs
      · cases same
        exact reference_of_unmapped unmapped free
  | optional inner ih => exact ih leaf
  | sequence inner ih => exact ih leaf

end Lexicon

/-- A name that no target maps or reserves. -/
def Config.Leaves (c : Config) (name : String) : Prop :=
  ∀ t : Target, (Backend.ofTarget c t).lexicon.natives.get? name = none ∧
    name ∉ (Backend.ofTarget c t).lexicon.reserved

open OpenApi OpenApi.SchemaObject in
/-- **Unmapped names pass through.** A leaf of a name that no target maps or reserves is written as
this name by the languages, inside any layers. In an interface description a named type is a
reference to it. A primitive is a type as it is exactly if it has no colon; else it is cut at the
first colon into a type and a format. -/
theorem TypeRef.leaf_passes_through {c : Config} {name : String} (left : c.Leaves name)
    {type : TypeRef} (leaf : type.IsOf name) :
    (Swift.typeText c.swift type).text = Swift.surround name type.layers ∧
      (TypeScript.typeText c.typeScript type).text = TypeScript.surround name type.layers ∧
      (Rust.typeText c.rust type).text = Rust.surround name type.layers ∧
      (type.leaf = .named name →
        (typeObject c.openApi type).leaf =
          { reference := some ("#/components/schemas/" ++ name) }) ∧
      (type.leaf = .primitive name →
        ((typeObject c.openApi type).leaf = { type := some name } ↔ ':' ∉ name.toList) ∧
        ∀ before after : String, ':' ∉ before.toList → name = before ++ ":" ++ after →
          (typeObject c.openApi type).leaf = { type := some before, format := some after }) := by
  have token : ∀ t : Target, (Backend.ofTarget c t).lexicon.token type = Fragment.ofText name :=
    fun t => Lexicon.token_of_unmapped (left t).1 (left t).2 type leaf
  refine ⟨?_, ?_, ?_, ?_, ?_⟩
  · rw [Swift.text_typeText]
    exact congrArg (Swift.surround ·.text type.layers) (token .swift)
  · rw [TypeScript.text_typeText]
    exact congrArg (TypeScript.surround ·.text type.layers) (token .typeScript)
  · rw [Rust.text_typeText]
    exact congrArg (Rust.surround ·.text type.layers) (token .rust)
  · intro named
    rw [leaf_typeObject, named]
    exact typeObject_named (left .openApi).1
  · intro primitive
    rw [leaf_typeObject, primitive, typeObject_primitive (left .openApi).1]
    refine ⟨ofNative_eq_ofType_iff name, ?_⟩
    rintro before after free rfl
    exact ofNative_colon before after free

/-- A primitive with a dot in its name, which may be absent, in a sequence. -/
def TypeRef.dottedSample : TypeRef :=
  .sequence (.optional (.primitive "geo.Point"))

open OpenApi OpenApi.SchemaObject in
theorem TypeRef.leaf_passes_through_dottedSample :
    ({} : Config).Leaves "geo.Point" ∧
      (Swift.typeText {} dottedSample).text = "[geo.Point?]" ∧
      (TypeScript.typeText {} dottedSample).text = "(geo.Point | undefined)[]" ∧
      (Rust.typeText {} dottedSample).text = "Vec<Option<geo.Point>>" ∧
      (typeObject {} dottedSample).leaf = { type := some "geo.Point" } := by
  have left : ({} : Config).Leaves "geo.Point" := by
    intro t
    cases t <;> exact ⟨by decide, by decide⟩
  have leaf : dottedSample.IsOf "geo.Point" := .inl rfl
  obtain ⟨swift, typeScript, rust, -, primitive⟩ := leaf_passes_through left leaf
  exact ⟨left, swift.trans (by decide +kernel), typeScript.trans (by decide +kernel),
    rust.trans (by decide +kernel), (primitive rfl).1.mpr (by decide)⟩

open OpenApi OpenApi.SchemaObject in
/-- A path with colons is cut in an interface description, though no target maps or reserves it. -/
theorem TypeRef.leaf_cut_path :
    ({} : Config).Leaves "std::string" ∧
      (Swift.typeText {} (.primitive "std::string")).text = "std::string" ∧
      (typeObject {} (.primitive "std::string")).leaf =
        { type := some "std", format := some ":string" } ∧
      (typeObject {} (.primitive "std::string")).leaf ≠ { type := some "std::string" } := by
  have left : ({} : Config).Leaves "std::string" := by
    intro t
    cases t <;> exact ⟨by decide, by decide⟩
  have object : (typeObject {} (.primitive "std::string")).leaf = ofNative "std::string" := by
    rw [leaf_typeObject]
    exact typeObject_primitive (left .openApi).1
  refine ⟨left, by decide +kernel, ?_, ?_⟩
  · rw [object]
    exact ofNative_colon "std" ":string" (by decide)
  · rw [object]
    exact fun whole => (ofNative_eq_ofType_iff "std::string").mp whole (by decide)

end SchemaPress
