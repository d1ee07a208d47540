import SchemaPress.PrimitiveTable
import SchemaPress.Schema.Pass

/-!
# Configurations

A configuration names the targets to render, holds the options of each, and says which
declarations to skip and which names to change. Every option has a default.
-/

set_option autoImplicit false

namespace SchemaPress

/-- Options for Swift. -/
structure SwiftOptions where
  /-- The protocols that every declared type conforms to. -/
  conformances : List String := ["Equatable", "Codable"]
  /-- Whether `import Foundation` stands at the top. -/
  importFoundation : Bool := false
  /-- Further primitives, which take precedence over the built-in ones. -/
  primitives : PrimitiveTable := .empty
  /-- Whether reserved words are reported instead of escaped. -/
  strictIdentifiers : Bool := false
deriving DecidableEq

/-- How a record is declared in TypeScript. -/
inductive ObjectStyle where
  | typeLiteral
  | interface
deriving DecidableEq, Repr

/-- How an enumeration of raw values is declared in TypeScript. -/
inductive RawEnumStyle where
  | enum
  | constObject
deriving DecidableEq, Repr

/-- How docs are written in TypeScript. -/
inductive DocStyle where
  | tripleSlash
  | jsDoc
deriving DecidableEq, Repr

/-- How a tagged union is laid out in TypeScript. -/
inductive UnionLayout where
  /-- On one line, or one alternative per line if some case has a doc. -/
  | auto
  /-- Always on one line. -/
  | singleLine
deriving DecidableEq, Repr

/-- Options for TypeScript. -/
structure TypeScriptOptions where
  /-- Whether declarations are exported. -/
  exported : Bool := false
  objectStyle : ObjectStyle := .typeLiteral
  rawEnumStyle : RawEnumStyle := .enum
  docStyle : DocStyle := .tripleSlash
  unionLayout : UnionLayout := .auto
  /-- Further primitives, which take precedence over the built-in ones. -/
  primitives : PrimitiveTable := .empty
  /-- Whether reserved words are reported instead of escaped. -/
  strictIdentifiers : Bool := false
deriving DecidableEq

/-- Options for Rust. -/
structure RustOptions where
  /-- Whether types and fields are public. -/
  isPublic : Bool := true
  /-- The traits derived for every record and enumeration. -/
  derives : List String := ["Debug", "Clone", "PartialEq"]
  /-- Whether types can be serialized, with the attributes that this takes. -/
  serde : Bool := true
  /-- Whether enumerations of raw values have an accessor for them. -/
  rawValueAccessors : Bool := true
  /-- Further primitives, which take precedence over the built-in ones. -/
  primitives : PrimitiveTable := .empty
  /-- Whether reserved words are reported instead of escaped. -/
  strictIdentifiers : Bool := false
deriving DecidableEq

/-- Options for OpenAPI. -/
structure OpenApiOptions where
  openApiVersion : String := "3.0.1"
  apiVersion : String := "1.0.0"
  /-- The title of the interface; the name of the schema if absent. -/
  title : Option String := none
  /-- Further primitives, which take precedence over the built-in ones. -/
  primitives : PrimitiveTable := .empty
deriving DecidableEq

/-- A configuration. -/
structure Config where
  /-- The names of the targets to render, in order; all targets if there are none. -/
  backends : List String := []
  swift : SwiftOptions := {}
  typeScript : TypeScriptOptions := {}
  rust : RustOptions := {}
  openApi : OpenApiOptions := {}
  /-- The declarations to leave out. -/
  skip : List String := []
  rename : RenameOptions := {}
deriving DecidableEq

/-- The names of the object styles. -/
def ObjectStyle.names : List (String × ObjectStyle) :=
  [("type_literal", .typeLiteral), ("interface", .interface)]

/-- The name of an object style. -/
def ObjectStyle.name : ObjectStyle → String
  | .typeLiteral => "type_literal"
  | .interface => "interface"

/-- The names of the styles of enumerations. -/
def RawEnumStyle.names : List (String × RawEnumStyle) :=
  [("enum", .enum), ("const_object", .constObject)]

/-- The name of a style of enumerations. -/
def RawEnumStyle.name : RawEnumStyle → String
  | .enum => "enum"
  | .constObject => "const_object"

/-- The names of the styles of docs. -/
def DocStyle.names : List (String × DocStyle) :=
  [("triple_slash", .tripleSlash), ("js_doc", .jsDoc)]

/-- The name of a style of docs. -/
def DocStyle.name : DocStyle → String
  | .tripleSlash => "triple_slash"
  | .jsDoc => "js_doc"

/-- The names of the layouts of unions. -/
def UnionLayout.names : List (String × UnionLayout) :=
  [("auto", .auto), ("single_line", .singleLine)]

/-- The name of a layout of unions. -/
def UnionLayout.name : UnionLayout → String
  | .auto => "auto"
  | .singleLine => "single_line"

end SchemaPress
