import SchemaPress.Config.Basic
import SchemaPress.Json.Basic

/-!
# Configurations as JSON

The JSON form of a configuration has a member for every option; an absent one is `null`.
-/

set_option autoImplicit false

namespace SchemaPress

/-- The JSON form of a primitive table: an object with a member for each entry. -/
def PrimitiveTable.toJson (t : PrimitiveTable) : Json :=
  .object (t.entries.map fun (name, native) => (name, .string native))

/-- The JSON form of options for Swift. -/
def SwiftOptions.toJson (o : SwiftOptions) : Json :=
  .object
    [("conformances", .strings o.conformances),
     ("import_foundation", .bool o.importFoundation),
     ("primitives", o.primitives.toJson),
     ("strict_identifiers", .bool o.strictIdentifiers)]

/-- The JSON form of options for TypeScript. -/
def TypeScriptOptions.toJson (o : TypeScriptOptions) : Json :=
  .object
    [("export", .bool o.exported),
     ("object_style", .string o.objectStyle.name),
     ("raw_enum_style", .string o.rawEnumStyle.name),
     ("doc_style", .string o.docStyle.name),
     ("union_layout", .string o.unionLayout.name),
     ("primitives", o.primitives.toJson),
     ("strict_identifiers", .bool o.strictIdentifiers)]

/-- The JSON form of options for Rust. -/
def RustOptions.toJson (o : RustOptions) : Json :=
  .object
    [("public", .bool o.isPublic),
     ("derives", .strings o.derives),
     ("serde", .bool o.serde),
     ("raw_value_accessors", .bool o.rawValueAccessors),
     ("primitives", o.primitives.toJson),
     ("strict_identifiers", .bool o.strictIdentifiers)]

/-- The JSON form of options for OpenAPI. -/
def OpenApiOptions.toJson (o : OpenApiOptions) : Json :=
  .object
    [("openapi_version", .string o.openApiVersion),
     ("api_version", .string o.apiVersion),
     ("title", Json.ofOption Json.string o.title),
     ("primitives", o.primitives.toJson)]

/-- The JSON form of a rule, or `null`. -/
def RenameRule.optionToJson (rule : Option RenameRule) : Json :=
  Json.ofOption (fun r => Json.string r.name) rule

/-- The JSON form of the rules for names. -/
def RenameOptions.toJson (o : RenameOptions) : Json :=
  .object
    [("case", RenameRule.optionToJson o.case),
     ("variant", RenameRule.optionToJson o.variant),
     ("field", RenameRule.optionToJson o.field)]

/-- The JSON form of a configuration. -/
def Config.toJson (c : Config) : Json :=
  .object
    [("backends", .strings c.backends),
     ("swift", c.swift.toJson),
     ("typescript", c.typeScript.toJson),
     ("rust", c.rust.toJson),
     ("openapi", c.openApi.toJson),
     ("skip", .strings c.skip),
     ("rename", c.rename.toJson)]

end SchemaPress
