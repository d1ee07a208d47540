import SchemaPress.Config.Basic
import SchemaPress.Format
import SchemaPress.Json.Reader

/-!
# Configurations from documents

The shape of a configuration, for any document format. Options that are left out keep their
defaults, and members that are no options are ignored.
-/

set_option autoImplicit false

namespace SchemaPress

section Shape

variable {ν ε : Type} [Format ν ε]

/-- A list of texts. -/
def readTexts : ν → Except ε (List String) :=
  Format.list Format.text

/-- A primitive table; of several entries of one name the last counts. -/
def PrimitiveTable.read (v : ν) : Except ε PrimitiveTable :=
  (Format.table v).map PrimitiveTable.ofList

/-- Options for Swift. -/
def SwiftOptions.read : ν → Except ε SwiftOptions :=
  Format.record "SwiftOptions"
    [.optional "conformances" readTexts fun a o => { o with conformances := a },
     .optional "import_foundation" Format.flag fun a o => { o with importFoundation := a },
     .optional "primitives" PrimitiveTable.read fun a o => { o with primitives := a },
     .optional "strict_identifiers" Format.flag fun a o => { o with strictIdentifiers := a }]
    {}

/-- Options for TypeScript. -/
def TypeScriptOptions.read : ν → Except ε TypeScriptOptions :=
  Format.record "TypeScriptOptions"
    [.optional "export" Format.flag fun a o => { o with exported := a },
     .optional "object_style" (Format.choice ObjectStyle.names)
       fun a o => { o with objectStyle := a },
     .optional "raw_enum_style" (Format.choice RawEnumStyle.names)
       fun a o => { o with rawEnumStyle := a },
     .optional "doc_style" (Format.choice DocStyle.names) fun a o => { o with docStyle := a },
     .optional "union_layout" (Format.choice UnionLayout.names)
       fun a o => { o with unionLayout := a },
     .optional "primitives" PrimitiveTable.read fun a o => { o with primitives := a },
     .optional "strict_identifiers" Format.flag fun a o => { o with strictIdentifiers := a }]
    {}

/-- Options for Rust. -/
def RustOptions.read : ν → Except ε RustOptions :=
  Format.record "RustOptions"
    [.optional "public" Format.flag fun a o => { o with isPublic := a },
     .optional "derives" readTexts fun a o => { o with derives := a },
     .optional "serde" Format.flag fun a o => { o with serde := a },
     .optional "raw_value_accessors" Format.flag fun a o => { o with rawValueAccessors := a },
     .optional "primitives" PrimitiveTable.read fun a o => { o with primitives := a },
     .optional "strict_identifiers" Format.flag fun a o => { o with strictIdentifiers := a }]
    {}

/-- Options for OpenAPI. -/
def OpenApiOptions.read : ν → Except ε OpenApiOptions :=
  Format.record "OpenApiOptions"
    [.optional "openapi_version" Format.text fun a o => { o with openApiVersion := a },
     .optional "api_version" Format.text fun a o => { o with apiVersion := a },
     .optional "title" (Format.optional Format.text) fun a o => { o with title := a },
     .optional "primitives" PrimitiveTable.read fun a o => { o with primitives := a }]
    {}

/-- A rule for names, or none. -/
def RenameRule.readOption : ν → Except ε (Option RenameRule) :=
  Format.optional (Format.choice RenameRule.names)

/-- The rules for names. -/
def RenameOptions.read : ν → Except ε RenameOptions :=
  Format.record "RenameOptions"
    [.optional "case" RenameRule.readOption fun a o => { o with case := a },
     .optional "variant" RenameRule.readOption fun a o => { o with variant := a },
     .optional "field" RenameRule.readOption fun a o => { o with field := a }]
    {}

/-- A configuration. -/
def Config.read : ν → Except ε Config :=
  Format.record "GeneratorConfig"
    [.optional "backends" readTexts fun a c => { c with backends := a },
     .optional "swift" SwiftOptions.read fun a c => { c with swift := a },
     .optional "typescript" TypeScriptOptions.read fun a c => { c with typeScript := a },
     .optional "rust" RustOptions.read fun a c => { c with rust := a },
     .optional "openapi" OpenApiOptions.read fun a c => { c with openApi := a },
     .optional "skip" readTexts fun a c => { c with skip := a },
     .optional "rename" RenameOptions.read fun a c => { c with rename := a }]
    {}

end Shape

/-- The configuration that a JSON text describes. -/
def Config.ofJsonText (text : String) : Except Json.ReadError Config :=
  (Json.Document.ofText text).read Config.read

end SchemaPress
