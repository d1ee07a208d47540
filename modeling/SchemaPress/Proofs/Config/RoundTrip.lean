import SchemaPress.Config.Decode
import SchemaPress.Config.Encode
import SchemaPress.Proofs.Json.Setting
import SchemaPress.Proofs.Schema.RoundTrip

/-!
# A configuration survives its JSON form

The JSON form of a configuration has a member for every option, both of the configuration itself and
of the options for each target and for names. Any of these members can be left out. What is read
from the others is the configuration with the options that were left out at their defaults, where
the default is that of the record the option belongs to. If nothing is left out the configuration
itself is read (`Config.reads_with_defaults`).

The options of a record are described once, as a list of settings. Reading, writing and resetting
the record all follow this list.
-/

set_option autoImplicit false

namespace SchemaPress

open Json

/-! ## How options are written -/

namespace PrimitiveTable

/-- A pair with the greatest key goes to the end. -/
theorem insertPair_greatest {key value : String} {pairs : List (String × String)}
    (greatest : ∀ p ∈ pairs, p.1 < key) :
    insertPair key value pairs = pairs ++ [(key, value)] := by
  induction pairs with
  | nil => rfl
  | cons p pairs ih =>
      rw [List.forall_mem_cons] at greatest
      rw [insertPair, if_neg (String.lt_asymm greatest.1), if_pos greatest.1, ih greatest.2,
        List.cons_append]

theorem entries_insertAll {pairs : List (String × String)} {t : PrimitiveTable}
    (increasing : Increasing (t.entries ++ pairs)) :
    (t.insertAll pairs).entries = t.entries ++ pairs := by
  induction pairs generalizing t with
  | nil => exact (List.append_nil _).symm
  | cons p pairs ih =>
      have greatest : ∀ q ∈ t.entries, q.1 < p.1 := fun q listed =>
        (List.pairwise_append.mp increasing).2.2 q listed p List.mem_cons_self
      have entries : (t.insert p.1 p.2).entries = t.entries ++ [p] := insertPair_greatest greatest
      have further : (t.insert p.1 p.2).entries ++ pairs = t.entries ++ p :: pairs := by
        rw [entries, List.append_assoc, List.singleton_append]
      rw [insertAll, List.foldl_cons, ← insertAll, ih (by rwa [further]), further]

/-- A table is made of its entries. -/
theorem ofList_entries (t : PrimitiveTable) : ofList t.entries = t := by
  have same : (ofList t.entries).entries = t.entries := entries_insertAll t.increasing
  cases t
  exact PrimitiveTable.mk.injEq .. ▸ same

theorem readPairs_toJson (t : PrimitiveTable) :
    t.toJson.toNode.readPairs Node.readString = .ok t.entries := by
  rw [toJson, toNode_object, Node.readPairs]
  induction t.entries with
  | nil => rfl
  | cons p pairs ih =>
      rw [List.map_cons, toMembers, Members.readAll, readString_toNode, ih]
      rfl

end PrimitiveTable

namespace Json.Codec

/-- Lists of texts. -/
def texts : Codec (List String) where
  read := readTexts
  write := .strings
  reads_back ss := by
    have each := readList_map Json.string id fun s (_ : s ∈ ss) => readString_toNode s
    rwa [List.map_id] at each
  plain := plain_strings

def text : Codec String where
  read := Format.text
  write := .string
  reads_back := readString_toNode
  plain := .string

/-- Truth values. -/
def flag : Codec Bool where
  read := Format.flag
  write := .bool
  reads_back b := by
    rw [toNode]
    rfl
  plain := .bool

def table : Codec PrimitiveTable where
  read := PrimitiveTable.read
  write := PrimitiveTable.toJson
  reads_back t := by
    have entries : Format.table t.toJson.toNode = Except.ok t.entries := t.readPairs_toJson
    rw [PrimitiveTable.read, entries, Except.map, t.ofList_entries]
  plain t := by
    refine .object (List.forall_mem_map.mpr fun p _ => ?_)
    exact .string p.2

/-- Choices, which are written by their names. -/
def choice {α : Type} (names : List (String × α)) (name : α → String)
    (listed : ∀ a, names.lookup (name a) = some a) : Codec α where
  read := Format.choice names
  write a := .string (name a)
  reads_back a := by
    have chosen : chooseName names (name a) = .ok a := by rw [chooseName, listed]
    rw [toNode]
    exact chosen
  plain a := .string (name a)

/-- Values that may be absent, if no value is written as absent. -/
def option {α : Type} (codec : Codec α) (solid : ∀ a, codec.write a ≠ .null) :
    Codec (Option α) where
  read := Format.optional codec.read
  write := Json.ofOption codec.write
  reads_back
    | none => by
        rw [Json.ofOption, toNode]
        rfl
    | some a => readOption_toNode (codec.reads_back a) (solid a)
  plain
    | none => .null
    | some a => codec.plain a

/-- Rules for names. -/
def rule : Codec (Option RenameRule) :=
  option (choice RenameRule.names RenameRule.name fun a => by cases a; rfl) fun _ => nofun

end Json.Codec

/-! ## The settings of each record -/

section Settings

open Setting (ofCodec)
open Codec (texts text flag table choice option rule)

/-- The settings of options for Swift. -/
def SwiftOptions.settings (o : SwiftOptions) : List (Setting SwiftOptions) :=
  [ofCodec "conformances" texts conformances (fun a o => { o with conformances := a }) o,
   ofCodec "import_foundation" flag importFoundation
     (fun a o => { o with importFoundation := a }) o,
   ofCodec "primitives" table primitives (fun a o => { o with primitives := a }) o,
   ofCodec "strict_identifiers" flag strictIdentifiers
     (fun a o => { o with strictIdentifiers := a }) o]

/-- The settings of options for TypeScript. -/
def TypeScriptOptions.settings (o : TypeScriptOptions) : List (Setting TypeScriptOptions) :=
  [ofCodec "export" flag exported (fun a o => { o with exported := a }) o,
   ofCodec "object_style" (choice ObjectStyle.names ObjectStyle.name fun a => by cases a <;> rfl)
     objectStyle (fun a o => { o with objectStyle := a }) o,
   ofCodec "raw_enum_style"
     (choice RawEnumStyle.names RawEnumStyle.name fun a => by cases a <;> rfl)
     rawEnumStyle (fun a o => { o with rawEnumStyle := a }) o,
   ofCodec "doc_style" (choice DocStyle.names DocStyle.name fun a => by cases a <;> rfl)
     docStyle (fun a o => { o with docStyle := a }) o,
   ofCodec "union_layout" (choice UnionLayout.names UnionLayout.name fun a => by cases a <;> rfl)
     unionLayout (fun a o => { o with unionLayout := a }) o,
   ofCodec "primitives" table primitives (fun a o => { o with primitives := a }) o,
   ofCodec "strict_identifiers" flag strictIdentifiers
     (fun a o => { o with strictIdentifiers := a }) o]

/-- The settings of options for Rust. -/
def RustOptions.settings (o : RustOptions) : List (Setting RustOptions) :=
  [ofCodec "public" flag isPublic (fun a o => { o with isPublic := a }) o,
   ofCodec "derives" texts derives (fun a o => { o with derives := a }) o,
   ofCodec "serde" flag serde (fun a o => { o with serde := a }) o,
   ofCodec "raw_value_accessors" flag rawValueAccessors
     (fun a o => { o with rawValueAccessors := a }) o,
   ofCodec "primitives" table primitives (fun a o => { o with primitives := a }) o,
   ofCodec "strict_identifiers" flag strictIdentifiers
     (fun a o => { o with strictIdentifiers := a }) o]

/-- The settings of options for OpenAPI. -/
def OpenApiOptions.settings (o : OpenApiOptions) : List (Setting OpenApiOptions) :=
  [ofCodec "openapi_version" text openApiVersion (fun a o => { o with openApiVersion := a }) o,
   ofCodec "api_version" text apiVersion (fun a o => { o with apiVersion := a }) o,
   ofCodec "title" (option text fun _ => nofun) title (fun a o => { o with title := a }) o,
   ofCodec "primitives" table primitives (fun a o => { o with primitives := a }) o]

/-- The settings of the rules for names. -/
def RenameOptions.settings (o : RenameOptions) : List (Setting RenameOptions) :=
  [ofCodec "case" rule case (fun a o => { o with case := a }) o,
   ofCodec "variant" rule variant (fun a o => { o with variant := a }) o,
   ofCodec "field" rule field (fun a o => { o with field := a }) o]

end Settings

/-! ## Leaving members out -/

/-- The options with those of certain keys at their defaults. -/
def SwiftOptions.reset (gone : String → Bool) (o : SwiftOptions) : SwiftOptions :=
  let standard : SwiftOptions := {}
  { conformances := if gone "conformances" then standard.conformances else o.conformances
    importFoundation :=
      if gone "import_foundation" then standard.importFoundation else o.importFoundation
    primitives := if gone "primitives" then standard.primitives else o.primitives
    strictIdentifiers :=
      if gone "strict_identifiers" then standard.strictIdentifiers else o.strictIdentifiers }

/-- The options with those of certain keys at their defaults. -/
def TypeScriptOptions.reset (gone : String → Bool) (o : TypeScriptOptions) : TypeScriptOptions :=
  let standard : TypeScriptOptions := {}
  { exported := if gone "export" then standard.exported else o.exported
    objectStyle := if gone "object_style" then standard.objectStyle else o.objectStyle
    rawEnumStyle := if gone "raw_enum_style" then standard.rawEnumStyle else o.rawEnumStyle
    docStyle := if gone "doc_style" then standard.docStyle else o.docStyle
    unionLayout := if gone "union_layout" then standard.unionLayout else o.unionLayout
    primitives := if gone "primitives" then standard.primitives else o.primitives
    strictIdentifiers :=
      if gone "strict_identifiers" then standard.strictIdentifiers else o.strictIdentifiers }

/-- The options with those of certain keys at their defaults. -/
def RustOptions.reset (gone : String → Bool) (o : RustOptions) : RustOptions :=
  let standard : RustOptions := {}
  { isPublic := if gone "public" then standard.isPublic else o.isPublic
    derives := if gone "derives" then standard.derives else o.derives
    serde := if gone "serde" then standard.serde else o.serde
    rawValueAccessors :=
      if gone "raw_value_accessors" then standard.rawValueAccessors else o.rawValueAccessors
    primitives := if gone "primitives" then standard.primitives else o.primitives
    strictIdentifiers :=
      if gone "strict_identifiers" then standard.strictIdentifiers else o.strictIdentifiers }

/-- The options with those of certain keys at their defaults. -/
def OpenApiOptions.reset (gone : String → Bool) (o : OpenApiOptions) : OpenApiOptions :=
  let standard : OpenApiOptions := {}
  { openApiVersion := if gone "openapi_version" then standard.openApiVersion else o.openApiVersion
    apiVersion := if gone "api_version" then standard.apiVersion else o.apiVersion
    title := if gone "title" then standard.title else o.title
    primitives := if gone "primitives" then standard.primitives else o.primitives }

/-- The rules with those of certain keys at their defaults. -/
def RenameOptions.reset (gone : String → Bool) (o : RenameOptions) : RenameOptions :=
  let standard : RenameOptions := {}
  { case := if gone "case" then standard.case else o.case
    variant := if gone "variant" then standard.variant else o.variant
    field := if gone "field" then standard.field else o.field }

/-- Options for Swift, written and read. -/
def SwiftOptions.codec : SparseCodec SwiftOptions where
  read := SwiftOptions.read
  write := SwiftOptions.toJson
  reset := SwiftOptions.reset
  reads_back gone o :=
    have distinct :
        ["conformances", "import_foundation", "primitives", "strict_identifiers"].Nodup := by decide
    Setting.readRecord_eq o.settings distinct "SwiftOptions" gone {}
  plain gone o := Setting.plain_members o.settings gone

/-- Options for TypeScript, written and read. -/
def TypeScriptOptions.codec : SparseCodec TypeScriptOptions where
  read := TypeScriptOptions.read
  write := TypeScriptOptions.toJson
  reset := TypeScriptOptions.reset
  reads_back gone o :=
    have distinct :
        ["export", "object_style", "raw_enum_style", "doc_style", "union_layout", "primitives",
          "strict_identifiers"].Nodup := by decide
    Setting.readRecord_eq o.settings distinct "TypeScriptOptions" gone {}
  plain gone o := Setting.plain_members o.settings gone

/-- Options for Rust, written and read. -/
def RustOptions.codec : SparseCodec RustOptions where
  read := RustOptions.read
  write := RustOptions.toJson
  reset := RustOptions.reset
  reads_back gone o :=
    have distinct :
        ["public", "derives", "serde", "raw_value_accessors", "primitives",
          "strict_identifiers"].Nodup := by decide
    Setting.readRecord_eq o.settings distinct "RustOptions" gone {}
  plain gone o := Setting.plain_members o.settings gone

/-- Options for OpenAPI, written and read. -/
def OpenApiOptions.codec : SparseCodec OpenApiOptions where
  read := OpenApiOptions.read
  write := OpenApiOptions.toJson
  reset := OpenApiOptions.reset
  reads_back gone o :=
    have distinct :
        ["openapi_version", "api_version", "title", "primitives"].Nodup := by decide
    Setting.readRecord_eq o.settings distinct "OpenApiOptions" gone {}
  plain gone o := Setting.plain_members o.settings gone

/-- The rules for names, written and read. -/
def RenameOptions.codec : SparseCodec RenameOptions where
  read := RenameOptions.read
  write := RenameOptions.toJson
  reset := RenameOptions.reset
  reads_back gone o :=
    have distinct :
        ["case", "variant", "field"].Nodup := by decide
    Setting.readRecord_eq o.settings distinct "RenameOptions" gone {}
  plain gone o := Setting.plain_members o.settings gone

namespace Config

/-- A member of the JSON form of a configuration: one of its own, or one of the object that one of
its own holds. -/
inductive Member where
  | own (key : String)
  | inner (part key : String)
deriving DecidableEq

variable (gone : Member → Bool)

/-- The JSON form of a configuration without certain members. -/
def abridge : Json → Json
  | .object members =>
      .object ((members.map fun m => (m.1, m.2.without fun key => gone (.inner m.1 key))).filter
        fun m => !gone (.own m.1))
  | j => j

/-- A configuration with certain options at their defaults. -/
def reset (c : Config) : Config :=
  let standard : Config := {}
  { backends := if gone (.own "backends") then standard.backends else c.backends
    swift := if gone (.own "swift") then standard.swift
      else c.swift.reset fun key => gone (.inner "swift" key)
    typeScript := if gone (.own "typescript") then standard.typeScript
      else c.typeScript.reset fun key => gone (.inner "typescript" key)
    rust := if gone (.own "rust") then standard.rust
      else c.rust.reset fun key => gone (.inner "rust" key)
    openApi := if gone (.own "openapi") then standard.openApi
      else c.openApi.reset fun key => gone (.inner "openapi" key)
    skip := if gone (.own "skip") then standard.skip else c.skip
    rename := if gone (.own "rename") then standard.rename
      else c.rename.reset fun key => gone (.inner "rename" key) }

/-- The settings of a configuration, in whose parts certain members are left out. -/
def settings (c : Config) : List (Setting Config) :=
  [.ofCodec "backends" .texts backends (fun a c => { c with backends := a }) c,
   .ofSparse "swift" SwiftOptions.codec (fun key => gone (.inner "swift" key))
     swift (fun a c => { c with swift := a }) c,
   .ofSparse "typescript" TypeScriptOptions.codec (fun key => gone (.inner "typescript" key))
     typeScript (fun a c => { c with typeScript := a }) c,
   .ofSparse "rust" RustOptions.codec (fun key => gone (.inner "rust" key))
     rust (fun a c => { c with rust := a }) c,
   .ofSparse "openapi" OpenApiOptions.codec (fun key => gone (.inner "openapi" key))
     openApi (fun a c => { c with openApi := a }) c,
   .ofCodec "skip" .texts skip (fun a c => { c with skip := a }) c,
   .ofSparse "rename" RenameOptions.codec (fun key => gone (.inner "rename" key))
     rename (fun a c => { c with rename := a }) c]

/-- The members that are kept are those of the settings. -/
theorem abridge_toJson (c : Config) :
    abridge gone c.toJson =
      .object (Setting.members (c.settings gone) fun key => gone (.own key)) :=
  rfl

/-- A configuration is read from the members that are kept. -/
theorem read_abridge (c : Config) :
    Config.read (abridge gone c.toJson).toNode = .ok (c.reset gone) := by
  have distinct :
      ["backends", "swift", "typescript", "rust", "openapi", "skip", "rename"].Nodup := by decide
  exact Setting.readRecord_eq (c.settings gone) distinct "GeneratorConfig"
    (fun key => gone (.own key)) {}

theorem abridge_nothing (c : Config) : abridge (fun _ => false) c.toJson = c.toJson := by
  simp [abridge, toJson, without_nothing]

/-! ## The round trip -/

/-- Every text of a value is read as a configuration. The texts of the value include the compact
one and the indented one. -/
def Reads (j : Json) (c : Config) : Prop :=
  (∀ text, j.HasText text → Config.ofJsonText text = .ok c) ∧
    j.HasText j.compact ∧ j.HasText j.indented

theorem reads_abridge (c : Config) : Reads (abridge gone c.toJson) (c.reset gone) := by
  have plain : Plain (abridge gone c.toJson) := by
    rw [abridge_toJson]
    exact Setting.plain_members (c.settings gone) _
  refine ⟨fun text has => ?_, plain.hasText_compact, plain.hasText_indented⟩
  rw [Config.ofJsonText, has.ofText_eq, Document.read, read_abridge]
  rfl

/-- **A configuration survives its JSON form, and defaults stand in for what is left out.** Its JSON
form is read as the configuration itself. Without any set of members, of its own or of the objects
in it, the form is read as the configuration with exactly the options of these members at their
defaults. -/
theorem reads_with_defaults (c : Config) :
    Reads c.toJson c ∧ ∀ gone : Member → Bool, Reads (abridge gone c.toJson) (c.reset gone) := by
  refine ⟨?_, fun gone => reads_abridge gone c⟩
  have whole := reads_abridge (fun _ => false) c
  rwa [abridge_nothing] at whole

-- Options for Rust with a single member keep the others, not all of which are off by default.
example : (Config.ofJsonText "\x7b\"rust\": \x7b\"serde\": false\x7d\x7d").toOption =
    some { rust := { serde := false } } := by
  decide +kernel

end Config

end SchemaPress
