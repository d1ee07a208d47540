import SchemaPress.Target.OpenApi
import SchemaPress.Target.Rust
import SchemaPress.Target.Swift
import SchemaPress.Target.TypeScript

/-!
# Backends

A backend is a target with its options. It renders a schema step by step: a header, and then one
declaration after the other, with a separator between them. The whole ends with exactly one line
feed.
-/

set_option autoImplicit false

namespace SchemaPress

/-- A target with its options. -/
inductive Backend where
  | swift (options : SwiftOptions)
  | typeScript (options : TypeScriptOptions)
  | rust (options : RustOptions)
  | openApi (options : OpenApiOptions)
deriving DecidableEq

/-- A target name that there is no target for. -/
structure UnknownBackend where
  name : String
deriving DecidableEq, Repr

/-- An unknown target in words. -/
def UnknownBackend.message (u : UnknownBackend) : String :=
  "unknown backend `" ++ u.name ++ "` (available: "
    ++ String.intercalate ", " (Target.all.map Target.name) ++ ")"

namespace Backend

/-- A target with its options from a configuration. -/
def ofTarget (c : Config) : Target → Backend
  | .swift => .swift c.swift
  | .typeScript => .typeScript c.typeScript
  | .rust => .rust c.rust
  | .openApi => .openApi c.openApi

/-- The target of a name with its options from a configuration. -/
def ofName (c : Config) (name : String) : Except UnknownBackend Backend :=
  match Target.ofName? name with
  | some target => .ok (ofTarget c target)
  | none => .error ⟨name⟩

/-- The backends that a configuration asks for, or all of them if it names none. -/
def ofConfig (c : Config) : Except UnknownBackend (List Backend) :=
  if c.backends.isEmpty then .ok (Target.all.map (ofTarget c)) else c.backends.mapM (ofName c)

/-- The target of a backend. -/
def target : Backend → Target
  | .swift _ => .swift
  | .typeScript _ => .typeScript
  | .rust _ => .rust
  | .openApi _ => .openApi

/-- The backends for a language, with their options from a configuration. -/
def forLanguage (c : Config) (language : String) : List Backend :=
  (Target.all.filter (·.language == language)).map (ofTarget c)

/-- What the target can express. -/
def capabilities : Backend → Capabilities
  | .swift _ => Swift.capabilities
  | .typeScript o => TypeScript.capabilities o
  | .rust _ => Rust.capabilities
  | .openApi _ => OpenApi.capabilities

/-- What the target says about names. -/
def lexicon : Backend → Lexicon
  | .swift o => Swift.lexicon o
  | .typeScript o => TypeScript.lexicon o
  | .rust o => Rust.lexicon o
  | .openApi o => OpenApi.lexicon o

/-- A doc, indented by a number of levels. -/
def docText : Backend → Doc → Nat → String
  | .swift _ => Swift.docText
  | .typeScript o => TypeScript.docText o
  | .rust _ => Rust.docText
  | .openApi _ => OpenApi.docText

/-- The top of the text of a schema. -/
def header : Backend → Schema → String
  | .swift o => Swift.header o
  | .typeScript o => TypeScript.header o
  | .rust o => Rust.header o
  | .openApi o => OpenApi.header o

/-- What stands between two declarations. -/
def separator : Backend → String
  | .openApi _ => ""
  | _ => "\n"

/-- Emits a declaration that has been brought into the shape the target can express. -/
def emitRepresentation : Backend → Representation → Emit Unit
  | .swift o => Swift.emit o
  | .typeScript o => TypeScript.emit o
  | .rust o => Rust.emit o
  | .openApi o => OpenApi.emit o

/-- Emits a declaration into what has been rendered so far. -/
def emit (b : Backend) (e : Emission) (d : Declaration) : Emission :=
  (b.emitRepresentation (d.represent b.capabilities) e).2

/-- Emits declarations one after the other, all but the first after the separator. -/
def emitAll (b : Backend) (e : Emission) : List Declaration → Emission
  | [] => e
  | d :: ds => ds.foldl (fun e d => b.emit (e.push b.separator) d) (b.emit e d)

/-- A declaration that is emitted alone: its text and the reserved words that it reports. -/
def declarationText (b : Backend) (d : Declaration) : Fragment :=
  let alone := b.emit {} d
  ⟨alone.text, alone.diagnostics.filterMap Diagnostic.reservedWord?⟩

end Backend

/-- A schema rendered for a target. -/
structure Rendering where
  target : Target
  text : String
  diagnostics : List Diagnostic
deriving DecidableEq, Repr

/-- The name of the file of a rendering of a schema. -/
def Rendering.fileName (r : Rendering) (s : Schema) : String :=
  s.name ++ "." ++ r.target.extension

/-- Renders a schema, whether it is sound or not. -/
def Backend.render (b : Backend) (s : Schema) : Rendering :=
  let emission := b.emitAll (({} : Emission).push (b.header s)) s.declarations
  ⟨b.target, Text.endWithBreak emission.text, emission.diagnostics⟩

end SchemaPress
