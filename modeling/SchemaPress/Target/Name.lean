/-!
# Targets

The four kinds of output: source text of three programming languages and an interface
description.
-/

set_option autoImplicit false

namespace SchemaPress

/-- What a schema can be rendered as. -/
inductive Target where
  | swift
  | typeScript
  | rust
  | openApi
deriving DecidableEq, Repr

namespace Target

/-- All targets, in the order in which they are rendered by default. -/
def all : List Target :=
  [.swift, .typeScript, .rust, .openApi]

/-- The name of a target. -/
def name : Target → String
  | .swift => "swift"
  | .typeScript => "typescript"
  | .rust => "rust"
  | .openApi => "openapi"

/-- The language of a target, which has its name. -/
def language (t : Target) : String :=
  t.name

/-- The extension of the files of a target. -/
def extension : Target → String
  | .swift => "swift"
  | .typeScript => "ts"
  | .rust => "rs"
  | .openApi => "yaml"

/-- The target of a name; one of them also has a short name. -/
def ofName? (name : String) : Option Target :=
  if name = "ts" then some .typeScript else all.find? (·.name == name)

end Target

end SchemaPress
