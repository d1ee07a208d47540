import SchemaPress.Schema.Check
import SchemaPress.Target.Backend

/-!
# Generators

A generator is a list of backends and the passes that run before them. It reshapes a schema,
checks it, and only if it is sound renders it for each backend in turn.
-/

set_option autoImplicit false

namespace SchemaPress

/-- Backends and the passes that run before them. -/
structure Generator where
  backends : List Backend := []
  /-- The declarations to leave out. -/
  skip : List String := []
  rename : RenameOptions := {}
deriving DecidableEq

namespace Generator

/-- The generator that a configuration describes. -/
def ofConfig (c : Config) : Except UnknownBackend Generator :=
  (Backend.ofConfig c).map fun backends => ⟨backends, c.skip, c.rename⟩

/-- The generator with all backends and default options. -/
def builtin : Generator where
  backends := Target.all.map (Backend.ofTarget {})

/-- The generator with one more backend. -/
def register (g : Generator) (b : Backend) : Generator :=
  { g with backends := g.backends ++ [b] }

/-- The generator with further declarations to leave out. -/
def withSkip (g : Generator) (names : List String) : Generator :=
  { g with skip := g.skip ++ names }

/-- The generator with other rules for names. -/
def withRename (g : Generator) (o : RenameOptions) : Generator :=
  { g with rename := o }

/-- Whether no pass changes a schema. -/
def isIdle (g : Generator) : Bool :=
  g.skip.isEmpty && g.rename.isNoop

/-- A schema after the passes. -/
def prepare (g : Generator) (s : Schema) : Schema :=
  let kept := if g.skip.isEmpty then s else s.skip g.skip
  if g.rename.isNoop then kept else kept.rename g.rename

/-- The renderings of a schema, or the problems that it has after the passes. -/
def generate (g : Generator) (s : Schema) : Except (List Diagnostic) (List Rendering) := do
  let prepared := g.prepare s
  prepared.check
  return g.backends.map (·.render prepared)

end Generator

namespace Rendering

/-- Whether no rendering has a diagnostic. -/
def allClean (rs : List Rendering) : Bool :=
  rs.all fun r => r.diagnostics.isEmpty

/-- The first rendering for a target, given by its full name. -/
def find? (rs : List Rendering) (name : String) : Option Rendering :=
  rs.find? fun r => r.target.name == name

/-- The text for each target; of several renderings for one target the last counts. -/
def texts (rs : List Rendering) : List (Target × String) :=
  Target.all.filterMap fun t => (rs.reverse.find? (·.target = t)).map fun r => (t, r.text)

end Rendering

end SchemaPress
