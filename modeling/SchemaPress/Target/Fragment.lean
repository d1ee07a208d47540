import SchemaPress.Schema.Diagnostic
import SchemaPress.Text.Lines

/-!
# Fragments of rendered text

A fragment is a piece of rendered text together with the reserved words that stand in it as
they are. Fragments are put together by appending them, so the reserved words come in the
order of the text. An emission is the text rendered so far with the diagnostics that it gave,
none of them twice. Rendering is done in steps that go on with an emission.
-/

set_option autoImplicit false

namespace SchemaPress

/-- A piece of rendered text and the reserved words that stand in it unescaped. -/
@[ext]
structure Fragment where
  text : String := ""
  collisions : List String := []
deriving DecidableEq, Repr

namespace Fragment

/-- A text without reserved words. -/
def ofText (s : String) : Fragment :=
  ⟨s, []⟩

instance : Coe String Fragment := ⟨ofText⟩

/-- One fragment after the other. -/
def append (a b : Fragment) : Fragment :=
  ⟨a.text ++ b.text, a.collisions ++ b.collisions⟩

instance : Append Fragment := ⟨append⟩

/-- A line, indented by four spaces for each level. -/
def line (level : Nat) (f : Fragment) : Fragment :=
  (Text.times level "    " : Fragment) ++ f ++ ("\n" : Fragment)

end Fragment

/-- The text rendered so far and the diagnostics that it gave. -/
structure Emission where
  text : String := ""
  diagnostics : List Diagnostic := []
deriving DecidableEq, Repr

namespace Emission

/-- Adds a diagnostic, unless it is there already. -/
def report (e : Emission) (d : Diagnostic) : Emission :=
  if e.diagnostics.contains d then e else { e with diagnostics := e.diagnostics ++ [d] }

/-- Adds a text. -/
def push (e : Emission) (s : String) : Emission :=
  { e with text := e.text ++ s }

/-- Adds a fragment rendered for a target and reports its reserved words. -/
def pushFragment (target : Target) (e : Emission) (f : Fragment) : Emission :=
  (f.collisions.map (.reservedIdentifier target)).foldl report (e.push f.text)

end Emission

/-- A step of rendering: it goes on with an emission and gives a value. -/
abbrev Emit : Type → Type :=
  StateM Emission

namespace Emit

/-- Adds a text. -/
def push (s : String) : Emit Unit :=
  modify fun e => e.push s

/-- Adds a line, indented by four spaces for each level. -/
def line (level : Nat) (s : String) : Emit Unit :=
  push (Fragment.line level s).text

/-- The text of a fragment, whose reserved words are reported for a target. -/
def spell (target : Target) (f : Fragment) : Emit String :=
  modifyGet fun e => (f.text, e.pushFragment target ⟨"", f.collisions⟩)

end Emit

end SchemaPress
