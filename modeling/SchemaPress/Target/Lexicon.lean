import SchemaPress.PrimitiveTable
import SchemaPress.Target.Fragment

/-!
# Identifiers of a target

A lexicon is what a target says about names: the words it reserves, how it escapes one of
them, and the native types of primitives. If reserved words are to be reported, they stand in
the text as they are.
-/

set_option autoImplicit false

namespace SchemaPress

/-- Where an identifier stands. -/
inductive Position where
  | declaration
  | field
  | case
deriving DecidableEq, Repr

/-- What a target says about names. -/
structure Lexicon where
  reserved : List String
  /-- Whether reserved words are reported instead of escaped. -/
  strict : Bool
  /-- How a reserved word is escaped. -/
  escapeReserved : Position → String → String
  natives : PrimitiveTable

namespace Lexicon

variable (l : Lexicon)

/-- Whether a name is a reserved word. -/
def isReserved (name : String) : Bool :=
  l.reserved.contains name

/-- A name as an identifier, escaped if it is reserved. -/
def escape (position : Position) (name : String) : String :=
  if l.isReserved name then l.escapeReserved position name else name

/-- The identifier to write for a name. -/
def identifier (position : Position) (name : String) : Fragment :=
  if l.strict && l.isReserved name then ⟨name, [name]⟩
  else Fragment.ofText (l.escape position name)

/-- The type to write for a named type: its native type, or the identifier of its declaration. -/
def reference (name : String) : Fragment :=
  match l.natives.get? name with
  | some native => Fragment.ofText native
  | none => l.identifier .declaration name

end Lexicon

end SchemaPress
