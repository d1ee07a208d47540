/-!
# Document formats

A record is read from a document by its slots: the key of each field, whether it has to be
present, and what its value does to the record read so far. A document format says how its
values are read as texts, truth values, lists and records, so that a configuration is described
once and can be read from any format.
-/

set_option autoImplicit false

namespace SchemaPress

/-- A field of a record under construction: its key, whether it has to be present, and what a
value found for it does to the record. -/
structure Slot (ν ε σ : Type) where
  key : String
  required : Bool
  store : ν → σ → Except ε σ

namespace Slot

/-- A field that may be left out. -/
def optional {ν ε σ α : Type} (key : String) (read : ν → Except ε α) (set : α → σ → σ) :
    Slot ν ε σ :=
  ⟨key, false, fun v s => (read v).map fun a => set a s⟩

/-- A field that has to be present. -/
def needed {ν ε σ α : Type} (key : String) (read : ν → Except ε α) (set : α → σ → σ) :
    Slot ν ε σ :=
  ⟨key, true, fun v s => (read v).map fun a => set a s⟩

end Slot

/-- The first key that has to be present and has not been seen. -/
def firstMissing {ν ε σ : Type} (slots : List (Slot ν ε σ)) (seen : List String) :
    Option String :=
  (slots.find? fun slot => slot.required && !seen.contains slot.key).map (·.key)

/-- How the values `ν` of a document are read, with errors `ε`. -/
class Format (ν : Type) (ε : outParam Type) where
  text : ν → Except ε String
  flag : ν → Except ε Bool
  list {α : Type} : (ν → Except ε α) → ν → Except ε (List α)
  /-- A value that may be declared absent. -/
  optional {α : Type} : (ν → Except ε α) → ν → Except ε (Option α)
  /-- Pairs of texts. -/
  table : ν → Except ε (List (String × String))
  /-- One of several names. -/
  choice {α : Type} : List (String × α) → ν → Except ε α
  /-- A record of the given name, which starts from a given value. -/
  record {σ : Type} : String → List (Slot ν ε σ) → σ → ν → Except ε σ

end SchemaPress
