import SchemaPress.Format
import SchemaPress.Json.ReadError

/-!
# Reading values from a tree

Readers walk a tree from left to right and stop at the first problem. Most of a document is
read as it comes (`Pace.streaming`). A part that can only be interpreted once all of it is
known is first taken in as a whole (`Node.settle`), which finds every fault in it, and is then
read as a complete value (`Pace.settled`); the two paces differ in what they make of an array
that is too long.

A record is described by its slots. It may be written as an object, in any order and among
other members, or as an array of its fields in the order of the slots.
-/

set_option autoImplicit false

namespace SchemaPress.Json

/-- Whether a value is read as it comes or after it has been taken in as a whole. -/
inductive Pace where
  | streaming
  | settled
deriving DecidableEq, Repr

/-- The number of arrays and objects that may be nested in a document. -/
def maxDepth : Nat := 127

/-! ## Passing and taking in -/

mutual

/-- Passes a value without looking at what it says. -/
def Node.pass : Node → Except ReadError Unit
  | .null spelled => ofScan spelled
  | .bool _ spelled => ofScan spelled
  | .number _ passed => ofScan passed
  | .string _ passed => ofScan passed
  | .array items => items.pass
  | .object members => members.pass
  | .missing f => .error (.fault f)

/-- Passes the rest of an array. -/
def Items.pass : Items → Except ReadError Unit
  | .close => .ok ()
  | .broken f => .error (.fault f)
  | .item value rest => do
      value.pass
      rest.pass

/-- Passes the rest of an object. Its keys need not be texts. -/
def Members.pass : Members → Except ReadError Unit
  | .close => .ok ()
  | .broken f => .error (.fault f)
  | .member _ value rest => do
      value.pass
      rest.pass

end

mutual

/-- Takes in a value as a whole, if it nests no deeper than `room` arrays and objects. -/
def Node.settle : Nat → Node → Except ReadError Unit
  | _, .null spelled => ofScan spelled
  | _, .bool _ spelled => ofScan spelled
  | _, .number taken _ => ofScan (taken.map fun _ => ())
  | _, .string taken _ => ofScan (taken.map fun _ => ())
  | room, .array items => if room = 0 then .error (.fault .malformed) else items.settle (room - 1)
  | room, .object members =>
      if room = 0 then .error (.fault .malformed) else members.settle (room - 1)
  | _, .missing f => .error (.fault f)

/-- Takes in the rest of an array. -/
def Items.settle : Nat → Items → Except ReadError Unit
  | _, .close => .ok ()
  | _, .broken f => .error (.fault f)
  | room, .item value rest => do
      value.settle room
      rest.settle room

/-- Takes in the rest of an object. -/
def Members.settle : Nat → Members → Except ReadError Unit
  | _, .close => .ok ()
  | _, .broken f => .error (.fault f)
  | room, .member key value rest => do
      let _ ← ofScan key
      value.settle room
      rest.settle room

end

/-! ## Single values -/

/-- What stands at a node, or the fault in it. -/
def Node.found : Node → Except ReadError Found
  | .null spelled => ofScan (spelled.map fun _ => .null)
  | .bool b spelled => ofScan (spelled.map fun _ => .bool b)
  | .number taken _ => ofScan (taken.map fun
      | .integer n => .integer n
      | .double x => .double x)
  | .string taken _ => ofScan (taken.map .string)
  | .array _ => .ok .sequence
  | .object _ => .ok .map
  | .missing f => .error (.fault f)

/-- The error of a node that holds something else than expected. -/
def Node.unlike {α : Type} (n : Node) (expected : Expected) : Except ReadError α := do
  wrongType (← n.found) expected

/-- The error of a node, in place of which the text has no value that could be read at all. -/
def Node.unreadable {α : Type} : Node → Except ReadError α
  | .missing f => .error (.fault f)
  | _ => .error (.fault .malformed)

/-- The string at a node. -/
def Node.readString : Node → Except ReadError String
  | .string taken _ => ofScan taken
  | n => n.unlike .string

/-- The truth value at a node. -/
def Node.readBool : Node → Except ReadError Bool
  | .bool b spelled => ofScan (spelled.map fun _ => b)
  | n => n.unlike .bool

/-- The value at a node, or nothing if it is `null`. -/
def Node.readOption {α : Type} (read : Node → Except ReadError α) :
    Node → Except ReadError (Option α)
  | .null spelled => ofScan (spelled.map fun _ => none)
  | n => (read n).map some

/-- Accepts only `null`. -/
def Node.readUnit : Node → Except ReadError Unit
  | .null spelled => ofScan spelled
  | n => n.unlike .unit

/-- The values of the rest of an array. -/
def Items.readAll {α : Type} (read : Node → Except ReadError α) :
    Items → Except ReadError (List α)
  | .close => .ok []
  | .broken f => .error (.fault f)
  | .item value rest => do
      let a ← read value
      let as ← rest.readAll read
      return a :: as

/-- The values of an array. -/
def Node.readList {α : Type} (read : Node → Except ReadError α) :
    Node → Except ReadError (List α)
  | .array items => items.readAll read
  | n => n.unlike .sequence

/-- The pairs of key and value of the rest of an object. -/
def Members.readAll {α : Type} (read : Node → Except ReadError α) :
    Members → Except ReadError (List (String × α))
  | .close => .ok []
  | .broken f => .error (.fault f)
  | .member key value rest => do
      let k ← ofScan key
      let a ← read value
      let kas ← rest.readAll read
      return (k, a) :: kas

/-- The pairs of key and value of an object. -/
def Node.readPairs {α : Type} (read : Node → Except ReadError α) :
    Node → Except ReadError (List (String × α))
  | .object members => members.readAll read
  | n => n.unlike .map

/-- The choice of a given name. -/
def chooseName {α : Type} (choices : List (String × α)) (name : String) : Except ReadError α :=
  match choices.lookup name with
  | some a => .ok a
  | none => .error (.mismatch (.unknownVariant name (choices.map (·.1))))

/-- The name of a choice. -/
def Node.readName {α : Type} (choices : List (String × α)) : Node → Except ReadError α
  | .string taken _ => do chooseName choices (← ofScan taken)
  | n => n.unlike .variantName

/-- Accepts only the end of an object. -/
def Members.finish : Members → Except ReadError Unit
  | .close => .ok ()
  | .broken f => .error (.fault f)
  | .member _ _ _ => .error (.fault .malformed)

/-- One of several choices without content: its name, or an object whose only member has that
name and the value `null`. -/
def Node.readChoice {α : Type} (choices : List (String × α)) : Node → Except ReadError α
  | .string taken _ => do chooseName choices (← ofScan taken)
  | .object (.member key value rest) => do
      let a ← chooseName choices (← ofScan key)
      value.readUnit
      rest.finish
      return a
  | .object .close => .error (.fault .malformed)
  | .object (.broken f) => .error (.fault f)
  | n => n.unreadable

/-! ## Records -/

/-- Fills a record from the members of an object. Members without a slot are passed, and a slot is
filled once. -/
def Members.fill {σ : Type} (slots : List (Slot Node ReadError σ)) :
    List String → σ → Members → Except ReadError σ
  | seen, s, .close =>
      match firstMissing slots seen with
      | some key => .error (.mismatch (.missingField key))
      | none => .ok s
  | _, _, .broken f => .error (.fault f)
  | seen, s, .member key value rest => do
      let k ← ofScan key
      match slots.find? (·.key == k) with
      | none =>
          value.pass
          rest.fill slots seen s
      | some slot =>
          if seen.contains k then .error (.mismatch (.duplicateField k))
          else
            let s' ← slot.store value s
            rest.fill slots (k :: seen) s'

/-- The number of items in the rest of an array. -/
def Items.count : Items → Nat
  | .item _ rest => rest.count + 1
  | _ => 0

/-- Accepts only the end of an array, after `filled` items that fill a record. -/
def Items.finish (pace : Pace) (filled : Nat) : Items → Except ReadError Unit
  | .close => .ok ()
  | .broken f => .error (.fault f)
  | .item value rest =>
      match pace with
      | .streaming => .error (.fault .malformed)
      | .settled =>
          .error (.mismatch (.wrongLength (filled + (Items.item value rest).count)
            (.elements filled)))

/-- Fills a record from the items of an array, one slot after the other. -/
def Items.fill {σ : Type} (pace : Pace) (name : String) (total : Nat) :
    Nat → List (Slot Node ReadError σ) → σ → Items → Except ReadError σ
  | filled, [], s, items => do
      items.finish pace filled
      return s
  | _, _ :: _, _, .broken f => .error (.fault f)
  | filled, slot :: slots, s, .close =>
      if slot.required then .error (.mismatch (.wrongLength filled (.recordFields name total)))
      else Items.fill pace name total (filled + 1) slots s .close
  | filled, slot :: slots, s, .item value rest => do
      let s' ← slot.store value s
      Items.fill pace name total (filled + 1) slots s' rest

/-- The record at a node, starting from `init`. -/
def Node.readRecord {σ : Type} (pace : Pace) (name : String)
    (slots : List (Slot Node ReadError σ)) (init : σ) : Node → Except ReadError σ
  | .object members => members.fill slots [] init
  | .array items => items.fill pace name slots.length 0 slots init
  | n => n.unlike (.record name)

/-- Parts of a configuration, read from a JSON text as they come. -/
instance : Format Node ReadError where
  text := Node.readString
  flag := Node.readBool
  list := Node.readList
  optional := Node.readOption
  table := Node.readPairs Node.readString
  choice := Node.readChoice
  record := Node.readRecord .streaming

/-! ## Documents -/

/-- Reads the value of a document, after which nothing may follow. -/
def Document.read {α : Type} (d : Document) (read : Node → Except ReadError α) :
    Except ReadError α := do
  let a ← read d.root
  if d.trailing then .error (.fault .malformed) else return a

end SchemaPress.Json
