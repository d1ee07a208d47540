import SchemaPress.Json.Node
import SchemaPress.Decimal.Shortest
import SchemaPress.Text.Quoted

/-!
# Why a document cannot be read

A document fails because its text is faulty or because a well-formed value is of the wrong
shape. The second kind records what was found and what was expected; `Mismatch.message` is
the only place where this is put into words.
-/

set_option autoImplicit false

namespace SchemaPress.Json

/-- What stands in a document, as a message names it. -/
inductive Found where
  | null
  | bool (b : Bool)
  | integer (n : Int)
  | double (x : Float)
  | string (s : String)
  | sequence
  | map
  /-- The bare name of a variant that needs a value. -/
  | unitVariant

/-- What a reader expects, as a message names it. -/
inductive Expected where
  | string
  | bool
  | sequence
  | map
  | unit
  | record (name : String)
  /-- A record written as a sequence of this many fields. -/
  | recordFields (name : String) (count : Nat)
  /-- A sequence of this many elements. -/
  | elements (count : Nat)
  /-- A choice whose tag is one of its members. -/
  | tagged (name : String)
  /-- A choice whose tag and content are two members. -/
  | taggedContent (name : String)
  | variantName
  | stringOrMap
  | singleKey
  /-- The value of a variant. -/
  | variantValue
deriving DecidableEq, Repr

/-- How a well-formed document has the wrong shape. -/
inductive Mismatch where
  | wrongType (found : Found) (expected : Expected)
  | wrongValue (found : Found) (expected : Expected)
  | wrongLength (length : Nat) (expected : Expected)
  | missingField (key : String)
  | duplicateField (key : String)
  | unknownVariant (name : String) (known : List String)

/-- Why a document cannot be read. -/
inductive ReadError where
  | fault (f : Fault)
  | mismatch (m : Mismatch)

/-- Text between backticks. -/
def ticked (s : String) : String :=
  "`" ++ s ++ "`"

/-- The name of what was found. -/
def Found.message : Found → String
  | .null => "null"
  | .bool b => "boolean " ++ ticked (if b then "true" else "false")
  | .integer n => "integer " ++ ticked (Decimal.intText n)
  | .double x => "floating point " ++ ticked (Decimal.ofFloat x)
  | .string s => "string " ++ Text.quoted s
  | .sequence => "sequence"
  | .map => "map"
  | .unitVariant => "unit variant"

/-- A number of elements. -/
def elementCount (n : Nat) : String :=
  if n = 1 then "1 element" else Decimal.natText n ++ " elements"

/-- The name of what was expected. -/
def Expected.message : Expected → String
  | .string => "a string"
  | .bool => "a boolean"
  | .sequence => "a sequence"
  | .map => "a map"
  | .unit => "unit"
  | .record name => "struct " ++ name
  | .recordFields name count => "struct " ++ name ++ " with " ++ elementCount count
  | .elements count => elementCount count ++ " in sequence"
  | .tagged name => "internally tagged enum " ++ name
  | .taggedContent name => "adjacently tagged enum " ++ name
  | .variantName => "variant identifier"
  | .stringOrMap => "string or map"
  | .singleKey => "map with a single key"
  | .variantValue => "newtype variant"

/-- The names a choice allows. -/
def knownNames : List String → String
  | [] => "there are no variants"
  | [a] => "expected " ++ ticked a
  | [a, b] => "expected " ++ ticked a ++ " or " ++ ticked b
  | names => "expected one of " ++ String.intercalate ", " (names.map ticked)

/-- A mismatch in words. -/
def Mismatch.message : Mismatch → String
  | .wrongType found expected =>
      "invalid type: " ++ found.message ++ ", expected " ++ expected.message
  | .wrongValue found expected =>
      "invalid value: " ++ found.message ++ ", expected " ++ expected.message
  | .wrongLength length expected =>
      "invalid length " ++ Decimal.natText length ++ ", expected " ++ expected.message
  | .missingField key => "missing field " ++ ticked key
  | .duplicateField key => "duplicate field " ++ ticked key
  | .unknownVariant name known => "unknown variant " ++ ticked name ++ ", " ++ knownNames known

/-- The error of a type that is not the expected one. -/
def wrongType {α : Type} (found : Found) (expected : Expected) : Except ReadError α :=
  .error (.mismatch (.wrongType found expected))

/-- The result of a scan as the result of a reader. -/
def ofScan {α : Type} : Except Fault α → Except ReadError α
  | .ok a => .ok a
  | .error f => .error (.fault f)

end SchemaPress.Json
