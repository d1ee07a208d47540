import SchemaPress.Schema.Pass

/-!
# Arguments of the command

The arguments are gone through from left to right, and the first one that decides the matter
does so: a wrong argument, or a request for the version or for help. An option that takes a value
has it behind an equals sign, directly behind its letter, or as the next argument, which then may
not look like an option itself. After two dashes only the input may follow.
-/

set_option autoImplicit false

namespace SchemaPress.Command

/-- What the command is to do. -/
structure Options where
  /-- The file of the schema, or a dash for the standard input. -/
  input : String
  backends : List String := []
  outDir : Option String := none
  config : Option String := none
  skip : List String := []
  rename : Option RenameRule := none
  strictIdentifiers : Bool := false
  strictReferences : Bool := false
  verbose : Bool := false
deriving DecidableEq, Repr

/-- What a list of arguments asks for. -/
inductive Request where
  | run (options : Options)
  | version
  | help
  /-- The arguments are wrong. -/
  | misuse
deriving DecidableEq, Repr

/-- The arguments read so far; the input may still be missing. -/
structure Draft where
  input : Option String := none
  options : Options := { input := "" }

/-- An argument that may be given. -/
inductive Switch where
  | backend
  | outDir
  | config
  | skip
  | rename
  | strictIdentifiers
  | strictReferences
  | verbose
  | version
  | help
deriving DecidableEq, Repr

namespace Switch

/-- The long names. -/
def longNames : List (String × Switch) :=
  [("backend", .backend), ("out-dir", .outDir), ("config", .config), ("skip", .skip),
   ("rename", .rename), ("strict-identifiers", .strictIdentifiers),
   ("strict-references", .strictReferences), ("verbose", .verbose), ("version", .version),
   ("help", .help)]

/-- The letters. -/
def letters : List (Char × Switch) :=
  [('b', .backend), ('o', .outDir), ('c', .config), ('v', .verbose), ('V', .version), ('h', .help)]

/-- Whether a value belongs to the argument. -/
def takesValue : Switch → Bool
  | .backend => true
  | .outDir => true
  | .config => true
  | .skip => true
  | .rename => true
  | _ => false

end Switch

/-- The value, unless the option has one already. -/
def once {α : Type} (old : Option α) (new : α) : Except Request (Option α) :=
  if old.isSome then .error .misuse else .ok (some new)

/-- The flag set, unless it is set already. -/
def raise (old : Bool) : Except Request Bool :=
  if old then .error .misuse else .ok true

/-- A path, which may not be empty. -/
def nonempty (path : String) : Except Request String :=
  if path.isEmpty then .error .misuse else .ok path

namespace Draft

/-- Takes the input. -/
def setInput (d : Draft) (path : String) : Except Request Draft := do
  return { d with input := ← once d.input (← nonempty path) }

/-- Takes an option with its value. -/
def setValue (d : Draft) (switch : Switch) (value : String) : Except Request Draft := do
  let o := d.options
  let o ← match switch with
    | .backend => pure { o with backends := o.backends ++ [value] }
    | .skip => pure { o with skip := o.skip ++ [value] }
    | .outDir => pure { o with outDir := ← once o.outDir (← nonempty value) }
    | .config => pure { o with config := ← once o.config (← nonempty value) }
    | .rename =>
      match RenameRule.ofName? value with
      | some rule => pure { o with rename := ← once o.rename rule }
      | none => .error .misuse
    | _ => .error .misuse
  return { d with options := o }

/-- Takes a flag, or answers a request. -/
def setFlag (d : Draft) (switch : Switch) : Except Request Draft := do
  let o := d.options
  let o ← match switch with
    | .strictIdentifiers =>
        pure { o with strictIdentifiers := ← raise o.strictIdentifiers }
    | .strictReferences => pure { o with strictReferences := ← raise o.strictReferences }
    | .verbose => pure { o with verbose := ← raise o.verbose }
    | .version => .error .version
    | .help => .error .help
    | _ => .error .misuse
  return { d with options := o }

/-- The request of all arguments. -/
def finish (d : Draft) : Request :=
  match d.input with
  | some input => .run { d.options with input := input }
  | none => .misuse

end Draft

/-- Whether an argument can be the value of the option in front of it. -/
def isValue (argument : String) : Bool :=
  argument = "-" || argument.toList.head? ≠ some '-'

/-- Takes an option whose value is the next argument. -/
def takeNext (d : Draft) (switch : Switch) : List String → Except Request (Draft × List String)
  | [] => .error .misuse
  | value :: rest => do
      if isValue value then return (← d.setValue switch value, rest) else .error .misuse

/-- Takes an argument of a long name, after its two dashes. -/
def takeLong (d : Draft) (argument : List Char) (rest : List String) :
    Except Request (Draft × List String) :=
  let name := String.ofList (argument.takeWhile (· ≠ '='))
  let attached := argument.dropWhile (· ≠ '=')
  match Switch.longNames.lookup name with
  | none => .error .misuse
  | some switch =>
    match switch.takesValue, attached with
    | true, [] => takeNext d switch rest
    | true, _ :: value => (d.setValue switch (String.ofList value)).map fun d => (d, rest)
    | false, [] => (d.setFlag switch).map fun d => (d, rest)
    | false, _ :: _ => .error .misuse

/-- Takes the letters of an argument, after its dash. An option with a value takes all that is left,
without an equals sign in front. -/
def takeLetters (rest : List String) : Draft → List Char → Except Request (Draft × List String)
  | d, [] => .ok (d, rest)
  | d, c :: cs =>
    match Switch.letters.lookup c with
    | none => .error .misuse
    | some switch =>
      if switch.takesValue then
        match cs with
        | [] => takeNext d switch rest
        | '=' :: value => (d.setValue switch (String.ofList value)).map fun d => (d, rest)
        | value => (d.setValue switch (String.ofList value)).map fun d => (d, rest)
      else do
        takeLetters rest (← d.setFlag switch) cs

/-- Takes arguments that can only be the input. -/
def takeInputs : Draft → List String → Except Request Draft
  | d, [] => .ok d
  | d, argument :: rest => do takeInputs (← d.setInput argument) rest

/-- Takes all arguments, of which there are at most `fuel`. -/
def takeAll : Nat → Draft → List String → Except Request Draft
  | _, d, [] => .ok d
  | 0, _, _ :: _ => .error .misuse
  | fuel + 1, d, argument :: rest =>
    match argument.toList with
    | ['-', '-'] => takeInputs d rest
    | '-' :: '-' :: long => do
        let (d, rest) ← takeLong d long rest
        takeAll fuel d rest
    | '-' :: c :: letters => do
        let (d, rest) ← takeLetters rest d (c :: letters)
        takeAll fuel d rest
    | _ => do takeAll fuel (← d.setInput argument) rest

/-- What a list of arguments asks for. -/
def Request.ofArguments (arguments : List String) : Request :=
  match takeAll arguments.length {} arguments with
  | .ok d => d.finish
  | .error request => request

end SchemaPress.Command
