import SchemaPress.Command.Arguments
import SchemaPress.Command.FileStore
import SchemaPress.Command.Path
import SchemaPress.Generator
import SchemaPress.Schema.Decode
import SchemaPress.Toml.Document

/-!
# Running the command

The command reads its configuration and its schema, and only if both can be read and the schema
can be rendered for all targets does it print or write anything. What it prints is a value; files
are reached through the operations of a file store.
-/

set_option autoImplicit false

namespace SchemaPress.Command

/-- What a run leaves: its exit code and what it printed. -/
structure Outcome where
  exit : Nat
  out : String
  err : String
deriving DecidableEq, Repr

/-- Why a run fails. -/
inductive Failure where
  | unreadable (path : String) (e : FileError)
  | badSchema
  | badConfig (path : String)
  | unknownBackend (u : UnknownBackend)
  | unsound (problems : List Diagnostic)
  | unresolved (references : List UnresolvedReference)
  | unwritable (path : String) (e : FileError)
deriving DecidableEq, Repr

/-- A line about an error. -/
def errorLine (message : String) : String :=
  "error: " ++ message ++ "\n"

/-- A failure in words. -/
def Failure.message : Failure → String
  | .unreadable path e => errorLine ("failed to read " ++ path ++ ": " ++ e.message)
  | .badSchema => errorLine "failed to parse module tree"
  | .badConfig path => errorLine ("invalid config " ++ path)
  | .unknownBackend u => errorLine u.message
  | .unsound problems => errorLine (Diagnostic.summary problems)
  | .unresolved references =>
      String.join (references.map fun r => errorLine r.message)
        ++ errorLine (Decimal.natText references.length ++ " unresolved type reference(s)")
  | .unwritable path e => errorLine ("failed to write " ++ path ++ ": " ++ e.message)

/-! ## What is to be rendered -/

/-- A configuration as the arguments change it. -/
def Options.configure (o : Options) (c : Config) : Config :=
  { c with
    backends := if o.backends.isEmpty then c.backends else o.backends
    skip := c.skip ++ o.skip
    rename := (o.rename.map RenameOptions.all).getD c.rename
    swift := { c.swift with
      strictIdentifiers := c.swift.strictIdentifiers || o.strictIdentifiers }
    typeScript := { c.typeScript with
      strictIdentifiers := c.typeScript.strictIdentifiers || o.strictIdentifiers }
    rust := { c.rust with
      strictIdentifiers := c.rust.strictIdentifiers || o.strictIdentifiers } }

/-- The renderings of a schema by a configuration, which the arguments have changed already. -/
def Options.render (o : Options) (c : Config) (s : Schema) : Except Failure (List Rendering) := do
  let g ← (Generator.ofConfig c).mapError Failure.unknownBackend
  let unresolved := (g.prepare s).unresolved
  if o.strictReferences && !unresolved.isEmpty then .error (.unresolved unresolved)
  else (g.generate s).mapError Failure.unsound

/-! ## What is printed -/

/-- A line for each diagnostic of the renderings. -/
def warnings (rs : List Rendering) : String :=
  String.join (rs.map fun r => String.join (r.diagnostics.map fun d =>
    "warning[" ++ r.target.name ++ "]: " ++ d.message ++ "\n"))

/-- The name of a rendering's file as a headline. -/
def headline (s : Schema) (r : Rendering) : String :=
  "==> " ++ r.fileName s ++ " <==\n"

/-- The renderings as they are printed: a single one as it is, several below their headlines. -/
def printed (s : Schema) : List Rendering → String
  | [r] => r.text
  | rs => String.intercalate "\n" (rs.map fun r => headline s r ++ r.text)

/-- The name and the version of the command. -/
def versionText : String :=
  "typeloom 0.1.0\n"

/-- How the command is used. -/
def helpText : String :=
  "Generate Swift, TypeScript, Rust and OpenAPI types from one schema module\n\n"
    ++ "Usage: typeloom [OPTIONS] <INPUT>\n\n"
    ++ "Arguments:\n  <INPUT>  Module tree as JSON, use - for stdin\n\n"
    ++ "Options:\n"
    ++ "  -b, --backend <NAME>      Backend to run (repeatable; default: all)\n"
    ++ "  -o, --out-dir <DIR>       Write `<module>.<ext>` files here instead of printing\n"
    ++ "  -c, --config <FILE>       TOML generator config\n"
    ++ "      --skip <NAME>         Drop a declaration before generating (repeatable)\n"
    ++ "      --rename <RENAME>     Rename cases, variants and fields [possible values: camel]\n"
    ++ "      --strict-identifiers  Report reserved identifiers instead of escaping them\n"
    ++ "      --strict-references   Fail when a type reference names no declaration in the module\n"
    ++ "  -v, --verbose             Log debug output to stderr\n"
    ++ "  -h, --help                Print help\n"
    ++ "  -V, --version             Print version\n"

/-! ## Files -/

section Files

variable {m : Type → Type} [Monad m] [FileStore m]

/-- The configuration from the file that the arguments name, or the default one. -/
def readConfig (o : Options) : m (Except Failure Config) := do
  match o.config with
  | none => return .ok {}
  | some path =>
    match ← FileStore.readText path with
    | .error e => return .error (.unreadable path e)
    | .ok text => return (Config.ofTomlText text).mapError fun _ => .badConfig path

/-- The text of the input. -/
def readInput (path : String) : m (Except FileError String) :=
  if path = "-" then FileStore.readInput else FileStore.readText path

/-- The schema from the input. -/
def readSchema (o : Options) : m (Except Failure Schema) := do
  match ← readInput o.input with
  | .error e => return .error (.unreadable o.input e)
  | .ok text => return (Schema.ofJsonText text).mapError fun _ => .badSchema

/-- Writes texts to paths, up to the first that cannot be written. -/
def writeFiles : List (String × String) → m (Except Failure Unit)
  | [] => return .ok ()
  | (path, text) :: rest => do
    match ← FileStore.writeText path text with
    | .error e => return .error (.unwritable path e)
    | .ok _ => writeFiles rest

/-- The files of renderings in a directory. -/
def filesIn (dir : String) (s : Schema) (rs : List Rendering) : List (String × String) :=
  rs.map fun r => (Path.join dir (r.fileName s), r.text)

/-- Writes renderings to their files in a directory, which is made if it is missing. -/
def writeRenderings (dir : String) (s : Schema) (rs : List Rendering) :
    m (Except Failure Unit) := do
  match ← FileStore.makeDirectories dir with
  | .error e => return .error (.unwritable dir e)
  | .ok _ => writeFiles (filesIn dir s rs)

/-- The outcome of a failed run. -/
def failed (warned : String) (f : Failure) : Outcome :=
  ⟨1, "", warned ++ f.message⟩

/-- Prints or writes renderings. -/
def deliver (o : Options) (s : Schema) (rs : List Rendering) : m Outcome := do
  match o.outDir with
  | none => return ⟨0, printed s rs, warnings rs⟩
  | some dir =>
    match ← writeRenderings dir s rs with
    | .error f => return failed (warnings rs) f
    | .ok _ => return ⟨0, "", warnings rs⟩

/-- A run with given options. -/
def generate (o : Options) : m Outcome := do
  match ← readConfig o with
  | .error f => return failed "" f
  | .ok config =>
    match ← readSchema o with
    | .error f => return failed "" f
    | .ok s =>
      match o.render (o.configure config) s with
      | .error f => return failed "" f
      | .ok rs => deliver o s rs

/-- Runs the command with its arguments. -/
def run (arguments : List String) : m Outcome :=
  match Request.ofArguments arguments with
  | .run o => generate o
  | .version => return ⟨0, versionText, ""⟩
  | .help => return ⟨0, helpText, ""⟩
  | .misuse => return ⟨2, "", ""⟩

end Files

end SchemaPress.Command
