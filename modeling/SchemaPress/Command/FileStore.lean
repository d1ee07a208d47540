import SchemaPress.Command.Path

/-!
# Access to files

What the command needs of a file system: the text of a file, directories, and writing files.
The operations are those of any monad that offers them, so that the command can be run on files
of the machine and on a file tree that is a value alike. A directory is made together with those that
it stands in.
-/

set_option autoImplicit false

namespace SchemaPress

/-- Why a file cannot be read or written. -/
inductive FileError where
  | notFound
  | exists
  | notDirectory
  | isDirectory
  | nameTooLong
  /-- The content is not encoded as text. -/
  | notText
  /-- The path has a character that no path can have. -/
  | invalidName
  /-- Another error of the operating system, in its own words. -/
  | other (message : String)
deriving DecidableEq, Repr

/-- A file error in the words of the operating system. -/
def FileError.message : FileError → String
  | .notFound => "No such file or directory (os error 2)"
  | .exists => "File exists (os error 17)"
  | .notDirectory => "Not a directory (os error 20)"
  | .isDirectory => "Is a directory (os error 21)"
  | .nameTooLong => "File name too long (os error 36)"
  | .notText => "stream did not contain valid UTF-8"
  | .invalidName => "file name contained an unexpected NUL byte"
  | .other message => message

/-- A monad with access to files and to the standard input. -/
class FileStore (m : Type → Type) where
  /-- The text of the standard input. -/
  readInput : m (Except FileError String)
  /-- The text of the file at a path. -/
  readText : String → m (Except FileError String)
  /-- Whether a path leads to a directory. -/
  isDirectory : String → m Bool
  /-- Makes the directory at a path, in a directory that is there. -/
  makeDirectory : String → m (Except FileError Unit)
  /-- Writes a text to the file at a path, in place of what the file held. -/
  writeText : String → String → m (Except FileError Unit)

namespace FileStore

variable {m : Type → Type} [Monad m] [FileStore m]

/-- The result of making a directory: one that is there already is as good. -/
def orPresent (path : String) : Except FileError Unit → m (Except FileError Unit)
  | .ok _ => return .ok ()
  | .error e => return if ← isDirectory path then .ok () else .error e

/-- Makes the first directory of a list, each of which stands in the next one, after those that it
stands in, if they are missing. -/
def makeChain : List String → m (Except FileError Unit)
  | [] => return .ok ()
  | path :: above => do
    match ← makeDirectory path with
    | .error .notFound =>
      match ← makeChain above with
      | .error e => return .error e
      | .ok _ => orPresent path (← makeDirectory path)
    | result => orPresent path result

/-- Makes the directory at a path, and those that it stands in, as far as they are missing. -/
def makeDirectories (path : String) : m (Except FileError Unit) :=
  makeChain (path :: Path.ancestors path)

end FileStore

end SchemaPress
