import SchemaPress.Command.Run

/-!
# The command on the files of the machine

The file store of the machine, and the entry point of the program.
-/

set_option autoImplicit false

namespace SchemaPress

namespace FileError

/-- The error of a code of the operating system, which may come with its sign changed. -/
def ofCode (code : UInt32) (details : String) : FileError :=
  let code := if code.toNat < 1 <<< 31 then code.toNat else 1 <<< 32 - code.toNat
  match code with
  | 2 => .notFound
  | 17 => .exists
  | 20 => .notDirectory
  | 21 => .isDirectory
  | 36 => .nameTooLong
  | _ => .other (details ++ " (os error " ++ Decimal.natText code ++ ")")

/-- An error of the machine as a file error. -/
def ofMachine : IO.Error → FileError
  | .alreadyExists _ code details => ofCode code details
  | .noFileOrDirectory _ code details => ofCode code details
  | .inappropriateType _ code details => ofCode code details
  | .invalidArgument _ code details => ofCode code details
  | .permissionDenied _ code details => ofCode code details
  | .resourceExhausted _ code details => ofCode code details
  | .otherError code details => ofCode code details
  | e => .other (toString e)

end FileError

/-- What an action gives, or why it fails. -/
def attemptMachine {α : Type} (action : IO α) : IO (Except FileError α) := do
  try
    return .ok (← action)
  catch e =>
    return .error (FileError.ofMachine e)

/-- The text that bytes encode. -/
def decodeText (bytes : ByteArray) : Except FileError String :=
  match String.fromUTF8? bytes with
  | some text => .ok text
  | none => .error .notText

instance : FileStore IO where
  readInput := do return (← attemptMachine (← IO.getStdin).readBinToEnd).bind decodeText
  readText path := do return (← attemptMachine (IO.FS.readBinFile path)).bind decodeText
  isDirectory path := do
    match ← attemptMachine (IO.FS.realPath path) with
    | .ok place => place.isDir
    | .error _ => return false
  makeDirectory path := attemptMachine (IO.FS.createDir path)
  writeText path text := attemptMachine (IO.FS.writeFile path text)

end SchemaPress

/-- Runs the command and prints what it left. -/
def main (arguments : List String) : IO UInt32 := do
  let outcome ← SchemaPress.Command.run arguments
  IO.eprint outcome.err
  IO.print outcome.out
  return outcome.exit.toUInt32
