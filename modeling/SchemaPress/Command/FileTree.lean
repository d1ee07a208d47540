import SchemaPress.Command.FileStore
import SchemaPress.Command.Path

/-!
# File trees

A file tree is a value that behaves like a file system: files with their bytes, in directories,
with a current directory. Reading, making directories and writing follow the rules of paths, and
fail as they would on a disk.
-/

set_option autoImplicit false

namespace SchemaPress

/-- A file with its bytes, or a directory with what it holds. -/
inductive FileNode where
  | file (content : ByteArray)
  | directory (entries : List (String × FileNode))

namespace FileNode

/-- What a node holds under a name. -/
def get? (n : FileNode) (name : String) : Option FileNode :=
  match n with
  | .file _ => none
  | .directory entries => entries.lookup name

/-- What stands at the end of a list of names. -/
def find? : FileNode → List String → Option FileNode
  | n, [] => some n
  | n, name :: names => (n.get? name).bind fun below => below.find? names

/-- Entries with another node for a name. -/
def setEntry (name : String) (node : FileNode) :
    List (String × FileNode) → List (String × FileNode)
  | [] => [(name, node)]
  | (k, n) :: rest => if k = name then (k, node) :: rest else (k, n) :: setEntry name node rest

/-- The tree with another node at the end of a list of names. -/
def set (node : FileNode) : FileNode → List String → FileNode
  | _, [] => node
  | .file content, _ :: _ => .file content
  | .directory entries, name :: names =>
      let below := (entries.lookup name).getD (.directory [])
      .directory (setEntry name (set node below names) entries)

/-- Whether a node is a directory. -/
def isDirectory : FileNode → Bool
  | .file _ => false
  | .directory _ => true

end FileNode

/-- Files in directories, the names that lead from the root to the current directory, and the text of
the standard input. -/
structure FileTree where
  root : FileNode := .directory []
  current : List String := []
  input : String := ""

namespace FileTree

/-- The greatest number of bytes in a name. -/
def maxName : Nat := 255

/-- The greatest number of bytes in a path. -/
def maxPath : Nat := 4095

/-- The names that lead to the end of a path, given those of the directory where it begins. All
directories on the way have to be there; what stands at the end does not. -/
def walk (t : FileTree) : List String → List String → Except FileError (List String)
  | here, [] => .ok here
  | here, name :: rest =>
    if name = "." then t.walk here rest
    else if name = ".." then t.walk here.dropLast rest
    else if maxName < name.utf8ByteSize then .error .nameTooLong
    else
      match rest, t.root.find? (here ++ [name]) with
      | [], _ => .ok (here ++ [name])
      | _ :: _, none => .error .notFound
      | _ :: _, some (.file _) => .error .notDirectory
      | _ :: _, some (.directory _) => t.walk (here ++ [name]) rest

/-- The names that lead to the end of a path. -/
def locate (t : FileTree) (path : String) : Except FileError (List String) :=
  if path.toList.contains '\x00' then .error .invalidName
  else if path.isEmpty then .error .notFound
  else if maxPath < path.utf8ByteSize then .error .nameTooLong
  else t.walk (if Path.isAbsolute path then [] else t.current) (Path.components path)

/-- Whether a path leads to a directory. -/
def isDirectory (t : FileTree) (path : String) : Bool :=
  match t.locate path with
  | .ok names => (t.root.find? names).any (·.isDirectory)
  | .error _ => false

/-- The text of the file at a path. -/
def readText (t : FileTree) (path : String) : Except FileError String := do
  match t.root.find? (← t.locate path) with
  | none => .error .notFound
  | some (.directory _) => .error .isDirectory
  | some (.file content) =>
      if Path.endsWithSlash path then .error .notDirectory
      else
        match String.fromUTF8? content with
        | some text => .ok text
        | none => .error .notText

/-- The tree with a text in the file at a path. -/
def writeText (t : FileTree) (path text : String) : Except FileError FileTree := do
  let names ← t.locate path
  match t.root.find? names with
  | some (.directory _) => .error .isDirectory
  | _ =>
      if Path.endsWithSlash path then .error .isDirectory
      else return { t with root := FileNode.set (.file text.toUTF8) t.root names }

/-- The tree with a new directory at a path. -/
def makeDirectory (t : FileTree) (path : String) : Except FileError FileTree := do
  let names ← t.locate path
  match t.root.find? names with
  | some _ => .error .exists
  | none => return { t with root := FileNode.set (.directory []) t.root names }

/-- The result and the new tree, or the error and the old one. -/
def attempt (t : FileTree) : Except FileError FileTree → Except FileError Unit × FileTree
  | .ok t' => (.ok (), t')
  | .error e => (.error e, t)

instance : FileStore (StateM FileTree) where
  readInput := fun t => (.ok t.input, t)
  readText path := fun t => (t.readText path, t)
  isDirectory path := fun t => (t.isDirectory path, t)
  makeDirectory path := fun t => t.attempt (t.makeDirectory path)
  writeText path text := fun t => t.attempt (t.writeText path text)

end FileTree

end SchemaPress
