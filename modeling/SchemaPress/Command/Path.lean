import SchemaPress.Text.Split

/-!
# Paths

A path is a text whose components are divided by slashes. It leads from the current directory,
or from the root if it begins with a slash.
-/

set_option autoImplicit false

namespace SchemaPress.Path

/-- The components of a path, in which a single dot stands for the directory itself and two dots for
the one above it. -/
def components (path : String) : List String :=
  ((Text.split '/' path.toList).filter fun part => !part.isEmpty).map String.ofList

/-- Whether a path leads from the root. -/
def isAbsolute (path : String) : Bool :=
  path.toList.head? = some '/'

/-- Whether a path ends with a slash, so that it can only lead to a directory. -/
def endsWithSlash (path : String) : Bool :=
  path.toList.getLast? = some '/'

/-- The components of a path without the single dots that change nothing: all of them but one in
front of a path that leads from the current directory. -/
def plainComponents (path : String) : List String :=
  match components path with
  | [] => []
  | first :: rest =>
      if first = "." && isAbsolute path then rest.filter (· ≠ ".")
      else first :: rest.filter (· ≠ ".")

/-- The paths of components in reverse order, from all of them down to the first one alone. -/
def chain (start : String) : List String → List String
  | [] => []
  | last :: before =>
      (start ++ String.intercalate "/" (before.reverse ++ [last])) :: chain start before

/-- The paths of the directories that a path stands in, the nearest one first. The root and the
current directory, which are always there, are not among them. -/
def ancestors (path : String) : List String :=
  chain (if isAbsolute path then "/" else "") (plainComponents path).dropLast.reverse

/-- The path of a name in a directory. A name that leads from the root stands for itself. -/
def join (directory name : String) : String :=
  if isAbsolute name || directory.isEmpty then name
  else if endsWithSlash directory then directory ++ name
  else directory ++ "/" ++ name

end SchemaPress.Path
