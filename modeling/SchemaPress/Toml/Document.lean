import SchemaPress.Config.Decode
import SchemaPress.Format
import SchemaPress.Toml.Scalar

/-!
# TOML documents

A document is a sequence of lines: headers, keys with values, comments and blank lines. A
header says which table the keys after it belong to. Documents are a format for configurations.
-/

set_option autoImplicit false

namespace SchemaPress

namespace Toml

/-! ## Values -/

/-- A text without blanks, line ends and comments at its beginning. A comment has to end its line. -/
def skipTrivia : Nat → List Char → Option (List Char)
  | 0, _ => none
  | fuel + 1, cs =>
    match skipSpace cs with
    | '#' :: rest => do
        let rest ← newline? (rest.dropWhile isCommentChar)
        skipTrivia fuel rest
    | rest =>
      match newline? rest with
      | some rest => skipTrivia fuel rest
      | none => some rest

mutual

/-- A value that nests less than `room` arrays and tables, and the text after it. -/
def value? : Nat → Nat → List Char → Option (Toml × List Char)
  | 0, _, _ => none
  | fuel + 1, room, cs =>
    match cs with
    | '[' :: rest =>
        if room ≤ 1 then none
        else (items? fuel (room - 1) rest).map fun (items, rest) => (.array items, rest)
    | '{' :: rest =>
        if room ≤ 1 then none
        else (entries? fuel (room - 1) true [] rest).map fun (entries, rest) =>
          (.table (entriesToToml entries), rest)
    | _ => scalar? cs

/-- The items of an array from its opening bracket or a comma on. -/
def items? : Nat → Nat → List Char → Option (List Toml × List Char)
  | 0, _, _ => none
  | fuel + 1, room, cs => do
    match ← skipTrivia (cs.length + 1) cs with
    | ']' :: rest => return ([], rest)
    | start =>
      let (item, rest) ← value? fuel room start
      match ← skipTrivia (rest.length + 1) rest with
      | ']' :: rest => return ([item], rest)
      | ',' :: rest =>
          let (items, rest) ← items? fuel room rest
          return (item :: items, rest)
      | _ => none

/-- The entries of a table between braces, from its opening brace or a comma on. -/
def entries? : Nat → Nat → Bool → Entries → List Char → Option (Entries × List Char)
  | 0, _, _, _, _ => none
  | fuel + 1, room, first, entries, cs => do
    match first, skipSpace cs with
    | true, '}' :: rest => return (entries, rest)
    | _, start =>
      let (path, key, rest) ← key? start
      let (v, rest) ← value? fuel room (skipSpace (← expect '=' rest))
      let entries ← putKey path key v entries
      match skipSpace rest with
      | '}' :: rest => return (entries, rest)
      | ',' :: rest => entries? fuel room false entries rest
      | _ => none

end

/-! ## Lines -/

/-- The text after the end of a line, in front of which blanks and a comment may stand. -/
def endLine? (cs : List Char) : Option (List Char) :=
  match skipComment (skipSpace cs) with
  | [] => some []
  | rest => newline? rest

/-- A header after its opening brackets, up to the end of its line. -/
def header? (close : List Char) (cs : List Char) :
    Option (List String × String × List Char) := do
  let (path, key, rest) ← key? cs
  if close.isPrefixOf rest then return (path, key, ← endLine? (rest.drop close.length)) else none

/-- A key with its value, up to the end of its line. -/
def assignment? (cs : List Char) : Option (List String × String × Toml × List Char) := do
  let (path, key, rest) ← key? cs
  let start := skipSpace (← expect '=' rest)
  let (v, rest) ← value? (2 * start.length + 2) depthLimit start
  return (path, key, v, ← endLine? rest)

/-- Reads the lines of a document into its tree. `current` is the path of the table that keys belong
to. -/
def readLines : Nat → List String → Entries → List Char → Option Entries
  | 0, _, _, _ => none
  | fuel + 1, current, tree, cs =>
    match skipSpace cs with
    | [] => some tree
    | '#' :: rest => do readLines fuel current tree (← endLine? ('#' :: rest))
    | '[' :: '[' :: rest => do
        let (path, key, rest) ← header? [']', ']'] rest
        let tree ← updateAt (addTable key) path tree
        readLines fuel (path ++ [key]) tree rest
    | '[' :: rest => do
        let (path, key, rest) ← header? [']'] rest
        let tree ← updateAt (openTable key) path tree
        readLines fuel (path ++ [key]) tree rest
    | start =>
      match newline? start with
      | some rest => readLines fuel current tree rest
      | none => do
          let (path, key, v, rest) ← assignment? start
          let tree ← updateAt (putKey path key v) current tree
          readLines fuel current tree rest

/-- A text without the mark of its encoding at its beginning. -/
def dropMark : List Char → List Char
  | '\ufeff' :: cs => cs
  | cs => cs

/-- The document of a text, if it is well formed. -/
def ofText? (text : String) : Option Toml :=
  let cs := dropMark text.toList
  (readLines (cs.length + 1) [] [] cs).map fun tree => .table (entriesToToml tree)

end Toml

/-! ## Configurations -/

/-- Why a TOML document gives no configuration. -/
inductive TomlError where
  /-- The text is not well formed. -/
  | malformed
  /-- A value has the wrong shape. -/
  | mismatch
deriving DecidableEq, Repr

namespace Toml

/-- The key under which a date or time is held where a table is expected. -/
def momentKey : String := "$__toml_private_datetime"

/-- A text. -/
def readText : Toml → Except TomlError String
  | .string s => .ok s
  | _ => .error .mismatch

/-- A truth value. -/
def readFlag : Toml → Except TomlError Bool
  | .bool b => .ok b
  | _ => .error .mismatch

/-- A list of values. -/
def readList {α : Type} (read : Toml → Except TomlError α) : Toml → Except TomlError (List α)
  | .array items => items.mapM read
  | _ => .error .mismatch

/-- A table as a list of pairs. -/
def readTable : Toml → Except TomlError (List (String × Toml))
  | .table entries => .ok entries
  | .moment text => .ok [(momentKey, .string text)]
  | _ => .error .mismatch

/-- A table of texts. -/
def readTexts (v : Toml) : Except TomlError (List (String × String)) := do
  (← readTable v).mapM fun (key, value) => (readText value).map fun text => (key, text)

/-- The choice of a name. -/
def chooseName {α : Type} (choices : List (String × α)) (name : String) : Except TomlError α :=
  match choices.lookup name with
  | some a => .ok a
  | none => .error .mismatch

/-- Whether a value is a collection without elements. -/
def isEmptyCollection : Toml → Bool
  | .array [] => true
  | .table [] => true
  | _ => false

/-- One of several names: a text, or a table whose only key has an empty collection. -/
def readChoice {α : Type} (choices : List (String × α)) : Toml → Except TomlError α
  | .string name => chooseName choices name
  | .table [(name, value)] => do
      let a ← chooseName choices name
      if value.isEmptyCollection then return a else .error .mismatch
  | _ => .error .mismatch

/-- Fills a record from the entries of a table. Entries without a slot are ignored. -/
def fillFromTable {σ : Type} (slots : List (Slot Toml TomlError σ)) :
    σ → List (String × Toml) → Except TomlError σ
  | s, [] => .ok s
  | s, (key, value) :: rest =>
    match slots.find? (·.key == key) with
    | none => fillFromTable slots s rest
    | some slot => do fillFromTable slots (← slot.store value s) rest

/-- Fills a record from the items of an array, one slot after the other. -/
def fillFromArray {σ : Type} : List (Slot Toml TomlError σ) → σ → List Toml → Except TomlError σ
  | slot :: slots, s, item :: items => do fillFromArray slots (← slot.store item s) items
  | _, s, _ => .ok s

/-- A record: a table with its fields among the entries, or an array of its fields. -/
def readRecord {σ : Type} (slots : List (Slot Toml TomlError σ)) (init : σ) (v : Toml) :
    Except TomlError σ :=
  match v with
  | .array items => fillFromArray slots init items
  | _ => do fillFromTable slots init (← readTable v)

/-- Parts of a configuration; nothing can be declared absent, and no part has to be present. -/
instance : Format Toml TomlError where
  text := readText
  flag := readFlag
  list := readList
  optional read v := (read v).map some
  table := readTexts
  choice := readChoice
  record _ := readRecord

end Toml

/-- The configuration that a TOML text describes. -/
def Config.ofTomlText (text : String) : Except TomlError Config :=
  match Toml.ofText? text with
  | some document => Config.read document
  | none => .error .malformed

end SchemaPress
