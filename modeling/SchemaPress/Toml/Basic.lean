/-!
# TOML values and the tree of a document

A document is read key by key into a tree that remembers how each of its tables came about. A
table named by a header cannot be named again, nor be extended by dotted keys; one that is only
implied by longer headers can still be named; one made by dotted keys can be extended only by
such keys, but headers may go through it.
-/

set_option autoImplicit false

namespace SchemaPress

/-- A TOML value. Floats are kept without their value, and dates and times as text. -/
inductive Toml where
  | string (s : String)
  | integer (n : Int)
  | float
  | bool (b : Bool)
  | moment (text : String)
  | array (items : List Toml)
  | table (entries : List (String × Toml))

namespace Toml

/-- How a table came about. -/
inductive Origin where
  /-- It was named by a header. -/
  | header
  /-- It stands on the way to a table named by a header. -/
  | implied
  /-- It stands on the way to a value with a dotted key. -/
  | dotted
deriving DecidableEq, Repr

/-- What a key of a document stands for. -/
inductive Item where
  | value (v : Toml)
  | table (origin : Origin) (entries : List (String × Item))
  /-- The tables with one header between double brackets, in order. -/
  | tables (tables : List (List (String × Item)))

/-- The entries of a table. -/
abbrev Entries := List (String × Item)

/-- The entries with another item for a key. -/
def replaceItem (key : String) (item : Item) : Entries → Entries
  | [] => [(key, item)]
  | (k, i) :: rest => if k = key then (k, item) :: rest else (k, i) :: replaceItem key item rest

/-- The entries with a value for a new key. -/
def put (key : String) (v : Toml) (entries : Entries) : Option Entries :=
  match entries.lookup key with
  | none => some (entries ++ [(key, .value v)])
  | some _ => none

/-- The list with its last element changed, if it has one. -/
def updateLast {α : Type} (f : α → Option α) : List α → Option (List α)
  | [] => none
  | [a] => (f a).map fun b => [b]
  | a :: rest => (updateLast f rest).map (a :: ·)

/-- The entries with a value for a dotted key, whose parts but the last are `first` and `path`. The
table that holds the value has to be made by dotted keys. -/
def putDotted (key : String) (v : Toml) :
    (first : String) → (path : List String) → Entries → Option Entries
  | first, [], entries =>
    match entries.lookup first with
    | none => some (entries ++ [(first, .table .dotted [(key, .value v)])])
    | some (.table .dotted below) =>
        (put key v below).map fun new => replaceItem first (.table .dotted new) entries
    | some _ => none
  | first, second :: path, entries =>
    match entries.lookup first with
    | none =>
        (putDotted key v second path []).map fun new => entries ++ [(first, .table .dotted new)]
    | some (.table .header _) => none
    | some (.table origin below) =>
        (putDotted key v second path below).map fun new =>
          replaceItem first (.table origin new) entries
    | some (.tables tables) =>
        (updateLast (putDotted key v second path) tables).map fun new =>
          replaceItem first (.tables new) entries
    | some (.value _) => none

/-- The entries with a value for a key, which may be dotted. -/
def putKey (path : List String) (key : String) (v : Toml) (entries : Entries) : Option Entries :=
  match path with
  | [] => put key v entries
  | first :: rest => putDotted key v first rest entries

/-- Changes the table that a header's path leads to. Missing tables on the way are implied, and of
several tables with one header the last is meant. -/
def updateAt (change : Entries → Option Entries) : List String → Entries → Option Entries
  | [], entries => change entries
  | first :: path, entries =>
    match entries.lookup first with
    | none => (updateAt change path []).map fun new => entries ++ [(first, .table .implied new)]
    | some (.table origin below) =>
        (updateAt change path below).map fun new => replaceItem first (.table origin new) entries
    | some (.tables tables) =>
        (updateLast (updateAt change path) tables).map fun new =>
          replaceItem first (.tables new) entries
    | some (.value _) => none

/-- Names a table by a header: it has to be new or only implied. -/
def openTable (key : String) (entries : Entries) : Option Entries :=
  match entries.lookup key with
  | none => some (entries ++ [(key, .table .header [])])
  | some (.table .implied below) => some (replaceItem key (.table .header below) entries)
  | some _ => none

/-- Adds a table by a header between double brackets. -/
def addTable (key : String) (entries : Entries) : Option Entries :=
  match entries.lookup key with
  | none => some (entries ++ [(key, .tables [[]])])
  | some (.tables tables) => some (replaceItem key (.tables (tables ++ [[]])) entries)
  | some _ => none

mutual

/-- The value of an item. -/
def Item.toToml : Item → Toml
  | .value v => v
  | .table _ entries => .table (entriesToToml entries)
  | .tables tables => .array (tablesToToml tables)

/-- The values of entries. -/
def entriesToToml : List (String × Item) → List (String × Toml)
  | [] => []
  | (key, item) :: rest => (key, item.toToml) :: entriesToToml rest

/-- The values of tables. -/
def tablesToToml : List (List (String × Item)) → List Toml
  | [] => []
  | entries :: rest => .table (entriesToToml entries) :: tablesToToml rest

end

end Toml

end SchemaPress
