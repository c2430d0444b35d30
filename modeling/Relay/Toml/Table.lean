import Relay.Json.Document

/-!
# Tables of configuration files

A file is a table that is built up in three ways: by headers, which open a table,
by double headers, which open a new table in a list of tables, and by values with
dotted keys.  No table is opened twice, and a dotted key does not reach into a
table that a header has opened.
-/

namespace Relay

namespace Toml

/-- How a table came into being. -/
inductive Making where
  /-- By its own header. -/
  | opened
  /-- On the way to the table of a header. -/
  | passed
  /-- On the way of a dotted key. -/
  | dotted
  deriving DecidableEq, Repr

/-- What stands under a key. -/
inductive Item where
  | value (document : Document)
  | table (making : Making) (entries : List (String × Item))
  | tables (elements : List (List (String × Item)))

/-- The entries of a table. -/
abbrev Entries := List (String × Item)

namespace Entries

/-- Put an item under a key, in place of one that is there. -/
def set (entries : Entries) (key : String) (item : Item) : Entries :=
  if (entries.lookup key).isSome then
    entries.map fun entry => if entry.1 == key then (key, item) else entry
  else entries ++ [(key, item)]

/-- Change the last table of a list of tables. -/
def changeLast (change : Entries → Option Entries) (elements : List Entries) :
    Option (List Entries) :=
  match elements.getLast? with
  | some last => (change last).map fun last => elements.dropLast ++ [last]
  | none => none

/-- Change the table to which the path of a header leads.  A list of tables is
passed through its last table. -/
def enter (change : Entries → Option Entries) : List String → Entries → Option Entries
  | [], entries => change entries
  | key :: path, entries =>
      match entries.lookup key with
      | none => (enter change path []).map fun inner => entries.set key (.table .passed inner)
      | some (.table making inner) =>
          (enter change path inner).map fun inner => entries.set key (.table making inner)
      | some (.tables elements) =>
          (changeLast (enter change path) elements).map fun elements =>
            entries.set key (.tables elements)
      | some (.value _) => none

/-- Open a table under a key. -/
def openTable (key : String) (entries : Entries) : Option Entries :=
  match entries.lookup key with
  | none => some (entries.set key (.table .opened []))
  | some (.table .passed inner) => some (entries.set key (.table .opened inner))
  | some (.table .opened _) | some (.table .dotted _) | some (.tables _) | some (.value _) => none

/-- Open a new table in the list of tables under a key. -/
def openElement (key : String) (entries : Entries) : Option Entries :=
  match entries.lookup key with
  | none => some (entries.set key (.tables [[]]))
  | some (.tables elements) => some (entries.set key (.tables (elements ++ [[]])))
  | some (.table _ _) | some (.value _) => none

/-- Store a value under a dotted key.  The last table on the way has to be one that
dotted keys have made. -/
def store (document : Document) : List String → Entries → Option Entries
  | [], _ => none
  | [key], entries =>
      if (entries.lookup key).isSome then none else some (entries.set key (.value document))
  | key :: next :: path, entries =>
      let isLast := path.isEmpty
      match entries.lookup key with
      | none =>
          (store document (next :: path) []).map fun inner =>
            entries.set key (.table .dotted inner)
      | some (.table .dotted inner) =>
          (store document (next :: path) inner).map fun inner =>
            entries.set key (.table .dotted inner)
      | some (.table .passed inner) =>
          if isLast then none
          else
            (store document (next :: path) inner).map fun inner =>
              entries.set key (.table .passed inner)
      | some (.tables elements) =>
          if isLast then none
          else
            (changeLast (store document (next :: path)) elements).map fun elements =>
              entries.set key (.tables elements)
      | some (.table .opened _) | some (.value _) => none

end Entries

mutual

/-- The document of an item. -/
def Item.document : Item → Document
  | .value document => document
  | .table _ entries => .table (entriesOf entries) none
  | .tables elements => .list (elementsOf elements) none

/-- The entries of the document of a table. -/
def entriesOf : List (String × Item) → List (Option String × Document)
  | [] => []
  | (key, item) :: rest => (some key, item.document) :: entriesOf rest

/-- The items of the document of a list of tables. -/
def elementsOf : List (List (String × Item)) → List Document
  | [] => []
  | element :: rest => .table (entriesOf element) none :: elementsOf rest

end

/-- The document of a whole table. -/
def Entries.document (entries : Entries) : Document := .table (entriesOf entries) none

end Toml

end Relay
