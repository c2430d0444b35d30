import Relay.Toml.Scalar
import Relay.Toml.Table

/-!
# Reading configuration files

A configuration file in the TOML format becomes a document, or nothing if it is
not well-formed: what is wrong with it does not matter.
-/

namespace Relay

namespace Toml

/-- Number of arrays and inline tables that may be nested, and of keys with dots
between them. -/
def deepest : Nat := 79

/-- The items of an array, after the opening bracket.  The first argument bounds
their number. -/
def items? (item? : Scan Document) : Nat → Scan (List Document)
  | 0, _ => none
  | count + 1, chars =>
      match skipLines chars.length chars with
      | ']' :: rest => some ([], rest)
      | chars =>
          (item? chars).bind fun (item, rest) =>
            match skipLines rest.length rest with
            | ',' :: rest => (items? item? count rest).map fun (items, rest) => (item :: items, rest)
            | ']' :: rest => some ([item], rest)
            | _ => none

/-- A dotted key and the value that is stored under it. -/
def keyValue? (value? : Scan Document) : Scan (List String × Document) := fun chars =>
  (keyPath? deepest chars).bind fun (path, rest) =>
    match rest with
    | '=' :: rest =>
        (value? (skipBlanks rest)).map fun (value, rest) => ((path, value), skipBlanks rest)
    | _ => none

/-- The entries of an inline table, after the opening brace and blanks.  The first
argument bounds their number. -/
def inlineEntries? (value? : Scan Document) : Nat → Entries → Scan Entries
  | 0, _, _ => none
  | count + 1, entries, chars =>
      (keyValue? value? chars).bind fun ((path, value), rest) =>
        (entries.store value path).bind fun entries =>
          match rest with
          | ',' :: rest => inlineEntries? value? count entries rest
          | '\x7d' :: rest => some (entries, rest)
          | _ => none

/-- An inline table, after the opening brace. -/
def inlineTable? (value? : Scan Document) : Scan Document := fun chars =>
  match skipBlanks chars with
  | '\x7d' :: rest => some (.table [] none, rest)
  | chars =>
      (inlineEntries? value? chars.length [] chars).map fun (entries, rest) =>
        (entries.document, rest)

/-- A value in which arrays and inline tables are nested at most so deep. -/
def value? : Nat → Scan Document
  | 0, chars =>
      match chars with
      | '[' :: _ | '\x7b' :: _ => none
      | _ => scalar? chars
  | depth + 1, chars =>
      match chars with
      | '[' :: rest =>
          (items? (value? depth) chars.length rest).map fun (items, rest) => (.list items none, rest)
      | '\x7b' :: rest => inlineTable? (value? depth) rest
      | _ => scalar? chars

/-- What was read of a file: its entries, and the table that the last header has
opened. -/
structure Progress where
  entries : Entries
  header : List String

/-- Open the table of a header. -/
def Progress.open? (progress : Progress) (path : List String)
    (open? : String → Entries → Option Entries) : Option Progress :=
  match path.getLast? with
  | some key =>
      (Entries.enter (open? key) path.dropLast progress.entries).map fun entries =>
        ⟨entries, path⟩
  | none => none

/-- Read what a line begins with, a header or a value with its key. -/
def expression? (progress : Progress) : Scan Progress
  | '[' :: '[' :: rest => do
      let (path, rest) ← keyPath? deepest rest
      let progress ← progress.open? path Entries.openElement
      let (_, rest) ← mark? ']' rest
      let (_, rest) ← mark? ']' rest
      return (progress, rest)
  | '[' :: rest => do
      let (path, rest) ← keyPath? deepest rest
      let progress ← progress.open? path Entries.openTable
      let (_, rest) ← mark? ']' rest
      return (progress, rest)
  | chars => do
      let ((path, value), rest) ← keyValue? (value? deepest) chars
      let entries ← Entries.enter (Entries.store value path) progress.header progress.entries
      return ({ progress with entries }, rest)

/-- Read the lines of a file.  The first argument bounds their number. -/
def lines? : Nat → Progress → List Char → Option Entries
  | 0, _, _ => none
  | count + 1, progress, chars =>
      match skipLines chars.length chars with
      | [] => some progress.entries
      | '#' :: rest => if (skipComment ('#' :: rest)).isEmpty then some progress.entries else none
      | chars =>
          (expression? progress chars).bind fun (progress, rest) =>
            (afterLine? rest).bind fun rest => lines? count progress rest

/-- Drop a byte order mark. -/
def skipMark : List Char → List Char
  | '\ufeff' :: rest => rest
  | chars => chars

/-- Read a configuration file. -/
def read? (text : String) : Option Document :=
  let chars := skipMark text.toList
  (lines? (chars.length + 1) ⟨[], []⟩ chars).map Entries.document

end Toml

end Relay
