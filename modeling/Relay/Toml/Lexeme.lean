import Relay.Text.Hexadecimal

/-!
# Blanks, strings and keys of configuration files

A scan takes something off the beginning of a text and returns what it stands
for together with the rest of the text; it fails where the text does not begin
in this way.
-/

namespace Relay

namespace Toml

/-- Takes something off the beginning of a text. -/
abbrev Scan (α : Type) := List Char → Option (α × List Char)

/-- Blanks within a line. -/
def isBlank (char : Char) : Bool := char == ' ' || char == '\t'

/-- Characters that may stand in comments and strings. -/
def isPlain (char : Char) : Bool :=
  char == '\t' || (0x20 ≤ char.toNat && char.toNat ≠ 0x7f)

/-- Characters of a key without quotes. -/
def isBare (char : Char) : Bool := char.isAlphanum || char == '_' || char == '-'

/-- Drop blanks. -/
def skipBlanks (chars : List Char) : List Char := chars.dropWhile isBlank

/-- Drop a comment. -/
def skipComment : List Char → List Char
  | '#' :: rest => rest.dropWhile isPlain
  | chars => chars

/-- The text after a line break. -/
def afterBreak? : List Char → Option (List Char)
  | '\n' :: rest => some rest
  | '\r' :: '\n' :: rest => some rest
  | _ => none

/-- The text after the rest of a line that holds nothing but blanks and a comment. -/
def afterLine? (chars : List Char) : Option (List Char) :=
  match skipComment (skipBlanks chars) with
  | [] => some []
  | rest => afterBreak? rest

/-- Drop blanks, comments and line breaks.  The first argument bounds the number
of lines. -/
def skipLines : Nat → List Char → List Char
  | 0, chars => skipBlanks chars
  | lines + 1, chars =>
      match afterBreak? (skipComment (skipBlanks chars)) with
      | some rest => skipLines lines rest
      | none => skipBlanks chars

/-- Drop blanks and line breaks. -/
def skipSpace : List Char → List Char
  | '\r' :: '\n' :: rest => skipSpace rest
  | char :: rest => if isBlank char || char == '\n' then skipSpace rest else char :: rest
  | [] => []

/-- The character that a short escape stands for. -/
def shortEscape? : Char → Option Char
  | '"' => some '"'
  | '\\' => some '\\'
  | 'b' => some '\x08'
  | 'f' => some '\x0c'
  | 'n' => some '\n'
  | 'r' => some '\r'
  | 't' => some '\t'
  | _ => none

/-- The character with a code of so many hexadecimal digits. -/
def codeEscape? (count : Nat) : Scan Char := fun chars =>
  match (chars.take count).mapM Text.hexValue? with
  | some digits =>
      let code := digits.foldl (fun code digit => 16 * code + digit) 0
      if digits.length = count ∧ code.isValidChar then some (Char.ofNat code, chars.drop count)
      else none
  | none => none

/-- The character that an escape stands for, after the backslash. -/
def escape? : Scan Char
  | 'u' :: rest => codeEscape? 4 rest
  | 'U' :: rest => codeEscape? 8 rest
  | char :: rest => (shortEscape? char).map fun meant => (meant, rest)
  | [] => none

/-- Put a character in front of what a scan returns. -/
def prepend (char : Char) (found : Option (List Char × List Char)) :
    Option (List Char × List Char) :=
  found.map fun (chars, rest) => (char :: chars, rest)

/-- A string in double quotes, after the opening quote.  The first argument bounds
the number of characters. -/
def lineText? : Nat → Scan (List Char)
  | 0, _ => none
  | _ + 1, [] => none
  | _ + 1, '"' :: rest => some ([], rest)
  | count + 1, '\\' :: rest =>
      (escape? rest).bind fun (char, rest) => prepend char (lineText? count rest)
  | count + 1, char :: rest => if isPlain char then prepend char (lineText? count rest) else none

/-- A string in single quotes, in which nothing is escaped, after the opening quote. -/
def literalText? : Scan (List Char) := fun chars =>
  let isContent (char : Char) : Bool := isPlain char && char != '\''
  match chars.dropWhile isContent with
  | '\'' :: rest => some (chars.takeWhile isContent, rest)
  | _ => none

/-- Number of quotes at the beginning of a text. -/
def leadingQuotes (quote : Char) (chars : List Char) : Nat := (chars.takeWhile (· == quote)).length

/-- A string of several lines, after the opening quotes.  Three quotes close it;
up to two more in front of these belong to the string.  Line breaks count as
single characters, and where escapes are allowed a backslash at the end of a line
joins it to what comes next.  The first argument bounds the number of characters. -/
def blockText? (quote : Char) (escapes : Bool) : Nat → Scan (List Char)
  | 0, _ => none
  | count + 1, chars =>
      if leadingQuotes quote chars ≥ 3 then
        let kept := min (leadingQuotes quote chars - 3) 2
        some (List.replicate kept quote, chars.drop (kept + 3))
      else
        match afterBreak? chars, chars with
        | some rest, _ => prepend '\n' (blockText? quote escapes count rest)
        | none, '\\' :: rest =>
            if escapes then
              match afterBreak? (skipBlanks rest) with
              | some rest => blockText? quote escapes count (skipSpace rest)
              | none =>
                  (escape? rest).bind fun (char, rest) =>
                    prepend char (blockText? quote escapes count rest)
            else prepend '\\' (blockText? quote escapes count rest)
        | none, char :: rest =>
            if isPlain char then prepend char (blockText? quote escapes count rest) else none
        | none, [] => none

/-- A line break directly after the opening quotes does not count. -/
def skipFirstBreak (chars : List Char) : List Char := (afterBreak? chars).getD chars

/-- A string of one of the four kinds. -/
def string? : Scan String := fun chars =>
  let found := match chars with
    | '"' :: '"' :: '"' :: rest => blockText? '"' true (chars.length + 1) (skipFirstBreak rest)
    | '"' :: rest => lineText? (chars.length + 1) rest
    | '\'' :: '\'' :: '\'' :: rest =>
        blockText? '\'' false (chars.length + 1) (skipFirstBreak rest)
    | '\'' :: rest => literalText? rest
    | _ => none
  found.map fun (text, rest) => (.ofList text, rest)

/-- A single key, in quotes of one kind or without. -/
def key? : Scan String := fun chars =>
  match chars with
  | '"' :: rest => (lineText? (chars.length + 1) rest).map fun (key, rest) => (.ofList key, rest)
  | '\'' :: rest => (literalText? rest).map fun (key, rest) => (.ofList key, rest)
  | _ =>
      let key := chars.takeWhile isBare
      if key.isEmpty then none else some (.ofList key, chars.dropWhile isBare)

/-- Keys with dots between them, and blanks around each.  The first argument bounds
their number. -/
def keyPath? : Nat → Scan (List String)
  | 0, _ => none
  | count + 1, chars =>
      (key? (skipBlanks chars)).bind fun (key, rest) =>
        match skipBlanks rest with
        | '.' :: rest => (keyPath? count rest).map fun (keys, rest) => (key :: keys, rest)
        | rest => some ([key], rest)

end Toml

end Relay
