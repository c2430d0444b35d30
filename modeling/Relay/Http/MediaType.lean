/-!
# Media types

A media type is a type and a subtype with a slash between them, and parameters
after semicolons.  The part of a subtype after its last plus sign is the suffix,
which names the format that the subtype builds on.
-/

namespace Relay

namespace Http

/-- A media type; its parameters are checked and dropped. -/
structure MediaType where
  type : String
  subtype : String
  suffix : Option String
  deriving DecidableEq, Repr

namespace MediaType

/-- Whether a character may stand in a name. -/
def isTokenChar (char : Char) : Bool :=
  char.isAlphanum || "!#$%&'+-.^_`|~".toList.contains char

/-- Whether a character may stand between quotes. -/
def isQuotedChar (char : Char) : Bool := 31 < char.toNat && char.toNat ≠ 127

/-- The characters after a parameter's value in quotes; none if the quotes are
not closed.  At least one character stands between the quotes, and the first one
is never taken for the closing quote. -/
def afterQuoted : List Char → Option (List Char)
  | [] => none
  | first :: rest =>
      match rest.dropWhile fun char => isQuotedChar char && char != '"' with
      | '"' :: rest => if isQuotedChar first then some (rest.dropWhile (· == ' ')) else none
      | _ => none

/-- The characters after a parameter's value. -/
def afterValue (chars : List Char) : Option (List Char) :=
  match chars with
  | '"' :: rest => afterQuoted rest
  | _ =>
      match chars.dropWhile isTokenChar with
      | [] => some []
      | rest => if (chars.takeWhile isTokenChar).isEmpty then none else some rest

/-- The characters after the name of a parameter and the equals sign. -/
def afterName (chars : List Char) : Option (List Char) :=
  match chars.dropWhile isTokenChar with
  | '=' :: rest => if (chars.takeWhile isTokenChar).isEmpty then none else some rest
  | _ => none

/-- Whether a text after a semicolon consists of parameters.  The first argument
bounds their number. -/
def areParameters : Nat → List Char → Bool
  | 0, _ => false
  | count + 1, chars =>
      match chars.dropWhile (· == ' ') with
      | [] => true
      | chars =>
          match (afterName chars).bind afterValue with
          | some [] => true
          | some (';' :: rest) => areParameters count rest
          | some (_ :: _) => false
          | none => false

/-- Split a subtype at its last plus sign; one at its beginning does not count. -/
def splitSubtype (subtype : List Char) : List Char × Option (List Char) :=
  let suffix := (subtype.reverse.takeWhile (· != '+')).reverse
  let stem := subtype.take (subtype.length - suffix.length - 1)
  if stem.isEmpty then (subtype, none) else (stem, some suffix)

/-- Read a media type.  The case of letters has no meaning. -/
def ofText? (text : String) : Option MediaType :=
  let chars := text.toList.map Char.toLower
  let type := chars.takeWhile isTokenChar
  match chars.dropWhile isTokenChar with
  | '/' :: rest =>
      let written := rest.takeWhile isTokenChar
      let (subtype, suffix) := splitSubtype written
      let found : MediaType := ⟨.ofList type, .ofList subtype, suffix.map .ofList⟩
      if type.isEmpty then none
      else
        match rest.dropWhile isTokenChar with
        | [] => some found
        | ';' :: parameters =>
            if !written.isEmpty && areParameters (parameters.length + 1) parameters then some found
            else none
        | _ :: _ => none
  | _ => none

/-- Whether a media type announces JSON. -/
def isJson (mediaType : MediaType) : Bool :=
  mediaType.type == "application" &&
    (mediaType.subtype == "json" || mediaType.suffix == some "json")

end MediaType

end Http

end Relay
