import Relay.Text.Hexadecimal

/-!
# Routes

The path of a request selects what is asked for.  A path is compared as it is
written; only the part of it that is passed on is decoded.
-/

namespace Relay

namespace Http

/-- What a path asks for, with the part of the path that is passed on. -/
inductive Route where
  | create
  | createFromTemplate (name : String)
  | query (id : String)
  deriving DecidableEq, Repr

namespace Route

/-- The path of a target, without its query. -/
def pathOf (target : String) : String :=
  .ofList (target.toList.takeWhile fun char => char != '?' && char != '#')

/-- The route of a path.  The part that is passed on is not empty. -/
def ofPath? (path : String) : Option Route :=
  match path.splitToList (· == '/') with
  | ["", "workflow", "create"] => some .create
  | ["", "workflow", "create", "template", name] =>
      if name.isEmpty then none else some (.createFromTemplate name)
  | ["", "workflow", "query", id] => if id.isEmpty then none else some (.query id)
  | _ => none

end Route

/-- The bytes of a text in which a percent sign and two hexadecimal digits stand
for a byte.  Any other percent sign stands for itself. -/
def percentBytes : List Char → List UInt8
  | '%' :: high :: low :: rest =>
      match Text.hexValue? high, Text.hexValue? low with
      | some high, some low => .ofNat (16 * high + low) :: percentBytes rest
      | _, _ => String.utf8EncodeChar '%' ++ percentBytes (high :: low :: rest)
  | char :: rest => String.utf8EncodeChar char ++ percentBytes rest
  | [] => []

/-- Decode a part of a path; none if it does not stand for a text. -/
def percentDecode? (text : String) : Option String :=
  String.fromUTF8? ⟨(percentBytes text.toList).toArray⟩

end Http

end Relay
