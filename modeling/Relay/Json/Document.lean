import Relay.Json.Basic

/-!
# Documents read in order

A text is decoded from left to right and the first problem decides, be it that
the text stops being JSON or that a well-formed part does not fit the expected
type.  A `Document` is what a reader finds on its way: a tree whose parts stand
in reading order and which ends with a `Stop` where the text ceases to be JSON.

A part that nobody asks for is passed over, and passing over is more lenient
than reading: it does not look at the size of a number or at the pairing of
surrogates.  So those flaws are nodes of their own, and a stop says what is
wrong for a reader and for somebody who only skips.
-/

namespace Relay

/-- Why a text is not JSON: it ends too early, or it holds something else. -/
inductive Fault where
  | eof
  | malformed
  deriving DecidableEq, Repr

/-- The point at which a text stops being JSON. -/
structure Stop where
  onRead : Fault
  onSkip : Fault
  deriving DecidableEq, Repr

namespace Stop

/-- The text ends too early. -/
def eof : Stop := ⟨.eof, .eof⟩

/-- The text goes on with something that is not JSON. -/
def malformed : Stop := ⟨.malformed, .malformed⟩

/-- The text ends inside a number, which only a reader takes for an early end. -/
def eofInNumber : Stop := ⟨.eof, .malformed⟩

end Stop

/-- What reading a text, a value or a configuration file finds, in reading order.
`ending` tells whether a container is closed or where the text stops inside it. -/
inductive Document where
  | null
  | bool (value : Bool)
  | number (value : Number)
  | string (value : String)
  | list (items : List Document) (ending : Option Stop)
  | table (entries : List (Option String × Document)) (ending : Option Stop)
  /-- A number that is too large to be read. -/
  | oversized
  /-- A string with half a surrogate pair. -/
  | garbled
  /-- Something that no type has a place for, such as a fraction in a configuration file. -/
  | foreign
  | stop (reason : Stop)
  deriving Repr, Inhabited

namespace Document

mutual

/-- A value as a document: nothing stops the reading and the keys are in order. -/
def ofJson : Json → Document
  | .null => .null
  | .bool value => .bool value
  | .number value => .number value
  | .string value => .string value
  | .array items => .list (ofItems items) none
  | .object members => .table (ofMembers members) none

/-- The items of an array as documents. -/
def ofItems : List Json → List Document
  | [] => []
  | item :: rest => ofJson item :: ofItems rest

/-- The members of an object as documents. -/
def ofMembers : List (String × Json) → List (Option String × Document)
  | [] => []
  | (key, value) :: rest => (some key, ofJson value) :: ofMembers rest

end

/-- Pass over the end of a container. -/
def skipEnding : Option Stop → Except Fault Unit
  | none => .ok ()
  | some reason => .error reason.onSkip

mutual

/-- Pass over a document; only a stop is noticed. -/
def skip : Document → Except Fault Unit
  | .list items ending => do
      skipItems items
      skipEnding ending
  | .table entries ending => do
      skipEntries entries
      skipEnding ending
  | .stop reason => .error reason.onSkip
  | .null | .bool _ | .number _ | .string _ | .oversized | .garbled | .foreign => .ok ()

/-- Pass over the items of a list. -/
def skipItems : List Document → Except Fault Unit
  | [] => .ok ()
  | item :: rest => do
      skip item
      skipItems rest

/-- Pass over the entries of a table. -/
def skipEntries : List (Option String × Document) → Except Fault Unit
  | [] => .ok ()
  | (_, value) :: rest => do
      skip value
      skipEntries rest

end

mutual

/-- Number of nested containers, a bound for every recursion on a document. -/
def height : Document → Nat
  | .list items _ => heightItems items + 1
  | .table entries _ => heightEntries entries + 1
  | .null | .bool _ | .number _ | .string _ | .oversized | .garbled | .foreign | .stop _ => 0

/-- The largest height among the items of a list. -/
def heightItems : List Document → Nat
  | [] => 0
  | item :: rest => max (height item) (heightItems rest)

/-- The largest height among the values of a table. -/
def heightEntries : List (Option String × Document) → Nat
  | [] => 0
  | (_, value) :: rest => max (height value) (heightEntries rest)

end

end Document

end Relay
