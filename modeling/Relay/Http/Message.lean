import Relay.Json.Basic

/-!
# Requests and responses
-/

namespace Relay

namespace Http

/-- A request. -/
structure Request where
  method : String
  /-- The path, with a query if there is one. -/
  target : String
  contentType : Option String
  body : String
  deriving DecidableEq, Repr

/-- The content of a response. -/
inductive Content where
  | json (value : Json)
  | text (value : String)
  deriving DecidableEq, Repr

/-- A response. -/
structure Response where
  status : Nat
  content : Content
  deriving DecidableEq, Repr

namespace Response

/-- A response without content. -/
def empty (status : Nat) : Response := ⟨status, .text ""⟩

/-- A response that carries a value. -/
def ok (value : Json) : Response := ⟨200, .json value⟩

/-- A response that tells what went wrong. -/
def failure (status : Nat) (message : String) : Response :=
  ⟨status, .json (.object [("error", .string message)])⟩

/-- The same response to somebody who asks for its status only. -/
def withoutContent (response : Response) : Response := empty response.status

end Response

end Http

end Relay
