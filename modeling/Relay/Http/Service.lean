import Relay.Http.MediaType
import Relay.Http.Message
import Relay.Http.Route
import Relay.Workflow.Inspection
import Relay.Workflow.Submission

/-!
# The service

Workflows are submitted and read by requests.  What is wrong with a request is
reported in a fixed order: the path, the method, the part of the path that is
passed on, the announced media type, the text of the body, its shape, and at
last what it asks for.
-/

namespace Relay

namespace Http

/-- What is wrong with the body of a request. -/
inductive BodyProblem where
  /-- The body is not announced as JSON. -/
  | unannounced
  | error (problem : DecodeError)
  deriving DecidableEq, Repr

/-- The wording of a problem with a body. -/
def BodyProblem.message : BodyProblem → String
  | .unannounced => "Expected request with `Content-Type: application/json`"
  | .error (.fault _) => "Failed to parse the request body as JSON"
  | .error (.mismatch path problem) =>
      "Failed to deserialize the JSON body into the target type: " ++
        (if path.isEmpty then "" else describePath path ++ ": ") ++ problem.message

/-- Whether the body of a request is announced as JSON. -/
def Request.announcesJson (request : Request) : Bool :=
  ((request.contentType.bind MediaType.ofText?).map MediaType.isJson).getD false

/-- Decode the body of a request.  Whatever follows the value is not looked at. -/
def Request.decode {α : Type} (decoder : Decoder α) (request : Request) : Except BodyProblem α :=
  if request.announcesJson then
    (decoder ⟨.text, 0⟩ (Reading.ofText request.body).document).mapError .error
  else .error .unannounced

/-- The response to a request that fails. -/
def problemResponse (problem : WorkflowProblem) : Response :=
  .failure (if problem.isValidation then 400 else 500) problem.message

/-- The response to a path of which a part cannot be used. -/
def badPath (reason : String) : Response := ⟨400, .text ("Invalid URL: " ++ reason)⟩

/-- Use a part of the path under its name. -/
def withParameter (name part : String) (use : String → Routine Response) : Routine Response :=
  match percentDecode? part with
  | some value => use value
  | none => return badPath ("Invalid UTF-8 in `" ++ name ++ "`")

/-- Use the decoded body of a request. -/
def withBody {α : Type} (decoder : Decoder α) (request : Request) (use : α → Routine Response) :
    Routine Response :=
  match request.decode decoder with
  | .ok value => use value
  | .error problem => return .failure 400 problem.message

/-- The response to a submission. -/
def submissionResponse : Except WorkflowProblem SubmittedWorkflow → Response
  | .ok submitted => .ok submitted.toJson
  | .error problem => problemResponse problem

/-- Submit the tasks in the body of a request. -/
def create (routing : Routing) (fresh : Uuid) (request : Request) : Routine Response :=
  withBody Task.listDecoder request fun tasks => do
    return submissionResponse (← Submission.submit routing fresh tasks)

/-- Submit a template with the parameters in the body of a request. -/
def createFromTemplate (routing : Routing) (fresh : Uuid) (request : Request) (part : String) :
    Routine Response :=
  withParameter "name" part fun name =>
    withBody Decoder.json request fun parameters => do
      return submissionResponse (← Submission.submitTemplate routing fresh name parameters)

/-- The response to somebody who reads a workflow. -/
def viewResponse (id : Uuid) : Except WorkflowProblem (Option WorkflowView) → Response
  | .ok (some view) => .ok view.toJson
  | .ok none => .failure 404 ("workflow " ++ id.text ++ " not found")
  | .error problem => problemResponse problem

/-- Read a workflow. -/
def query (part : String) : Routine Response :=
  withParameter "id" part fun text =>
    match Uuid.ofText? text with
    | some id => return viewResponse id (← Inspection.read id)
    | none => return badPath Mismatch.badUuid.message

/-- Serve a request; `fresh` is the identifier that a submitted workflow gets. -/
def serve (routing : Routing) (fresh : Uuid) (request : Request) : Routine Response :=
  if request.method = "OPTIONS" then return .empty 200
  else
    match Route.ofPath? (Route.pathOf request.target) with
    | none => return .empty 404
    | some .create =>
        if request.method = "POST" then create routing fresh request else return .empty 405
    | some (.createFromTemplate name) =>
        if request.method = "POST" then createFromTemplate routing fresh request name
        else return .empty 405
    | some (.query id) =>
        if request.method = "GET" then query id
        else if request.method = "HEAD" then return (← query id).withoutContent
        else return .empty 405

end Http

end Relay
