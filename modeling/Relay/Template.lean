import Relay.Json.Writer
import Relay.Task
import Relay.Text.Blank

/-!
# Templates

A template is a named task graph that is built for one article.  The article is
given by its identifier, a number or a text that is not blank.
-/

namespace Relay

/-- Why a template gives no tasks. -/
inductive TemplateProblem where
  | unknownTemplate (name : String)
  /-- The identifier of the article is missing. -/
  | missingTarget (template : String)
  deriving DecidableEq, Repr

/-- The wording of a problem. -/
def TemplateProblem.message : TemplateProblem → String
  | .unknownTemplate name => "unknown workflow template: '" ++ name ++ "'"
  | .missingTarget template =>
      "invalid parameters for template '" ++ template ++ "': target_id is required"

namespace Template

/-- The identifier of the article among the parameters. -/
def target? (parameters : Json) : Option Json :=
  match parameters.member? "target_id" with
  | some (.string text) => if Text.isBlank text then none else some (.string text)
  | some (.number number) => some (.number number)
  | _ => none

/-- How other systems refer to the article. -/
def sourceReference : Json → String
  | .string text => "article:" ++ text
  | other => "article:" ++ other.text

/-- An object without members. -/
def emptyObject : Json := .object []

/-- A step that asks a language model. -/
def modelStep (name target : String) (fathers : List String) (track : Bool) : Task :=
  { Task.plain name "llm" with
    fathers, track, payload := .object [("metadata", emptyObject), ("target", .string target)] }

/-- A step that writes a result back. -/
def updateStep (name target : String) (father : String) (metadata targetId : Json) : Task :=
  { Task.plain name "update" with
    fathers := [father]
    payload := .object [("metadata", metadata), ("target", .string target),
      ("target_id", targetId)] }

/-- The step that writes the verdict of the censor back. -/
def updateCensor (targetId : Json) : Task :=
  updateStep "update-censor" "censor" "censor"
    (.object [("censor_target", .string "article")]) targetId

/-- Save an article, then summarise, judge and embed it and write the results back. -/
def savePipeline (targetId : Json) : List Task :=
  [{ Task.plain "save" "save" with
      track := true
      payload := .object [("metadata", emptyObject), ("target", .string "article"),
        ("target_id", targetId)] },
    modelStep "summary" "summary" ["save"] true,
    modelStep "censor" "censor" ["save"] true,
    modelStep "embedding" "embedding" ["summary"] false,
    updateStep "update-embedding" "article_embedding" "embedding" emptyObject targetId,
    updateStep "update-summary" "article_summary" "summary" emptyObject targetId,
    updateCensor targetId]

/-- Judge an article that exists and write the verdict back. -/
def censorPipeline (targetId : Json) : List Task :=
  [{ Task.plain "censor" "llm" with
      track := true
      payload := .object [("metadata", emptyObject),
        ("source_id", .string (sourceReference targetId)), ("target", .string "censor")] },
    updateCensor targetId]

/-- The templates by name. -/
def all : List (String × (Json → List Task)) :=
  [("article-save-pipeline", savePipeline), ("article-censor-pipeline", censorPipeline)]

/-- The names of the templates. -/
def names : List String := all.map Prod.fst

/-- Build the tasks of a template. -/
def build (name : String) (parameters : Json) : Except TemplateProblem (List Task) :=
  match all.lookup name with
  | none => .error (.unknownTemplate name)
  | some pipeline =>
      match target? parameters with
      | some targetId => .ok (pipeline targetId)
      | none => .error (.missingTarget name)

end Template

end Relay
