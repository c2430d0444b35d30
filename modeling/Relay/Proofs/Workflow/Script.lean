import Relay.Proofs.Queue.Chain
import Relay.Propagation

/-!
# Scripts

A script says how every attempt of every step ends.  The calls of the queues are those
of the steps, so the script decides what they return, whatever the steps are shown.
-/

namespace Relay

/-- How the handlers answer, attempt by attempt. -/
structure Script where
  registered : String → Bool
  answer : ExecutionContext → Nat → Except HandlerError StepResult

namespace Script

variable (script : Script)

/-- The handlers during an attempt. -/
def handlers (attempt : Nat) : Handlers Unit where
  resolve key :=
    if script.registered key then
      .ok fun context _ state => (script.answer context attempt, state)
    else .error (Registry.unregistered key)

/-- What a call returns. -/
def outcome (call : Call) : Except JobError Json :=
  (Propagation.processWith (script.handlers call.attempt) call.key.id call.data call.children ()).1

/-- How the attempts of the jobs of chains end, and how many they are allowed. -/
def trials (settings : Dict QueueSettings) : Trials where
  verdict link attempt :=
    (Propagation.processWith (script.handlers attempt) link.key.id link.seed.data .empty ()).1.map
      fun _ => ()
  limit job := job.options.attempts.getD ((settings.get? job.queue).getD .standard).maxAttempts

/-- Whether an attempt succeeds, and how it fails, does not depend on what the step is shown. -/
theorem processWith_map (attempt : Nat) (jobId : String) (data : Json)
    (children others : Dict Json) :
    (Propagation.processWith (script.handlers attempt) jobId data children ()).1.map
        (fun _ => ()) =
      (Propagation.processWith (script.handlers attempt) jobId data others ()).1.map
        fun _ => () := by
  unfold Propagation.processWith
  cases Propagation.decodeStep data with
  | error problem => rfl
  | ok step =>
      simp only [handlers]
      cases script.registered (Propagation.stepKey step) with
      | false => rfl
      | true =>
          simp only [if_true]
          cases script.answer (Propagation.context step jobId) attempt <;> rfl

/-- A call for a job of a chain returns what the script says. -/
theorem outcome_verdict (settings : Dict QueueSettings) {link : Link} {call : Call}
    (key : call.key = link.key) (data : call.data = link.seed.data) :
    (script.outcome call).map (fun _ => ()) =
      (script.trials settings).verdict link call.attempt := by
  unfold outcome trials
  rw [key, data]
  exact script.processWith_map _ _ _ _ _

end Script

end Relay
