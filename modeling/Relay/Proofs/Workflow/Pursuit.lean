import Relay.Proofs.Workflow.Delivery

/-!
# Submissions under way

A submission that begins does not get lost: its chain is handed to the queues, and when
they accept it, its record is stored, or the submission is still on its way there.
-/

namespace Relay

/-- How far the submissions of workflows have come. -/
structure Pursued (world : World) (stages : Agent → Stage) : Prop where
  handed : ∀ id tasks chain, world.submitted id = some tasks →
    Submission.chainOf world.system.routing id tasks = .ok chain →
    (∃ heard, stages (.submitter id) = .listening id tasks chain heard) ∨
      ∃ reply, ⟨.submitter id, .addFlow chain, reply⟩ ∈ world.journal
  stored : ∀ id added, Accepted world.journal id added →
    (∃ tasks, stages (.submitter id) = .recording id tasks added) ∨
      ∃ record, world.system.records.get? id = some record

namespace Pursued

variable {script : Script} {routing : Routing} {settings : Dict QueueSettings}
  {world after : World} {stages later : Agent → Stage}

theorem start (routing : Routing) (settings : Dict QueueSettings) :
    Pursued (.start routing settings) fun _ => .ended where
  handed _ tasks _ submitted := (Option.some_ne_none tasks submitted.symm).elim
  stored := by
    intro id added accepted
    obtain ⟨chain, member⟩ := accepted
    exact absurd member List.not_mem_nil

/-- The submissions and the records stay as they are. -/
theorem of_same (pursued : Pursued world stages) (submitted : after.submitted = world.submitted)
    (routes : after.system.routing = world.system.routing)
    (records : after.system.records = world.system.records)
    (journal : after.journal = world.journal)
    (same : ∀ id, later (.submitter id) = stages (.submitter id)) : Pursued after later where
  handed := by
    intro id tasks chain isSubmitted compiled
    rw [submitted] at isSubmitted
    rw [routes] at compiled
    rw [same, journal]
    exact pursued.handed id tasks chain isSubmitted compiled
  stored := by
    intro id added accepted
    rw [journal] at accepted
    rw [same, records]
    exact pursued.stored id added accepted

/-- A submission begins. -/
theorem submit (pursued : Pursued world stages)
    (kept : Kept script routing settings world stages) {id : Uuid} (tasks : List Task)
    (threads : Agent → Option Thread) (fresh : world.submitted id = none) :
    Pursued { world with threads, submitted := Function.update world.submitted id (some tasks) }
      (Function.update stages (.submitter id) (World.opening world.system.routing id tasks)) where
  handed := by
    intro other others chain submitted compiled
    dsimp only at submitted compiled
    by_cases here : other = id
    · subst here
      rw [Function.update_self] at submitted ⊢
      cases submitted
      apply Or.inl
      unfold World.opening
      rw [compiled]
      exact ⟨[], rfl⟩
    · rw [Function.update_of_ne here] at submitted
      rw [Function.update_of_ne fun same => here (Agent.submitter.inj same)]
      exact pursued.handed other others chain submitted compiled
  stored := by
    intro other added accepted
    have here : other ≠ id := by
      rintro rfl
      exact (kept.unknown fresh).1 added accepted
    rw [Function.update_of_ne fun same => here (Agent.submitter.inj same)]
    exact pursued.stored other added accepted

/-- A submission that has its chain goes on following queues, or is answered. -/
theorem handed_moves {id : Uuid} {tasks : List Task} {chain : Flow} {heard : List String}
    {action : Action} {reply : action.Reply} {next : Stage} {journal : List Entry}
    (moves : (Stage.listening id tasks chain heard).Moves ⟨action, reply⟩ next) :
    (∃ heard, next = .listening id tasks chain heard) ∨
      ∃ answer, (⟨.submitter id, .addFlow chain, answer⟩ : Entry) ∈
        journal ++ [⟨.submitter id, action, reply⟩] := by
  cases moves with
  | hears id tasks chain heard queue => exact .inl ⟨queue :: heard, rfl⟩
  | refused id tasks chain heard problem =>
      exact .inr ⟨_, List.mem_append_right _ (List.mem_singleton_self _)⟩
  | accepted id tasks added follows =>
      exact .inr ⟨_, List.mem_append_right _ (List.mem_singleton_self _)⟩

/-- A submission whose chain is accepted stores a record next. -/
theorem stored_moves {id : Uuid} {tasks : List Task} {added : AddedFlow} {action : Action}
    {reply : action.Reply} {system : WorkflowSystem} {next : Stage}
    (moves : (Stage.recording id tasks added).Moves ⟨action, reply⟩ next)
    (answered : WorkflowSystem.answer action world.system = (reply, system)) :
    ∃ record, system.records.get? id = some record := by
  cases moves with
  | recorded id tasks added reply =>
      cases answered
      exact ⟨_, (RecordStore.get?_insert _ _ _).trans (if_pos rfl)⟩

/-- Every step keeps submissions on their way. -/
theorem turn (pursued : Pursued world stages) (kept : Kept script routing settings world stages)
    (turn : World.Turn script world stages after later) : Pursued after later := by
  cases turn with
  | works step regular => exact pursued.of_same rfl rfl rfl rfl fun _ => rfl
  | leaves threads => exact pursued.of_same rfl rfl rfl rfl fun _ => rfl
  | submits tasks threads fresh idle => exact pursued.submit kept tasks threads fresh
  | reads id threads idle =>
      apply pursued.of_same
      case same => exact fun _ => Function.update_of_ne (fun same => by cases same) _ _
      all_goals rfl
  | receives threads idle received =>
      obtain ⟨before, subscription, -, -, rfl⟩ := Orderly.receive?_some received
      apply pursued.of_same
      case same => exact fun _ => Function.update_of_ne (fun same => by cases same) _ _
      all_goals rfl
  | @moves agent action reply system next threads moves answered =>
      have keeping := moves.keeping answered kept.recorded (kept.valid agent)
      have routes : system.routing = world.system.routing := by
        have same := routing_answer action world.system
        rwa [answered] at same
      constructor
      case handed =>
        intro id tasks chain submitted compiled
        dsimp only at submitted compiled
        rw [routes] at compiled
        rcases pursued.handed id tasks chain submitted compiled with ⟨heard, here⟩ | ⟨told, member⟩
        · by_cases isOwn : agent = .submitter id
          · subst isOwn
            rw [here] at moves
            rw [Function.update_self]
            exact handed_moves moves
          · rw [Function.update_of_ne (Ne.symm isOwn)]
            exact .inl ⟨heard, here⟩
        · exact .inr ⟨told, List.mem_append_left _ member⟩
      case stored =>
        intro id added accepted
        rcases accepted_concat accepted with before | ⟨chain, now⟩
        · rcases pursued.stored id added before with ⟨tasks, here⟩ | ⟨record, stored⟩
          · by_cases isOwn : agent = .submitter id
            · subst isOwn
              rw [here] at moves
              exact .inr (stored_moves moves answered)
            · rw [Function.update_of_ne (Ne.symm isOwn)]
              exact .inl ⟨tasks, here⟩
          · obtain ⟨new, isStored, -⟩ := keeping.stays (kept.valid agent) stored
            exact .inr ⟨new, isStored⟩
        · cases now
          have placed := kept.placed (.submitter id)
          rw [Function.update_self]
          generalize stages (.submitter id) = stage at moves placed
          cases moves with
          | accepted other tasks added follows =>
              cases placed.1
              exact .inl ⟨tasks, rfl⟩

end Pursued

end Relay
