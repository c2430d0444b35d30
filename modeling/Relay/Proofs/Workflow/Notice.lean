import Relay.Proofs.Workflow.Kept

/-!
# Notices

A record gets a final status exactly if somebody was told that its root job has
finished: a listener that found the record when it looked it up for the event of the
root job, or a reader that asked for the state of the root job.
-/

namespace Relay

/-- An exchange tells its agent that the root job of a record has finished. -/
def Exchange.Notices (exchange : Exchange) (key : JobKey) : Prop :=
  (∃ record, exchange = ⟨.findRecord key.queue key.id, .ok (some record)⟩) ∨
    ∃ state, exchange = ⟨.jobState key, .ok (some state)⟩ ∧ state.isFinished = true

/-- Somebody was told that the root job of a record has finished. -/
def Noticed (journal : List Entry) (key : JobKey) : Prop :=
  ∃ entry ∈ journal, entry.exchange.Notices key

/-- The record of a root job has a final status or is about to get one. -/
def Promised (records : RecordStore) (stages : Agent → Stage) (key : JobKey) : Prop :=
  ∃ id record, records.get? id = some record ∧ record.rootKey = key ∧
    (record.isTerminal = true ∨ ∃ agent, (stages agent).promises? = some id)

section Moves

variable {world : World} {stage next : Stage} {action : Action} {reply : action.Reply}
  {system : WorkflowSystem}

theorem noticed_concat {journal : List Entry} {entry : Entry} {key : JobKey} :
    Noticed (journal ++ [entry]) key ↔ Noticed journal key ∨ entry.exchange.Notices key := by
  unfold Noticed
  constructor
  · rintro ⟨found, member, notices⟩
    rcases List.mem_append.1 member with before | now
    · exact .inl ⟨found, before, notices⟩
    · exact .inr (List.mem_singleton.1 now ▸ notices)
  · rintro (⟨found, member, notices⟩ | notices)
    · exact ⟨found, List.mem_append_left _ member, notices⟩
    · exact ⟨entry, List.mem_append_right _ (List.mem_singleton_self entry), notices⟩

/-- A status that is written stands in the record. -/
theorem get?_of_updateStatus {id : Uuid} {status : String} {reply : Except StoreError Unit}
    {record : WorkflowRecord} (keyed : world.system.records.Keyed)
    (stored : world.system.records.get? id = some record)
    (answered : WorkflowSystem.answer (.updateStatus id status) world.system = (reply, system)) :
    (∃ new, system.records.get? id = some new ∧ new.status = status) ∧ reply = .ok () := by
  rw [answer_updateStatus, stored] at answered
  cases answered
  have named : record.id = id := keyed.id_eq stored
  constructor
  · rw [RecordStore.get?_insert, if_pos named.symm]
    exact ⟨_, rfl, rfl⟩
  · rfl

theorem Stage.promises?_owing {there id : Uuid} {record : WorkflowRecord} {status : String}
    (promises : (owing there record status).promises? = some id) :
    there = id ∧ (WorkflowStatus.ofText status).isTerminal = true := by
  have whole : (if (WorkflowStatus.ofText status).isTerminal = true then some there else none) =
      some id := promises
  split at whole
  · next terminal => exact ⟨Option.some.inj whole, terminal⟩
  · cases whole

/-- A record that is promised to a stage is stored. -/
theorem Stage.Valid.stored {id : Uuid} (valid : stage.Valid world)
    (promises : stage.promises? = some id) : ∃ record, world.system.records.get? id = some record := by
  cases stage with
  | found record status =>
      cases promises
      obtain ⟨found, stored, -⟩ := valid
      exact ⟨found, stored⟩
  | checking there status =>
      cases promises
      obtain ⟨found, stored, -⟩ := valid
      exact ⟨found, stored⟩
  | writing there status =>
      cases promises
      obtain ⟨found, stored, -⟩ := valid
      exact ⟨found, stored⟩
  | owing there record status =>
      obtain ⟨rfl, -⟩ := promises?_owing promises
      exact ⟨record, valid.1⟩
  | _ => cases promises

/-- A promise is handed on or kept. -/
theorem Stage.Moves.promise {id : Uuid} (moves : stage.Moves ⟨action, reply⟩ next)
    (answered : WorkflowSystem.answer action world.system = (reply, system))
    (recorded : Recorded world) (valid : stage.Valid world)
    (promises : stage.promises? = some id) :
    next.promises? = some id ∨
      ∃ record, system.records.get? id = some record ∧ record.isTerminal = true := by
  have stored := valid.stored promises
  cases moves with
  | locks record status => exact .inl promises
  | checks there status record => exact .inl promises
  | @checksInVain there status reply nothing =>
      cases promises
      obtain ⟨record, found⟩ := stored
      have told : Except.ok (world.system.records.get? id) = reply := congrArg Prod.fst answered
      rw [found] at told
      exact absurd told.symm (nothing record)
  | writes there status reply =>
      cases promises
      obtain ⟨record, found⟩ := stored
      obtain ⟨⟨new, isStored, written⟩, -⟩ :=
        get?_of_updateStatus recorded.keyed found answered
      obtain ⟨_, -, concluded⟩ := valid
      refine .inr ⟨new, isStored, ?_⟩
      unfold WorkflowRecord.isTerminal
      rw [written]
      exact concluded.terminal
  | pays there record status =>
      obtain ⟨rfl, terminal⟩ := promises?_owing promises
      have named := recorded.keyed.id_eq valid.1
      rw [named] at answered
      obtain ⟨⟨new, isStored, written⟩, -⟩ :=
        get?_of_updateStatus recorded.keyed valid.1 answered
      refine .inr ⟨new, isStored, ?_⟩
      unfold WorkflowRecord.isTerminal
      rw [written]
      exact terminal
  | paysInVain there record status problem =>
      have named := recorded.keyed.id_eq valid.1
      rw [named] at answered
      obtain ⟨-, impossible⟩ := get?_of_updateStatus recorded.keyed valid.1 answered
      cases impossible
  | _ => cases promises

/-- A promise comes from another one, or from a notice. -/
theorem Stage.Moves.promised {id : Uuid} {record : WorkflowRecord}
    (moves : stage.Moves ⟨action, reply⟩ next)
    (answered : WorkflowSystem.answer action world.system = (reply, system))
    (recorded : Recorded world) (valid : stage.Valid world)
    (promises : next.promises? = some id) (stored : world.system.records.get? id = some record) :
    stage.promises? = some id ∨ Exchange.Notices ⟨action, reply⟩ record.rootKey := by
  cases moves with
  | finds queue event found =>
      cases promises
      have told : world.system.records.findByRoot? queue event.jobId = some found :=
        Except.ok.inj (congrArg Prod.fst answered)
      obtain ⟨isStored, root⟩ := recorded.keyed.findByRoot? told
      cases stored.symm.trans isStored
      rw [root]
      exact .inr (.inl ⟨record, rfl⟩)
  | locks record status => exact .inl promises
  | checks there status record => exact .inl promises
  | differs there judged state =>
      obtain ⟨rfl, terminal⟩ := promises?_owing promises
      cases stored.symm.trans valid.1
      rw [isTerminal_ofText] at terminal
      exact .inr (.inr ⟨state, rfl, terminal⟩)
  | _ => cases promises

/-- Whoever notices that a root job has finished promises the record its status. -/
theorem Stage.Moves.notices {key : JobKey} (moves : stage.Moves ⟨action, reply⟩ next)
    (answered : WorkflowSystem.answer action world.system = (reply, system))
    (recorded : Recorded world) (valid : stage.Valid world)
    (notices : Exchange.Notices ⟨action, reply⟩ key) :
    ∃ id record, world.system.records.get? id = some record ∧ record.rootKey = key ∧
      next.promises? = some id := by
  rcases notices with ⟨record, same⟩ | ⟨state, same, finished⟩
  · cases same
    have told : world.system.records.findByRoot? key.queue key.id = some record :=
      Except.ok.inj (congrArg Prod.fst answered)
    obtain ⟨stored, root⟩ := recorded.keyed.findByRoot? told
    generalize exchanged : (⟨.findRecord key.queue key.id, .ok (some record)⟩ : Exchange) =
      exchange at moves
    cases moves with
    | finds queue event found =>
        injection exchanged with _ sameReply
        obtain rfl := Option.some.inj (Except.ok.inj sameReply)
        exact ⟨record.id, record, stored, root, rfl⟩
    | findsNothing queue event nothing =>
        injection exchanged with _ sameReply
        exact absurd sameReply.symm (nothing record)
    | _ => cases exchanged
  · cases same
    generalize exchanged : (⟨.jobState key, .ok (some state)⟩ : Exchange) = exchange at moves
    cases moves with
    | @agrees id record found agrees =>
        cases exchanged
        have isOpen := valid.2
        unfold WorkflowRecord.isTerminal at isOpen
        rw [← agrees, isTerminal_ofText, finished] at isOpen
        cases isOpen
    | differs id record found =>
        cases exchanged
        refine ⟨id, record, valid.1, rfl, if_pos ?_⟩
        rw [isTerminal_ofText]
        exact finished
    | judgesNothing id record nothing =>
        cases exchanged
        exact absurd rfl (nothing state)
    | _ => cases exchanged

end Moves

namespace Kept

variable {script : Script} {routing : Routing} {settings : Dict QueueSettings}
  {world after : World} {stages later : Agent → Stage}

/-- A final status was final before, or had been promised. -/
theorem promised_of_final {records : RecordStore} {agent : Agent} {id : Uuid}
    {record : WorkflowRecord} {key : JobKey} (keeping : Keeping world (stages agent) records)
    (stored : records.get? id = some record) (root : record.rootKey = key)
    (final : record.isTerminal = true) : Promised world.system.records stages key := by
  cases keeping with
  | same => exact ⟨id, record, stored, root, .inl final⟩
  | @inserts owner tasks added new here named same isOpen =>
      rw [RecordStore.get?_insert] at stored
      split at stored
      · cases stored
        rw [isOpen] at final
        cases final
      · exact ⟨id, record, stored, root, .inl final⟩
  | @updates owner old new holds found named same _ promised truth =>
      rw [RecordStore.get?_insert] at stored
      split at stored
      · cases stored
        exact ⟨owner, old, found, same.symm.trans root, .inr ⟨agent, promised final⟩⟩
      · exact ⟨id, record, stored, root, .inl final⟩

/-- A promise that an action leads to was there before, or the action is a notice. -/
theorem promised_moves (kept : Kept script routing settings world stages) {agent : Agent}
    {action : Action} {reply : action.Reply} {system : WorkflowSystem} {next : Stage} {id : Uuid}
    {record : WorkflowRecord} {key : JobKey} (moves : (stages agent).Moves ⟨action, reply⟩ next)
    (answered : WorkflowSystem.answer action world.system = (reply, system))
    (keeping : Keeping world (stages agent) system.records) (promises : next.promises? = some id)
    (stored : system.records.get? id = some record) (root : record.rootKey = key) :
    Promised world.system.records stages key ∨ Exchange.Notices ⟨action, reply⟩ key := by
  have valid := kept.valid agent
  rcases keeping.origin stored with ⟨old, before, same⟩ | ⟨tasks, added, here, -⟩
  · rcases moves.promised answered kept.recorded valid promises before with earlier | notices
    · exact .inl ⟨id, old, before, same.symm.trans root, .inr ⟨agent, earlier⟩⟩
    · rw [← same, root] at notices
      exact .inr notices
  · rw [here] at moves
    cases moves
    cases promises

/-- Every step keeps the promises that were made, and no promise is made without a notice. -/
theorem noticed_turn (kept : Kept script routing settings world stages)
    (noticed : ∀ key, Noticed world.journal key ↔ Promised world.system.records stages key)
    (turn : World.Turn script world stages after later) (key : JobKey) :
    Noticed after.journal key ↔ Promised after.system.records later key := by
  have begins : ∀ agent stage, stages agent = .ended → stage.promises? = none →
      (Promised world.system.records (Function.update stages agent stage) key ↔
        Promised world.system.records stages key) := by
    intro agent stage idle none
    have same : ∀ other, (Function.update stages agent stage other).promises? =
        (stages other).promises? := by
      intro other
      rw [Function.update_apply]
      split
      · next here => rw [here, idle, none]; rfl
      · rfl
    unfold Promised
    simp only [same]
  cases turn with
  | works step regular => exact noticed key
  | leaves threads => exact noticed key
  | submits tasks threads fresh idle =>
      refine (noticed key).trans (begins _ _ idle ?_).symm
      unfold World.opening
      split <;> rfl
  | reads id threads idle => exact (noticed key).trans (begins _ _ idle rfl).symm
  | receives threads idle received =>
      obtain ⟨before, subscription, -, -, rfl⟩ := Orderly.receive?_some received
      exact (noticed key).trans (begins _ _ idle rfl).symm
  | @moves agent action reply system next threads moves answered =>
      have valid := kept.valid agent
      have keeping := moves.keeping answered kept.recorded valid
      rw [noticed_concat, noticed key]
      constructor
      · rintro (⟨id, record, stored, root, final | ⟨other, promises⟩⟩ | notices)
        · obtain ⟨new, isStored, same, stays⟩ := keeping.stays valid stored
          exact ⟨id, new, isStored, same.trans root, .inl (stays final)⟩
        · obtain ⟨new, isStored, same, -⟩ := keeping.stays valid stored
          refine ⟨id, new, isStored, same.trans root, ?_⟩
          by_cases here : other = agent
          · rw [here] at promises
            rcases moves.promise answered kept.recorded valid promises with
              goesOn | ⟨written, isWritten, final⟩
            · exact .inr ⟨agent, by rw [Function.update_self]; exact goesOn⟩
            · cases isStored.symm.trans isWritten
              exact .inl final
          · exact .inr ⟨other, by rw [Function.update_of_ne here]; exact promises⟩
        · obtain ⟨id, record, stored, root, promises⟩ :=
            moves.notices answered kept.recorded valid notices
          obtain ⟨new, isStored, same, -⟩ := keeping.stays valid stored
          exact ⟨id, new, isStored, same.trans root,
            .inr ⟨agent, by rw [Function.update_self]; exact promises⟩⟩
      · rintro ⟨id, record, stored, root, final | ⟨other, promises⟩⟩
        · exact .inl (promised_of_final keeping stored root final)
        · by_cases here : other = agent
          · rw [here, Function.update_self] at promises
            exact kept.promised_moves moves answered keeping promises stored root
          · rw [Function.update_of_ne here] at promises
            obtain ⟨old, before⟩ := (kept.valid other).stored promises
            obtain ⟨new, isStored, same, -⟩ := keeping.stays valid before
            cases stored.symm.trans isStored
            exact .inl ⟨id, old, before, same.symm.trans root, .inr ⟨other, promises⟩⟩

end Kept

end Relay
