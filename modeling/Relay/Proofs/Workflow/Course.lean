import Relay.Proofs.Decode.RoundTrip
import Relay.Proofs.Workflow.Traffic

/-!
# The course of a submission

A submission in the traffic is interrupted between its actions: jobs of its chain may run, and
even finish, before their record is stored.  Until then nobody knows of the workflow.  So it is
said of the actions themselves, and of the systems in which they take place, what a submission
adds: one action adds the jobs, one adds the record, and the others add nothing.
-/

namespace Relay

/-! ## What is added -/

/-- The queues have gained the jobs of some tasks, under keys in the order of the tasks. -/
structure Queues.GainsJobs (queues after : Queues) (routing : Routing) (order : List Task)
    (keys : List JobKey) : Prop where
  /-- There is one job for every task, on the queue of the task and under its name. -/
  placed : keys.map JobKey.queue = order.map routing.queueFor
  named : (keys.map fun key => (after.job? key).map Job.name) =
    order.map fun task => some task.name
  distinct : keys.Nodup
  free : ∀ key ∈ keys, queues.job? key = none
  /-- All other jobs are those from before. -/
  others : ∀ key, key ∉ keys → after.job? key = queues.job? key
  count : after.jobCount = queues.jobCount + order.length

/-- The store has gained the record of some tasks that were submitted. -/
structure RecordStore.GainsRecord (store after : RecordStore) (id : Uuid) (root : JobKey)
    (tasks : List Task) : Prop where
  added : ∃ record, after.get? id = some record ∧ record.id = id ∧ record.rootKey = root ∧
    record.status = "active" ∧ record.definition.decode Task.listDecoder = .ok tasks
  free : store.get? id = none
  /-- All other records are those from before. -/
  others : ∀ other, other ≠ id → after.get? other = store.get? other
  count : after.size = store.size + 1

section Gaining

variable {routing : Routing} {id : Uuid} {order tasks : List Task} {chain : Flow}

/-- A chain that is planted adds its jobs. -/
theorem gainsJobs_of_admits {queues after : Queues} (steady : queues.Steady none [])
    (member : chain ∈ Chain.wrapAll id routing order) (admits : Queues.Admits queues after chain) :
    queues.GainsJobs after routing order
      ((Chain.links id routing queues.nextSerial order).map Link.key) := by
  have untouched := Chain.untouched_of_plants admits.plants member
  constructor
  case placed =>
    rw [List.map_map]
    exact Chain.queues_linksBetween
  case named =>
    rw [List.map_map]
    trans (Chain.links id routing queues.nextSerial order).map fun link => some link.seed.name
    · refine List.map_congr_left fun link isLink => ?_
      exact congrArg (Option.map Job.name) (untouched link isLink)
    · have names := congrArg (List.map some) (@Chain.names_linksBetween id routing
        queues.nextSerial none [] order)
      rw [List.map_map, List.map_map] at names
      exact names
  case distinct => exact (Chain.linked id routing queues.nextSerial order).distinct
  case free =>
    intro key isKey
    obtain ⟨link, isLink, rfl⟩ := List.mem_map.1 isKey
    rw [Option.eq_none_iff_forall_ne_some]
    intro job stored
    exact Chain.unborn_of_plants admits.plants member link isLink (steady.sound.born stored)
  case others =>
    intro key apart
    ext job
    rw [admits.plants.jobs]
    exact or_iff_right fun holds => apart (Chain.link_of_holds member holds)
  case count => rw [admits.jobCount, Chain.jobCount_of_mem member]

theorem hasTaken_of_plants {queues after : Queues} {settings : Dict QueueSettings}
    (reached : Queues.Reachable settings after)
    (plants : queues.Plants after (Planting.ofFlow none queues.nextSerial chain))
    (member : chain ∈ Chain.wrapAll id routing order) :
    Queues.HasTaken settings ⟨chain.queueName, jobIdOf queues.nextSerial⟩
      (Chain.links id routing queues.nextSerial order) after where
  reachable := reached
  linked := Chain.linked id routing queues.nextSerial order
  keeps link isLink :=
    ⟨link.seed, Chain.untouched_of_plants plants member link isLink, .refl link.seed⟩
  top := Chain.root_links member

/-- A record of a submission is stored beside the others. -/
theorem gainsRecord_insert {store : RecordStore} {record : WorkflowRecord} {added : AddedFlow}
    {now : Timestamp} (free : store.get? id = none)
    (canonical : ∀ task ∈ tasks, task.payload.Canonical)
    (isRecord : record = RecordStore.recordOf now (Submission.newRecord id added tasks)) :
    store.GainsRecord (store.insert record) id added.rootKey tasks := by
  have named : record.id = id := by rw [isRecord]; rfl
  have looked : ∀ other, (store.insert record).get? other =
      if other = id then some record else store.get? other := by
    intro other
    rw [RecordStore.get?_insert, named]
  constructor
  case added =>
    refine ⟨record, (looked id).trans (if_pos rfl), named, ?_, ?_, ?_⟩
    · rw [isRecord]; rfl
    · rw [isRecord]; rfl
    · rw [isRecord]
      exact (Task.reads_listToJson canonical).decode
  case free => exact free
  case others => exact fun other different => (looked other).trans (if_neg different)
  case count =>
    have free : store.records.get? record.id.text = none := named.symm ▸ free
    exact Dict.size_insert_of_none free record

end Gaining

/-! ## Before the record is stored -/

namespace Traffic

/-- The traffic before anything has happened. -/
def start (routing : Routing) (settings : Dict QueueSettings) : Traffic :=
  ⟨.start routing settings, [], []⟩

/-- Traffic that knows nothing of a workflow yet. -/
structure Awaits (routing : Routing) (settings : Dict QueueSettings) (id : Uuid)
    (traffic : Traffic) : Prop where
  reached : WorkflowSystem.Reached routing settings traffic.system
  /-- The identifier is not given to another workflow. -/
  given : id ∈ traffic.given
  unrecorded : traffic.system.records.get? id = none
  spares : ∀ routine ∈ traffic.underway, routine.Spares id

section Awaiting

variable {routing : Routing} {settings : Dict QueueSettings} {id : Uuid} {system : WorkflowSystem}
  {traffic after : Traffic}

theorem unrecorded_answer {action : Action} (spares : action.Spares id)
    (keyed : system.records.Keyed) (unrecorded : system.records.get? id = none) :
    (WorkflowSystem.answer action system).2.records.get? id = none := by
  rcases record_answer spares keyed with same | ⟨old, status, now, found, -⟩
  · exact same.trans unrecorded
  · cases found.symm.trans unrecorded

namespace Awaits

variable (awaits : Awaits routing settings id traffic)

include awaits

/-- The submission of the workflow acts, but does not store its record yet. -/
theorem acts {action : Action} (spares : action.Spares id) :
    Awaits routing settings id
      { traffic with system := (WorkflowSystem.answer action traffic.system).2 } where
  reached := awaits.reached.acts action
  given := awaits.given
  unrecorded := unrecorded_answer spares awaits.reached.sound.2 awaits.unrecorded
  spares := awaits.spares

/-- A step of the others does not make the workflow known. -/
theorem step (step : Step (· ≠ id) traffic after) : Awaits routing settings id after := by
  cases step.turn awaits.reached awaits.given with
  | moves reached leads records isGiven joins =>
      refine ⟨reached, isGiven, records ▸ awaits.unrecorded, fun routine isUnderway => ?_⟩
      rcases List.mem_append.1 isUnderway with isJoining | before
      · exact (joins routine isJoining).resolve_right fun reads => reads.1 rfl
      · exact awaits.spares routine before
  | @acts before rest action next here =>
      have acting : (Routine.step action next).Spares id := awaits.spares _ (by simp [here])
      have acted := awaits.acts acting.1
      exact ⟨acted.reached, acted.given, acted.unrecorded,
        forall_underway here awaits.spares (acting.2 _ trivial)⟩

theorem of_leads (leads : Leads (· ≠ id) traffic after) :
    Awaits routing settings id after ∧ traffic.system.queues.Leads after.system.queues := by
  induction leads with
  | refl => exact ⟨awaits, .refl⟩
  | tail _ step ih => exact ⟨ih.1.step step, ih.2.trans (step.queues ih.1.reached)⟩

end Awaits

/-- What is given to workflows stays given. -/
theorem Step.given_subset {known : Uuid → Prop} (step : Step known traffic after) :
    traffic.given ⊆ after.given := by
  cases step with
  | requests => exact List.subset_cons_self _ _
  | _ => exact List.Subset.refl _

/-- A step after which an identifier is still unused may as well take place after the identifier
was given. -/
theorem Step.exists_given {known : Uuid → Prop} (step : Step known traffic after)
    (unused : id ∉ after.given) : ∃ given, id ∈ given ∧
      Step known { traffic with given := id :: traffic.given } { after with given } := by
  have isGiven := List.mem_cons_self (a := id) (l := traffic.given)
  cases step with
  | works step => exact ⟨_, isGiven, .works step⟩
  | listens => exact ⟨_, isGiven, .listens⟩
  | @requests other request fresh =>
      have different : other ≠ id := fun same => unused (same ▸ List.mem_cons_self)
      exact ⟨_, List.mem_cons_of_mem other isGiven,
        .requests request (List.not_mem_cons_of_ne_of_not_mem different fresh)⟩
  | reads isKnown => exact ⟨_, isGiven, .reads isKnown⟩
  | receives received => exact ⟨_, isGiven, .receives received⟩
  | acts here => exact ⟨_, isGiven, .acts here⟩

/-- Whatever has happened since the beginning, nothing is known of a workflow whose identifier
was not used yet. -/
theorem awaits_of_unused (leads : Leads (· ≠ id) (start routing settings) traffic)
    (unused : id ∉ traffic.given) :
    Awaits routing settings id { traffic with given := id :: traffic.given } := by
  induction leads with
  | refl => exact ⟨.start, List.mem_cons_self, rfl, nofun⟩
  | tail _ step ih =>
      have before := ih fun isGiven => unused (step.given_subset isGiven)
      obtain ⟨given, isGiven, reserved⟩ := step.exists_given unused
      have awaits := before.step reserved
      exact ⟨awaits.reached, List.mem_cons_self, awaits.unrecorded, awaits.spares⟩

end Awaiting

/-! ## The course -/

/-- What a submission itself does, whatever the others do between its actions: one action adds
the jobs, a later one adds the record, and all others only follow queues. -/
inductive Adds (routing : Routing) (id : Uuid) (root : JobKey) (tasks order : List Task)
    (keys : List JobKey) : List Moment → Prop where
  | intro {heard : List Moment} {taking recording : Moment}
      (follows : ∀ moment ∈ heard, WorkflowSystem.OnlyFollowed moment.system moment.after)
      (jobs : taking.system.queues.GainsJobs taking.after.queues routing order keys)
      (sameRecords : taking.after.records = taking.system.records)
      (record : recording.system.records.GainsRecord recording.after.records id root tasks)
      (sameQueues : recording.after.queues = recording.system.queues) :
      Adds routing id root tasks order keys (heard ++ [taking, recording])

/-- The course of a submission that succeeds.  At one time it hands its chain over, at another it
stores the record, and before that it has only followed queues. -/
structure Course (routing : Routing) (settings : Dict QueueSettings) (id : Uuid)
    (tasks : List Task) (chain : Flow) (added : AddedFlow) (heard : List Moment)
    (taking recording : Traffic) (moments : List Moment) (after : Traffic) : Prop where
  moments : moments = heard ++ [⟨.addFlow chain, taking.system⟩,
    ⟨.insertRecord (Submission.newRecord id added tasks), recording.system⟩]
  heard : ∀ moment ∈ heard, WorkflowSystem.OnlyFollowed moment.system moment.after
  awaits : Awaits routing settings id taking
  accepted : (WorkflowSystem.answer (.addFlow chain) taking.system).1 = .ok added
  between : Leads (· ≠ id)
    { taking with system := (WorkflowSystem.answer (.addFlow chain) taking.system).2 } recording
  later : Leads (· ≠ id)
    { recording with system := (WorkflowSystem.answer
      (.insertRecord (Submission.newRecord id added tasks)) recording.system).2 } after

section Submitting

variable {routing : Routing} {settings : Dict QueueSettings} {id : Uuid} {tasks order : List Task}
  {chain : Flow} {added : AddedFlow} {heard moments : List Moment} {links : List Link}
  {traffic taking recording after : Traffic} {submitted : SubmittedWorkflow}

/-- While a submission follows queues, the workflow stays unknown. -/
theorem Carries.of_listenAll {α : Type} {queues : List String} {next : Unit → Routine α} {value : α}
    (awaits : Awaits routing settings id traffic)
    (carries : Carries (· ≠ id) traffic (Submission.listenAll queues >>= next) moments after value) :
    ∃ between heard rest, Awaits routing settings id between ∧ moments = heard ++ rest ∧
      (∀ moment ∈ heard, WorkflowSystem.OnlyFollowed moment.system moment.after) ∧
      Carries (· ≠ id) between (next ()) rest after value := by
  induction queues generalizing traffic moments with
  | nil => exact ⟨traffic, [], moments, awaits, rfl, by simp, carries⟩
  | cons queue others ih =>
      obtain ⟨hearing, rest, leads, rfl, more⟩ := Carries.of_step carries
      have listening := @Awaits.acts _ _ _ _ (awaits.of_leads leads).1 (.listen queue) trivial
      obtain ⟨between, heard, later, awaiting, rfl, follows, carries⟩ := ih listening more
      refine ⟨between, _ :: heard, later, awaiting, rfl, ?_, carries⟩
      exact List.forall_mem_cons.2 ⟨.listen hearing.system queue, follows⟩

theorem course_of_carries (awaits : Awaits routing settings id traffic)
    (carries : Carries (· ≠ id) traffic
      (Submission.submitChain traffic.system.routing id tasks chain) moments after
      (.ok submitted)) :
    ∃ added heard taking recording,
      Course routing settings id tasks chain added heard taking recording moments after ∧
      submitted = ⟨id, added.jobId, added.name, added.queueName⟩ := by
  obtain ⟨listened, heard, rest, listening, rfl, follows, takes⟩ :=
    Carries.of_listenAll awaits carries
  obtain ⟨taking, rest, waits, rfl, goesOn⟩ := takes.of_step
  have awaiting := (listening.of_leads waits).1
  revert goesOn
  cases accepted : (WorkflowSystem.answer (.addFlow chain) taking.system).1 with
  | error problem =>
      intro refused
      cases refused.of_done.1
  | ok added =>
      intro records
      obtain ⟨recording, rest, between, rfl, ended⟩ := records.of_step
      obtain ⟨same, rfl, later⟩ := ended.of_done
      exact ⟨added, heard, taking, recording,
        ⟨rfl, follows, awaiting, accepted, between, later⟩, Except.ok.inj same⟩

/-- What the queues accept is added to them as a whole. -/
theorem Course.admits
    (course : Course routing settings id tasks chain added heard taking recording moments after) :
    added = ⟨jobIdOf taking.system.queues.nextSerial, chain.name, chain.queueName⟩ ∧
      Queues.Admits taking.system.queues
        (WorkflowSystem.answer (.addFlow chain) taking.system).2.queues chain := by
  have accepted := add_of_answer (Prod.ext course.accepted (Eq.refl
    (WorkflowSystem.answer (.addFlow chain) taking.system).2))
  exact Queues.admits_of_addInOrder course.awaits.reached.sound.1.steady (.refl _) accepted

/-- Between the two actions the workflow stays unknown. -/
theorem Course.awaited
    (course : Course routing settings id tasks chain added heard taking recording moments after) :
    Awaits routing settings id recording ∧
      (WorkflowSystem.answer (.addFlow chain) taking.system).2.queues.Leads
        recording.system.queues :=
  (@Awaits.acts _ _ _ _ course.awaits (.addFlow chain) trivial).of_leads course.between

/-- Once the record is stored, the workflow is attended to. -/
theorem Course.attended {root : JobKey}
    (course : Course routing settings id tasks chain added heard taking recording moments after)
    (isRoot : added.rootKey = root)
    (taken : Queues.HasTaken settings root links
      (WorkflowSystem.answer (.addFlow chain) taking.system).2.queues) :
    Attended routing settings id root links
      (WorkflowSystem.answer (.addFlow chain) taking.system).2.queues after := by
  obtain ⟨awaits, leads⟩ := course.awaited
  refine Attended.of_leads taken ?_ course.later
  constructor
  case reached => exact awaits.reached.acts _
  case leads => exact leads
  case given => exact awaits.given
  case recorded =>
    exact fun _ => ⟨_, (RecordStore.get?_insert _ _ id).trans (if_pos rfl), rfl, isRoot⟩
  case attends => exact fun _ routine isUnderway => attends_of_spares (awaits.spares _ isUnderway)

/-- What the actions of a submission add. -/
theorem Course.adds
    (course : Course routing settings id tasks chain added heard taking recording moments after)
    {places : Routing} (member : chain ∈ Chain.wrapAll id places order)
    (canonical : ∀ task ∈ tasks, task.payload.Canonical) :
    Adds places id added.rootKey tasks order
      ((Chain.links id places taking.system.queues.nextSerial order).map Link.key) moments := by
  rw [course.moments]
  constructor
  case follows => exact course.heard
  case jobs =>
    exact gainsJobs_of_admits course.awaits.reached.sound.1.steady member course.admits.2
  case sameRecords => rfl
  case record => exact gainsRecord_insert course.awaited.1.unrecorded canonical rfl
  case sameQueues => rfl

end Submitting

end Traffic

end Relay
