import Relay.Proofs.Queue.Capacity
import Relay.Proofs.Queue.Jobs

/-!
# Admission

Claiming the places of a flow changes nothing but the numbers of unfinished jobs, by as many
as are claimed.  If all of them are there, the flow is stored beside the other jobs, one job
for each of its nodes, and every queue counts as many unfinished jobs more as the flow has
jobs there.  If places are missing on one queue, those that were claimed on others are given
back, and nothing is left of the flow.  Which of the two happens does not depend on the order
in which the places are claimed: every queue is asked once, and no queue answers for another.
-/

namespace Relay

mutual

/-- A flow is planted as one job for each of its nodes. -/
theorem Planting.length_ofFlow (parent : Option JobKey) (serial : Nat) :
    (flow : Flow) → (Planting.ofFlow parent serial flow).jobs.length = flow.jobCount
  | ⟨_, queueName, _, _, children⟩ => by
      simp [Planting.ofFlow, Flow.jobCount, Nat.add_comm 1,
        Planting.length_ofFlows ⟨queueName, jobIdOf serial⟩ (serial + 1) children]

theorem Planting.length_ofFlows (parent : JobKey) (serial : Nat) :
    (flows : List Flow) → (Planting.ofFlows parent serial flows).jobs.length = Flow.jobCounts flows
  | [] => rfl
  | flow :: rest => by
      simp [Planting.ofFlows, Flow.jobCounts, Planting.length_ofFlow (some parent) serial flow,
        Planting.length_ofFlows parent _ rest]

end

namespace Queues

variable {queues between after : Queues} {counts : List (String × Nat)} {flow : Flow}

/-! ## What an admitted flow adds -/

theorem unfinishedCount_eq (queues : Queues) (queue : String) :
    queues.unfinishedCount queue = (queues.lane queue).unfinished := by
  unfold unfinishedCount lane
  cases queues.lanes.get? queue <;> rfl

/-- Where all places are claimed, every queue counts those that were claimed there. -/
theorem unfinished_of_reserve (reserved : reserve counts queues = (none, after)) (queue : String) :
    (after.lane queue).unfinished = (queues.lane queue).unfinished + placesIn queue counts := by
  induction counts generalizing queues with
  | nil =>
      cases reserved
      rfl
  | cons head rest ih =>
      obtain ⟨claimed, count⟩ := head
      rw [reserve] at reserved
      split at reserved
      · split at reserved
        · next others =>
            cases reserved
            rw [ih others, claim, lane_changeLane, placesIn]
            split
            · next same => simp [same, Nat.add_assoc]
            · simp
        · cases reserved
      · cases reserved

theorem unfinished_enqueueAll (queues : Queues) (keys : List JobKey) (queue : String) :
    ((keys.foldl enqueue queues).lane queue).unfinished = (queues.lane queue).unfinished := by
  induction keys generalizing queues with
  | nil => rfl
  | cons key rest ih =>
      rw [List.foldl_cons, ih, enqueue, lane_changeLane]
      split
      · next same =>
          subst same
          split <;> rfl
      · rfl

theorem jobs_enqueueAll (queues : Queues) (keys : List JobKey) :
    (keys.foldl enqueue queues).jobs = queues.jobs := by
  induction keys generalizing queues with
  | nil => rfl
  | cons key rest ih => exact ih _

/-- What an admitted flow adds to the queues. -/
structure Admits (queues after : Queues) (flow : Flow) : Prop where
  plants : Plants queues after (Planting.ofFlow none queues.nextSerial flow)
  jobCount : after.jobCount = queues.jobCount + flow.jobCount
  unfinished : ∀ queue,
    after.unfinishedCount queue = queues.unfinishedCount queue + flow.queueList.count queue

/-- What is accepted has claimed all its places, and is planted then. -/
theorem planted_of_addInOrder {added : AddedFlow}
    (accepted : addInOrder counts queues flow = (.ok added, after)) :
    ∃ between, reserve counts queues = (none, between) ∧
      added = ⟨jobIdOf between.nextSerial, flow.name, flow.queueName⟩ ∧
      after = between.plant (Planting.ofFlow none between.nextSerial flow) := by
  unfold addInOrder at accepted
  split at accepted
  · cases accepted
  · next between reserved =>
      cases accepted
      exact ⟨between, reserved, rfl, rfl⟩

/-- A flow that is accepted takes the places of its jobs, in whichever order they are claimed. -/
theorem unfinishedCount_of_accepted (perm : counts.Perm (countsOf flow)) {added : AddedFlow}
    (accepted : addInOrder counts queues flow = (.ok added, after)) (queue : String) :
    after.unfinishedCount queue = queues.unfinishedCount queue + flow.queueList.count queue := by
  obtain ⟨between, reserved, -, rfl⟩ := planted_of_addInOrder accepted
  rw [unfinishedCount_eq, unfinishedCount_eq, plant, unfinished_enqueueAll, ← placesIn_countsOf,
    ← placesIn_perm queue perm]
  exact unfinished_of_reserve reserved queue

/-- A flow is admitted as a whole, in whichever order its places are claimed. -/
theorem admits_of_addInOrder (steady : Steady queues none []) (perm : counts.Perm (countsOf flow))
    {added : AddedFlow} (accepted : addInOrder counts queues flow = (.ok added, after)) :
    added = ⟨jobIdOf queues.nextSerial, flow.name, flow.queueName⟩ ∧ Admits queues after flow := by
  have unfinished := unfinishedCount_of_accepted perm accepted
  obtain ⟨between, reserved, rfl, rfl⟩ := planted_of_addInOrder accepted
  obtain ⟨-, -, jobs, serial⟩ := steady.reserve counts
  have quiet := quiet_reserve queues counts
  rw [reserved] at jobs serial quiet
  dsimp only at jobs serial quiet
  rw [serial]
  refine ⟨rfl, plants_plant steady quiet flow, ?_, serial ▸ unfinished⟩
  have grown := Planting.grown_ofFlow none queues.nextSerial flow
  rw [jobCount, plant, jobs_enqueueAll, jobs, Dict.size_insertAll _ grown.unique,
    Planting.length_ofFlow, jobCount, Dict.size]
  exact fun entry => Steady.get?_eq_none_of_planting steady.sound.family grown

/-! ## What a rejected flow leaves behind -/

/-- Queues of which at most some were touched: there may be new ones, which are idle. -/
structure Touched (queues after : Queues) : Prop where
  settings : after.settings = queues.settings
  now : after.now = queues.now
  jobs : after.jobs = queues.jobs
  running : after.running = queues.running
  timers : after.timers = queues.timers
  nextSerial : after.nextSerial = queues.nextSerial
  /-- Ready jobs, worker, tokens, unfinished jobs and events of every queue are the same, where
  one that does not exist counts as idle. -/
  lane : after.lane = queues.lane

namespace Touched

variable {queues between after : Queues}

theorem refl (queues : Queues) : Touched queues queues := ⟨rfl, rfl, rfl, rfl, rfl, rfl, rfl⟩

theorem trans (first : Touched queues between) (second : Touched between after) :
    Touched queues after where
  settings := second.settings.trans first.settings
  now := second.now.trans first.now
  jobs := second.jobs.trans first.jobs
  running := second.running.trans first.running
  timers := second.timers.trans first.timers
  nextSerial := second.nextSerial.trans first.nextSerial
  lane := second.lane.trans first.lane

theorem touch (queues : Queues) (queue : String) : Touched queues (queues.touch queue) :=
  ⟨rfl, rfl, rfl, rfl, rfl, rfl, funext (lane_touch queues queue)⟩

/-- Places that were claimed can be given back, and then nothing was claimed. -/
theorem release {queue : String} {count : Nat} (touched : Touched (queues.claim queue count) after) :
    Touched queues (after.release queue count) := by
  refine ⟨touched.settings, touched.now, touched.jobs, touched.running, touched.timers,
    touched.nextSerial, ?_⟩
  funext other
  rw [Queues.release, lane_changeLane, touched.lane, claim, lane_changeLane, lane_changeLane]
  split
  · next same => simp [same]
  · rfl

theorem unfinishedCount (touched : Touched queues after) (queue : String) :
    after.unfinishedCount queue = queues.unfinishedCount queue := by
  rw [unfinishedCount_eq, unfinishedCount_eq, touched.lane]

/-- What a flow adds to queues does not depend on which of them were touched before. -/
theorem admits (touched : Touched queues between) {flow : Flow}
    (admits : Admits between after flow) : Admits queues after flow := by
  obtain ⟨plants, jobCount, unfinished⟩ := admits
  rw [touched.nextSerial] at plants
  refine ⟨?_, ?_, fun queue => (unfinished queue).trans ?_⟩
  · constructor
    case grown => exact touched.nextSerial ▸ plants.grown
    case jobs =>
      intro key job
      rw [plants.jobs, Queues.job?, Queues.job?, touched.jobs]
    case events => exact fun queue => touched.lane ▸ plants.events queue
    case running => exact plants.running.trans touched.running
    case settings => exact plants.settings.trans touched.settings
    case serial => exact plants.serial
  · rw [jobCount, Queues.jobCount, Queues.jobCount, touched.jobs]
  · rw [touched.unfinishedCount]

end Touched

/-- If places are missing on one queue, all that were claimed on others are given back. -/
theorem touched_of_reserve {queues after : Queues} {counts : List (String × Nat)}
    {problem : QueueError} (refused : reserve counts queues = (some problem, after)) :
    (∃ queue limit, problem = .queueFull queue limit) ∧ Touched queues after := by
  induction counts generalizing queues after with
  | nil => cases refused
  | cons head rest ih =>
      obtain ⟨queue, count⟩ := head
      rw [reserve] at refused
      split at refused
      · split at refused
        · cases refused
        · next claimed =>
            cases refused
            obtain ⟨full, touched⟩ := ih claimed
            exact ⟨full, touched.release⟩
      · cases refused
        exact ⟨⟨_, _, rfl⟩, .touch queues queue⟩

theorem touched_of_addInOrder {queues after : Queues} {counts : List (String × Nat)}
    {flow : Flow} {problem : QueueError}
    (refused : addInOrder counts queues flow = (.error problem, after)) :
    (∃ queue limit, problem = .queueFull queue limit) ∧ Touched queues after := by
  unfold addInOrder at refused
  split at refused
  · next reserved =>
      cases refused
      exact touched_of_reserve reserved
  · cases refused

/-! ## The verdict -/

/-- Claiming places in one queue takes no room in another. -/
theorem hasRoom_claim_of_ne {queue other : String} (different : other ≠ queue) (claimed count : Nat) :
    (queues.claim queue claimed).hasRoom other count = queues.hasRoom other count := by
  rw [hasRoom, hasRoom, claim, lane_changeLane, if_neg different]

theorem hasRoom_iff {queue : String} {count : Nat} : queues.hasRoom queue count = true ↔
    queues.unfinishedCount queue + count ≤ (queues.lane queue).settings.maxQueueLength := by
  rw [hasRoom, decide_eq_true_iff, unfinishedCount_eq]

/-- Places of different queues are all there if every queue has room for its own. -/
theorem reserve_fst_eq_none_iff (distinct : (counts.map Prod.fst).Nodup) :
    (reserve counts queues).1 = none ↔
      ∀ entry ∈ counts, queues.hasRoom entry.1 entry.2 = true := by
  induction counts generalizing queues with
  | nil => simp [reserve]
  | cons head rest ih =>
      obtain ⟨queue, count⟩ := head
      obtain ⟨fresh, distinctRest⟩ := List.nodup_cons.1 distinct
      have others : (∀ entry ∈ rest, (queues.claim queue count).hasRoom entry.1 entry.2 = true) ↔
          ∀ entry ∈ rest, queues.hasRoom entry.1 entry.2 = true := by
        refine forall₂_congr fun entry member => ?_
        have different : entry.1 ≠ queue := fun same =>
          fresh (List.mem_map.2 ⟨entry, member, same⟩)
        rw [hasRoom_claim_of_ne different]
      have claimed := (@ih (queues.claim queue count) distinctRest).trans others
      rw [reserve, List.forall_mem_cons]
      by_cases room : queues.hasRoom queue count = true
      · rw [if_pos room, ← claimed]
        split
        · next reserved => simp [reserved, room]
        · next reserved => simp [reserved]
      · simp [room]

/-- Places of different queues are refused for one that lacks room by itself. -/
theorem full_of_reserve {problem : QueueError} (distinct : (counts.map Prod.fst).Nodup)
    (refused : reserve counts queues = (some problem, after)) :
    ∃ entry ∈ counts, queues.hasRoom entry.1 entry.2 = false ∧
      problem = .queueFull entry.1 (queues.lane entry.1).settings.maxQueueLength := by
  induction counts generalizing queues after with
  | nil => cases refused
  | cons head rest ih =>
      obtain ⟨queue, count⟩ := head
      obtain ⟨fresh, distinctRest⟩ := List.nodup_cons.1 distinct
      rw [reserve] at refused
      split at refused
      · split at refused
        · cases refused
        · next claimed =>
            cases refused
            obtain ⟨entry, member, noRoom, named⟩ := ih distinctRest claimed
            have different : entry.1 ≠ queue := fun same =>
              fresh (List.mem_map.2 ⟨entry, member, same⟩)
            rw [hasRoom_claim_of_ne different] at noRoom
            rw [claim, lane_changeLane, if_neg different] at named
            exact ⟨entry, List.mem_cons_of_mem _ member, noRoom, named⟩
      · next noRoom =>
          cases refused
          exact ⟨(queue, count), List.mem_cons_self, Bool.eq_false_iff.2 noRoom, rfl⟩

/-- The places that a flow claims: those of its jobs, queue by queue. -/
theorem mem_countsOf {entry : String × Nat} :
    entry ∈ countsOf flow ↔ entry.1 ∈ flow.queueList ∧ entry.2 = flow.queueList.count entry.1 := by
  obtain ⟨queue, count⟩ := entry
  simp only [countsOf, List.mem_map, mem_sortedSet, Prod.mk.injEq]
  constructor
  · rintro ⟨name, member, rfl, rfl⟩
    exact ⟨member, rfl⟩
  · rintro ⟨member, rfl⟩
    exact ⟨queue, member, rfl, rfl⟩

/-- A flow claims the places of a queue at once. -/
theorem nodup_countsOf (flow : Flow) : ((countsOf flow).map Prod.fst).Nodup := by
  have names : (countsOf flow).map Prod.fst = sortedSet flow.queueList := by
    simp [countsOf, Function.comp_def]
  rw [names]
  exact nodup_sortedSet _

/-- The sum of two sizes, if it fits into 64 bits. -/
def checkedAdd (left right : Nat) : Option Nat :=
  if left + right < Nat.pow 2 64 then some (left + right) else none

/-- A limit of 64 bits is exceeded by every sum that does not fit into them. -/
theorem hasRoom_iff_checkedAdd {queue : String} {count : Nat}
    (fits : (queues.lane queue).settings.maxQueueLength < Nat.pow 2 64) :
    queues.hasRoom queue count = true ↔
      ∃ total, checkedAdd (queues.unfinishedCount queue) count = some total ∧
        total ≤ (queues.lane queue).settings.maxQueueLength := by
  rw [hasRoom_iff, checkedAdd]
  constructor
  · intro room
    exact ⟨_, if_pos (Nat.lt_of_le_of_lt room fits), room⟩
  · rintro ⟨total, sum, room⟩
    obtain ⟨-, same⟩ := Option.ite_none_right_eq_some.1 sum
    exact Option.some.inj same ▸ room

/-- What becomes of a flow that is submitted, and of the queues. -/
structure Decided (queues : Queues) (flow : Flow)
    (outcome : Except QueueError AddedFlow × Queues) : Prop where
  /-- The flow is accepted exactly if every queue of its jobs has room for all that are there. -/
  accepted : (∃ added, outcome.1 = .ok added) ↔ ∀ queue ∈ flow.queueList,
    queues.unfinishedCount queue + flow.queueList.count queue ≤
      (queues.lane queue).settings.maxQueueLength
  /-- In states that can be reached this may be asked of all queues: one without a job of the flow
  holds no more than it may. -/
  everywhere : ∀ settings, Reachable settings queues →
    ((∃ added, outcome.1 = .ok added) ↔ ∀ queue,
      queues.unfinishedCount queue + flow.queueList.count queue ≤
        (queues.settingsOf queue).maxQueueLength)
  /-- Adding up in 64 bits, without a result where that overflows, comes to the same. -/
  checked : ∀ queue count, (queues.lane queue).settings.maxQueueLength < Nat.pow 2 64 →
    (queues.unfinishedCount queue + count ≤ (queues.lane queue).settings.maxQueueLength ↔
      ∃ total, checkedAdd (queues.unfinishedCount queue) count = some total ∧
        total ≤ (queues.lane queue).settings.maxQueueLength)
  /-- An accepted flow takes exactly the places of its jobs. -/
  grown : ∀ added, outcome.1 = .ok added → ∀ queue,
    outcome.2.unfinishedCount queue =
      queues.unfinishedCount queue + flow.queueList.count queue
  /-- A rejected flow takes no place, and nothing of it is stored or ready. -/
  rejected : ∀ problem, outcome.1 = .error problem →
    Touched queues outcome.2 ∧
      (∀ queue, outcome.2.unfinishedCount queue = queues.unfinishedCount queue) ∧
      outcome.2.jobs = queues.jobs ∧
      ∀ queue, (outcome.2.lane queue).ready = (queues.lane queue).ready
  /-- The queue for which a flow is rejected has no room for the jobs that are there. -/
  named : ∀ problem, outcome.1 = .error problem →
    ∃ queue ∈ flow.queueList,
      problem = .queueFull queue (queues.lane queue).settings.maxQueueLength ∧
      (queues.lane queue).settings.maxQueueLength <
        queues.unfinishedCount queue + flow.queueList.count queue

/-- A flow is accepted if its places are all claimed. -/
theorem accepted_iff_reserve :
    (∃ added, (addInOrder counts queues flow).1 = .ok added) ↔ (reserve counts queues).1 = none := by
  unfold addInOrder
  split
  · next reserved => simp [reserved]
  · next reserved => simp [reserved]

theorem reserve_of_rejected {problem : QueueError}
    (rejected : (addInOrder counts queues flow).1 = .error problem) :
    ∃ after, reserve counts queues = (some problem, after) := by
  unfold addInOrder at rejected
  split at rejected
  · next again after reserved =>
      cases rejected
      exact ⟨after, reserved⟩
  · cases rejected

/-- Admission of a flow is exact, and all or nothing, in every state and in whichever order its
places are claimed. -/
theorem admission_exact (perm : counts.Perm (countsOf flow)) :
    Decided queues flow (addInOrder counts queues flow) := by
  have distinct : (counts.map Prod.fst).Nodup :=
    (perm.map Prod.fst).nodup_iff.2 (nodup_countsOf flow)
  have places : ∀ entry, entry ∈ counts ↔
      entry.1 ∈ flow.queueList ∧ entry.2 = flow.queueList.count entry.1 :=
    fun entry => perm.mem_iff.trans mem_countsOf
  have accepted : (∃ added, (addInOrder counts queues flow).1 = .ok added) ↔
      ∀ queue ∈ flow.queueList, queues.unfinishedCount queue + flow.queueList.count queue ≤
        (queues.lane queue).settings.maxQueueLength := by
    rw [accepted_iff_reserve, reserve_fst_eq_none_iff distinct]
    constructor
    · intro room queue member
      exact hasRoom_iff.1 (room (queue, flow.queueList.count queue) ((places _).2 ⟨member, rfl⟩))
    · intro room entry member
      obtain ⟨listed, count⟩ := (places entry).1 member
      exact hasRoom_iff.2 (count ▸ room entry.1 listed)
  constructor
  case accepted => exact accepted
  case everywhere =>
    intro settings reached
    have counted := reached.counted
    rw [accepted]
    constructor
    · intro room queue
      by_cases member : queue ∈ flow.queueList
      · exact counted.settings queue ▸ room queue member
      · rw [List.count_eq_zero.2 member, Nat.add_zero, unfinishedCount_eq, ← counted.settings]
        exact counted.bounded queue
    · intro room queue _
      exact counted.settings queue ▸ room queue
  case checked => exact fun queue count fits => hasRoom_iff.symm.trans (hasRoom_iff_checkedAdd fits)
  case grown =>
    intro added accepted
    have whole : addInOrder counts queues flow = (.ok added, (addInOrder counts queues flow).2) :=
      Prod.ext accepted rfl
    exact unfinishedCount_of_accepted perm whole
  case rejected =>
    intro problem rejected
    have whole : addInOrder counts queues flow =
        (.error problem, (addInOrder counts queues flow).2) := Prod.ext rejected rfl
    obtain ⟨-, touched⟩ := touched_of_addInOrder whole
    exact ⟨touched, touched.unfinishedCount, touched.jobs, fun queue => by rw [touched.lane]⟩
  case named =>
    intro problem rejected
    obtain ⟨after, reserved⟩ := reserve_of_rejected rejected
    obtain ⟨entry, member, noRoom, rfl⟩ := full_of_reserve distinct reserved
    obtain ⟨listed, count⟩ := (places entry).1 member
    refine ⟨entry.1, listed, rfl, ?_⟩
    rw [← count]
    exact Nat.lt_of_not_le fun room => Bool.eq_false_iff.1 noRoom (hasRoom_iff.2 room)

/-- A queue with room for a single job. -/
def Sample.cramped : Dict QueueSettings :=
  .ofList [("narrow", { QueueSettings.standard with maxQueueLength := 1 })]

/-- A flow over three queues, two jobs of which belong to the one that has room for one. -/
def Sample.spread : Flow :=
  ⟨"root", "wide", .null, .standard,
    [⟨"first", "narrow", .null, .standard, []⟩,
      ⟨"second", "other", .null, .standard, [⟨"third", "narrow", .null, .standard, []⟩]⟩]⟩

/-- The order in which the flow claims its places: the queue that lacks room comes last. -/
def Sample.lastNarrow : List (String × Nat) := [("wide", 1), ("other", 1), ("narrow", 2)]

theorem admission_exact_spread :
    Sample.lastNarrow.Perm (countsOf Sample.spread) ∧
    (addInOrder Sample.lastNarrow (start Sample.cramped) Sample.spread).1 =
      .error (.queueFull "narrow" 1) ∧
    Decided (start Sample.cramped) Sample.spread
      (addInOrder Sample.lastNarrow (start Sample.cramped) Sample.spread) := by
  have perm : Sample.lastNarrow.Perm (countsOf Sample.spread) := by decide +kernel
  exact ⟨perm, by decide +kernel, admission_exact perm⟩

end Queues

end Relay
