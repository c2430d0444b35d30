import Relay.Proofs.Workflow.Links

/-!
# The shape of a chain

As long as nothing of a submitted chain is evicted, the states of its jobs have one of
three shapes, whatever the attempts end in and whatever other flows do.  The phases of a
chain speak of attempts whose ends are foreseen.  Here nothing is foreseen: every time a
call returns, what it returned is what is taken to have been foreseen for that attempt.
-/

namespace Relay

/-! ## Learning how attempts end -/

/-- Replace what is foreseen of one attempt of a job. -/
def Trials.learn (trials : Trials) (link : Link) (attempt : Nat) (result : Except JobError Unit) :
    Trials :=
  { trials with verdict :=
      Function.update trials.verdict link (Function.update (trials.verdict link) attempt result) }

section Learning

variable {trials : Trials} {jobs : JobKey → Option Job} {link other : Link} {attempt : Nat}
  {links before rest : List Link} {job : Job}

theorem verdict_learn_of_ne (different : other ≠ link) (result : Except JobError Unit) :
    (trials.learn link attempt result).verdict other = trials.verdict other :=
  Function.update_of_ne different _ _

theorem verdict_learn_self (result : Except JobError Unit) :
    (trials.learn link attempt result).verdict link =
      Function.update (trials.verdict link) attempt result :=
  Function.update_self _ _ _

/-- Attempts that have ended are not concerned by what a later one ends in. -/
theorem Retried.learn {tries : Nat}
    (retried : Retried (trials.verdict link) (trials.limit link.seed) tries)
    (later : tries < attempt) (result : Except JobError Unit) :
    Retried ((trials.learn link attempt result).verdict link) (trials.limit link.seed) tries := by
  intro earlier positive atMost
  obtain ⟨again, message, ends⟩ := retried earlier positive atMost
  refine ⟨again, message, ?_⟩
  have different : earlier ≠ attempt := Nat.ne_of_lt (Nat.lt_of_le_of_lt atMost later)
  rw [verdict_learn_self, Function.update_of_ne different]
  exact ends

theorem Link.Completed.learn (completed : other.Completed jobs trials) (different : other ≠ link)
    (result : Except JobError Unit) :
    other.Completed jobs (trials.learn link attempt result) := by
  unfold Link.Completed
  rw [verdict_learn_of_ne different]
  exact completed

/-- While an attempt is running, nothing in the phase of the chain depends on its end. -/
theorem Phase.learn (phase : Phase trials jobs links) (linked : Linked links)
    (member : link ∈ links) (stored : jobs link.key = some job) (active : job.state = .active)
    (result : Except JobError Unit) :
    Phase (trials.learn link job.attemptsMade result) jobs links := by
  have unfinished : job.state.isFinished = false := by rw [active]; rfl
  have ready : job.state ≠ .waitingChildren := by rw [active]; decide
  obtain ⟨before, rest, rfl, live⟩ := phase.live_of_state linked member stored unfinished ready
  apply Phase.live rfl
  constructor
  case before =>
    intro other earlier
    have different : other ≠ link := fun same => linked.apart.1 other earlier (congrArg Link.key same)
    exact (live.before other earlier).learn different result
  case underway =>
    obtain ⟨found, tries, isFound, stems, retried, stage⟩ := live.underway
    cases stored.symm.trans isFound
    have made : job.attemptsMade = tries + 1 := by
      rcases stage with ⟨-, made⟩ | ⟨waiting | delayed, -⟩
      · exact made
      · cases active.symm.trans waiting
      · cases active.symm.trans delayed
    have later : tries < job.attemptsMade := made ▸ Nat.lt_succ_self tries
    exact ⟨job, tries, stored, stems, retried.learn later result, stage⟩
  case rest => exact live.rest

end Learning

/-! ## Phases without foresight -/

namespace Queues

/-- The chain is in a phase, however its attempts have ended so far. -/
def Unfolds (queues : Queues) (links : List Link) : Prop :=
  ∃ verdict, Phase ⟨verdict, queues.allowance⟩ queues.job? links

variable {queues after later : Queues} {links : List Link} {act : Act}
  {settings : Dict QueueSettings}

theorem allowance_eq (same : after.settings = queues.settings) :
    after.allowance = queues.allowance := by
  funext job
  unfold allowance settingsOf
  rw [same]

/-- A step keeps the chain in a phase if it evicts nothing of the chain. -/
theorem Unfolds.step (unfolds : Unfolds queues links) (linked : Linked links)
    (steady : Steady queues none []) (attended : Attended queues) (step : Step queues act after)
    (stored : ∀ link ∈ links, ∃ job, after.job? link.key = some job) : Unfolds after links := by
  obtain ⟨verdict, phase⟩ := unfolds
  have limits := allowance_eq (step.effect steady).settings
  have foreseen : ∀ verdict, Phase ⟨verdict, queues.allowance⟩ queues.job? links →
      act.Foreseen ⟨verdict, queues.allowance⟩ links → Unfolds after links := by
    intro verdict phase foreseen
    refine ⟨verdict, ?_⟩
    rw [limits]
    exact phase.step linked steady attended (fun _ _ => rfl) step foreseen
  have evicted : Evicts queues after → Unfolds after links := by
    intro evicts
    refine ⟨verdict, ?_⟩
    rw [limits]
    apply phase.congr
    intro link member
    obtain ⟨job, isStored⟩ := stored link member
    rw [isStored, evicts.jobs _ _ isStored]
  cases act with
  | finish call outcome =>
      by_cases inside : call.key ∈ links.map Link.key
      · obtain ⟨link, member, here⟩ := List.mem_map.1 inside
        cases step with
        | finish _ isRunning =>
            obtain ⟨job, isStored, -⟩ := phase.stored member
            have storedCall : queues.job? call.key = some job := here ▸ isStored
            have active := (steady.endCall isRunning storedCall).1
            have attempt := (attended call isRunning job storedCall).attempt
            generalize result_eq : outcome.map (fun _ => ()) = result
            -- The attempt is still running, so what was foreseen of it can be replaced.
            have learned := phase.learn linked member isStored active result
            apply foreseen _ learned
            intro other isOther same
            have equal : other = link :=
              List.inj_on_of_nodup_map linked.distinct isOther member (same.symm.trans here.symm)
            have told := congrFun (@verdict_learn_self ⟨verdict, queues.allowance⟩ link
              job.attemptsMade result) job.attemptsMade
            rw [Function.update_self] at told
            rw [equal, attempt, result_eq]
            exact told.symm
      · apply foreseen verdict phase
        intro link member here
        exact absurd (here ▸ List.mem_map_of_mem member) inside
  | remove key =>
      cases step with
      | remove => exact evicted (evicts_removeAll queues [key])
  | prune olderThan keys =>
      cases step with
      | prune => exact evicted (evicts_removeAll queues keys)
  | _ => exact foreseen verdict phase trivial

/-- A chain stays in a phase as long as nothing of it is evicted. -/
theorem Leads.unfolds (leads : queues.Leads later) (reached : Reachable settings queues)
    (linked : Linked links) (unfolds : Unfolds queues links)
    (stored : ∀ link ∈ links, ∃ job, later.job? link.key = some job) : Unfolds later links := by
  have born : ∀ link ∈ links, queues.view.Born link.key := by
    intro link member
    obtain ⟨verdict, phase⟩ := unfolds
    obtain ⟨job, isStored, -⟩ := phase.stored member
    exact reached.steady.sound.born isStored
  induction leads with
  | refl => exact unfolds
  | @tail between after before more ih =>
      obtain ⟨act, more⟩ := more
      have reachedBetween := Leads.reachable before reached
      have steady := reachedBetween.steady
      apply (ih _).step linked steady reachedBetween.attended more stored
      intro link member
      obtain ⟨job, isStored⟩ := stored link member
      obtain ⟨old, earlier, -⟩ := (more.effect steady).origin_of_born
        (Leads.born before reached (born link member)) isStored
      exact ⟨old, earlier⟩

end Queues

/-! ## Shapes -/

/-- The shapes that the states of the jobs of a chain can have, the innermost job first. -/
inductive ChainShape : List JobState → Prop where
  | completed (count : Nat) : ChainShape (.replicate count .completed)
  | underway (count above : Nat) {state : JobState}
      (unfinished : state ∈ [.waiting, .active, .delayed]) :
      ChainShape (.replicate count .completed ++ state :: .replicate above .waitingChildren)
  | failed (count above : Nat) :
      ChainShape (.replicate count .completed ++ .failed :: .replicate above .failed)

section Shapes

variable {trials : Trials} {queues : Queues} {links before rest : List Link} {link : Link}
  {state : JobState}

theorem Link.Completed.jobState? (completed : link.Completed queues.job? trials) :
    queues.jobState? link.key = some .completed := by
  obtain ⟨job, tries, stored, -, state, -⟩ := completed
  rw [Queues.jobState?, stored, Option.map_some, state]

theorem Link.Untouched.jobState? (untouched : link.Untouched queues.job?) :
    queues.jobState? link.key = some link.seed.state := by
  rw [Queues.jobState?, show queues.job? link.key = some link.seed from untouched, Option.map_some]

theorem Link.Inherits.jobState? {reason : String} (inherits : link.Inherits queues.job? reason) :
    queues.jobState? link.key = some .failed := by
  obtain ⟨job, stored, -, state, -⟩ := inherits
  rw [Queues.jobState?, stored, Option.map_some, state]

/-- The states of jobs that are all in one state. -/
theorem states_eq_replicate (same : ∀ link ∈ links, queues.jobState? link.key = some state) :
    links.map (fun link => queues.jobState? link.key) =
      (List.replicate links.length state).map some := by
  rw [List.map_replicate, List.eq_replicate_iff]
  refine ⟨List.length_map _, ?_⟩
  intro found member
  obtain ⟨link, isLink, rfl⟩ := List.mem_map.1 member
  exact same link isLink

/-- The states of jobs one of which is apart. -/
theorem states_eq_append {lower here upper : JobState}
    (below : ∀ other ∈ before, queues.jobState? other.key = some lower)
    (at_ : queues.jobState? link.key = some here)
    (above : ∀ other ∈ rest, queues.jobState? other.key = some upper) :
    (before ++ link :: rest).map (fun link => queues.jobState? link.key) =
      (List.replicate before.length lower ++ here :: .replicate rest.length upper).map some := by
  rw [List.map_append, List.map_cons, List.map_append, List.map_cons, states_eq_replicate below,
    states_eq_replicate above, at_]

/-- In every phase the states of the jobs of a chain have one of the shapes. -/
theorem Phase.shape (phase : Phase trials queues.job? links) (linked : Linked links) :
    ∃ states, links.map (fun link => queues.jobState? link.key) = states.map some ∧
      ChainShape states := by
  cases phase with
  | completed all =>
      exact ⟨_, states_eq_replicate fun link member => (all link member).jobState?, .completed _⟩
  | @live before rest link whole live =>
      subst whole
      obtain ⟨job, tries, stored, -, -, stage⟩ := live.underway
      have unfinished : job.state ∈ [.waiting, .active, .delayed] := by
        rcases stage with ⟨active, -⟩ | ⟨waiting | delayed, -⟩
        · simp [active]
        · simp [waiting]
        · simp [delayed]
      refine ⟨_, states_eq_append (fun other member => (live.before other member).jobState?) ?_
        fun other member => ?_, .underway before.length rest.length unfinished⟩
      · rw [Queues.jobState?, stored, Option.map_some]
      · rw [Link.Untouched.jobState? (live.rest other member), linked.waits member]
  | @stranded before rest link error whole stranded =>
      subst whole
      obtain ⟨job, tries, stored, -, failed, -⟩ := stranded.broken
      refine ⟨_, states_eq_append (fun other member => (stranded.before other member).jobState?) ?_
        fun other member => (stranded.rest other member).jobState?, .failed _ _⟩
      rw [Queues.jobState?, stored, Option.map_some, failed]

/-- What comes before an element comes before another one that is not followed by it. -/
theorem mem_of_not_followed {α : Type} {before rest lower upper : List α} {item here : α}
    (whole : before ++ item :: rest = lower ++ here :: upper) (notAbove : item ∉ upper) :
    ∀ other ∈ before, other ∈ lower := by
  intro other member
  rcases List.append_eq_append_iff.1 whole with ⟨more, rfl, -⟩ | ⟨between, rfl, tail⟩
  · exact List.mem_append_left more member
  · cases between with
    | nil => simpa using member
    | cons first others =>
        cases tail
        exact absurd (by simp) notAbove

/-- Before a job is tried, all jobs below it have completed. -/
theorem Phase.completed_before_tried (phase : Phase trials queues.job? (before ++ link :: rest))
    (linked : Linked (before ++ link :: rest)) {job : Job}
    (stored : queues.job? link.key = some job) (tried : job.attemptsMade ≠ 0) :
    ∀ other ∈ before, queues.jobState? other.key = some .completed := by
  intro other member
  generalize whole_eq : before ++ link :: rest = links at phase linked
  cases phase with
  | completed all => exact (all other (by simp [← whole_eq, member])).jobState?
  | @live lower upper here whole live =>
      -- What stands above the job that is underway is as it was submitted.
      have notAbove : link ∉ upper := by
        intro above
        cases stored.symm.trans (live.rest link above)
        exact tried (linked.untried link (by simp [whole, above]))
      exact (live.before other
        (mem_of_not_followed (whole_eq.trans whole) notAbove other member)).jobState?
  | @stranded lower upper here error whole stranded =>
      have notAbove : link ∉ upper := by
        intro above
        obtain ⟨found, isFound, -, -, -, untried⟩ := stranded.rest link above
        cases stored.symm.trans isFound
        exact tried untried
      exact (stranded.before other
        (mem_of_not_followed (whole_eq.trans whole) notAbove other member)).jobState?

end Shapes

/-! ## Submitted chains -/

namespace Chain

/-- What is true of a submitted chain of which nothing was evicted. -/
structure Shaped (queues : Queues) (order : List Task) (root : JobKey) (links : List Link) :
    Prop where
  /-- The jobs are those of the tasks in their order, up to the root. -/
  tasks : links.map (fun link => link.seed.name) = order.map Task.name
  root : links.getLast?.map Link.key = some root
  /-- Every job is stored as what it was submitted as: the only child of the next one. -/
  linked : Linked links
  stored : ∀ link ∈ links, ∃ job, queues.job? link.key = some job ∧ link.seed.Stems job
  /-- The states of the jobs have one of the shapes. -/
  shape : ∃ states, links.map (fun link => queues.jobState? link.key) = states.map some ∧
    ChainShape states
  /-- At most one of the jobs has a running call. -/
  single : queues.running.countP (fun call => call.key ∈ links.map Link.key) ≤ 1
  /-- No attempt of a job was started before all jobs below it had completed. -/
  inOrder : ∀ before link rest, links = before ++ link :: rest →
    ∀ job, queues.job? link.key = some job → job.attemptsMade ≠ 0 →
      ∀ other ∈ before, queues.jobState? other.key = some .completed

variable {settings : Dict QueueSettings} {queues after later : Queues} {order : List Task}
  {id : Uuid} {routing : Routing} {chain : Flow} {added : AddedFlow}
  {counts : List (String × Nat)}

/-- A submitted chain of which nothing was evicted is in shape, whatever has happened since. -/
theorem submitted_in_shape (reached : Queues.Reachable settings queues)
    (compiled : compile order id routing = .ok chain)
    (claimed : counts.Perm (Queues.countsOf chain))
    (accepted : Queues.addInOrder counts queues chain = (.ok added, after))
    (leads : after.Leads later)
    (kept : ∀ link ∈ links id routing queues.nextSerial order,
      (later.job? link.key).isSome = true) :
    Shaped later order ⟨added.queueName, added.jobId⟩
      (links id routing queues.nextSerial order) := by
  have member := mem_wrapAll_of_compile compiled
  have step : Queues.Step queues (.add chain counts) (Queues.addInOrder counts queues chain).2 :=
    .add claimed
  rw [accepted] at step
  obtain ⟨problem, other, refused, -⟩ | ⟨other, same, plants⟩ :=
    Queues.addInOrder_cases reached.steady counts chain
  · cases accepted.symm.trans refused
  cases accepted.symm.trans same
  have stored : ∀ link ∈ links id routing queues.nextSerial order,
      ∃ job, later.job? link.key = some job :=
    fun link isLink => Option.isSome_iff_exists.1 (kept link isLink)
  have chained := linked id routing queues.nextSerial order
  have unfolds : Queues.Unfolds after (links id routing queues.nextSerial order) :=
    ⟨fun _ _ => .ok (), phase_of_plants _ plants member⟩
  have reachedLater := leads.reachable (reached.step step)
  obtain ⟨verdict, phase⟩ := leads.unfolds (reached.step step) chained unfolds stored
  constructor
  case tasks => exact names_linksBetween
  case root => exact root_links member
  case linked => exact chained
  case stored => exact fun link isLink => phase.stored isLink
  case shape => exact phase.shape chained
  case single => exact phase.oneCall chained reachedLater.steady
  case inOrder =>
    intro before link rest whole job isStored tried
    rw [whole] at phase chained
    exact phase.completed_before_tried chained isStored tried

/-- Two steps, one after the other. -/
def Sample.twoSteps : List Task := [Task.plain "first" "work", Task.plain "second" "work"]

/-- A routing to a single queue. -/
def Sample.toDefault : Routing := { queues := .empty, defaultQueue := "default" }

/-- The chain of the two steps. -/
def Sample.twoJobs : Flow :=
  wrap (Uuid.ofNat 7) Sample.toDefault [wrap (Uuid.ofNat 7) Sample.toDefault []
    (Task.plain "first" "work")] (Task.plain "second" "work")

/-- The queues after the chain was submitted. -/
def Sample.submitted : Queues :=
  (Queues.addInOrder (Queues.countsOf Sample.twoJobs) (.start .empty) Sample.twoJobs).2

/-- The queues after the first attempt of the first step was started. -/
def Sample.working : Queues :=
  (Queues.follow? (.startWorker "default" :: .replicate 3 (.advance "default"))
    Sample.submitted).getD Sample.submitted

theorem submitted_in_shape_working :
    Shaped Sample.working Sample.twoSteps ⟨"default", jobIdOf 0⟩
      (links (Uuid.ofNat 7) Sample.toDefault 0 Sample.twoSteps) ∧
    (links (Uuid.ofNat 7) Sample.toDefault 0 Sample.twoSteps).map
      (fun link => Sample.working.jobState? link.key) = [some .active, some .waitingChildren] := by
  have added : Queues.addInOrder (Queues.countsOf Sample.twoJobs) (.start .empty) Sample.twoJobs =
      (.ok ⟨jobIdOf 0, "second", "default"⟩, Sample.submitted) := by decide +kernel
  have followed : Queues.follow? (.startWorker "default" :: .replicate 3 (.advance "default"))
      Sample.submitted = some Sample.working := by decide +kernel
  have kept : ∀ link ∈ links (Uuid.ofNat 7) Sample.toDefault 0 Sample.twoSteps,
      (Sample.working.job? link.key).isSome = true := by decide +kernel
  exact ⟨submitted_in_shape (@Queues.Reachable.start .empty) rfl (.refl _) added
    (Queues.leads_of_follow? followed) kept, by decide +kernel⟩

end Chain

end Relay
