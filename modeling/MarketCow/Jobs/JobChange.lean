import MarketCow.Jobs.Engine
import MarketCow.Library.Fallible
import MarketCow.Library.Transition

/-!
# What an operation can do to a job

An operation that is accepted submits a job or changes jobs there are, each in
one of seven ways. Runs of the engine interleave operations at times that do
not decrease, with identifiers that were never drawn before.
-/

namespace MarketCow.Jobs

open Library MarketCow.Core Option

/-! ## Operations as data -/

/-- An operation with its arguments. -/
inductive JobAction
  | submit (input : SubmitJob) (drawn : Uuid)
  | claim (jobId workerId : String) (leaseDuration : Duration) (drawn : Uuid)
  | claimNext
      (workerId : String)
      (capabilities : List String)
      (leaseDuration : Duration)
      (drawn : Uuid)
  | claimNextWithPolicies
      (workerId : String)
      (capabilities : List String)
      (policies : TreeMap String DispatchPolicy)
      (leaseDuration : Duration)
      (drawn : Uuid)
  | start (jobId leaseToken : String)
  | succeed (jobId leaseToken : String) (result : StagedResult)
  | fail (jobId leaseToken : String) (error : JobError) (retryable : Bool)
  | requeue (jobId : String)
  | requeueRetryable
  | expireLeases
  | cancel (jobId actor : String)

/-- The identifier an operation may use. -/
def JobAction.drawn : JobAction → Option Uuid
  | .submit _ drawn => some drawn
  | .claim _ _ _ drawn => some drawn
  | .claimNext _ _ _ drawn => some drawn
  | .claimNextWithPolicies _ _ _ _ drawn => some drawn
  | _ => none

/-- The engine an answer leaves: a rejected operation changes nothing. -/
def JobEngine.afterAnswer
    {α : Type} (engine : JobEngine) (answer : Except JobEngineError (α × JobEngine)) : JobEngine :=
  match answer with
  | .error _ => engine
  | .ok (_, after) => after

/-- What an operation leaves; one that is refused leaves the engine as it was. -/
def JobEngine.perform
    (engine : JobEngine) (now : DateTime) : JobAction → JobEngine
  | .submit input drawn => engine.afterAnswer (engine.submit input drawn now)
  | .claim jobId workerId leaseDuration drawn =>
    engine.afterAnswer (engine.claim jobId workerId leaseDuration drawn now)
  | .claimNext workerId capabilities leaseDuration drawn =>
    engine.afterAnswer (engine.claimNext workerId capabilities leaseDuration drawn now)
  | .claimNextWithPolicies workerId capabilities policies leaseDuration drawn =>
    engine.afterAnswer
      (engine.claimNextWithPolicies workerId capabilities policies leaseDuration drawn now)
  | .start jobId leaseToken => engine.afterAnswer (engine.start jobId leaseToken now)
  | .succeed jobId leaseToken result =>
    engine.afterAnswer (engine.succeed jobId leaseToken result now)
  | .fail jobId leaseToken error retryable =>
    engine.afterAnswer (engine.fail jobId leaseToken error retryable now)
  | .requeue jobId => engine.afterAnswer (engine.requeue jobId now)
  | .requeueRetryable => (engine.requeueRetryable now).2
  | .expireLeases => (engine.expireLeases now).2
  | .cancel jobId actor => engine.afterAnswer (engine.cancel jobId actor now)

/-! ## Changes -/

/-- The token holds the lease of the job at that time. -/
structure LeaseAccepted (job : ProviderJob) (leaseToken : String) (now : DateTime) : Prop where
  timely : now < job.deadline
  token : job.leaseToken = some leaseToken
  unexpired : ∃ expires, job.leaseExpiresAt = some expires ∧ now < expires

namespace ProviderJob

/-- The job in the hands of a worker. -/
def claimedBy (job : ProviderJob) (workerId : String) (leaseDuration : Duration) (drawn : Uuid)
    (now : DateTime) : ProviderJob :=
  { job with
    status := .claimed
    revision := job.revision + 1
    attempt := job.attempt + 1
    ownerId := some workerId
    leaseToken := some drawn.text
    leaseExpiresAt := some (min (now + leaseDuration) job.deadline)
    claimedAt := some now }

/-- The job while it runs. -/
def started (job : ProviderJob) (now : DateTime) : ProviderJob :=
  { job with
    status := .running
    revision := job.revision + 1
    startedAt := some (job.startedAt.getD now) }

/-- The job with its result. -/
def finishedWith (job : ProviderJob) (result : StagedResult) (now : DateTime) : ProviderJob :=
  ({ job with
    status := .succeeded
    revision := job.revision + 1
    finishedAt := some now
    result := some result } : ProviderJob).clearLease

/-- The job that waits again. -/
def requeued (job : ProviderJob) : ProviderJob :=
  { job with status := .pending, revision := job.revision + 1 }

/-- The job that an actor canceled. -/
def canceledBy (job : ProviderJob) (actor : String) (now : DateTime) : ProviderJob :=
  ({ job with
    status := .canceled
    revision := job.revision + 1
    finishedAt := some now
    auditActor := actor } : ProviderJob).clearLease

end ProviderJob

/-- The ways an operation changes the job of an identifier. -/
inductive JobChange
    (action : JobAction) (now : DateTime) (jobId : String) (job : ProviderJob) : ProviderJob → Prop
  | claimed
      {workerId : String}
      {leaseDuration : Duration}
      {drawn : Uuid}
      (named : action.drawn = some drawn)
      (timely : now < job.deadline)
      (pending : job.status = .pending)
      (attempts : job.attempt < job.maxAttempts) :
      JobChange action now jobId job (job.claimedBy workerId leaseDuration drawn now)
  | started
      {leaseToken : String}
      (accepted : LeaseAccepted job leaseToken now)
      (claimed : job.status = .claimed) :
      JobChange action now jobId job (job.started now)
  | succeeded
      {leaseToken : String}
      {result : StagedResult}
      (named : action = .succeed jobId leaseToken result)
      (valid : validateResult result = .ok ())
      (accepted : LeaseAccepted job leaseToken now)
      (running : job.status = .running) :
      JobChange action now jobId job (job.finishedWith result now)
  | failed
      {error : JobError}
      {retryable : Bool}
      (active : job.status.active = true) :
      JobChange action now jobId job (job.failWith error retryable now)
  | requeued
      (retryable : job.status = .failedRetryable) :
      JobChange action now jobId job job.requeued
  | canceled
      {actor : String}
      (named : actor ≠ "")
      (unfinished : job.status.terminal = false) :
      JobChange action now jobId job (job.canceledBy actor now)

/-- A job there is stays as it is or changes in one of these ways. -/
inductive JobEffect
    (action : JobAction) (now : DateTime)
    (jobId : String) : Option ProviderJob → Option ProviderJob → Prop
  | same {entry : Option ProviderJob} : JobEffect action now jobId entry entry
  | changed
      {job after : ProviderJob}
      (change : JobChange action now jobId job after) :
      JobEffect action now jobId (some job) (some after)

/-- An operation changes jobs there are, or submits one under a new key. -/
inductive EngineEffect
    (engine : JobEngine) (action : JobAction) (now : DateTime) : JobEngine → Prop
  | changed
      {jobs : TreeMap String ProviderJob}
      (each : ∀ jobId : String, JobEffect action now jobId engine.jobs[jobId]? jobs[jobId]?) :
      EngineEffect engine action now { engine with jobs }
  | submitted
      {input : SubmitJob}
      {drawn : Uuid}
      {requestSha256 : String}
      (named : action = .submit input drawn)
      (valid : validateSubmit input now = .ok ())
      (hashed : sha256Json input.request = .ok requestSha256)
      (fresh : engine.idempotency[input.idempotencyKey]? = none) :
      EngineEffect engine action now
        { jobs := engine.jobs.insert drawn.text
            (JobEngine.submitted input requestSha256 drawn now)
          idempotency := engine.idempotency.insert input.idempotencyKey drawn.text }

/-! ## Every operation has such an effect -/

theorem checkLease_ok_iff :
    job.checkLease leaseToken now = .ok () ↔ LeaseAccepted job leaseToken now := by
  unfold ProviderJob.checkLease
  by_cases late : now ≥ job.deadline
  · rw [if_pos late]
    constructor
    · intro never
      cases never
    · intro accepted
      exact absurd accepted.timely (not_lt.mpr late)
  · rw [if_neg late, rejectIf_ok_iff, Bool.or_eq_false_iff, bne_eq_false_iff_eq]
    constructor
    · rintro ⟨token, unexpired⟩
      refine ⟨not_le.mp late, token, ?_⟩
      cases present : job.leaseExpiresAt with
      | none =>
        rw [present] at unexpired
        cases unexpired
      | some expires =>
        rw [present, all_some, decide_eq_false_iff_not, not_le] at unexpired
        exact ⟨expires, rfl, unexpired⟩
    · rintro ⟨_, token, expires, present, unexpired⟩
      rw [present, all_some, decide_eq_false_iff_not, not_le]
      exact ⟨token, unexpired⟩

section Effects

variable {engine : JobEngine} {action : JobAction} {now : DateTime}

theorem EngineEffect.same : EngineEffect engine action now engine := .changed fun _ => .same

/-- A check that fails leaves the engine as it is. -/
theorem effect_of_check
    {α : Type} {check : Except JobEngineError Unit} {answer : Except JobEngineError (α × JobEngine)}
    (passed : check = .ok () → EngineEffect engine action now (engine.afterAnswer answer)) :
    EngineEffect engine action now (engine.afterAnswer (do check; answer)) := by
  cases check with
  | error _ => exact .same
  | ok _ => exact passed rfl

/-- An operation on one job has an effect the job can have. -/
theorem effect_of_changeJob
    {jobId : String} {change : ProviderJob → Except JobEngineError ProviderJob}
    (changes : ∀ job after, change job = .ok after → JobChange action now jobId job after) :
    EngineEffect engine action now (engine.afterAnswer (engine.changeJob jobId change)) := by
  unfold JobEngine.changeJob
  cases present : engine.jobs[jobId]? with
  | none => exact .same
  | some job =>
    dsimp only
    cases changed : change job with
    | error _ => exact .same
    | ok after =>
      refine .changed fun other => ?_
      rw [TreeMap.getElem?_insert]
      by_cases same : jobId = other
      · subst same
        rw [if_pos (by simp), present]
        exact .changed (changes job after changed)
      · rw [if_neg (by simpa using same)]
        exact .same

theorem claim_effect {jobId workerId : String} {leaseDuration : Duration} {drawn : Uuid}
    (named : action.drawn = some drawn) :
    EngineEffect engine action now
      (engine.afterAnswer (engine.claim jobId workerId leaseDuration drawn now)) := by
  refine effect_of_check fun _ => effect_of_changeJob ?_
  intro job after claimed
  unfold ProviderJob.claim at claimed
  split at claimed
  · cases claimed
  · rename_i timely
    split at claimed
    · cases claimed
    · rename_i allowed
      cases claimed
      push Not at allowed timely
      exact .claimed named timely allowed.1 allowed.2

theorem claimFound_effect (named : action.drawn = some drawn) :
    EngineEffect engine action now
      (engine.afterAnswer (engine.claimFound found workerId leaseDuration drawn now)) := by
  cases found with
  | none => exact .same
  | some job =>
    have effect := @claim_effect engine action now job.jobId workerId leaseDuration drawn named
    unfold JobEngine.claimFound
    dsimp only
    cases answer : engine.claim job.jobId workerId leaseDuration drawn now with
    | error _ => exact .same
    | ok claimed =>
      rw [answer] at effect
      exact effect

/-- A sweep changes each job by itself. -/
theorem effect_of_sweep {sweep : ProviderJob → ProviderJob}
    (changes : ∀ jobId job, sweep job = job ∨ JobChange action now jobId job (sweep job)) :
    EngineEffect engine action now
      { engine with jobs := engine.jobs.map fun _ job => sweep job } := by
  refine .changed fun jobId => ?_
  rw [TreeMap.getElem?_map]
  cases engine.jobs[jobId]? with
  | none => exact .same
  | some job =>
    rcases changes jobId job with same | change
    · rw [map_some, same]
      exact .same
    · exact .changed change

/-- A change under a lease passes the check of the lease. -/
theorem accepted_of_bind
    {job after : ProviderJob} (changed : (do job.checkLease leaseToken now; answer) = .ok after) :
    LeaseAccepted job leaseToken now ∧ answer = .ok after := by
  obtain ⟨_, checked, answered⟩ := bind_ok.mp changed
  exact ⟨checkLease_ok_iff.mp checked, answered⟩

/-- A submission adds a job or changes nothing. -/
theorem submit_effect {input : SubmitJob} {drawn : Uuid} :
    EngineEffect engine (.submit input drawn) now
      (engine.afterAnswer (engine.submit input drawn now)) := by
  refine effect_of_check fun valid => ?_
  unfold sha256Json
  simp only [bind, Except.bind]
  cases present : engine.idempotency[input.idempotencyKey]? with
  | none => exact .submitted rfl valid rfl present
  | some jobId =>
    dsimp only
    cases engine.jobs[jobId]? with
    | none => exact .same
    | some existing =>
      dsimp only
      split
      · exact .same
      · exact .same

theorem start_effect :
    EngineEffect engine (.start jobId leaseToken) now
      (engine.afterAnswer (engine.start jobId leaseToken now)) := by
  refine effect_of_changeJob ?_
  intro job after started
  obtain ⟨accepted, answered⟩ := accepted_of_bind started
  split at answered
  · cases answered
  · rename_i claimed
    cases answered
    exact .started accepted (not_not.mp claimed)

variable {jobId leaseToken : String}

theorem succeed_effect {result : StagedResult} :
    EngineEffect engine (.succeed jobId leaseToken result) now
      (engine.afterAnswer (engine.succeed jobId leaseToken result now)) := by
  refine effect_of_check fun valid => effect_of_changeJob ?_
  intro job after succeeded
  obtain ⟨accepted, answered⟩ := accepted_of_bind succeeded
  split at answered
  · cases answered
  · rename_i running
    cases answered
    exact .succeeded rfl valid accepted (not_not.mp running)

theorem fail_effect {error : JobError} {retryable : Bool} :
    EngineEffect engine (.fail jobId leaseToken error retryable) now
      (engine.afterAnswer (engine.fail jobId leaseToken error retryable now)) := by
  refine effect_of_check fun _ => effect_of_changeJob ?_
  intro job after failed
  obtain ⟨_, answered⟩ := accepted_of_bind failed
  cases active : job.status.active with
  | false =>
    rw [active] at answered
    cases answered
  | true =>
    rw [active] at answered
    cases answered
    exact .failed active

theorem requeue_effect :
    EngineEffect engine (.requeue jobId) now (engine.afterAnswer (engine.requeue jobId now)) := by
  refine effect_of_changeJob ?_
  intro job after requeued
  unfold ProviderJob.requeue at requeued
  split at requeued
  · cases requeued
  · rename_i allowed
    cases requeued
    push Not at allowed
    exact .requeued allowed.1

theorem cancel_effect {jobId actor : String} :
    EngineEffect engine (.cancel jobId actor) now
      (engine.afterAnswer (engine.cancel jobId actor now)) := by
  refine effect_of_check fun named => effect_of_changeJob ?_
  intro job after canceled
  have nonempty : actor ≠ "" := by
    rintro rfl
    rw [rejectIf_ok_iff] at named
    cases named
  unfold ProviderJob.cancel at canceled
  cases unfinished : job.status.terminal with
  | true =>
    rw [unfinished] at canceled
    cases canceled
  | false =>
    rw [unfinished] at canceled
    cases canceled
    exact .canceled nonempty unfinished

theorem requeueRetryable_effect :
    EngineEffect engine .requeueRetryable now (engine.requeueRetryable now).2 := by
  refine effect_of_sweep fun jobId job => ?_
  unfold ProviderJob.requeueRetryable
  split
  · rename_i retryable
    rw [ProviderJob.isRetryable, and_eq_true, decide_eq_true_eq] at retryable
    exact .inr (.requeued retryable.1)
  · exact .inl rfl

theorem expireLeases_effect :
    EngineEffect engine .expireLeases now (engine.expireLeases now).2 := by
  refine effect_of_sweep fun jobId job => ?_
  unfold ProviderJob.expireLease
  split
  · rename_i expired
    rw [ProviderJob.isExpired, and_eq_true] at expired
    exact .inr (.failed expired.1)
  · exact .inl rfl

theorem claimNextWithPolicies_effect (named : action.drawn = some drawn) :
    EngineEffect engine action now
      (engine.afterAnswer
        (engine.claimNextWithPolicies workerId capabilities policies leaseDuration drawn now)) := by
  unfold JobEngine.claimNextWithPolicies
  cases policies.valueList.mapM DispatchPolicy.validate with
  | error _ => exact .same
  | ok _ => exact claimFound_effect named

/-- Each operation has one of the effects. -/
theorem perform_effect (engine : JobEngine) (action : JobAction) (now : DateTime) :
    EngineEffect engine action now (engine.perform now action) := by
  cases action with
  | submit input drawn => exact submit_effect
  | claim jobId workerId leaseDuration drawn => exact claim_effect rfl
  | claimNext workerId capabilities leaseDuration drawn => exact claimFound_effect rfl
  | claimNextWithPolicies workerId capabilities policies leaseDuration drawn =>
    exact claimNextWithPolicies_effect rfl
  | start jobId leaseToken => exact start_effect
  | succeed jobId leaseToken result => exact succeed_effect
  | fail jobId leaseToken error retryable => exact fail_effect
  | requeue jobId => exact requeue_effect
  | requeueRetryable => exact requeueRetryable_effect
  | expireLeases => exact expireLeases_effect
  | cancel jobId actor => exact cancel_effect

end Effects

/-! ## Runs -/

/-- The engine, the time of its last operation and the identifiers drawn. -/
structure JobState where
  engine : JobEngine
  clock : DateTime
  drawn : List Uuid

/-- No jobs, and nothing drawn. -/
def JobState.start (clock : DateTime) : JobState where
  engine := .empty
  clock
  drawn := []

/-- An operation at a time that is no earlier than the last one, which draws no
identifier a second time. -/
inductive JobStep
    (before : JobState) : JobAction × DateTime → JobState → Prop
  | performed
      {action : JobAction}
      {now : DateTime}
      (later : before.clock ≤ now)
      (fresh : ∀ drawn ∈ action.drawn, drawn ∉ before.drawn) :
      JobStep before (action, now)
        { engine := before.engine.perform now action
          clock := now
          drawn := action.drawn.toList ++ before.drawn }

/-- A run of an engine that starts without jobs. -/
abbrev JobRun (opening : DateTime) : List (JobAction × DateTime) → JobState → Prop :=
  Run JobStep (JobState.start opening)

theorem jobStep_deterministic : Run.Deterministic JobStep := by
  intro before label after other first second
  cases first
  cases second
  rfl

/-- The state after an operation, when it may be performed. -/
def JobState.perform? (state : JobState) (label : JobAction × DateTime) : Option JobState :=
  if state.clock ≤ label.2 ∧ ∀ drawn ∈ label.1.drawn, drawn ∉ state.drawn then
    some
      { engine := state.engine.perform label.2 label.1
        clock := label.2
        drawn := label.1.drawn.toList ++ state.drawn }
  else none

/-- Operations that may be performed one after another are a run. -/
theorem performAll_run (performed : actions.foldlM JobState.perform? start = some state) :
    Run JobStep start actions state := by
  induction actions generalizing start with
  | nil =>
    cases performed
    exact Run.nil
  | cons label actions ih =>
    rw [List.foldlM_cons, bind_eq_bind, bind_eq_some_iff] at performed
    obtain ⟨middle, first, rest⟩ := performed
    unfold JobState.perform? at first
    split at first
    · rename_i allowed
      cases first
      exact Run.cons (.performed allowed.1 allowed.2) (ih rest)
    · cases first

/-! ## A job -/

/-- The identifier of the sample's job. -/
def sampleUuid : Uuid where
  text := "0b7d2c9e-51f4-4a86-9c3d-7e20a1f5b648"
  sized := by decide +kernel

/-- The lease token of the first claim. -/
def sampleLease : Uuid where
  text := "c41e8f07-6a2b-4d95-8b70-19fd3ae2c856"
  sized := by decide +kernel

/-- The lease token of the second claim. -/
def sampleSecondLease : Uuid where
  text := "97a3d1b5-e08c-4f62-a1d4-5b6c7e8f9012"
  sized := by decide +kernel

/-- A submission that may be attempted twice. -/
def sampleSubmit : SubmitJob where
  idempotencyKey := "idem-1"
  jobType := "provider.history"
  requestSchema := "marketcow.provider.history.v1"
  request := .object [("symbol", .string "AAPL.XNAS")]
  deadline := 300
  maxAttempts := 2
  auditActor := "service:marketcowd"

/-- A staged file. -/
def sampleResult : StagedResult where
  relativePath := "result.json"
  sha256 := "aaaaaaaaaaaaaaaaaaaaaaaaaaaaaaaaaaaaaaaaaaaaaaaaaaaaaaaaaaaaaaaa"
  sizeBytes := 42
  mediaType := "application/json"

/-- A provider that did not answer. -/
def sampleError : JobError where
  code := "provider_unavailable"
  classification := "provider"
  redactedMessage := "provider unavailable"

/-- The job is submitted and a worker starts it. -/
def sampleStarted : List (JobAction × DateTime) :=
  [(.submit sampleSubmit sampleUuid, 0), (.claim sampleUuid.text "worker-1" 30 sampleLease, 0),
    (.start sampleUuid.text sampleLease.text, 0)]

/-- The worker finishes the job in time. -/
def sampleFinish : JobAction × DateTime :=
  (.succeed sampleUuid.text sampleLease.text sampleResult, 1)

/-- The worker fails, the job is queued again and another worker finishes it. -/
def sampleRetried : List (JobAction × DateTime) :=
  sampleStarted ++
    [(.fail sampleUuid.text sampleLease.text sampleError true, 1), (.requeue sampleUuid.text, 2),
      (.claim sampleUuid.text "worker-2" 30 sampleSecondLease, 2),
      (.start sampleUuid.text sampleSecondLease.text, 2),
      (.succeed sampleUuid.text sampleSecondLease.text sampleResult, 3)]

/-- The sample job after some operations. -/
def sampleJobAfter (actions : List (JobAction × DateTime)) : Option ProviderJob :=
  (actions.foldlM JobState.perform? (JobState.start 0)).bind fun state =>
    state.engine.jobs[sampleUuid.text]?

theorem exists_sampleJobAfter
    {actions : List (JobAction × DateTime)} (present : (sampleJobAfter actions).isSome) :
    ∃ state job, JobRun 0 actions state ∧ state.engine.jobs[sampleUuid.text]? = some job ∧
      sampleJobAfter actions = some job := by
  obtain ⟨job, found⟩ := isSome_iff_exists.mp present
  obtain ⟨state, performed, there⟩ := bind_eq_some_iff.mp found
  exact ⟨state, job, performAll_run performed, there, found⟩

end MarketCow.Jobs
