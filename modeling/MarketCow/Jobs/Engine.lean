import MarketCow.Core.Book
import MarketCow.Library.Hash
import MarketCow.Library.JsonText

/-!
# The provider job engine

Jobs are submitted, claimed by workers under a lease, run and finished. Only the
holder of an unexpired lease may advance a job or submit its result.
-/

namespace MarketCow.Jobs

open Library MarketCow.Core

/-- The version that stored jobs carry. -/
def jobSchemaVersion : String := "marketcow.job.v1"

/-- Spans of time, in the unit of the times, which is the nanosecond. -/
abbrev Duration := Int

/-- Whole milliseconds, rounded towards zero. -/
def numMilliseconds (duration : Duration) : Int :=
  Int.tdiv duration 1000000

/-- An identifier drawn at random, written with hyphens. -/
structure Uuid where
  text : String
  sized : text.utf8ByteSize = 36
  deriving DecidableEq

/-- How many jobs of a type may be active, and how far apart they are dispatched. -/
structure DispatchPolicy where
  maxInFlight : Nat
  minimumIntervalMillis : Nat
  deriving DecidableEq

/-- Where a job stands: waiting, held by a worker, to be retried, or finished. -/
inductive JobStatus
  | pending
  | claimed
  | running
  | succeeded
  | failedRetryable
  | failedTerminal
  | canceled
  deriving DecidableEq

/-- No operation leaves the status. -/
def JobStatus.terminal (status : JobStatus) : Bool :=
  match status with
  | .succeeded | .failedTerminal | .canceled => true
  | _ => false

/-- A worker holds the job. -/
def JobStatus.active (status : JobStatus) : Bool :=
  match status with
  | .claimed | .running => true
  | _ => false

/-- Why a run of a job failed, without secrets. -/
structure JobError where
  code : String
  classification : String
  redactedMessage : String
  deriving DecidableEq

/-- The file a worker staged, by path and digest. -/
structure StagedResult where
  relativePath : String
  sha256 : String
  sizeBytes : Nat
  mediaType : String
  deriving DecidableEq

/-- A job as it is stored. A lease is held exactly while it is active. -/
structure ProviderJob where
  schemaVersion : String
  jobId : String
  idempotencyKey : String
  jobType : String
  requestSchema : String
  requestSha256 : String
  request : Json
  status : JobStatus
  revision : Nat
  ownerId : Option String
  leaseToken : Option String
  leaseExpiresAt : Option DateTime
  claimedAt : Option DateTime
  deadline : DateTime
  attempt : Nat
  maxAttempts : Nat
  createdAt : DateTime
  startedAt : Option DateTime
  finishedAt : Option DateTime
  error : Option JobError
  result : Option StagedResult
  auditActor : String
  deriving DecidableEq

/-- What a client submits. -/
structure SubmitJob where
  idempotencyKey : String
  jobType : String
  requestSchema : String
  request : Json
  deadline : DateTime
  maxAttempts : Nat
  auditActor : String
  deriving DecidableEq

/-- Why the engine refuses an operation. -/
inductive JobEngineError
  | invalidInput
  | idempotencyConflict
  | notFound
  | invalidTransition
  | leaseRejected
  | deadlineElapsed
  | invalidResult
  deriving DecidableEq

/-- The jobs by identifier, and the index from idempotency keys to identifiers. -/
structure JobEngine where
  jobs : TreeMap String ProviderJob
  idempotency : TreeMap String String

/-- Succeed exactly when the input is not rejected. -/
def rejectIf (rejected : Bool) (cause : JobEngineError) : Except JobEngineError Unit :=
  if rejected then .error cause else .ok ()

theorem rejectIf_ok_iff : rejectIf rejected cause = .ok value ↔ rejected = false := by
  cases rejected <;> simp [rejectIf]

/-! ## Validation -/

/-- Between one and 1024 active jobs, and at most a day between two of them. -/
def DispatchPolicy.validate (policy : DispatchPolicy) : Except JobEngineError DispatchPolicy :=
  if policy.maxInFlight < 1 ∨ 1024 < policy.maxInFlight ∨ policy.minimumIntervalMillis > 86400000
  then .error .invalidInput
  else .ok policy

/-- The digest of a request's text. -/
def sha256Json (value : Json) : Except JobEngineError String :=
  .ok (Text.hexEncode (Sha256.hash value.print).toList)

/-- A submission names its key, type, schema and actor, may be attempted up to twenty times and
has time left. -/
def validateSubmit (input : SubmitJob) (now : DateTime) : Except JobEngineError Unit :=
  rejectIf
    (input.idempotencyKey.isEmpty ||
      decide (input.idempotencyKey.utf8ByteSize > 256) ||
      input.jobType.isEmpty ||
      input.requestSchema.isEmpty ||
      input.auditActor.isEmpty ||
      input.maxAttempts == 0 ||
      decide (input.maxAttempts > 20) ||
      decide (input.deadline ≤ now))
    .invalidInput

/-- The fields of a lease are all there while the job is active, and none otherwise. -/
def leaseFieldsValid (job : ProviderJob) : Bool :=
  if job.status.active then
    job.ownerId.isSome && job.leaseToken.isSome && job.leaseExpiresAt.isSome
  else job.ownerId.isNone && job.leaseToken.isNone && job.leaseExpiresAt.isNone

/-- The times, the result and the error that a status asks for or excludes. -/
def statusFieldsValid (job : ProviderJob) : Bool :=
  match job.status with
  | .pending => job.finishedAt.isNone && job.result.isNone
  | .claimed => decide (job.attempt > 0) && job.finishedAt.isNone && job.result.isNone
  | .running =>
    decide (job.attempt > 0) && job.startedAt.isSome && job.finishedAt.isNone &&
      job.result.isNone
  | .succeeded =>
    job.startedAt.isSome && job.finishedAt.isSome && job.result.isSome && job.error.isNone
  | .failedRetryable => job.error.isSome && job.finishedAt.isNone && job.result.isNone
  | .failedTerminal => job.error.isSome && job.finishedAt.isSome && job.result.isNone
  | .canceled => job.finishedAt.isSome && job.result.isNone

/-- What a stored job has to satisfy before it is taken up again. -/
def validateRecoveredJob (job : ProviderJob) : Except JobEngineError Unit := do
  let requestSha256 ← sha256Json job.request
  rejectIf
    (job.schemaVersion != jobSchemaVersion ||
      job.jobId.isEmpty ||
      job.idempotencyKey.isEmpty ||
      job.jobType.isEmpty ||
      job.requestSchema.isEmpty ||
      job.auditActor.isEmpty ||
      job.revision == 0 ||
      job.maxAttempts == 0 ||
      decide (job.maxAttempts > 20) ||
      decide (job.attempt > job.maxAttempts) ||
      decide (job.deadline ≤ job.createdAt) ||
      (job.attempt == 0 && job.claimedAt.isSome) ||
      job.claimedAt.any (fun claimed =>
        decide (claimed < job.createdAt) || decide (claimed ≥ job.deadline)) ||
      requestSha256 != job.requestSha256 ||
      !leaseFieldsValid job ||
      !statusFieldsValid job)
    .invalidInput

/-- All parts of a path are plain names. Empty parts and inner dots do not
count. -/
def normalComponents (path : String) : Bool :=
  let parts := path.toList.splitOn '/'
  parts.head? != some ['.'] && !parts.contains ['.', '.']

/-- A result lies under the staging directory and names its digest and media type. -/
def validateResult (result : StagedResult) : Except JobEngineError Unit :=
  rejectIf
    (Text.startsWith result.relativePath "/" ||
      result.relativePath.isEmpty ||
      decide (result.relativePath.utf8ByteSize > 512) ||
      !normalComponents result.relativePath ||
      !Text.isDigest result.sha256 ||
      result.mediaType.isEmpty)
    .invalidResult

/-- An error has a code and a class, and a short message. -/
def validateError (error : JobError) : Except JobEngineError Unit :=
  rejectIf
    (error.code.isEmpty || error.classification.isEmpty ||
      decide (error.redactedMessage.utf8ByteSize > 2048))
    .invalidInput

/-! ## Changes of one job -/

namespace ProviderJob

/-- Take the lease away. -/
def clearLease (job : ProviderJob) : ProviderJob :=
  { job with ownerId := none, leaseToken := none, leaseExpiresAt := none }

variable (job : ProviderJob) (leaseToken : String)

/-- The token is that of the lease, which has not expired. -/
def checkLease (now : DateTime) : Except JobEngineError Unit :=
  if now ≥ job.deadline then .error .deadlineElapsed
  else
    rejectIf
      (job.leaseToken != some leaseToken ||
        job.leaseExpiresAt.all fun expires => decide (now ≥ expires))
      .leaseRejected

/-- A worker takes a pending job with attempts left. The lease does not outlast the deadline. -/
def claim (workerId : String) (leaseDuration : Duration) (drawn : Uuid)
    (now : DateTime) : Except JobEngineError ProviderJob :=
  if now ≥ job.deadline then .error .deadlineElapsed
  else if job.status ≠ .pending ∨ job.attempt ≥ job.maxAttempts then .error .invalidTransition
  else
    .ok { job with
      status := .claimed
      revision := job.revision + 1
      attempt := job.attempt + 1
      ownerId := some workerId
      leaseToken := some drawn.text
      leaseExpiresAt := some (min (now + leaseDuration) job.deadline)
      claimedAt := some now }

/-- The holder starts to run; the first start is kept. -/
def start
    (now : DateTime) : Except JobEngineError ProviderJob := do
  job.checkLease leaseToken now
  if job.status ≠ .claimed then .error .invalidTransition
  else
    .ok { job with
      status := .running
      revision := job.revision + 1
      startedAt := some (job.startedAt.getD now) }

/-- The holder finishes a running job with its result. -/
def succeed
    (result : StagedResult) (now : DateTime) : Except JobEngineError ProviderJob := do
  job.checkLease leaseToken now
  if job.status ≠ .running then .error .invalidTransition
  else
    .ok ({ job with
      status := .succeeded
      revision := job.revision + 1
      finishedAt := some now
      result := some result } : ProviderJob).clearLease

/-- Record an error; the job is finished when it may not be retried. -/
def failWith (error : JobError) (retryable : Bool) (now : DateTime) : ProviderJob :=
  ({ job with
    status := if retryable then .failedRetryable else .failedTerminal
    revision := job.revision + 1
    error := some error
    finishedAt := if retryable then job.finishedAt else some now } : ProviderJob).clearLease

/-- The holder gives up. Without attempts left the failure is final. -/
def fail
    (error : JobError) (retryable : Bool) (now : DateTime) : Except JobEngineError ProviderJob := do
  job.checkLease leaseToken now
  if !job.status.active then .error .invalidTransition
  else .ok (job.failWith error (retryable && decide (job.attempt < job.maxAttempts)) now)

/-- A job that failed and may be retried waits again. -/
def requeue (job : ProviderJob) (now : DateTime) : Except JobEngineError ProviderJob :=
  if job.status ≠ .failedRetryable ∨ now ≥ job.deadline then .error .invalidTransition
  else .ok { job with status := .pending, revision := job.revision + 1 }

/-- Finish a job that is not finished, by the word of an actor. -/
def cancel (actor : String) (now : DateTime) : Except JobEngineError ProviderJob :=
  if job.status.terminal then .error .invalidTransition
  else
    .ok ({ job with
      status := .canceled
      revision := job.revision + 1
      finishedAt := some now
      auditActor := actor } : ProviderJob).clearLease

/-- The sweep of retryable jobs takes this one. -/
def isRetryable (job : ProviderJob) (now : DateTime) : Bool :=
  decide (job.status = .failedRetryable) && decide (now < job.deadline)

/-- What the sweep makes of a retryable job; others stay. -/
def requeueRetryable (job : ProviderJob) (now : DateTime) : ProviderJob :=
  if job.isRetryable now then { job with status := .pending, revision := job.revision + 1 }
  else job

/-- The sweep of expired leases takes this one. -/
def isExpired (job : ProviderJob) (now : DateTime) : Bool :=
  job.status.active && job.leaseExpiresAt.any fun deadline => decide (now ≥ deadline)

/-- A worker that let its lease expire has failed. -/
def expireLease (job : ProviderJob) (now : DateTime) : ProviderJob :=
  if job.isExpired now then
    job.failWith
      { code := "worker_lease_expired"
        classification := "worker_timeout"
        redactedMessage := "worker lease expired" }
      (decide (job.attempt < job.maxAttempts) && decide (now < job.deadline)) now
  else job

end ProviderJob

/-! ## Operations -/

namespace JobEngine

/-- No jobs. -/
def empty : JobEngine where
  jobs := ∅
  idempotency := ∅

/-- The jobs in the order of their identifiers. -/
def snapshot (engine : JobEngine) : List ProviderJob :=
  engine.jobs.valueList

/-- Remove the key of the job that is replaced, when the new job has another. -/
def releaseKey (idempotency : TreeMap String String) (previous : Option ProviderJob)
    (job : ProviderJob) : TreeMap String String :=
  match previous with
  | some previous =>
    if previous.idempotencyKey ≠ job.idempotencyKey then
      idempotency.erase previous.idempotencyKey
    else idempotency
  | none => idempotency

variable (engine : JobEngine)

/-- Take up a stored job. Its key must be free or its own, its revision not older than the one
there. -/
def replaceRecovered
    (job : ProviderJob) : Except JobEngineError JobEngine := do
  validateRecoveredJob job
  rejectIf (engine.idempotency[job.idempotencyKey]?.any fun jobId => jobId != job.jobId)
    .invalidInput
  rejectIf (engine.jobs[job.jobId]?.any fun previous => decide (job.revision < previous.revision))
    .invalidInput
  pure
    { jobs := engine.jobs.insert job.jobId job
      idempotency :=
        (releaseKey engine.idempotency engine.jobs[job.jobId]? job).insert job.idempotencyKey
          job.jobId }

/-- Take up stored jobs one after the other; one bad job refuses them all. -/
def recover (jobs : List ProviderJob) : Except JobEngineError JobEngine :=
  jobs.foldlM replaceRecovered empty

/-- The job of a submission. -/
def submitted
    (input : SubmitJob) (requestSha256 : String) (drawn : Uuid) (now : DateTime) : ProviderJob where
  schemaVersion := jobSchemaVersion
  jobId := drawn.text
  idempotencyKey := input.idempotencyKey
  jobType := input.jobType
  requestSchema := input.requestSchema
  requestSha256
  request := input.request
  status := .pending
  revision := 1
  ownerId := none
  leaseToken := none
  leaseExpiresAt := none
  claimedAt := none
  deadline := input.deadline
  attempt := 0
  maxAttempts := input.maxAttempts
  createdAt := now
  startedAt := none
  finishedAt := none
  error := none
  result := none
  auditActor := input.auditActor

/-- A new job, or the job that already has the key when it is the same request. -/
def submit
    (input : SubmitJob) (drawn : Uuid)
    (now : DateTime) : Except JobEngineError (ProviderJob × JobEngine) := do
  validateSubmit input now
  let requestSha256 ← sha256Json input.request
  match engine.idempotency[input.idempotencyKey]? with
  | some jobId =>
    match engine.jobs[jobId]? with
    | some existing =>
      if existing.jobType = input.jobType ∧ existing.requestSchema = input.requestSchema ∧
          existing.requestSha256 = requestSha256
      then .ok (existing, engine)
      else .error .idempotencyConflict
    -- The index names jobs there are; the source would panic.
    | none => .error .notFound
  | none =>
    let job := submitted input requestSha256 drawn now
    .ok (job,
      { jobs := engine.jobs.insert drawn.text job
        idempotency := engine.idempotency.insert input.idempotencyKey drawn.text })

/-- Change a job there is. -/
def changeJob (jobId : String) (change : ProviderJob → Except JobEngineError ProviderJob) :
    Except JobEngineError (ProviderJob × JobEngine) :=
  match engine.jobs[jobId]? with
  | none => .error .notFound
  | some job =>
    match change job with
    | .error cause => .error cause
    | .ok job => .ok (job, { engine with jobs := engine.jobs.insert jobId job })

/-- Claim the job of an identifier for a named worker and a positive lease. -/
def claim
    (engine : JobEngine) (jobId workerId : String) (leaseDuration : Duration) (drawn : Uuid)
    (now : DateTime) : Except JobEngineError (ProviderJob × JobEngine) := do
  rejectIf (workerId.isEmpty || decide (leaseDuration ≤ 0)) .invalidInput
  engine.changeJob jobId fun job => job.claim workerId leaseDuration drawn now

/-- Claim the job that was found, if one was. -/
def claimFound
    (found : Option ProviderJob) (workerId : String) (leaseDuration : Duration) (drawn : Uuid)
    (now : DateTime) : Except JobEngineError (Option ProviderJob × JobEngine) :=
  match found with
  | none => .ok (none, engine)
  | some job =>
    match engine.claim job.jobId workerId leaseDuration drawn now with
    | .error cause => .error cause
    | .ok (job, engine) => .ok (some job, engine)

/-- The job waits with attempts and time left, and the worker can do its type. -/
def isClaimable (job : ProviderJob) (capabilities : List String) (now : DateTime) : Bool :=
  decide (job.status = .pending) && decide (job.attempt < job.maxAttempts) &&
    decide (now < job.deadline) && capabilities.contains job.jobType

/-- Claim the first claimable job. -/
def claimNext
    (workerId : String) (capabilities : List String) (leaseDuration : Duration) (drawn : Uuid)
    (now : DateTime) : Except JobEngineError (Option ProviderJob × JobEngine) :=
  engine.claimFound (engine.snapshot.find? fun job => isClaimable job capabilities now) workerId
    leaseDuration drawn now

/-- When jobs of a type were last dispatched. -/
def lastDispatch (engine : JobEngine) (jobType : String) : Option DateTime :=
  ((engine.snapshot.filter fun job =>
      decide (job.jobType = jobType) && decide (job.attempt > 0)).map fun job =>
    (job.claimedAt.or job.startedAt).getD job.createdAt).max?

/-- The candidate is claimable, and its type has a policy that allows one more job now. -/
def isDispatchable
    (policies : TreeMap String DispatchPolicy) (capabilities : List String) (now : DateTime)
    (candidate : ProviderJob) : Bool :=
  match policies[candidate.jobType]? with
  | none => false
  | some policy =>
    isClaimable candidate capabilities now &&
      decide ((engine.snapshot.filter fun job =>
        decide (job.jobType = candidate.jobType) && job.status.active).length <
          policy.maxInFlight) &&
      (engine.lastDispatch candidate.jobType).all fun last =>
        decide (numMilliseconds (now - last) ≥ policy.minimumIntervalMillis)

/-- Claim the first job that the policies let through. -/
def claimNextWithPolicies
    (workerId : String) (capabilities : List String) (policies : TreeMap String DispatchPolicy)
    (leaseDuration : Duration) (drawn : Uuid)
    (now : DateTime) : Except JobEngineError (Option ProviderJob × JobEngine) := do
  let _ ← policies.valueList.mapM DispatchPolicy.validate
  engine.claimFound (engine.snapshot.find? (engine.isDispatchable policies capabilities now))
    workerId leaseDuration drawn now

/-- Start the job of an identifier. -/
def start (engine : JobEngine) (jobId leaseToken : String)
    (now : DateTime) : Except JobEngineError (ProviderJob × JobEngine) :=
  engine.changeJob jobId fun job => job.start leaseToken now

/-- Finish the job of an identifier with a valid result. -/
def succeed
    (engine : JobEngine) (jobId leaseToken : String) (result : StagedResult)
    (now : DateTime) : Except JobEngineError (ProviderJob × JobEngine) := do
  validateResult result
  engine.changeJob jobId fun job => job.succeed leaseToken result now

/-- The job whose result the holder of the lease may upload now. -/
def authorizeResult
    (jobId leaseToken : String) (now : DateTime) : Except JobEngineError ProviderJob :=
  match engine.jobs[jobId]? with
  | none => .error .notFound
  | some job => do
    job.checkLease leaseToken now
    if job.status ≠ .running then .error .invalidTransition else .ok job

/-- Let the job of an identifier fail with a valid error. -/
def fail
    (engine : JobEngine) (jobId leaseToken : String) (error : JobError) (retryable : Bool)
    (now : DateTime) : Except JobEngineError (ProviderJob × JobEngine) := do
  validateError error
  engine.changeJob jobId fun job => job.fail leaseToken error retryable now

/-- Let the job of an identifier wait again. -/
def requeue (engine : JobEngine) (jobId : String)
    (now : DateTime) : Except JobEngineError (ProviderJob × JobEngine) :=
  engine.changeJob jobId fun job => job.requeue now

/-- The identifiers of the jobs that were requeued. -/
def requeueRetryable (engine : JobEngine) (now : DateTime) : List String × JobEngine :=
  ((engine.snapshot.filter fun job => job.isRetryable now).map ProviderJob.jobId,
    { engine with jobs := engine.jobs.map fun _ job => job.requeueRetryable now })

/-- The identifiers of the jobs whose lease had expired. -/
def expireLeases (engine : JobEngine) (now : DateTime) : List String × JobEngine :=
  ((engine.snapshot.filter fun job => job.isExpired now).map ProviderJob.jobId,
    { engine with jobs := engine.jobs.map fun _ job => job.expireLease now })

/-- Cancel the job of an identifier for a named actor. -/
def cancel
    (engine : JobEngine) (jobId actor : String)
    (now : DateTime) : Except JobEngineError (ProviderJob × JobEngine) := do
  rejectIf actor.isEmpty .invalidInput
  engine.changeJob jobId fun job => job.cancel actor now

end JobEngine

end MarketCow.Jobs
