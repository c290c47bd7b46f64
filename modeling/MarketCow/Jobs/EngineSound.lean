import MarketCow.Jobs.JobChange

/-!
# Sound engines

The fields of every job agree with its status, through retries, expiry and
cancellation, and every job is found under its idempotency key.
-/

namespace MarketCow.Jobs

open Library MarketCow.Core
open ProviderJob (canceledBy claimedBy clearLease failWith)
open TreeMap (getElem?_insert)

/-! ## Sound jobs -/

/-- The fields that go with each status. A job that has succeeded may carry the
error of an earlier attempt. -/
def statusFieldsSound (job : ProviderJob) : Bool :=
  match job.status with
  | .succeeded => job.startedAt.isSome && job.finishedAt.isSome && job.result.isSome
  | _ => statusFieldsValid job

/-- What holds of every job an engine stores. -/
structure JobSound (clock : DateTime) (jobId : String) (job : ProviderJob) : Prop where
  schema : job.schemaVersion = jobSchemaVersion
  identified : job.jobId = jobId
  named : jobId.isEmpty = false
  key : job.idempotencyKey.isEmpty = false
  jobType : job.jobType.isEmpty = false
  requestSchema : job.requestSchema.isEmpty = false
  actor : job.auditActor.isEmpty = false
  revision : 0 < job.revision
  positive : 0 < job.maxAttempts
  bounded : job.maxAttempts ≤ 20
  attempt : job.attempt ≤ job.maxAttempts
  created : job.createdAt ≤ clock
  deadline : job.createdAt < job.deadline
  claimedAt : ∀ claimed ∈ job.claimedAt,
    0 < job.attempt ∧ job.createdAt ≤ claimed ∧ claimed < job.deadline
  hashed : sha256Json job.request = .ok job.requestSha256
  lease : leaseFieldsValid job = true
  fields : statusFieldsSound job = true

/-- A job that has succeeded carries no error. -/
def ErrorFree (job : ProviderJob) : Prop :=
  job.status = .succeeded → job.error = none

theorem statusFieldsValid_iff :
    statusFieldsValid job = true ↔ statusFieldsSound job = true ∧ ErrorFree job := by
  unfold statusFieldsSound ErrorFree statusFieldsValid
  cases job.status <;> simp [and_assoc]

variable {jobId : String} {job : ProviderJob}

/-- A sound job is recovered exactly if it carries no error of an earlier
attempt after it succeeded. -/
theorem JobSound.validateRecoveredJob_iff (sound : JobSound clock jobId job) :
    validateRecoveredJob job = .ok () ↔ ErrorFree job := by
  have claimed : (job.attempt == 0 && job.claimedAt.isSome) = false ∧
      job.claimedAt.any (fun claimed =>
        decide (claimed < job.createdAt) || decide (claimed ≥ job.deadline)) = false := by
    cases present : job.claimedAt with
    | none => exact ⟨by rw [Option.isSome_none, Bool.and_false], rfl⟩
    | some claimed =>
      obtain ⟨attempted, after, before⟩ := sound.claimedAt claimed present
      refine ⟨by simpa using attempted.ne', ?_⟩
      simpa using ⟨after, before⟩
  have named : job.jobId.isEmpty = false := by
    rw [sound.identified]
    exact sound.named
  have others : validateRecoveredJob job = rejectIf (!statusFieldsValid job) .invalidInput := by
    unfold validateRecoveredJob
    rw [sound.hashed]
    have positive : (job.maxAttempts == 0) = false := beq_false_of_ne sound.positive.ne'
    have revision : (job.revision == 0) = false := beq_false_of_ne sound.revision.ne'
    have bounded := not_lt.mpr sound.bounded
    have attempt := not_lt.mpr sound.attempt
    have deadline := not_le.mpr sound.deadline
    simp [bind, Except.bind, sound.schema, named, sound.key, sound.jobType, sound.requestSchema,
      sound.actor, positive, revision, bounded, attempt, deadline, claimed, sound.lease]
  rw [others, rejectIf_ok_iff, Bool.not_eq_false', statusFieldsValid_iff]
  exact and_iff_right sound.fields

section Changes

variable {clock now : DateTime} {jobId : String} {job after : ProviderJob}

/-- An unfinished job has no result and no time of its end. -/
theorem JobSound.unfinished
    (sound : JobSound clock jobId job) (unfinished : job.status.terminal = false) :
    job.finishedAt = none ∧ job.result = none := by
  have fields := sound.fields
  unfold statusFieldsSound statusFieldsValid at fields
  cases status : job.status <;> rw [status] at fields unfinished <;>
    simp_all [JobStatus.terminal]

theorem JobSound.later (sound : JobSound clock jobId job) (later : clock ≤ now) :
    JobSound now jobId job :=
  { sound with created := sound.created.trans later }

theorem leaseFieldsValid_clearLease (inactive : job.status.active = false) :
    leaseFieldsValid job.clearLease = true := by
  have same : job.clearLease.status = job.status := rfl
  unfold leaseFieldsValid
  rw [same, inactive]
  rfl

/-- Every change keeps a job sound. -/
theorem JobSound.change (sound : JobSound clock jobId job) (later : clock ≤ now)
    (change : JobChange action now jobId job after) :
    JobSound now jobId after := by
  have old := sound.later later
  cases change with
  | claimed _ timely pending attempts =>
    have unfinished := sound.unfinished (by rw [pending]; rfl)
    refine { old with
      revision := Nat.succ_pos _
      attempt := attempts
      claimedAt := ?_
      lease := rfl
      fields := ?_ }
    · rintro claimed ⟨⟩
      exact ⟨Nat.succ_pos _, old.created, timely⟩
    · simp [statusFieldsSound, statusFieldsValid, claimedBy, unfinished]
  | started accepted claimed =>
    have unfinished := sound.unfinished (by rw [claimed]; rfl)
    have lease := old.lease
    have fields := old.fields
    refine { old with
      revision := Nat.succ_pos _
      lease := ?_
      fields := ?_ }
    · rw [leaseFieldsValid, claimed] at lease
      exact lease
    · simpa [statusFieldsSound, statusFieldsValid, claimed, unfinished,
        ProviderJob.started] using fields
  | succeeded _ _ _ running =>
    have fields := old.fields
    have started : job.startedAt.isSome = true := by
      simp only [statusFieldsSound, statusFieldsValid, running, and_eq_true] at fields
      exact fields.1.1.2
    refine { old with
      revision := Nat.succ_pos _
      lease := leaseFieldsValid_clearLease rfl
      fields := ?_ }
    simpa [statusFieldsSound, ProviderJob.finishedWith, clearLease] using started
  | @failed error retryable active =>
    have unfinished : job.finishedAt = none ∧ job.result = none := by
      apply sound.unfinished
      cases status : job.status <;> rw [status] at active <;> cases active <;> rfl
    refine { old with
      revision := Nat.succ_pos _
      lease := leaseFieldsValid_clearLease (by cases retryable <;> rfl)
      fields := ?_ }
    cases retryable <;>
      simp [statusFieldsSound, statusFieldsValid, failWith, clearLease,
        unfinished]
  | requeued retryable =>
    have unfinished := sound.unfinished (by rw [retryable]; rfl)
    have lease := old.lease
    refine { old with
      revision := Nat.succ_pos _
      lease := ?_
      fields := ?_ }
    · rw [leaseFieldsValid, retryable] at lease
      exact lease
    · simp [statusFieldsSound, statusFieldsValid, ProviderJob.requeued, unfinished]
  | @canceled actor named unfinished =>
    have unfinished := sound.unfinished unfinished
    refine { old with
      revision := Nat.succ_pos _
      actor := by simpa [canceledBy, clearLease] using named
      lease := leaseFieldsValid_clearLease rfl
      fields := ?_ }
    simp [statusFieldsSound, statusFieldsValid, canceledBy, clearLease,
      unfinished]

end Changes

theorem validateSubmit_ok_iff :
    validateSubmit input now = .ok () ↔
      input.idempotencyKey.isEmpty = false ∧ input.idempotencyKey.utf8ByteSize ≤ 256 ∧
        input.jobType.isEmpty = false ∧ input.requestSchema.isEmpty = false ∧
        input.auditActor.isEmpty = false ∧ 0 < input.maxAttempts ∧ input.maxAttempts ≤ 20 ∧
        now < input.deadline := by
  unfold validateSubmit
  rw [rejectIf_ok_iff]
  simp [and_assoc, Nat.pos_iff_ne_zero]

theorem Uuid.isEmpty_text (drawn : Uuid) : drawn.text.isEmpty = false := by
  have sized := drawn.sized
  by_contra empty
  have none : drawn.text = "" := by simpa using empty
  rw [none] at sized
  cases sized

variable {now : DateTime} {drawn : Uuid}

/-- A submitted job is sound. -/
theorem jobSound_submitted (valid : validateSubmit input now = .ok ())
    (hashed : sha256Json input.request = .ok requestSha256) :
    JobSound now drawn.text (JobEngine.submitted input requestSha256 drawn now) := by
  obtain ⟨key, _, jobType, requestSchema, actor, positive, bounded, timely⟩ :=
    validateSubmit_ok_iff.mp valid
  exact
    { schema := rfl
      identified := rfl
      named := drawn.isEmpty_text
      key
      jobType
      requestSchema
      actor
      revision := Nat.one_pos
      positive
      bounded
      attempt := Nat.zero_le _
      created := le_rfl
      deadline := timely
      claimedAt := by rintro _ ⟨⟩
      hashed
      lease := rfl
      fields := rfl }

/-! ## Sound engines -/

/-- Every job is sound and found under its key. -/
structure EngineSound (state : JobState) : Prop where
  jobs : ∀ (jobId : String) (job : ProviderJob), state.engine.jobs[jobId]? = some job →
    JobSound state.clock jobId job
  drawn : ∀ (jobId : String) (job : ProviderJob), state.engine.jobs[jobId]? = some job →
    ∃ drawn ∈ state.drawn, drawn.text = jobId
  indexed : ∀ (jobId : String) (job : ProviderJob), state.engine.jobs[jobId]? = some job →
    state.engine.idempotency[job.idempotencyKey]? = some jobId
  index : ∀ key jobId : String, state.engine.idempotency[key]? = some jobId →
    ∃ job, state.engine.jobs[jobId]? = some job ∧ job.idempotencyKey = key

theorem engineSound_start (opening : DateTime) : EngineSound (JobState.start opening) := by
  constructor <;>
  · intro jobId job present
    simp [JobState.start, JobEngine.empty] at present

variable {action : JobAction}

/-- No change touches the key. -/
theorem JobChange.idempotencyKey (change : JobChange action now jobId job after) :
    after.idempotencyKey = job.idempotencyKey := by
  cases change <;> rfl

/-- What an entry was before an operation that changed it. -/
theorem JobEffect.before (effect : JobEffect action now jobId entry (some after)) :
    ∃ job, entry = some job ∧ (after = job ∨ JobChange action now jobId job after) := by
  generalize final : some after = entryAfter at effect
  cases effect with
  | same => exact ⟨after, final.symm, .inl rfl⟩
  | changed change =>
    cases final
    exact ⟨_, rfl, .inr change⟩

/-- What an entry is after an operation. -/
theorem JobEffect.after (effect : JobEffect action now jobId (some job) entry) :
    ∃ after, entry = some after ∧ (after = job ∨ JobChange action now jobId job after) := by
  generalize initial : some job = entryBefore at effect
  cases effect with
  | same => exact ⟨job, initial.symm, .inl rfl⟩
  | changed change =>
    cases initial
    exact ⟨_, rfl, .inr change⟩

variable {state : JobState}

/-- No job has an identifier that was not drawn yet. -/
theorem EngineSound.unused (sound : EngineSound state) (fresh : drawn ∉ state.drawn) :
    state.engine.jobs[drawn.text]? = none := by
  cases present : state.engine.jobs[drawn.text]? with
  | none => rfl
  | some job =>
    obtain ⟨other, mem, same⟩ := sound.drawn drawn.text job present
    have equal : other = drawn := by
      cases other
      cases drawn
      cases same
      rfl
    exact absurd (equal ▸ mem) fresh

/-- One operation keeps the jobs sound, case by case over what it changed. -/
theorem EngineSound.step {before after : JobState} {label : JobAction × DateTime}
    (sound : EngineSound before) (taken : JobStep before label after) :
    EngineSound after := by
  cases taken with
  | @performed action now later fresh =>
    have kept : ∀ drawn ∈ before.drawn, drawn ∈ action.drawn.toList ++ before.drawn :=
      fun drawn mem => List.mem_append_right _ mem
    generalize performed : before.engine.perform now action = engine
    have effect := perform_effect before.engine action now
    rw [performed] at effect
    cases effect with
    | changed each =>
      constructor
      · intro jobId job present
        obtain ⟨earlier, there, same | change⟩ := (present ▸ each jobId).before
        · exact same ▸ (sound.jobs jobId earlier there).later later
        · exact (sound.jobs jobId earlier there).change later change
      · intro jobId job present
        obtain ⟨earlier, there, _⟩ := (present ▸ each jobId).before
        obtain ⟨drawn, mem, same⟩ := sound.drawn jobId earlier there
        exact ⟨drawn, kept drawn mem, same⟩
      · intro jobId job present
        obtain ⟨earlier, there, same | change⟩ := (present ▸ each jobId).before
        · exact same ▸ sound.indexed jobId earlier there
        · exact change.idempotencyKey ▸ sound.indexed jobId earlier there
      · intro key jobId present
        obtain ⟨earlier, there, same⟩ := sound.index key jobId present
        obtain ⟨job, present, rfl | change⟩ := (there ▸ each jobId).after
        · exact ⟨job, present, same⟩
        · exact ⟨job, present, change.idempotencyKey.trans same⟩
    | @submitted input drawn requestSha256 named valid hashed free =>
      have unused := sound.unused (fresh drawn (by rw [named]; rfl))
      constructor
      · intro jobId job present
        rw [getElem?_insert] at present
        split at present
        · rename_i same
          obtain rfl := Std.LawfulEqCmp.compare_eq_iff_eq.mp same
          cases present
          exact jobSound_submitted valid hashed
        · exact (sound.jobs jobId job present).later later
      · intro jobId job present
        rw [getElem?_insert] at present
        split at present
        · rename_i same
          obtain rfl := Std.LawfulEqCmp.compare_eq_iff_eq.mp same
          exact ⟨drawn, List.mem_append_left _ (by rw [named]; simp [JobAction.drawn]), rfl⟩
        · obtain ⟨other, mem, same⟩ := sound.drawn jobId job present
          exact ⟨other, kept other mem, same⟩
      · intro jobId job present
        rw [getElem?_insert] at present ⊢
        split at present
        · rename_i same
          obtain rfl := Std.LawfulEqCmp.compare_eq_iff_eq.mp same
          cases present
          rw [if_pos (by simp [JobEngine.submitted])]
        · have indexed := sound.indexed jobId job present
          rw [if_neg ?_]
          · exact indexed
          · rw [Std.LawfulEqCmp.compare_eq_iff_eq]
            intro same
            rw [← same, free] at indexed
            cases indexed
      · intro key jobId present
        rw [getElem?_insert] at present
        split at present
        · rename_i same
          obtain rfl := Std.LawfulEqCmp.compare_eq_iff_eq.mp same
          cases present
          exact ⟨_, getElem?_insert_self, rfl⟩
        · obtain ⟨job, there, same⟩ := sound.index key jobId present
          refine ⟨job, ?_, same⟩
          rw [getElem?_insert, if_neg ?_]
          · exact there
          · rw [Std.LawfulEqCmp.compare_eq_iff_eq]
            rintro rfl
            rw [unused] at there
            cases there

/-- A job there is stays as it is or changes in one of the ways. -/
theorem EngineSound.kept (sound : EngineSound before) (taken : JobStep before (action, now) after)
    (present : before.engine.jobs[jobId]? = some job) :
    ∃ later, after.engine.jobs[jobId]? = some later ∧
      (later = job ∨ JobChange action now jobId job later) := by
  cases taken with
  | performed later fresh =>
    have effect := perform_effect before.engine action now
    generalize before.engine.perform now action = engine at effect ⊢
    cases effect with
    | changed each => exact (present ▸ each jobId).after
    | @submitted input drawn requestSha256 named valid hashed free =>
      have unused := sound.unused (fresh drawn (by rw [named]; rfl))
      have ne : drawn.text ≠ jobId := by
        rintro rfl
        rw [present] at unused
        cases unused
      refine ⟨job, ?_, .inl rfl⟩
      rw [getElem?_insert, if_neg (by simpa using ne)]
      exact present

/-- A job is one there was, or it was just submitted. -/
theorem JobStep.origin
    (taken : JobStep before (action, now) after) (present : after.engine.jobs[jobId]? = some job) :
    (∃ earlier, before.engine.jobs[jobId]? = some earlier ∧
      (job = earlier ∨ JobChange action now jobId earlier job)) ∨
    ∃ input requestSha256 drawn, job = JobEngine.submitted input requestSha256 drawn now := by
  cases taken with
  | performed later fresh =>
    have effect := perform_effect before.engine action now
    generalize before.engine.perform now action = engine at effect present
    cases effect with
    | changed each => exact .inl (present ▸ each jobId).before
    | @submitted input drawn requestSha256 named valid hashed free =>
      rw [getElem?_insert] at present
      split at present
      · exact .inr ⟨input, requestSha256, drawn, (some.inj present).symm⟩
      · exact .inl ⟨job, present, .inl rfl⟩

theorem engineSound_of_run (run : JobRun opening actions state) :
    EngineSound state :=
  run.preserves (fun _ _ _ sound taken => sound.step taken) (engineSound_start opening)

/-! ## Submissions -/

/-- What a submission says of its job, apart from the actor. -/
def ProviderJob.submission (job : ProviderJob) :
    (String × String × String) × (Json × String) × Nat × DateTime × DateTime :=
  ((job.idempotencyKey, job.jobType, job.requestSchema), (job.request, job.requestSha256),
    job.maxAttempts, job.createdAt, job.deadline)

/-- The job of a submission stays the only one of its key, whatever is done later:
the same submission answers with it and another one is a conflict. -/
theorem submission_remembered
    (opening : DateTime) (earlier later : List (JobAction × DateTime)) (state final : JobState)
    (jobId : String) (job : ProviderJob) (reached : JobRun opening earlier state)
    (present : state.engine.jobs[jobId]? = some job) (run : Run JobStep state later final) :
    ∃ last, final.engine.jobs[jobId]? = some last ∧ last.submission = job.submission ∧
      (∀ (otherId : String) other, final.engine.jobs[otherId]? = some other →
        other.idempotencyKey = job.idempotencyKey → otherId = jobId) ∧
      ∀ input drawn now requestSha256, input.idempotencyKey = job.idempotencyKey →
        validateSubmit input now = .ok () → sha256Json input.request = .ok requestSha256 →
          final.engine.submit input drawn now =
            if job.jobType = input.jobType ∧ job.requestSchema = input.requestSchema ∧
                job.requestSha256 = requestSha256 then .ok (last, final.engine)
            else .error .idempotencyConflict := by
  have sound := engineSound_of_run (reached.append run)
  have kept : ∃ last, final.engine.jobs[jobId]? = some last ∧ last.submission = job.submission := by
    clear sound
    induction run with
    | nil => exact ⟨job, present, rfl⟩
    | snoc before taken ih =>
      obtain ⟨middle, there, same⟩ := ih
      obtain ⟨last, stored, rfl | change⟩ :=
        (engineSound_of_run (reached.append before)).kept taken there
      · exact ⟨last, stored, same⟩
      · refine ⟨last, stored, Eq.trans ?_ same⟩
        cases change <;> rfl
  obtain ⟨last, stored, same⟩ := kept
  have fields := same
  simp only [ProviderJob.submission, Prod.mk.injEq] at fields
  obtain ⟨⟨key, jobType, requestSchema⟩, ⟨_, hash⟩, _⟩ := fields
  have indexed := sound.indexed jobId last stored
  refine ⟨last, stored, same, ?_, ?_⟩
  · intro otherId other there shared
    have found := sound.indexed otherId other there
    rw [shared, ← key, indexed] at found
    exact (Option.some.inj found).symm
  · intro input drawn now requestSha256 shared valid hashed
    unfold JobEngine.submit
    rw [valid, hashed, ← jobType, ← requestSchema, ← hash]
    simp only [shared, ← key, indexed, stored]
    rfl

theorem submission_remembered_sample :
    ∃ state job final last, JobRun 0 sampleStarted state ∧ JobRun 0 sampleRetried final ∧
      state.engine.jobs[sampleUuid.text]? = some job ∧
      final.engine.jobs[sampleUuid.text]? = some last ∧ last.submission = job.submission := by
  obtain ⟨state, job, started, there, _⟩ := @exists_sampleJobAfter sampleStarted (by decide +kernel)
  obtain ⟨final, _, run, _, _⟩ := @exists_sampleJobAfter sampleRetried (by decide +kernel)
  obtain ⟨middle, first, rest⟩ := Run.append_iff.mp run
  obtain rfl := first.deterministic jobStep_deterministic started
  obtain ⟨last, stored, same, _⟩ :=
    submission_remembered 0 sampleStarted _ middle final sampleUuid.text job started there rest
  exact ⟨middle, job, final, last, started, run, there, stored, same⟩

end MarketCow.Jobs
