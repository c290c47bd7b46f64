import MarketCow.Jobs.EngineSound

/-!
# Leases

A lease that has ended is of no use to the worker that held it, however the
operations of workers, sweeps and operators are interleaved, and a finished job
stays as it is.
-/

namespace MarketCow.Jobs

open Library MarketCow.Core

/-- The engine takes the token for the lease of the job. -/
def Accepts (engine : JobEngine) (jobId leaseToken : String) (now : DateTime) : Prop :=
  ∃ job, engine.jobs[jobId]? = some job ∧ job.checkLease leaseToken now = .ok ()

/-- The lease has expired, or the job is no longer leased under the token. -/
def LeaseOver (state : JobState) (jobId leaseToken : String) : Prop :=
  ∀ job, state.engine.jobs[jobId]? = some job → job.leaseToken = some leaseToken →
    ∃ expires, job.leaseExpiresAt = some expires ∧ expires ≤ state.clock

/-- Operations under the token fail and change nothing. -/
structure Rejects
    (engine : JobEngine) (jobId leaseToken : String) (now : DateTime) : Prop where
  start : (∃ cause, engine.start jobId leaseToken now = .error cause) ∧
    engine.perform now (.start jobId leaseToken) = engine
  succeed : ∀ result, (∃ cause, engine.succeed jobId leaseToken result now = .error cause) ∧
    engine.perform now (.succeed jobId leaseToken result) = engine
  fail : ∀ error retryable,
    (∃ cause, engine.fail jobId leaseToken error retryable now = .error cause) ∧
      engine.perform now (.fail jobId leaseToken error retryable) = engine
  authorizeResult : ∃ cause, engine.authorizeResult jobId leaseToken now = .error cause

/-- What leases promise, for a token under which a job is leased in a first
state, whose lease is over in a second one, and any state later on. -/
structure LeasesFenced (issued lapsed later : JobState) : Prop where
  oneToken : ∀ jobId first second now,
    Accepts later.engine jobId first now → Accepts later.engine jobId second now → first = second
  stale : ∀ (jobId leaseToken : String) (job : ProviderJob),
    issued.engine.jobs[jobId]? = some job → job.leaseToken = some leaseToken →
      LeaseOver lapsed jobId leaseToken →
        ∀ now, later.clock ≤ now → Rejects later.engine jobId leaseToken now
  terminal : ∀ (jobId : String) (job : ProviderJob),
    lapsed.engine.jobs[jobId]? = some job → job.status.terminal = true →
      later.engine.jobs[jobId]? = some job
  oneResult : ∀ (jobId : String) (job after : ProviderJob) (result : StagedResult),
    lapsed.engine.jobs[jobId]? = some job → job.result = some result →
      later.engine.jobs[jobId]? = some after → after.result = some result
  attempts : ∀ (jobId : String) (job : ProviderJob),
    later.engine.jobs[jobId]? = some job → job.attempt ≤ job.maxAttempts
  revisions : ∀ (jobId : String) (job after : ProviderJob),
    lapsed.engine.jobs[jobId]? = some job → later.engine.jobs[jobId]? = some after →
      after = job ∨ job.revision < after.revision

/-! ## Tokens -/

section Change

variable {action : JobAction} {now : DateTime} {jobId : String} {job after : ProviderJob}

section

variable (change : JobChange action now jobId job after)
include change

/-- A finished job does not change. -/
theorem JobChange.unfinished :
    job.status.terminal = false := by
  cases change with
  | claimed _ _ pending _ =>
    rw [pending]
    rfl
  | started _ claimed =>
    rw [claimed]
    rfl
  | succeeded _ _ _ running =>
    rw [running]
    rfl
  | failed active => cases status : job.status <;> rw [status] at active <;> cases active <;> rfl
  | requeued retryable =>
    rw [retryable]
    rfl
  | canceled _ unfinished => exact unfinished

/-- Every change counts. -/
theorem JobChange.revision :
    after.revision = job.revision + 1 := by
  cases change <;> rfl

/-- A change drops the lease, keeps it, or puts one with a new token in its
place. -/
theorem JobChange.lease :
    after.leaseToken = none ∨
      (after.leaseToken = job.leaseToken ∧ after.leaseExpiresAt = job.leaseExpiresAt) ∨
      ∃ drawn, action.drawn = some drawn ∧ after.leaseToken = some drawn.text := by
  cases change with
  | claimed named _ _ _ => exact .inr (.inr ⟨_, named, rfl⟩)
  | started | requeued => exact .inr (.inl ⟨rfl, rfl⟩)
  | succeeded | failed | canceled => exact .inl rfl

end

end Change

/-- Every token was drawn. -/
def TokensDrawn (state : JobState) : Prop :=
  ∀ (jobId : String) (job : ProviderJob) (leaseToken : String),
    state.engine.jobs[jobId]? = some job → job.leaseToken = some leaseToken →
      ∃ drawn ∈ state.drawn, drawn.text = leaseToken

section Step

variable {before after : JobState} {label : JobAction × DateTime}

section

variable (taken : JobStep before label after)
include taken

theorem JobStep.clock : before.clock ≤ after.clock := by
  cases taken with
  | performed later _ => exact later

theorem JobStep.drawn :
    after.drawn = label.1.drawn.toList ++ before.drawn := by
  cases taken
  rfl

theorem JobStep.fresh :
    ∀ drawn, label.1.drawn = some drawn → drawn ∉ before.drawn := by
  cases taken with
  | performed _ fresh => exact fun drawn named => fresh drawn named

end

theorem mem_drawn_of_run (run : Run JobStep before labels after) (mem : drawn ∈ before.drawn) :
    drawn ∈ after.drawn := by
  induction run with
  | nil => exact mem
  | snoc _ taken ih =>
    rw [taken.drawn]
    exact List.mem_append_right _ ih

/-- Only drawn tokens become leases. -/
theorem tokensDrawn_step (tokens : TokensDrawn before) (taken : JobStep before label after) :
    TokensDrawn after := by
  intro jobId job leaseToken present leased
  rw [taken.drawn]
  have known : ∀ earlier, before.engine.jobs[jobId]? = some earlier →
      earlier.leaseToken = some leaseToken →
      ∃ drawn ∈ label.1.drawn.toList ++ before.drawn, drawn.text = leaseToken := by
    intro earlier there same
    obtain ⟨drawn, mem, named⟩ := tokens jobId earlier leaseToken there same
    exact ⟨drawn, List.mem_append_right _ mem, named⟩
  rcases taken.origin present with ⟨earlier, there, rfl | change⟩ | ⟨_, _, _, rfl⟩
  · exact known job there leased
  · rcases change.lease with dropped | ⟨kept, _⟩ | ⟨drawn, named, replaced⟩
    · rw [dropped] at leased
      cases leased
    · exact known earlier there (kept ▸ leased)
    · refine ⟨drawn, List.mem_append_left _ ?_, some.inj (replaced.symm.trans leased)⟩
      rw [named]
      exact List.mem_singleton_self drawn
  · cases leased

/-- A token that was drawn and whose lease is over. -/
structure Spent (jobId leaseToken : String) (state : JobState) : Prop where
  drawn : ∃ drawn ∈ state.drawn, drawn.text = leaseToken
  lapsed : LeaseOver state jobId leaseToken

/-- A token that is gone stays gone, since tokens are drawn once. -/
theorem Spent.step {jobId leaseToken : String}
    (spent : Spent jobId leaseToken before) (taken : JobStep before label after) :
    Spent jobId leaseToken after := by
  obtain ⟨drawn, mem, named⟩ := spent.drawn
  refine ⟨⟨drawn, ?_, named⟩, ?_⟩
  · rw [taken.drawn]
    exact List.mem_append_right _ mem
  · intro job present leased
    have ended : ∀ earlier, before.engine.jobs[jobId]? = some earlier →
        earlier.leaseToken = some leaseToken →
        ∃ expires, earlier.leaseExpiresAt = some expires ∧ expires ≤ after.clock := by
      intro earlier there same
      obtain ⟨expires, recorded, past⟩ := spent.lapsed earlier there same
      exact ⟨expires, recorded, past.trans taken.clock⟩
    rcases taken.origin present with ⟨earlier, there, rfl | change⟩ | ⟨_, _, _, rfl⟩
    · exact ended job there leased
    · rcases change.lease with dropped | ⟨kept, expiry⟩ | ⟨other, drawnNow, replaced⟩
      · rw [dropped] at leased
        cases leased
      · rw [expiry]
        exact ended earlier there (kept ▸ leased)
      · have same : other = drawn := by
          have texts := named.trans (some.inj (leased.symm.trans replaced))
          cases other
          cases drawn
          cases texts
          rfl
        exact absurd mem (same ▸ taken.fresh other drawnNow)
    · cases leased

end Step

/-! ## Fencing -/

/-- Operations under a token that is not accepted are rejected. -/
theorem rejects_of_not_accepts (refused : ¬Accepts engine jobId leaseToken now) :
    Rejects engine jobId leaseToken now := by
  have blocked : ∀ change : ProviderJob → Except JobEngineError ProviderJob,
      (∀ job cause, job.checkLease leaseToken now = .error cause → change job = .error cause) →
        ∃ cause, engine.changeJob jobId change = .error cause := by
    intro change guarded
    unfold JobEngine.changeJob
    cases present : engine.jobs[jobId]? with
    | none => exact ⟨_, rfl⟩
    | some job =>
      cases checked : job.checkLease leaseToken now with
      | ok _ => exact absurd ⟨job, present, checked⟩ refused
      | error cause =>
        dsimp only
        rw [guarded job cause checked]
        exact ⟨cause, rfl⟩
  have unchanged : ∀ answer : Except JobEngineError (ProviderJob × JobEngine),
      (∃ cause, answer = .error cause) →
        (∃ cause, answer = .error cause) ∧ engine.afterAnswer answer = engine := by
    rintro _ ⟨cause, rfl⟩
    exact ⟨⟨cause, rfl⟩, rfl⟩
  have checkedFirst : ∀ {check : Except JobEngineError Unit}
      {answer : Except JobEngineError (ProviderJob × JobEngine)},
      (∃ cause, answer = .error cause) → ∃ cause, (do check; answer) = .error cause := by
    rintro (other | _) _ ⟨cause, rfl⟩
    · exact ⟨other, rfl⟩
    · exact ⟨cause, rfl⟩
  constructor
  · refine unchanged _ (blocked _ fun job cause checked => ?_)
    rw [ProviderJob.start, checked]
    rfl
  · intro result
    refine unchanged _ (checkedFirst (blocked _ fun job cause checked => ?_))
    rw [ProviderJob.succeed, checked]
    rfl
  · intro error retryable
    refine unchanged _ (checkedFirst (blocked _ fun job cause checked => ?_))
    rw [ProviderJob.fail, checked]
    rfl
  · unfold JobEngine.authorizeResult
    cases present : engine.jobs[jobId]? with
    | none => exact ⟨_, rfl⟩
    | some job =>
      cases checked : job.checkLease leaseToken now with
      | ok _ => exact absurd ⟨job, present, checked⟩ refused
      | error cause =>
        dsimp only
        rw [checked]
        exact ⟨cause, rfl⟩

theorem Spent.rejects (spent : Spent jobId leaseToken state) (later : state.clock ≤ now) :
    Rejects state.engine jobId leaseToken now := by
  apply rejects_of_not_accepts
  rintro ⟨job, present, checked⟩
  obtain ⟨_, token, expires, recorded, unexpired⟩ := checkLease_ok_iff.mp checked
  obtain ⟨other, same, past⟩ := spent.lapsed job present token
  rw [recorded] at same
  cases same
  exact absurd (past.trans later) (not_le.mpr unexpired)

section Run

variable {opening : DateTime} {first second third : List (JobAction × DateTime)}
  {issued lapsed later : JobState}

/-- The job is there as it was, or, if it was unfinished, in a later revision. -/
structure Continues (jobId : String) (job : ProviderJob) (state : JobState) : Prop where
  sound : EngineSound state
  present : ∃ after, state.engine.jobs[jobId]? = some after ∧
    (after = job ∨ job.status.terminal = false ∧ job.revision < after.revision)

/-- A job that was there goes on from where it was. -/
theorem Continues.step
    {jobId : String} {job : ProviderJob} {before after : JobState} {label : JobAction × DateTime}
    (continues : Continues jobId job before) (taken : JobStep before label after) :
    Continues jobId job after := by
  obtain ⟨earlier, there, grown⟩ := continues.present
  obtain ⟨final, present, same | change⟩ := continues.sound.kept taken there
  · exact ⟨continues.sound.step taken, final, present, same ▸ grown⟩
  · refine ⟨continues.sound.step taken, final, present, .inr ?_⟩
    have revision := change.revision
    rcases grown with rfl | ⟨unfinished, grown⟩
    · exact ⟨change.unfinished, by omega⟩
    · exact ⟨unfinished, by omega⟩

theorem continues_of_run (sound : EngineSound lapsed) (continued : Run JobStep lapsed third later)
    (present : lapsed.engine.jobs[jobId]? = some job) :
    Continues jobId job later :=
  continued.preserves (fun _ _ _ continues taken => continues.step taken)
    ⟨sound, job, present, .inl rfl⟩

/-- A job that carries a result has succeeded. -/
theorem EngineSound.terminal_of_result
    {state : JobState} {jobId : String} {job : ProviderJob} {result : StagedResult}
    (sound : EngineSound state) (present : state.engine.jobs[jobId]? = some job)
    (recorded : job.result = some result) :
    job.status.terminal = true := by
  by_contra unfinished
  have none := ((sound.jobs jobId job present).unfinished (by simpa using unfinished)).2
  rw [recorded] at none
  cases none

theorem leasesFenced_of_run
    (begun : JobRun opening first issued) (ended : Run JobStep issued second lapsed)
    (continued : Run JobStep lapsed third later) :
    LeasesFenced issued lapsed later := by
  have overSound := engineSound_of_run (begun.append ended)
  have laterSound := engineSound_of_run ((begun.append ended).append continued)
  have terminal : ∀ (jobId : String) (job : ProviderJob),
      lapsed.engine.jobs[jobId]? = some job → job.status.terminal = true →
        later.engine.jobs[jobId]? = some job := by
    intro jobId job present finished
    obtain ⟨after, there, rfl | ⟨unfinished, _⟩⟩ := (continues_of_run overSound continued present).present
    · exact there
    · rw [finished] at unfinished
      cases unfinished
  refine ⟨?_, ?_, terminal, ?_, ?_, ?_⟩
  · rintro jobId left right now ⟨job, present, leftChecked⟩ ⟨other, there, rightChecked⟩
    obtain rfl := some.inj (present.symm.trans there)
    exact some.inj ((checkLease_ok_iff.mp leftChecked).token.symm.trans
      (checkLease_ok_iff.mp rightChecked).token)
  · intro jobId leaseToken job present leased ended' now later
    have tokens : TokensDrawn issued := begun.preserves
      (fun _ _ _ tokens taken => tokensDrawn_step tokens taken)
      (by intro _ _ _ none; simp [JobState.start, JobEngine.empty] at none)
    obtain ⟨drawn, member, named⟩ := tokens jobId job leaseToken present leased
    have kept : drawn ∈ lapsed.drawn := mem_drawn_of_run ended member
    have spent : Spent jobId leaseToken lapsed := ⟨⟨drawn, kept, named⟩, ended'⟩
    exact (continued.preserves (fun _ _ _ spent taken => spent.step taken) spent).rejects later
  · intro jobId job after result present recorded there
    have finished := overSound.terminal_of_result present recorded
    rw [terminal jobId job present finished] at there
    cases there
    exact recorded
  · intro jobId job present
    exact (laterSound.jobs jobId job present).attempt
  · intro jobId job after present there
    obtain ⟨final, reached, grown⟩ := (continues_of_run overSound continued present).present
    obtain rfl := some.inj (reached.symm.trans there)
    exact grown.imp id And.right

end Run

theorem leasesFenced_sample :
    ∃ issued lapsed later, LeasesFenced issued lapsed later ∧
      (issued.engine.jobs[sampleUuid.text]?).bind ProviderJob.leaseToken = some sampleLease.text ∧
      (later.engine.jobs[sampleUuid.text]?).map ProviderJob.status = some .succeeded := by
  obtain ⟨issued, leased, begun, there, issuedJob⟩ :=
    @exists_sampleJobAfter sampleStarted (by decide +kernel)
  obtain ⟨later, finished, run, finishedThere, laterJob⟩ :=
    @exists_sampleJobAfter sampleRetried (by decide +kernel)
  have token : (sampleJobAfter sampleStarted).bind ProviderJob.leaseToken =
      some sampleLease.text := by
    decide +kernel
  have status : (sampleJobAfter sampleRetried).map ProviderJob.status = some .succeeded := by
    decide +kernel
  obtain ⟨middle, started, rest⟩ := Run.append_iff.mp run
  obtain rfl := started.deterministic jobStep_deterministic begun
  obtain ⟨lapsed, ended, continued⟩ := Run.cons_iff.mp rest
  refine ⟨middle, lapsed, later, leasesFenced_of_run begun (Run.single ended) continued, ?_, ?_⟩
  · rw [there, ← issuedJob]
    exact token
  · rw [finishedThere, ← laterJob]
    exact status

end MarketCow.Jobs
