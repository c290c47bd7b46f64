import MarketCow.Jobs.EngineSound
import MarketCow.Library.MapValues

/-!
# Recovery of the engine

The jobs of a reachable engine are recovered exactly as they are, unless a job
that failed and was tried again has succeeded.
-/

namespace MarketCow.Jobs

open Library MarketCow.Core List
open JobEngine (empty perform recover succeed)

/-! ## Rebuilding an engine from its jobs -/

/-- The engine holds these jobs and finds them under their keys. -/
structure Rebuilt (rows : List ProviderJob) (engine : JobEngine) : Prop where
  jobs : ∀ (jobId : String) (job : ProviderJob),
    engine.jobs[jobId]? = some job ↔ job ∈ rows ∧ job.jobId = jobId
  index : ∀ key jobId : String,
    engine.idempotency[key]? = some jobId ↔
      ∃ job ∈ rows, job.idempotencyKey = key ∧ job.jobId = jobId

theorem rebuilt_empty : Rebuilt [] .empty := by
  constructor <;> simp [empty]

variable {jobs : List ProviderJob}

/-- One more job is taken up when its identifier and key are new. -/
theorem Rebuilt.replaceRecovered
    (rebuilt : Rebuilt jobs engine) (valid : validateRecoveredJob job = .ok ())
    (newId : ∀ other ∈ jobs, other.jobId ≠ job.jobId)
    (newKey : ∀ other ∈ jobs, other.idempotencyKey ≠ job.idempotencyKey) :
    ∃ after, engine.replaceRecovered job = .ok after ∧ Rebuilt (jobs ++ [job]) after := by
  have noJob : engine.jobs[job.jobId]? = none := by
    rw [Option.eq_none_iff_forall_ne_some]
    intro other present
    obtain ⟨mem, same⟩ := (rebuilt.jobs job.jobId other).mp present
    exact newId other mem same
  have noKey : engine.idempotency[job.idempotencyKey]? = none := by
    rw [Option.eq_none_iff_forall_ne_some]
    intro jobId present
    obtain ⟨other, mem, same, _⟩ := (rebuilt.index job.idempotencyKey jobId).mp present
    exact newKey other mem same
  refine ⟨{ jobs := engine.jobs.insert job.jobId job
            idempotency := engine.idempotency.insert job.idempotencyKey job.jobId }, ?_, ?_⟩
  · unfold JobEngine.replaceRecovered
    rw [valid, noJob, noKey]
    rfl
  · constructor
    · intro jobId other
      rw [TreeMap.getElem?_insert, mem_append, mem_singleton]
      split
      · rename_i same
        obtain rfl := Std.LawfulEqCmp.compare_eq_iff_eq.mp same
        constructor
        · intro present
          cases present
          exact ⟨.inr rfl, rfl⟩
        · rintro ⟨mem | rfl, sameId⟩
          · exact absurd sameId (newId other mem)
          · rfl
      · rename_i ne
        rw [Std.LawfulEqCmp.compare_eq_iff_eq] at ne
        rw [rebuilt.jobs]
        constructor
        · rintro ⟨mem, sameId⟩
          exact ⟨.inl mem, sameId⟩
        · rintro ⟨mem | rfl, sameId⟩
          · exact ⟨mem, sameId⟩
          · exact absurd sameId ne
    · intro key jobId
      rw [TreeMap.getElem?_insert]
      split
      · rename_i same
        obtain rfl := Std.LawfulEqCmp.compare_eq_iff_eq.mp same
        constructor
        · intro present
          exact ⟨job, by simp, rfl, some.inj present⟩
        · rintro ⟨other, mem, sameKey, sameId⟩
          rcases mem_append.mp mem with earlier | last
          · exact absurd sameKey (newKey other earlier)
          · obtain rfl := mem_singleton.mp last
            exact congrArg some sameId
      · rename_i ne
        rw [Std.LawfulEqCmp.compare_eq_iff_eq] at ne
        rw [rebuilt.index]
        constructor
        · rintro ⟨other, mem, same⟩
          exact ⟨other, mem_append_left _ mem, same⟩
        · rintro ⟨other, mem, sameKey, sameId⟩
          rcases mem_append.mp mem with earlier | last
          · exact ⟨other, earlier, sameKey, sameId⟩
          · obtain rfl := mem_singleton.mp last
            exact absurd sameKey ne

/-- Valid jobs with different identifiers and keys are recovered. -/
theorem recover_rebuilt (valid : ∀ job ∈ jobs, validateRecoveredJob job = .ok ())
    (ids : jobs.Pairwise fun first second => first.jobId ≠ second.jobId)
    (keys : jobs.Pairwise fun first second => first.idempotencyKey ≠ second.idempotencyKey) :
    ∃ engine, recover jobs = .ok engine ∧ Rebuilt jobs engine := by
  induction jobs using List.reverseRecOn with
  | nil => exact ⟨.empty, rfl, rebuilt_empty⟩
  | append_singleton front job ih =>
    rw [pairwise_append] at ids keys
    obtain ⟨middle, recovered, rebuilt⟩ := ih
      (fun other mem => valid other (mem_append_left _ mem)) ids.1 keys.1
    obtain ⟨after, replaced, final⟩ := rebuilt.replaceRecovered (valid job (by simp))
      (fun other mem => ids.2.2 other mem job (mem_singleton_self job))
      (fun other mem => keys.2.2 other mem job (mem_singleton_self job))
    refine ⟨after, ?_, final⟩
    unfold recover at recovered ⊢
    rw [foldlM_append_ok]
    refine ⟨middle, recovered, ?_⟩
    rw [foldlM_cons_ok]
    exact ⟨after, replaced, rfl⟩

/-- Only valid jobs are recovered. -/
theorem valid_of_recover (recovered : jobs.foldlM JobEngine.replaceRecovered start = .ok engine) :
    ∀ job ∈ jobs, validateRecoveredJob job = .ok () := by
  induction jobs generalizing start with
  | nil =>
    intro job mem
    cases mem
  | cons first rest ih =>
    obtain ⟨middle, replaced, rested⟩ := foldlM_cons_ok.mp recovered
    obtain ⟨_, valid, _⟩ := bind_ok.mp replaced
    intro job mem
    rcases mem_cons.mp mem with rfl | later
    · exact valid
    · exact ih rested job later

/-! ## Recovery of a reachable engine -/

/-- The engine is recovered with its jobs, and every submission is answered as
before. -/
def Recovers (engine : JobEngine) : Prop :=
  ∃ recovered, recover engine.snapshot = .ok recovered ∧ recovered.jobs = engine.jobs ∧
    ∀ input drawn now,
      (recovered.submit input drawn now).map Prod.fst = (engine.submit input drawn now).map Prod.fst

theorem EngineSound.recover_snapshot (sound : EngineSound state)
    (free : ∀ (jobId : String) (job : ProviderJob),
      state.engine.jobs[jobId]? = some job → ErrorFree job) :
    recover state.engine.snapshot = .ok state.engine := by
  have present : ∀ job ∈ state.engine.snapshot, state.engine.jobs[job.jobId]? = some job := by
    intro job mem
    obtain ⟨jobId, there⟩ := mem_valueList.mp mem
    rw [(sound.jobs jobId job there).identified]
    exact there
  have valid : ∀ job ∈ state.engine.snapshot, validateRecoveredJob job = .ok () := by
    intro job mem
    have there := present job mem
    exact (sound.jobs _ job there).validateRecoveredJob_iff.mpr (free _ job there)
  have ids : state.engine.snapshot.Pairwise fun first second => first.jobId ≠ second.jobId := by
    apply TreeMap.pairwise_valueList
    intro first second left right ne atFirst atSecond same
    rw [(sound.jobs first left atFirst).identified,
      (sound.jobs second right atSecond).identified] at same
    exact ne same
  have keys : state.engine.snapshot.Pairwise
      fun first second => first.idempotencyKey ≠ second.idempotencyKey := by
    apply TreeMap.pairwise_valueList
    intro first second left right ne atFirst atSecond same
    have one := sound.indexed first left atFirst
    rw [same, sound.indexed second right atSecond] at one
    exact ne (some.inj one).symm
  obtain ⟨engine, recovered, rebuilt⟩ := recover_rebuilt valid ids keys
  have jobs : engine.jobs = state.engine.jobs := by
    apply TreeMap.ext_getElem?
    intro jobId
    apply Option.ext
    intro job
    rw [rebuilt.jobs]
    constructor
    · rintro ⟨mem, rfl⟩
      exact present job mem
    · intro there
      exact ⟨mem_valueList.mpr ⟨jobId, there⟩, (sound.jobs jobId job there).identified⟩
  have index : engine.idempotency = state.engine.idempotency := by
    apply TreeMap.ext_getElem?
    intro key
    apply Option.ext
    intro jobId
    rw [rebuilt.index]
    constructor
    · rintro ⟨job, mem, rfl, rfl⟩
      exact sound.indexed job.jobId job (present job mem)
    · intro indexed
      obtain ⟨job, there, same⟩ := sound.index key jobId indexed
      exact ⟨job, mem_valueList.mpr ⟨jobId, there⟩, same, (sound.jobs jobId job there).identified⟩
  rw [recovered]
  cases engine
  cases jobs
  cases index
  rfl

/-- A sound engine is recovered exactly if no job that has succeeded carries an
error. -/
theorem EngineSound.recovery_eq_iff (sound : EngineSound state) :
    Recovers state.engine ↔
      ∀ (jobId : String) (job : ProviderJob),
        state.engine.jobs[jobId]? = some job → ErrorFree job := by
  constructor
  · rintro ⟨_, recovered, _⟩ jobId job there
    have mem : job ∈ state.engine.snapshot := mem_valueList.mpr ⟨jobId, there⟩
    exact (sound.jobs jobId job there).validateRecoveredJob_iff.mp
      (valid_of_recover recovered job mem)
  · intro free
    exact ⟨state.engine, sound.recover_snapshot free, rfl, fun _ _ _ => rfl⟩

/-! ## Recovery along a run -/

/-- The operation records the result of a job that carries the error of an
earlier attempt. -/
def FinishesAfterError (engine : JobEngine) (label : JobAction × DateTime) : Prop :=
  ∃ jobId leaseToken result job,
    label.1 = .succeed jobId leaseToken result ∧ validateResult result = .ok () ∧
      engine.jobs[jobId]? = some job ∧ LeaseAccepted job leaseToken label.2 ∧
      job.status = .running ∧ job.error ≠ none

/-- A result that is accepted finishes the job. -/
theorem perform_succeed
    {engine : JobEngine} {jobId leaseToken : String} {result : StagedResult} {job : ProviderJob}
    {now : DateTime}
    (valid : validateResult result = .ok ()) (present : engine.jobs[jobId]? = some job)
    (accepted : LeaseAccepted job leaseToken now) (running : job.status = .running) :
    (engine.perform now (.succeed jobId leaseToken result)).jobs[jobId]? =
      some (job.finishedWith result now) := by
  have answer : job.succeed leaseToken result now = .ok (job.finishedWith result now) := by
    unfold ProviderJob.succeed
    rw [checkLease_ok_iff.mpr accepted, running]
    rfl
  simp only [perform, succeed, valid, JobEngine.changeJob, present, answer,
    bind, Except.bind, JobEngine.afterAnswer, getElem?_insert_self]

/-- An operation keeps the engine recoverable exactly if it does not finish a
job that carries an error. -/
theorem recovers_step_iff {before after : JobState} {label : JobAction × DateTime}
    (sound : EngineSound before) (recovers : Recovers before.engine)
    (taken : JobStep before label after) :
    Recovers after.engine ↔ ¬FinishesAfterError before.engine label := by
  rw [sound.recovery_eq_iff] at recovers
  rw [(sound.step taken).recovery_eq_iff]
  cases taken with
  | @performed action now later fresh =>
    constructor
    · rintro free ⟨jobId, leaseToken, result, job, rfl, valid, present, accepted, running, error⟩
      have finished := perform_succeed valid present accepted running
      have clean := free jobId _ finished rfl
      exact error clean
    · intro careful
      generalize performed : before.engine.perform now action = engine
      have effect := perform_effect before.engine action now
      rw [performed] at effect
      cases effect with
      | changed each =>
        intro jobId job present
        obtain ⟨earlier, there, rfl | change⟩ := (present ▸ each jobId).before
        · exact recovers jobId job there
        · cases change with
          | succeeded named valid accepted running =>
            intro _
            by_contra error
            exact careful ⟨jobId, _, _, earlier, named, valid, there, accepted, running, error⟩
          | @failed error retryable _ =>
            intro never
            cases retryable <;> cases never
          | claimed | started | requeued | canceled =>
            intro never
            cases never
      | submitted =>
        intro jobId job present
        rw [TreeMap.getElem?_insert] at present
        split at present
        · cases present
          intro never
          cases never
        · exact recovers jobId job present

/-- Every state of a run is recoverable exactly if no step finishes a job that
carries the error of an earlier attempt. -/
theorem recovers_iff {opening : DateTime} {actions : List (JobAction × DateTime)} {state : JobState}
    (run : JobRun opening actions state) :
    Run.Throughout JobStep (fun state => Recovers state.engine) (.start opening) actions ↔
      Run.EachStep JobStep (fun _ before label => ¬FinishesAfterError before.engine label)
        (.start opening) actions := by
  have opened : Recovers (JobState.start opening).engine := by
    rw [(engineSound_start opening).recovery_eq_iff]
    intro jobId job present
    simp [JobState.start, empty] at present
  exact Run.throughout_iff_eachStep jobStep_deterministic
    (fun _ _ _ sound taken => sound.step taken)
    (fun _ _ _ sound recovers taken => recovers_step_iff sound recovers taken)
    (engineSound_start opening) opened run

/-- Runs in which no result is accepted stay recoverable. -/
theorem eachStep_of_unfinished
    (unfinished : ∀ label ∈ actions, ∀ jobId leaseToken result,
      label.1 ≠ .succeed jobId leaseToken result) :
    Run.EachStep JobStep (fun _ before label => ¬FinishesAfterError before.engine label) start
      actions := by
  rintro earlier label later before split _ ⟨jobId, leaseToken, result, _, same, _⟩
  exact unfinished label (by simp [split]) jobId leaseToken result same

theorem recovers_iff_sample :
    ∃ state, JobRun 0 (sampleStarted ++ [sampleFinish]) state ∧
      (state.engine.jobs[sampleUuid.text]?).map ProviderJob.status = some .succeeded ∧
      Run.Throughout JobStep (fun state => Recovers state.engine) (.start 0)
        (sampleStarted ++ [sampleFinish]) := by
  obtain ⟨started, job, startedRun, there, after⟩ :=
    @exists_sampleJobAfter sampleStarted (by decide +kernel)
  have clean : (sampleJobAfter sampleStarted).map ProviderJob.error = some none := by decide +kernel
  obtain ⟨state, finished, run, finishedThere, afterFinished⟩ :=
    @exists_sampleJobAfter (sampleStarted ++ [sampleFinish]) (by decide +kernel)
  have succeeded : (sampleJobAfter (sampleStarted ++ [sampleFinish])).map ProviderJob.status =
      some .succeeded := by
    decide +kernel
  rw [afterFinished, ← finishedThere] at succeeded
  refine ⟨state, run, succeeded, (recovers_iff run).mpr ?_⟩
  rw [Run.eachStep_snoc_iff jobStep_deterministic startedRun]
  refine ⟨eachStep_of_unfinished (by simp [sampleStarted]), ?_⟩
  rintro ⟨_, _, _, other, same, _, present, _, _, error⟩
  injection same with sameId
  rw [← sameId, there] at present
  rw [after] at clean
  cases present
  exact error (some.inj clean)

theorem retried_job_blocks_recovery :
    ∃ state, JobRun 0 sampleRetried state ∧
      ∀ recovered, recover state.engine.snapshot ≠ .ok recovered := by
  obtain ⟨state, job, run, there, after⟩ := @exists_sampleJobAfter sampleRetried (by decide +kernel)
  have carries : (sampleJobAfter sampleRetried).map
      (fun job => (job.status, job.error.isSome)) = some (.succeeded, true) := by
    decide +kernel
  rw [after] at carries
  injection some.inj carries with status error
  refine ⟨state, run, fun recovered answer => ?_⟩
  have valid := valid_of_recover answer job (mem_valueList.mpr ⟨_, there⟩)
  have clean := ((engineSound_of_run run).jobs _ job there).validateRecoveredJob_iff.mp valid status
  rw [clean] at error
  cases error

end MarketCow.Jobs
