import MarketCow.Jobs.Leases
import MarketCow.Jobs.Recovery
import MarketCow.Library.MapSums

/-!
# Dispatch under policies

When jobs are only claimed under one map of policies, no type of job has more
jobs in flight than its policy allows, and its claims keep their distance. The
engine stores neither number: it counts the jobs in flight, and takes the last
claim from the jobs, which a later claim, a retry, a cancellation or a recovery
must not make older.
-/

namespace MarketCow
namespace Library
namespace TreeMap

variable {κ ν : Type} [Ord κ] [Std.TransOrd κ] [Std.LawfulEqOrd κ]

/-- Values that satisfy a condition are no more than before, but for some keys. -/
theorem length_filter_le
    {after : TreeMap κ ν} {holds : ν → Bool} (before : TreeMap κ ν) (extra : List κ)
    (covered : ∀ key value, after[key]? = some value → holds value = true →
      key ∈ extra ∨ ∃ old, before[key]? = some old ∧ holds old = true) :
    (after.valueList.filter holds).length ≤
      extra.length + (before.valueList.filter holds).length := by
  have keys : ∀ map : TreeMap κ ν, (map.valueList.filter holds).length =
      ((map.toList.filter fun entry => holds entry.2).map Prod.fst).length := by
    intro map
    rw [valueList, List.filter_map, List.length_map, List.length_map]
    rfl
  have distinct : ((after.toList.filter fun entry => holds entry.2).map Prod.fst).Nodup := by
    rw [List.Nodup, List.pairwise_map]
    refine (Std.ExtTreeMap.distinct_keys_toList.sublist List.filter_sublist).imp ?_
    intro first second ne same
    exact ne (Std.LawfulEqCmp.compare_eq_iff_eq.mpr same)
  rw [keys, keys, ← List.length_append]
  refine (distinct.subperm ?_).length_le
  intro key mem
  obtain ⟨⟨_, value⟩, isEntry, rfl⟩ := List.mem_map.mp mem
  obtain ⟨there, satisfied⟩ := List.mem_filter.mp isEntry
  rcases covered _ value (mem_toList_iff_getElem?_eq_some.mp there) satisfied with
    exempt | ⟨old, present, held⟩
  · exact List.mem_append_left _ exempt
  · refine List.mem_append_right _ (List.mem_map.mpr ⟨(_, old), List.mem_filter.mpr ⟨?_, held⟩, rfl⟩)
    exact mem_toList_iff_getElem?_eq_some.mpr present

end TreeMap
end Library

namespace Jobs

open Library MarketCow.Core List

/-! ## Runs under policies -/

/-- A claim that was granted under the policies. -/
structure Dispatch where
  jobType : String
  time : DateTime
  deriving DecidableEq

/-- The claim an operation is granted under the policies, if it asks for one. -/
def JobEngine.dispatched (engine : JobEngine) (now : DateTime) : JobAction → List Dispatch
  | .claimNextWithPolicies workerId capabilities policies leaseDuration drawn =>
    match engine.claimNextWithPolicies workerId capabilities policies leaseDuration drawn
        now with
    | .ok (some job, _) => [⟨job.jobType, now⟩]
    | _ => []
  | _ => []

/-- Jobs are claimed under these policies only. -/
def JobAction.ClaimsUnder (policies : TreeMap String DispatchPolicy) : JobAction → Prop
  | .claim _ _ _ _ => False
  | .claimNext _ _ _ _ => False
  | .claimNextWithPolicies _ _ used _ _ => used = policies
  | _ => True

/-- Number of jobs of a type that workers hold. -/
def JobEngine.inFlight (engine : JobEngine) (jobType : String) : Nat :=
  (engine.snapshot.filter fun job =>
    decide (job.jobType = jobType) && job.status.active).length

/-- Runs in which jobs are claimed under the policies only, with the claims
that were granted. An engine may be recovered from its snapshot. -/
inductive PolicyRun (policies : TreeMap String DispatchPolicy) (opening : DateTime) :
    List Dispatch → JobState → Prop
  | start : PolicyRun policies opening [] (JobState.start opening)
  | performed
      {dispatches : List Dispatch}
      {before after : JobState}
      {action : JobAction}
      {now : DateTime} :
      PolicyRun policies opening dispatches before →
      action.ClaimsUnder policies →
      JobStep before (action, now) after →
      PolicyRun policies opening (dispatches ++ before.engine.dispatched now action) after
  | recovered
      {dispatches : List Dispatch}
      {before : JobState}
      {engine : JobEngine} :
      PolicyRun policies opening dispatches before →
      JobEngine.recover before.engine.snapshot = .ok engine →
      PolicyRun policies opening dispatches { before with engine }

variable {policies : TreeMap String DispatchPolicy}

/-- Claims of one type keep the distance its policy asks for. -/
def Spaced (policies : TreeMap String DispatchPolicy) (first second : Dispatch) : Prop :=
  first.jobType = second.jobType →
    ∀ policy, policies[first.jobType]? = some policy →
      (policy.minimumIntervalMillis : Int) ≤ numMilliseconds (second.time - first.time)

/-- A job remembers a claim, or a later one. -/
def Remembers (engine : JobEngine) (dispatch : Dispatch) : Prop :=
  ∃ (jobId : String) (job : ProviderJob) (claimed : DateTime),
    engine.jobs[jobId]? = some job ∧ job.jobType = dispatch.jobType ∧
      job.claimedAt = some claimed ∧ dispatch.time ≤ claimed

/-- What runs under policies keep. -/
structure Paced
    (policies : TreeMap String DispatchPolicy) (dispatches : List Dispatch)
    (state : JobState) : Prop where
  sound : EngineSound state
  past : ∀ dispatch ∈ dispatches, dispatch.time ≤ state.clock
  remembered : ∀ dispatch ∈ dispatches, Remembers state.engine dispatch
  bounded : ∀ (jobType : String) policy, policies[jobType]? = some policy →
    state.engine.inFlight jobType ≤ policy.maxInFlight
  spaced : dispatches.Pairwise (Spaced policies)

/-! ## One operation -/

theorem numMilliseconds_mono (ordered : first ≤ second) :
    numMilliseconds first ≤ numMilliseconds second := by
  exact Int.tdiv_le_tdiv (by decide) ordered

section Step

variable {before after : JobState} {action : JobAction} {now : DateTime}

/-- The job of a dispatch keeps showing it. -/
theorem Remembers.step {dispatch : Dispatch}
    (remembers : Remembers before.engine dispatch) (past : dispatch.time ≤ now)
    (sound : EngineSound before) (taken : JobStep before (action, now) after) :
    Remembers after.engine dispatch := by
  obtain ⟨jobId, job, claimed, present, jobType, claimedAt, noEarlier⟩ := remembers
  obtain ⟨later, there, rfl | change⟩ := sound.kept taken present
  · exact ⟨jobId, later, claimed, there, jobType, claimedAt, noEarlier⟩
  · cases change with
    | claimed => exact ⟨jobId, _, now, there, jobType, rfl, past⟩
    | started | succeeded | failed | requeued | canceled =>
      exact ⟨jobId, _, claimed, there, jobType, claimedAt, noEarlier⟩

/-- A change that is no claim puts no job in flight. -/
theorem JobChange.active_of_quiet {jobId : String} {job after : ProviderJob}
    (quiet : action.drawn = none) (change : JobChange action now jobId job after) :
    after.jobType = job.jobType ∧ (after.status.active = true → job.status.active = true) := by
  cases change with
  | claimed named =>
    rw [quiet] at named
    cases named
  | started _ claimed =>
    rw [claimed]
    exact ⟨rfl, fun _ => rfl⟩
  | succeeded => exact ⟨rfl, nofun⟩
  | @failed error retryable active => exact ⟨rfl, fun _ => active⟩
  | requeued | canceled => exact ⟨rfl, nofun⟩

/-- An operation that draws no lease adds no active job. -/
theorem inFlight_le_of_quiet
    (quiet : action.drawn = none) (taken : JobStep before (action, now) after) (jobType : String) :
    after.engine.inFlight jobType ≤ before.engine.inFlight jobType := by
  refine (TreeMap.length_filter_le before.engine.jobs [] ?_).trans (Nat.zero_add _).le
  intro jobId job present held
  rw [and_eq_true, decide_eq_true_eq] at held
  rcases taken.origin present with ⟨earlier, there, rfl | change⟩ | ⟨_, _, _, rfl⟩
  · exact .inr ⟨job, there, by simpa using held⟩
  · obtain ⟨sameType, active⟩ := change.active_of_quiet quiet
    refine .inr ⟨earlier, there, ?_⟩
    rw [and_eq_true, decide_eq_true_eq, ← sameType]
    exact ⟨held.1, active held.2⟩
  · cases held.2

/-- A submission puts no job in flight. -/
theorem inFlight_le_of_submit
    (engine : JobEngine) (input : SubmitJob) (drawn : Uuid) (jobType : String) :
    (engine.perform now (.submit input drawn)).inFlight jobType ≤ engine.inFlight jobType := by
  unfold JobEngine.perform JobEngine.submit
  dsimp only
  cases validateSubmit input now with
  | error _ => exact le_rfl
  | ok _ =>
    simp only [sha256Json, bind, Except.bind]
    split
    · split
      · split <;> exact le_rfl
      · exact le_rfl
    · refine (TreeMap.length_filter_le engine.jobs [] ?_).trans (Nat.zero_add _).le
      intro jobId job present held
      dsimp only [JobEngine.afterAnswer] at present
      rw [TreeMap.getElem?_insert] at present
      split at present
      · cases present
        rw [and_eq_true] at held
        cases held.2
      · exact .inr ⟨job, present, held⟩

variable {capabilities : List String}

/-- What a claim under policies does: nothing, or it claims a job it may
dispatch. -/
theorem claimNextWithPolicies_cases
    (sound : EngineSound before) :
    (before.engine.perform now
          (.claimNextWithPolicies workerId capabilities policies leaseDuration drawn) =
        before.engine ∧
      before.engine.dispatched now
        (.claimNextWithPolicies workerId capabilities policies leaseDuration drawn) = []) ∨
    ∃ job, before.engine.jobs[job.jobId]? = some job ∧
      before.engine.isDispatchable policies capabilities now job = true ∧
      before.engine.perform now
          (.claimNextWithPolicies workerId capabilities policies leaseDuration drawn) =
        { before.engine with
          jobs := before.engine.jobs.insert job.jobId
            (job.claimedBy workerId leaseDuration drawn now) } ∧
      before.engine.dispatched now
          (.claimNextWithPolicies workerId capabilities policies leaseDuration drawn) =
        [⟨job.jobType, now⟩] := by
  unfold JobEngine.perform JobEngine.dispatched JobEngine.claimNextWithPolicies
  dsimp only
  cases policies.valueList.mapM DispatchPolicy.validate with
  | error _ => exact .inl ⟨rfl, rfl⟩
  | ok _ =>
    simp only [bind, Except.bind]
    cases found : before.engine.snapshot.find?
        (before.engine.isDispatchable policies capabilities now) with
    | none => exact .inl ⟨rfl, rfl⟩
    | some job =>
      obtain ⟨jobId, there⟩ := mem_valueList.mp (mem_of_find?_eq_some found)
      have present : before.engine.jobs[job.jobId]? = some job := by
        rw [(sound.jobs jobId job there).identified]
        exact there
      unfold JobEngine.claimFound
      dsimp only
      cases answer : before.engine.claim job.jobId workerId leaseDuration drawn now with
      | error _ => exact .inl ⟨rfl, rfl⟩
      | ok result =>
        refine .inr ⟨job, present, find?_some found, ?_⟩
        unfold JobEngine.claim JobEngine.changeJob at answer
        obtain ⟨_, _, answer⟩ := bind_ok.mp answer
        rw [present] at answer
        dsimp only at answer
        split at answer
        · cases answer
        · rename_i claimed isClaim
          cases answer
          unfold ProviderJob.claim at isClaim
          split at isClaim
          · cases isClaim
          · split at isClaim
            · cases isClaim
            · cases isClaim
              exact ⟨rfl, rfl⟩

variable {state : JobState}

/-- The last dispatch the engine finds is no earlier than one it remembers. -/
theorem Remembers.le_lastDispatch
    (remembers : Remembers state.engine dispatch) (sound : EngineSound state) :
    ∃ last, state.engine.lastDispatch dispatch.jobType = some last ∧ dispatch.time ≤ last := by
  obtain ⟨jobId, job, claimed, present, jobType, claimedAt, noEarlier⟩ := remembers
  have attempted := ((sound.jobs jobId job present).claimedAt claimed claimedAt).1
  have counted : claimed ∈ (state.engine.snapshot.filter fun job =>
      decide (job.jobType = dispatch.jobType) && decide (job.attempt > 0)).map fun job =>
        (job.claimedAt.or job.startedAt).getD job.createdAt := by
    refine mem_map.mpr ⟨job, mem_filter.mpr ⟨?_, ?_⟩, ?_⟩
    · exact mem_valueList.mpr ⟨jobId, present⟩
    · simp [jobType, attempted]
    · rw [claimedAt]
      rfl
  obtain ⟨last, isLast⟩ := isSome_iff_exists.mp (isSome_max?_of_mem counted)
  exact ⟨last, isLast, noEarlier.trans ((max?_le_iff isLast).mp le_rfl claimed counted)⟩

/-- What the engine checks of a job it dispatches. -/
theorem isDispatchable_checks {engine : JobEngine} {job : ProviderJob} {policy : DispatchPolicy}
    (dispatchable : engine.isDispatchable policies capabilities now job = true)
    (governed : policies[job.jobType]? = some policy) :
    engine.inFlight job.jobType < policy.maxInFlight ∧
      ∀ last, engine.lastDispatch job.jobType = some last →
        (policy.minimumIntervalMillis : Int) ≤ numMilliseconds (now - last) := by
  unfold JobEngine.isDispatchable at dispatchable
  rw [governed] at dispatchable
  simp only [and_eq_true, decide_eq_true_eq] at dispatchable
  refine ⟨dispatchable.1.2, fun last found => ?_⟩
  have waited := dispatchable.2
  rw [found, Option.all_some, decide_eq_true_eq] at waited
  exact waited

/-! ## Whole runs -/

variable {dispatches : List Dispatch}

theorem Paced.quiet
    (paced : Paced policies dispatches before) (taken : JobStep before (action, now) after)
    (none : before.engine.dispatched now action = [])
    (fewer : ∀ jobType, after.engine.inFlight jobType ≤ before.engine.inFlight jobType) :
    Paced policies (dispatches ++ before.engine.dispatched now action) after := by
  have clock : after.clock = now := by
    cases taken
    rfl
  have later : before.clock ≤ now := clock ▸ taken.clock
  rw [none, append_nil]
  exact
    { sound := paced.sound.step taken
      past := fun dispatch mem => clock ▸ (paced.past dispatch mem).trans later
      remembered := fun dispatch mem => (paced.remembered dispatch mem).step
        ((paced.past dispatch mem).trans later) paced.sound taken
      bounded := fun jobType policy governed =>
        (fewer jobType).trans (paced.bounded jobType policy governed)
      spaced := paced.spaced }

/-- An operation dispatches only what the policies let through. -/
theorem Paced.performed {dispatches : List Dispatch}
    (paced : Paced policies dispatches before) (claims : action.ClaimsUnder policies)
    (taken : JobStep before (action, now) after) :
    Paced policies (dispatches ++ before.engine.dispatched now action) after := by
  have engine : after.engine = before.engine.perform now action := by
    cases taken
    rfl
  cases action with
  | claim | claimNext => cases claims
  | start | succeed | fail | requeue | requeueRetryable | expireLeases | cancel =>
    exact paced.quiet taken rfl (inFlight_le_of_quiet rfl taken)
  | submit input drawn =>
    refine paced.quiet taken rfl fun jobType => ?_
    rw [engine]
    exact inFlight_le_of_submit before.engine input drawn jobType
  | claimNextWithPolicies workerId capabilities used leaseDuration drawn =>
    obtain rfl : used = policies := claims
    rcases claimNextWithPolicies_cases paced.sound with
      ⟨same, none⟩ | ⟨job, present, dispatchable, claimed, dispatched⟩
    · refine paced.quiet taken none fun jobType => ?_
      rw [engine, same]
    · rw [claimed] at engine
      have clock : after.clock = now := by
        cases taken
        rfl
      have later : before.clock ≤ now := clock ▸ taken.clock
      rw [dispatched]
      refine ⟨paced.sound.step taken, ?_, ?_, ?_, ?_⟩
      · intro dispatch mem
        rw [clock]
        rcases mem_append.mp mem with old | new
        · exact (paced.past dispatch old).trans later
        · rw [mem_singleton.mp new]
      · intro dispatch mem
        rcases mem_append.mp mem with old | new
        · exact (paced.remembered dispatch old).step ((paced.past dispatch old).trans later)
            paced.sound taken
        · rw [mem_singleton.mp new, engine]
          exact ⟨job.jobId, _, now, getElem?_insert_self, rfl, rfl, le_rfl⟩
      · intro jobType policy governed
        have old := paced.bounded jobType policy governed
        rw [engine]
        by_cases same : job.jobType = jobType
        · subst same
          have free := (isDispatchable_checks dispatchable governed).1
          refine (TreeMap.length_filter_le before.engine.jobs [job.jobId] ?_).trans ?_
          · intro jobId other there held
            rw [TreeMap.getElem?_insert] at there
            split at there
            · rename_i equal
              exact .inl (by simp [Std.LawfulEqCmp.compare_eq_iff_eq.mp equal])
            · exact .inr ⟨other, there, held⟩
          · rw [length_singleton, Nat.add_comm]
            exact free
        · refine (TreeMap.length_filter_le before.engine.jobs [] ?_).trans
            ((Nat.zero_add _).le.trans old)
          intro jobId other there held
          rw [TreeMap.getElem?_insert] at there
          split at there
          · cases there
            rw [and_eq_true, decide_eq_true_eq] at held
            exact absurd held.1 same
          · exact .inr ⟨other, there, held⟩
      · refine pairwise_append.mpr ⟨paced.spaced, pairwise_singleton _ _, ?_⟩
        intro dispatch mem new single
        rw [mem_singleton.mp single]
        intro sameType policy governed
        obtain ⟨last, found, noLater⟩ :=
          (paced.remembered dispatch mem).le_lastDispatch paced.sound
        rw [sameType] at found governed
        have waited := (isDispatchable_checks dispatchable governed).2 last found
        exact waited.trans (numMilliseconds_mono (Int.sub_le_sub_left noLater now))

variable {opening : DateTime}

/-- Induction over the run; a recovery takes up the engine that was stored. -/
theorem paced_of_run (run : PolicyRun policies opening dispatches state) :
    Paced policies dispatches state := by
  induction run with
  | start =>
    refine ⟨engineSound_start opening, by simp, by simp, ?_, .nil⟩
    intro jobType policy _
    exact Nat.zero_le _
  | performed _ claims taken ih => exact ih.performed claims taken
  | @recovered dispatches before engine _ recovered ih =>
    have sound := ih.sound
    have free : ∀ (jobId : String) (job : ProviderJob),
        before.engine.jobs[jobId]? = some job → ErrorFree job := by
      intro jobId job there
      exact (sound.jobs jobId job there).validateRecoveredJob_iff.mp
        (valid_of_recover recovered job (mem_valueList.mpr ⟨jobId, there⟩))
    rw [sound.recover_snapshot free] at recovered
    cases recovered
    exact ih

/-- At every moment of a run under policies no type of job has more jobs in
flight than its policy allows, and all claims of one type keep its distance. -/
theorem dispatch_bounded (run : PolicyRun policies opening dispatches state) :
    (∀ (jobType : String) policy, policies[jobType]? = some policy →
      state.engine.inFlight jobType ≤ policy.maxInFlight) ∧
    dispatches.Pairwise (Spaced policies) :=
  ⟨(paced_of_run run).bounded, (paced_of_run run).spaced⟩

end Step

/-- Operations one after another, with the claims they were granted. -/
def JobState.performUnder? (reached : List Dispatch × JobState) (label : JobAction × DateTime) :
    Option (List Dispatch × JobState) :=
  (reached.2.perform? label).map fun after =>
    (reached.1 ++ reached.2.engine.dispatched label.2 label.1, after)

theorem policyRun_of_foldlM {policies : TreeMap String DispatchPolicy} {opening : DateTime}
    {labels : List (JobAction × DateTime)} {before after : List Dispatch × JobState}
    (run : PolicyRun policies opening before.1 before.2)
    (under : ∀ label ∈ labels, label.1.ClaimsUnder policies)
    (performed : labels.foldlM JobState.performUnder? before = some after) :
    PolicyRun policies opening after.1 after.2 := by
  induction labels generalizing before with
  | nil =>
    cases performed
    exact run
  | cons label labels ih =>
    rw [List.foldlM_cons, Option.bind_eq_bind, bind_eq_some_iff] at performed
    obtain ⟨middle, first, rest⟩ := performed
    obtain ⟨state, taken, rfl⟩ := map_eq_some_iff.mp first
    unfold JobState.perform? at taken
    split at taken
    · rename_i allowed
      cases taken
      refine ih ?_ (fun other listed => under other (List.mem_cons_of_mem _ listed)) rest
      exact run.performed (under label List.mem_cons_self) (.performed allowed.1 allowed.2)
    · cases taken

/-- At most two jobs of the sample's type in flight, a second apart. -/
def samplePolicies : TreeMap String DispatchPolicy :=
  (∅ : TreeMap String DispatchPolicy).insert sampleSubmit.jobType
    { maxInFlight := 2, minimumIntervalMillis := 1000 }

/-- A third lease token. -/
def sampleThirdLease : Uuid where
  text := "5d0f6a83-2b9e-4c17-b6e4-8a31f7d0c925"
  sized := by decide +kernel

/-- The identifier of the second job. -/
def sampleSecondUuid : Uuid where
  text := "e2c94b70-7d15-4ea3-90f8-36b5a1d8c7f4"
  sized := by decide +kernel

/-- A worker asks for a job under the policies. -/
def sampleClaim (drawn : Uuid) : JobAction :=
  .claimNextWithPolicies "worker-1" [sampleSubmit.jobType] samplePolicies 30 drawn

/-- Of two jobs the second one is asked for too early, and again after the
interval. -/
def sampleDispatching : List (JobAction × DateTime) :=
  [(.submit sampleSubmit sampleUuid, 0),
    (.submit { sampleSubmit with idempotencyKey := "idem-2", deadline := 2000000000 }
      sampleSecondUuid, 0),
    (sampleClaim sampleLease, 1), (sampleClaim sampleSecondLease, 2),
    (sampleClaim sampleThirdLease, 1000000001)]

/-- Two jobs of the type, claimed a second apart. -/
theorem dispatch_bounded_sample :
    ∃ state, PolicyRun samplePolicies 0
        [⟨sampleSubmit.jobType, 1⟩, ⟨sampleSubmit.jobType, 1000000001⟩] state ∧
      state.engine.inFlight sampleSubmit.jobType ≤ 2 ∧
        (1000 : Int) ≤ numMilliseconds (1000000001 - 1) := by
  have performed : (sampleDispatching.foldlM JobState.performUnder? ([], .start 0)).map Prod.fst =
      some [⟨sampleSubmit.jobType, 1⟩, ⟨sampleSubmit.jobType, 1000000001⟩] := by
    decide +kernel
  obtain ⟨⟨granted, state⟩, reached, rfl⟩ := map_eq_some_iff.mp performed
  have under : ∀ label ∈ sampleDispatching, label.1.ClaimsUnder samplePolicies := by
    simp [sampleDispatching, sampleClaim, JobAction.ClaimsUnder]
  have run := policyRun_of_foldlM .start under reached
  obtain ⟨bounded, spaced⟩ := dispatch_bounded run
  have policy : samplePolicies[sampleSubmit.jobType]? = some ⟨2, 1000⟩ := getElem?_insert_self
  exact ⟨state, run, bounded sampleSubmit.jobType _ policy,
    (List.pairwise_cons.mp spaced).1 _ List.mem_cons_self rfl _ policy⟩

end Jobs
end MarketCow
