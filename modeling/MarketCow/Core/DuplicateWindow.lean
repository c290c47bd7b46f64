import MarketCow.Core.Batch

/-!
# The duplicate window

The window of a writer holds the identities of the last events it accepted,
and the index answers exactly for them. An application leaves one identity in
the window and a batch one for each of its events; a call that fails leaves
none.
-/

namespace MarketCow.Core

open Library List

/-! ## The last accepted events -/

/-- The identities that a sequence of accepted events leaves in a window. -/
def lastEvents (eventIds : List String) : List String :=
  eventIds.rtake recentEventLimit

theorem pushRecent_lastEvents (eventIds : List String) (eventId : String) :
    pushRecent (lastEvents eventIds) eventId = lastEvents (eventIds ++ [eventId]) := by
  unfold pushRecent lastEvents List.rtake
  by_cases full : recentEventLimit ≤ eventIds.length
  · have long : recentEventLimit <
        (eventIds.drop (eventIds.length - recentEventLimit) ++ [eventId]).length := by
      simp only [length_append, length_drop, length_singleton]
      omega
    have next : (eventIds ++ [eventId]).length - recentEventLimit =
        eventIds.length - recentEventLimit + 1 := by
      simp only [length_append, length_singleton]
      omega
    rw [if_pos long, next, ← drop_drop, drop_one, drop_append_of_le_length (Nat.sub_le _ _)]
  · have short : eventIds.length - recentEventLimit = 0 := by omega
    have next : (eventIds ++ [eventId]).length - recentEventLimit = 0 := by
      simp only [length_append, length_singleton]
      omega
    rw [short, next, drop_zero, drop_zero, if_neg]
    simp only [length_append, length_singleton]
    omega

theorem foldl_pushRecent_lastEvents (earlier eventIds : List String) :
    eventIds.foldl pushRecent (lastEvents earlier) = lastEvents (earlier ++ eventIds) := by
  induction eventIds generalizing earlier with
  | nil => rw [foldl_nil, append_nil]
  | cons eventId eventIds ih =>
    rw [foldl_cons, pushRecent_lastEvents, ih, append_assoc, singleton_append]

/-- A window that is not overfull is its own last part. -/
theorem WindowSound.lastEvents_eq
    (sound : WindowSound recentEventIds) :
    lastEvents recentEventIds = recentEventIds := by
  unfold lastEvents List.rtake
  rw [Nat.sub_eq_zero_of_le sound.bounded, drop_zero]

/-! ## Runs -/

/-- The identities that one call adds to the accepted events. -/
def acceptedIds : Command × Except Failure (List ApplyOutcome) → List String
  | (command, .ok _) => command.events.map CanonicalEvent.eventId
  | (_, .error _) => []

variable {platform : Platform} {enforce : Bool}

theorem recentEventIds_of_evaluationRun
    (run : EvaluationRun platform enforce start labels finish) :
    finish.recentEventIds =
      (labels.map fun label => label.event.eventId).foldl pushRecent
        start.recentEventIds := by
  induction run with
  | nil => rfl
  | snoc _ taken ih =>
    obtain ⟨validateRawPayload, evaluated⟩ := taken
    rw [(recentEventIds_of_evaluates evaluated).1, ih]
    simp

variable {L : Type} {durable : DurableLog L}

/-- A call pushes the identities it accepts into the window, in their order. -/
theorem recentEventIds_of_step
    {writer next : SingleWriter L} {call : Command × Except Failure (List ApplyOutcome)}
    (step : SingleWriter.Step platform durable writer call next) :
    next.current.recentEventIds =
      (acceptedIds call).foldl pushRecent writer.current.recentEventIds := by
  obtain ⟨command, result⟩ := call
  unfold SingleWriter.Step SingleWriter.execute at step
  cases command with
  | apply now event =>
    dsimp only at step
    generalize called : writer.apply platform durable now event = outcome at step
    obtain ⟨answer, after⟩ := outcome
    cases step
    cases answer with
    | error failure =>
      rw [(SingleWriter.unpublished_of_apply_error called).1]
      rfl
    | ok outcome =>
      obtain ⟨_, state, log, evaluated, _, published, rfl⟩ := SingleWriter.apply_ok_iff.mp called
      rw [published]
      exact (recentEventIds_of_evaluates evaluated).1
  | applyBatch now events =>
    cases result with
    | error failure =>
      rw [(SingleWriter.unpublished_of_applyBatch_error step).1]
      rfl
    | ok outcomes =>
      rcases SingleWriter.applyBatch_ok step with ⟨rfl, _, rfl⟩ |
        ⟨first, rest, state, persisted, log, _, _, evaluated, _, _, rfl⟩
      · rfl
      · obtain ⟨labels, run, sameEvents, _⟩ := evaluateNext_run evaluated
        have accepted : labels.map (fun label => label.event.eventId) =
            events.map CanonicalEvent.eventId := by
          rw [← sameEvents, map_map]
          rfl
        have window := recentEventIds_of_evaluationRun run
        rw [accepted] at window
        exact window

/-- A writer before its first call, with the window it starts from: a new
one, or one resumed from a projection whose window is sound. -/
inductive Started : List String → SingleWriter L → Prop
  | new
      (scopeId : String)
      (log : L)
      (now : DateTime) :
      Started [] (SingleWriter.new scopeId log now)
  | newDataDelivery
      (scopeId : String)
      (log : L)
      (now : DateTime) :
      Started [] (SingleWriter.newDataDelivery scopeId log now)
  | resumed
      {projection : Projection}
      {log : L}
      {writer : SingleWriter L} :
      WindowSound projection.recentEventIds →
      SingleWriter.resume projection log = .ok writer →
      Started projection.recentEventIds writer

variable {initialIds : List String}

theorem Started.indexed (started : Started initialIds writer) :
    writer.Indexed ∧ writer.current.recentEventIds = lastEvents initialIds := by
  cases started with
  | new | newDataDelivery => exact ⟨⟨⟨nodup_nil, Nat.zero_le _⟩, rfl⟩, rfl⟩
  | resumed sound resumed =>
    rw [sound.lastEvents_eq]
    exact SingleWriter.indexed_of_resume sound resumed

variable {calls : List (Command × Except Failure (List ApplyOutcome))}
  {initial writer : SingleWriter L}

/-- The window after any calls, successful or not. -/
theorem window_of_run (started : Started initialIds initial)
    (run : Run (SingleWriter.Step platform durable) initial calls writer) :
    writer.Indexed ∧
      writer.current.recentEventIds = lastEvents (initialIds ++ calls.flatMap acceptedIds) := by
  induction run with
  | nil => simpa using started.indexed
  | snoc _ taken ih =>
    obtain ⟨indexed, window⟩ := ih
    refine ⟨indexed.step taken, ?_⟩
    rw [recentEventIds_of_step taken, window, foldl_pushRecent_lastEvents]
    simp

/-! ## Rejections -/

variable {state : CanonicalState} {event : CanonicalEvent}

/-- Every decision of a branch that fails has panicked. -/
theorem decideKind_ne_error (cause : CoreError) :
    decideKind platform state event ≠ .error (.error cause) := by
  intro failed
  unfold decideKind at failed
  split at failed
  case h_3 =>
    unfold decideMarketResolved at failed
    repeat' split at failed
    all_goals cases failed
  case h_9 =>
    unfold decideLastTradePrice at failed
    repeat' split at failed
    all_goals cases failed
  case h_10 =>
    unfold decideTickSizeChange at failed
    dsimp only at failed
    repeat' split at failed
    all_goals cases failed
  all_goals cases failed

theorem foldlM_applyTickUpdate_ne_error
    {updates : List TickUpdate} {markets : TreeMap String MarketRecord} (cause : CoreError) :
    updates.foldlM applyTickUpdate markets ≠ .error (.error cause) := by
  induction updates generalizing markets with
  | nil => intro failed; cases failed
  | cons update updates ih =>
    intro failed
    rw [foldlM_cons] at failed
    cases applied : applyTickUpdate markets update with
    | ok next =>
      rw [applied] at failed
      exact ih failed
    | error failure =>
      rw [applied] at failed
      unfold applyTickUpdate at applied
      repeat' split at applied
      all_goals cases applied
      all_goals cases failed

theorem reconcile_ne_error (cause : CoreError) :
    reconcileActiveMarketInstrumentTicks platform state ≠ .error (.error cause) := by
  intro failed
  unfold reconcileActiveMarketInstrumentTicks at failed
  split at failed
  · cases failed
  · split at failed
    · cases failed
    · rename_i updates _
      cases folded : (updates.filterMap id).foldlM applyTickUpdate state.markets with
      | ok markets =>
        rw [folded] at failed
        cases failed
      | error failure =>
        rw [folded] at failed
        obtain rfl := error.inj failed
        exact foldlM_applyTickUpdate_ne_error cause folded

/-- The evaluation of an event leaves the duplicate check to its caller. -/
theorem evaluateEvent_ne_duplicateEvent (eventId : String) :
    evaluateEvent platform validateRawPayload false enforce state event ≠
      .error (.error (.duplicateEvent eventId)) := by
  intro failed
  unfold evaluateEvent settle at failed
  cases valid : validate platform validateRawPayload false state event with
  | error failure =>
    rw [valid] at failed
    obtain rfl := error.inj failed
    unfold validate at valid
    repeat' split at valid
    all_goals simp_all
  | ok value =>
    rw [valid] at failed
    cases decided : decideEvent platform enforce (admittedState state event) event with
    | error failure =>
      simp only [decided] at failed
      obtain rfl := error.inj failed
      unfold decideEvent at decided
      repeat' split at decided
      · cases decided
      · cases decided
      · exact decideKind_ne_error _ decided
    | ok decision =>
      simp only [decided] at failed
      cases reconciled : reconcileActiveMarketInstrumentTicks platform
          (localizeRejection (attribution state event)
            (rewriteEvent enforce (admittedState state event) event)
            decision).state with
      | error failure =>
        simp only [bind, Except.bind, reconciled] at failed
        obtain rfl := error.inj failed
        exact reconcile_ne_error _ reconciled
      | ok result =>
        simp only [bind, Except.bind, reconciled] at failed
        cases failed

/-- The failures of the log are its own: none of them names a duplicate. -/
def DurableLog.ReportsStorage (durable : DurableLog L) : Prop :=
  ∀ (log : L) (record : PersistedEvent) (eventId : String),
    (durable.appendOutcome log record).1 ≠ .error (.duplicateEvent eventId)

/-- An application is refused as a duplicate exactly by the index. -/
theorem apply_duplicateEvent_iff
    (now : DateTime) (eventId : String) (storage : durable.ReportsStorage) :
    (writer.apply platform durable now event).1 = .error (.error (.duplicateEvent eventId)) ↔
      event.eventId = eventId ∧ event.eventId ∈ writer.recentEventIndex := by
  unfold SingleWriter.apply SingleWriter.applyInner
  by_cases known : event.eventId ∈ writer.recentEventIndex
  · simp [known]
  · rw [if_neg known]
    constructor
    · intro refused
      split at refused
      · rename_i failure evaluated
        obtain rfl := error.inj refused
        exact absurd evaluated (evaluateEvent_ne_duplicateEvent eventId)
      · rename_i state persisted evaluated
        split at refused
        · rename_i cause log appended
          obtain ⟨rfl⟩ := Failure.error.inj (error.inj refused)
          exact absurd (congrArg Prod.fst appended) (storage _ _ _)
        · cases refused
    · rintro ⟨_, present⟩
      exact absurd present known

/-- After any calls from a sound start, successful or not, the window holds
the last accepted identities without repetition, the index is its set, and an
application is refused as a duplicate exactly when its identity is among
them. -/
theorem duplicate_window_exact
    (storage : durable.ReportsStorage) (started : Started initialIds initial)
    (run : Run (SingleWriter.Step platform durable) initial calls writer) :
    writer.recentEventIndex = writer.current.recentEventIds.toFinset ∧
      writer.current.recentEventIds.Nodup ∧
      writer.current.recentEventIds.length ≤ recentEventLimit ∧
      writer.current.recentEventIds = lastEvents (initialIds ++ calls.flatMap acceptedIds) ∧
      ∀ now event,
        (∃ eventId, (writer.apply platform durable now event).1 =
            .error (.error (.duplicateEvent eventId))) ↔
          event.eventId ∈ lastEvents (initialIds ++ calls.flatMap acceptedIds) := by
  obtain ⟨indexed, window⟩ := window_of_run started run
  refine ⟨indexed.index, indexed.window.distinct, indexed.window.bounded, window, ?_⟩
  intro now event
  have answer : event.eventId ∈ writer.recentEventIndex ↔
      event.eventId ∈ lastEvents (initialIds ++ calls.flatMap acceptedIds) := by
    rw [indexed.index, window, mem_toFinset]
  constructor
  · rintro ⟨eventId, refused⟩
    exact answer.mp ((apply_duplicateEvent_iff now eventId storage).mp refused).2
  · intro recent
    exact ⟨event.eventId, (apply_duplicateEvent_iff now _ storage).mpr ⟨rfl, answer.mpr recent⟩⟩

theorem duplicate_window_exact_sample :
    ∃ eventId, (sampleBatch.2.apply samplePlatform sampleLog 2
        (sampleFrame.head (by decide))).1 = .error (.error (.duplicateEvent eventId)) := by
  have taken : Run (SingleWriter.Step samplePlatform sampleLog) sampleWriter
      [(.applyBatch 1 sampleFrame, sampleBatch.1)] sampleBatch.2 :=
    Run.single rfl
  have exactWindow := duplicate_window_exact (fun _ _ _ failed => by cases failed)
    (.new _ _ _) taken
  exact (exactWindow.2.2.2.2 2 (sampleFrame.head (by decide))).mpr (by decide +kernel)

end MarketCow.Core
