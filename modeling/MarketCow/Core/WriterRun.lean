import MarketCow.Core.Writer

/-!
# Runs of the writer

Every projection that a run of the writer publishes ends a run of evaluations,
and a condition on the events of the commands, each in the state the events
before it lead to, is a condition on the steps of that run.
-/

namespace MarketCow.Core

open Library

/-- An evaluation determines the state after it. -/
theorem evaluates_deterministic (platform : Platform) (enforce : Bool) :
    Run.Deterministic (Evaluates platform enforce) := by
  rintro state label after other ⟨_, firstEvaluated⟩ ⟨_, secondEvaluated⟩
  obtain ⟨_, decision, consistent, reconciled, decided, reconcile, concluded⟩ :=
    evaluateEvent_ok_iff.mp firstEvaluated
  obtain ⟨_, otherDecision, _, _, otherDecided, otherReconcile, otherConcluded⟩ :=
    evaluateEvent_ok_iff.mp secondEvaluated
  obtain rfl := ok.inj (decided.symm.trans otherDecided)
  obtain ⟨rfl, rfl⟩ := Prod.mk.inj (ok.inj (reconcile.symm.trans otherReconcile))
  exact congrArg Prod.fst (concluded.trans otherConcluded.symm)

variable {platform : Platform} {enforce : Bool} {start finish : CanonicalState}

/-- The evaluations of a batch form a run. -/
theorem evaluateNext_run
    (evaluated : events.foldlM (SingleWriter.evaluateNext platform enforce)
      (start, before) = .ok (finish, after)) :
    ∃ labels : List EvaluatedEvent,
      EvaluationRun platform enforce start labels finish ∧
        labels.map EvaluatedEvent.event = events ∧
        after = before ++ labels.map EvaluatedEvent.persisted := by
  induction events generalizing start before with
  | nil =>
    obtain ⟨rfl, rfl⟩ := Prod.mk.inj (ok.inj evaluated)
    exact ⟨[], .nil, rfl, by simp⟩
  | cons event events ih =>
    obtain ⟨⟨middle, persisted⟩, taken, rest⟩ := foldlM_cons_ok.mp evaluated
    obtain ⟨⟨updated, outcome⟩, step, extended⟩ := bind_ok.mp taken
    obtain ⟨rfl, rfl⟩ := Prod.mk.inj (ok.inj extended)
    obtain ⟨labels, run, sameEvents, samePersisted⟩ := ih rest
    refine ⟨⟨event, outcome⟩ :: labels, .cons ⟨false, step⟩ run, ?_, ?_⟩
    · simp [sameEvents]
    · simp [samePersisted]

/-! ## Conditions on the events of a run -/

/-- A condition on an event in the state it is evaluated in. -/
abbrev EventCondition := CanonicalState → CanonicalEvent → Prop

/-- A run of evaluations that all meet a condition. -/
abbrev EvaluationRunWhere (allowed : EventCondition) (platform : Platform) (enforce : Bool) :=
  Run fun before (label : EvaluatedEvent) after =>
    Evaluates platform enforce before label after ∧ allowed before label.event

/-- Every event of a list meets a condition in the state that the events before
it lead to. -/
def MeetsEach
    (allowed : EventCondition) (platform : Platform) (enforce : Bool) (state : CanonicalState)
    (events : List CanonicalEvent) : Prop :=
  ∀ (earlier : List EvaluatedEvent) (event : CanonicalEvent) (later : List CanonicalEvent)
      (middle : CanonicalState),
    events = earlier.map EvaluatedEvent.event ++ event :: later →
      EvaluationRun platform enforce state earlier middle → allowed middle event

variable {state : CanonicalState}

theorem meetsEach_singleton_iff :
    MeetsEach allowed platform enforce state [event] ↔ allowed state event := by
  constructor
  · intro meets
    exact meets [] event [] state rfl .nil
  · intro meets earlier other later middle split run
    cases earlier with
    | nil =>
      obtain ⟨rfl, _⟩ := List.cons.inj split
      rw [Run.nil_iff.mp run]
      exact meets
    | cons label earlier => simp at split

/-- A run whose events meet a condition. -/
theorem EvaluationRun.restrict
    (run : EvaluationRun platform enforce start labels finish)
    (meets : MeetsEach allowed platform enforce start (labels.map EvaluatedEvent.event)) :
    EvaluationRunWhere allowed platform enforce start labels finish := by
  refine Run.restrict run ?_
  rintro front label back middle rfl reached
  exact meets front label.event (back.map EvaluatedEvent.event) middle (by simp) reached

/-! ## Writer runs -/

/-- The events of a command. -/
def Command.events : Command → List CanonicalEvent
  | .apply _ event => [event]
  | .applyBatch _ events => events

namespace SingleWriter

variable {L : Type}

/-- One command whose events meet a condition. -/
def StepWhere (allowed : EventCondition) (platform : Platform) (durable : DurableLog L)
    (writer : SingleWriter L) (label : Command × Except Failure (List ApplyOutcome))
    (next : SingleWriter L) : Prop :=
  Step platform durable writer label next ∧
    MeetsEach allowed platform writer.enforceSourceFreshness
      writer.current.toCanonicalState label.1.events

variable {platform : Platform} {durable : DurableLog L}

/-- A command evaluates its events, or publishes nothing. -/
theorem step_evaluates
    (step : Step platform durable writer label next) :
    next.enforceSourceFreshness = writer.enforceSourceFreshness ∧
      (next.current = writer.current ∨
        ∃ labels : List EvaluatedEvent,
          labels.map EvaluatedEvent.event = label.1.events ∧
            EvaluationRun platform writer.enforceSourceFreshness
              writer.current.toCanonicalState labels next.current.toCanonicalState) := by
  obtain ⟨command, result⟩ := label
  cases command with
  | apply now event =>
    simp only [Step, execute, Prod.mk.injEq] at step
    obtain ⟨_, rfl⟩ := step
    cases applied : apply platform durable writer now event with
    | mk result next =>
      cases result with
      | ok outcome =>
        obtain ⟨_, state, log, evaluated, _, published, rfl⟩ := apply_ok_iff.mp applied
        refine ⟨rfl, .inr ⟨[⟨event, outcome.persisted⟩], rfl, Run.single ⟨true, ?_⟩⟩⟩
        rw [evaluated]
        simp [published]
      | error failure =>
        unfold apply applyInner at applied
        split at applied
        · obtain rfl := (Prod.mk.inj applied).2
          exact ⟨rfl, .inl rfl⟩
        · split at applied
          · obtain rfl := (Prod.mk.inj applied).2
            exact ⟨rfl, .inl rfl⟩
          · split at applied
            · obtain rfl := (Prod.mk.inj applied).2
              exact ⟨rfl, .inl rfl⟩
            · simp at applied
  | applyBatch now events =>
    simp only [Step, execute] at step
    cases result with
    | ok outcomes =>
      rcases applyBatch_ok step with ⟨_, _, rfl⟩ |
        ⟨first, rest, state, persisted, log, _, _, evaluated, _, _, rfl⟩
      · exact ⟨rfl, .inl rfl⟩
      · obtain ⟨labels, run, sameEvents, _⟩ := evaluateNext_run evaluated
        exact ⟨rfl, .inr ⟨labels, sameEvents, run⟩⟩
    | error failure =>
      unfold applyBatch at step
      split at step
      · simp at step
      · split at step
        · obtain rfl := (Prod.mk.inj step).2
          exact ⟨rfl, .inl rfl⟩
        · split at step
          · obtain rfl := (Prod.mk.inj step).2
            exact ⟨rfl, .inl rfl⟩
          · simp at step

/-- Every projection that a run of the writer publishes ends a run of
evaluations, under the condition that its commands meet. -/
theorem run_evaluates (run : Run (StepWhere allowed platform durable) writer commands final) :
    final.enforceSourceFreshness = writer.enforceSourceFreshness ∧
      ∃ labels : List EvaluatedEvent,
        EvaluationRunWhere allowed platform writer.enforceSourceFreshness
          writer.current.toCanonicalState labels final.current.toCanonicalState := by
  induction run with
  | nil => exact ⟨rfl, [], .nil⟩
  | snoc before taken ih =>
    obtain ⟨sameMode, labels, reached⟩ := ih
    obtain ⟨step, meets⟩ := taken
    obtain ⟨keptMode, unchanged | ⟨more, sameEvents, continued⟩⟩ := step_evaluates step
    · refine ⟨keptMode.trans sameMode, labels, ?_⟩
      rw [unchanged]
      exact reached
    · rw [← sameEvents] at meets
      have restricted := EvaluationRun.restrict continued meets
      rw [sameMode] at keptMode restricted
      exact ⟨keptMode, labels ++ more, reached.append restricted⟩

/-! ## Executing commands -/

/-- Carry out commands one after another. -/
def executeAll
    (platform : Platform) (durable : DurableLog L) (writer : SingleWriter L) :
    List Command → List (Command × Except Failure (List ApplyOutcome)) × SingleWriter L
  | [] => ([], writer)
  | command :: commands =>
    let (result, next) := execute platform durable writer command
    let (labels, final) := executeAll platform durable next commands
    ((command, result) :: labels, final)

theorem executeAll_run (platform : Platform) (durable : DurableLog L) (writer : SingleWriter L)
    (commands : List Command) :
    Run (Step platform durable) writer (executeAll platform durable writer commands).1
      (executeAll platform durable writer commands).2 := by
  induction commands generalizing writer with
  | nil => exact .nil
  | cons command commands ih => exact .cons rfl (ih _)

/-- Every event that is applied on its own meets a condition. -/
def appliesMeet
    (allowed : EventCondition) [∀ state event, Decidable (allowed state event)]
    (platform : Platform) (durable : DurableLog L) (writer : SingleWriter L) : List Command → Bool
  | [] => true
  | command :: commands =>
    (match command with
      | .apply _ event => decide (allowed writer.current.toCanonicalState event)
      | .applyBatch _ _ => false) &&
    appliesMeet allowed platform durable (execute platform durable writer command).2
      commands

theorem executeAll_runWhere [∀ state event, Decidable (allowed state event)]
    (meet : appliesMeet allowed platform durable writer commands = true) :
    Run (StepWhere allowed platform durable) writer (executeAll platform durable writer commands).1
      (executeAll platform durable writer commands).2 := by
  induction commands generalizing writer with
  | nil => exact .nil
  | cons command commands ih =>
    unfold appliesMeet at meet
    obtain ⟨here, later⟩ := Bool.and_eq_true_iff.mp meet
    refine .cons ⟨rfl, ?_⟩ (ih later)
    cases command with
    | apply now event => exact meetsEach_singleton_iff.mpr (of_decide_eq_true here)
    | applyBatch now events => cases here

end SingleWriter

/-! ## Evaluating lists of events -/

/-- The step of an event that passes its checks. -/
def stepEvent
    (platform : Platform) (enforce : Bool) (state : CanonicalState)
    (event : CanonicalEvent) : Except Failure (CanonicalState × PersistedEvent) := do
  let decision ←
    decideEvent platform enforce (admittedState state event) event
  settle platform (attribution state event)
    (rewriteEvent enforce (admittedState state event) event) decision

/-- An event is the next one of a scope. -/
def isNext (state : CanonicalState) (event : CanonicalEvent) : Bool :=
  event.schemaVersion == contractVersion && event.scopeId == state.scopeId &&
    event.cursor == state.cursor + 1

variable {event : CanonicalEvent}

theorem evaluates_of_stepEvent
    (valid : evidenceIsValid platform true event = true) (follows : isNext state event = true)
    (stepped : stepEvent platform enforce state event = .ok (next, persisted)) :
    Evaluates platform enforce state { event := event, persisted := persisted } next := by
  simp only [isNext, and_eq_true, beq_iff_eq] at follows
  obtain ⟨⟨schemaVersion, scopeId⟩, cursor⟩ := follows
  have checked : validate platform true false state event = .ok () :=
    validate_ok_iff.mpr ⟨schemaVersion, scopeId, valid, by simp, cursor⟩
  refine ⟨true, ?_⟩
  unfold evaluateEvent
  rw [checked]
  exact stepped

/-- Evaluate events with valid evidence one after another. -/
def evaluateAll
    (platform : Platform) (enforce : Bool) (state : CanonicalState) :
    List CanonicalEvent → Option (List EvaluatedEvent × CanonicalState)
  | [] => some ([], state)
  | event :: events =>
    if isNext state event then
      match stepEvent platform enforce state event with
      | .error _ => none
      | .ok (next, persisted) =>
        (evaluateAll platform enforce next events).map fun rest =>
          ({ event := event, persisted := persisted } :: rest.1, rest.2)
    else none

theorem evaluateAll_run
    (valid : ∀ event ∈ events, evidenceIsValid platform true event = true)
    (evaluated : evaluateAll platform enforce state events = some result) :
    EvaluationRun platform enforce state result.1 result.2 := by
  induction events generalizing state result with
  | nil =>
    cases evaluated
    exact .nil
  | cons event events ih =>
    unfold evaluateAll at evaluated
    split at evaluated
    · rename_i follows
      split at evaluated
      · cases evaluated
      · rename_i next persisted stepped
        obtain ⟨rest, continued, rfl⟩ := map_eq_some_iff.mp evaluated
        exact .cons (evaluates_of_stepEvent (valid event (by simp)) follows stepped)
          (ih (fun other mem => valid other (by simp [mem])) continued)
    · cases evaluated

/-- The evidence of the sample events is valid. -/
theorem sampleEvent_valid (cursor : Nat) (eventId : String) (kind : EventKind) :
    evidenceIsValid samplePlatform true (sampleEvent cursor eventId kind) = true := by
  have evidence : (!normalizerV2.isEmpty && !"config".isEmpty && sampleEvidence.isValid &&
      (!true || samplePlatform.contentSha256 (.object []) ==
        Text.asciiLowercase sampleEvidence.rawSha256)) = true := by
    decide +kernel
  exact evidence

theorem sampleEvents_valid (mem : event ∈ sampleEventsFrom cursor kinds) :
    evidenceIsValid samplePlatform true event = true := by
  induction kinds generalizing cursor with
  | nil => cases mem
  | cons kind kinds ih =>
    rcases List.mem_cons.mp mem with rfl | later
    · exact sampleEvent_valid _ _ _
    · exact ih later

/-- The result of a sample step that succeeds. -/
def sampleStepped (state : CanonicalState) (event : CanonicalEvent)
    (succeeds : (stepEvent samplePlatform true state event).toOption.isSome = true) :
    CanonicalState × PersistedEvent :=
  (stepEvent samplePlatform true state event).toOption.get succeeds

theorem evaluates_sampleStepped
    (valid : evidenceIsValid samplePlatform true event = true) (follows : isNext state event = true)
    (succeeds : (stepEvent samplePlatform true state event).toOption.isSome = true) :
    Evaluates samplePlatform true state
      { event := event, persisted := (sampleStepped state event succeeds).2 }
      (sampleStepped state event succeeds).1 := by
  exact evaluates_of_stepEvent valid follows (Fallible.eq_ok_get succeeds)

end MarketCow.Core
