import MarketCow.Core.Rewriting
import MarketCow.Library.Transition

/-!
# The single writer

The writer evaluates events against its current projection, appends the
outcomes to a durable log and publishes the result only when the append
succeeds. A log is a state with two operations that may fail, and a failed
append may still have changed the log.
-/

namespace MarketCow.Core

open Library

structure DurableLog (L : Type) where
  appendOutcome : L → PersistedEvent → Except CoreError Unit × L
  appendOutcomes : L → List PersistedEvent → Except CoreError Unit × L

structure ApplyOutcome where
  projection : Projection
  persisted : PersistedEvent

structure SingleWriter (L : Type) where
  current : Projection
  recentEventIndex : Finset String
  log : L
  enforceSourceFreshness : Bool
  deriving DecidableEq

namespace SingleWriter

variable {L : Type}

/-- A writer on an empty scope. -/
def new (scopeId : String) (log : L) (now : DateTime) : SingleWriter L where
  current := Projection.bootstrap scopeId now
  recentEventIndex := ∅
  log := log
  enforceSourceFreshness := true

/-- A writer that leaves the significance of a delay to its readers. -/
def newDataDelivery (scopeId : String) (log : L) (now : DateTime) : SingleWriter L where
  current := Projection.bootstrap scopeId now
  recentEventIndex := ∅
  log := log
  enforceSourceFreshness := false

/-- Prune the gaps of tokens outside the scope; the publication time stays. -/
def prune (projection : Projection) : Projection :=
  { projection with
    toCanonicalState := projection.toCanonicalState.pruneStaleScopeGaps }

def resume (projection : Projection) (log : L) : Except CoreError (SingleWriter L) :=
  if projection.cursor ≠ projection.persistedCursor then
    .error .persistedWatermarkMismatch
  else
    .ok
      { current := prune projection
        recentEventIndex := (prune projection).recentEventIds.toFinset
        log := log
        enforceSourceFreshness := true }

/-- The entry that leaves a full duplicate window with the next event. -/
def evictedId (recentEventIds : List String) : Option String :=
  if recentEventIds.length = recentEventLimit then recentEventIds.head? else none

def indexAfter
    (index : Finset String) (recentEventIds : List String) (eventId : String) : Finset String :=
  insert eventId ((evictedId recentEventIds).elim index index.erase)

variable (platform : Platform)

def applyInner
    (durable : DurableLog L) (validateRawPayload : Bool) (writer : SingleWriter L) (now : DateTime)
    (event : CanonicalEvent) : Except Failure ApplyOutcome × SingleWriter L :=
  if event.eventId ∈ writer.recentEventIndex then
    (.error (.error (.duplicateEvent event.eventId)), writer)
  else
    match evaluateEvent platform validateRawPayload false writer.enforceSourceFreshness
        writer.current.toCanonicalState event with
    | .error failure => (.error failure, writer)
    | .ok (next, persisted) =>
      match durable.appendOutcome writer.log persisted with
      | (.error cause, log) => (.error (.error cause), { writer with log := log })
      | (.ok (), log) =>
        let published : Projection := { toCanonicalState := next, publishedAt := now }
        (.ok { projection := published, persisted := persisted },
          { writer with
            current := published
            recentEventIndex :=
              indexAfter writer.recentEventIndex writer.current.recentEventIds
                persisted.event.eventId
            log := log })

/-- Evaluate, append durably, then publish. -/
def apply (durable : DurableLog L) (writer : SingleWriter L) (now : DateTime)
    (event : CanonicalEvent) : Except Failure ApplyOutcome × SingleWriter L :=
  applyInner platform durable true writer now event

/-- Every event of one frame carries the frame's payload and its hash. -/
def frameIsUniform (frameRawPayload : Json) (events : List CanonicalEvent) : Bool :=
  events.all fun event =>
    event.rawPayload == frameRawPayload &&
      Text.equalsIgnoringCase event.source.rawSha256
        (platform.contentSha256 frameRawPayload)

/-- Insert the identity of an event that is not known yet. -/
def insertFresh
    (eventIds : Finset String) (event : CanonicalEvent) : Except Failure (Finset String) :=
  if event.eventId ∈ eventIds then .error (.error (.duplicateEvent event.eventId))
  else .ok (insert event.eventId eventIds)

/-- Evaluate one more event of a batch. -/
def evaluateNext
    (enforceSourceFreshness : Bool) (progress : CanonicalState × List PersistedEvent)
    (event : CanonicalEvent) :
    Except Failure (CanonicalState × List PersistedEvent) := do
  let (updated, outcome) ←
    evaluateEvent platform false false enforceSourceFreshness progress.1 event
  .ok (updated, progress.2 ++ [outcome])

/-- The checks and evaluations of a batch, before anything is stored. -/
def evaluateBatch
    (writer : SingleWriter L) (first : CanonicalEvent) (events : List CanonicalEvent) :
    Except Failure (CanonicalState × List PersistedEvent) := do
  if frameIsUniform platform first.rawPayload events then
    let _ ← events.foldlM insertFresh writer.recentEventIndex
    events.foldlM (evaluateNext platform writer.enforceSourceFreshness)
      (writer.current.toCanonicalState, [])
  else .error (.error .invalidSourceEvidence)

/-- Evaluate all events of one frame, append them together, then publish the
last state. -/
def applyBatch (durable : DurableLog L) (writer : SingleWriter L) (now : DateTime)
    (events : List CanonicalEvent) :
    Except Failure (List ApplyOutcome) × SingleWriter L :=
  match events with
  | [] => (.ok [], writer)
  | first :: _ =>
    match evaluateBatch platform writer first events with
    | .error failure => (.error failure, writer)
    | .ok (next, persisted) =>
      match durable.appendOutcomes writer.log persisted with
      | (.error cause, log) => (.error (.error cause), { writer with log := log })
      | (.ok (), log) =>
        let published : Projection := { toCanonicalState := next, publishedAt := now }
        (.ok (persisted.map fun outcome =>
            { projection := published, persisted := outcome }),
          { writer with
            current := published
            recentEventIndex := next.recentEventIds.toFinset
            log := log })

end SingleWriter

/-! ## Evaluation runs -/

/-- An event together with the record it leaves. -/
structure EvaluatedEvent where
  event : CanonicalEvent
  persisted : PersistedEvent
  deriving DecidableEq

/-- One accepted evaluation, by either entry of the writer. -/
def Evaluates (platform : Platform) (enforceSourceFreshness : Bool) (state : CanonicalState)
    (label : EvaluatedEvent) (next : CanonicalState) : Prop :=
  ∃ validateRawPayload,
    evaluateEvent platform validateRawPayload false enforceSourceFreshness state
      label.event = .ok (next, label.persisted)

/-- A run of accepted evaluations. -/
abbrev EvaluationRun (platform : Platform) (enforceSourceFreshness : Bool) :=
  Run (Evaluates platform enforceSourceFreshness)

/-! ## Writer runs -/

inductive Command
  | apply (now : DateTime) (event : CanonicalEvent)
  | applyBatch (now : DateTime) (events : List CanonicalEvent)

namespace SingleWriter

variable {L : Type}

/-- Carry out a command. -/
def execute
    (platform : Platform) (durable : DurableLog L) (writer : SingleWriter L) : Command →
      Except Failure (List ApplyOutcome) × SingleWriter L
  | .apply now event =>
    let (result, next) := apply platform durable writer now event
    (result.map fun outcome => [outcome], next)
  | .applyBatch now events => applyBatch platform durable writer now events

/-- One command, with the result its caller sees. -/
def Step (platform : Platform) (durable : DurableLog L) (writer : SingleWriter L)
    (label : Command × Except Failure (List ApplyOutcome)) (next : SingleWriter L) : Prop :=
  execute platform durable writer label.1 = (label.2, next)

variable {writer next : SingleWriter L}

/-- A successful single application. -/
theorem apply_ok_iff :
    apply platform durable writer now event = (.ok outcome, next) ↔
      event.eventId ∉ writer.recentEventIndex ∧
        ∃ state log,
          evaluateEvent platform true false writer.enforceSourceFreshness
              writer.current.toCanonicalState event = .ok (state, outcome.persisted) ∧
            durable.appendOutcome writer.log outcome.persisted = (.ok (), log) ∧
            outcome.projection = { toCanonicalState := state, publishedAt := now } ∧
            next = { writer with
              current := outcome.projection
              recentEventIndex :=
                indexAfter writer.recentEventIndex writer.current.recentEventIds
                  outcome.persisted.event.eventId
              log := log } := by
  unfold apply applyInner
  constructor
  · intro applied
    split at applied
    · simp at applied
    · rename_i fresh
      split at applied
      · simp at applied
      · rename_i state persisted evaluated
        split at applied
        · simp at applied
        · rename_i log appended
          simp only [Prod.mk.injEq, Except.ok.injEq] at applied
          obtain ⟨rfl, rfl⟩ := applied
          exact ⟨fresh, state, log, evaluated, appended, rfl, rfl⟩
  · rintro ⟨fresh, state, log, evaluated, appended, published, rfl⟩
    rw [if_neg fresh, evaluated]
    dsimp only
    rw [appended]
    obtain ⟨projection, persisted⟩ := outcome
    obtain rfl := published
    rfl

/-- A successful batch. -/
theorem applyBatch_ok
    (applied : applyBatch platform durable writer now events = (.ok outcomes, next)) :
    (events = [] ∧ outcomes = [] ∧ next = writer) ∨
      ∃ first rest state persisted log, events = first :: rest ∧
        frameIsUniform platform first.rawPayload events = true ∧
        events.foldlM (evaluateNext platform writer.enforceSourceFreshness)
          (writer.current.toCanonicalState, []) = .ok (state, persisted) ∧
        durable.appendOutcomes writer.log persisted = (.ok (), log) ∧
        outcomes.map ApplyOutcome.persisted = persisted ∧
        next = { writer with
          current := { toCanonicalState := state, publishedAt := now }
          recentEventIndex := state.recentEventIds.toFinset
          log := log } := by
  unfold applyBatch at applied
  split at applied
  · simp only [Prod.mk.injEq, Except.ok.injEq] at applied
    exact .inl ⟨rfl, applied.1.symm, applied.2.symm⟩
  · rename_i first rest
    split at applied
    · simp at applied
    · rename_i state persisted evaluated
      split at applied
      · simp at applied
      · rename_i log appended
        simp only [Prod.mk.injEq, Except.ok.injEq] at applied
        obtain ⟨rfl, rfl⟩ := applied
        unfold evaluateBatch at evaluated
        split at evaluated
        · rename_i uniform
          obtain ⟨_, _, evaluated⟩ := bind_ok.mp evaluated
          exact .inr ⟨first, rest, state, persisted, log, rfl, uniform, evaluated,
            appended, by simp [Function.comp_def], rfl⟩
        · cases evaluated

end SingleWriter

/-! ## A concrete scope -/

/-- The digest of the empty JSON object, the payload of the sample events. -/
def sampleDigest : Vector UInt8 32 :=
  #v[0x44, 0x13, 0x6f, 0xa3, 0x55, 0xb3, 0x67, 0x8a, 0x11, 0x46, 0xad, 0x16, 0xf7, 0xe8,
    0x64, 0x9e, 0x94, 0xfb, 0x4f, 0xc2, 0x1f, 0xe7, 0x7e, 0x83, 0x10, 0xc0, 0x60, 0xf6,
    0x1c, 0xaa, 0xff, 0x8a]

/-- External functions that are exact on the sample payload. -/
def samplePlatform : Platform where
  sha256 := fun _ => sampleDigest
  toVec := fun _ => "\x7b\x7d".toUTF8.toList
  decimalText := fun _ => ""
  dateTimeText := fun _ => ""

def sampleEvidence : SourceEvidence where
  source := "polymarket_clob_ws"
  sourceUrl := none
  requestedAt := 0
  respondedAt := 0
  observedAt := 0
  rawSha256 := "44136fa355b3678a1146ad16f7e8649e94fb4fc21fe77e8310c060f61caaff8a"
  updateFrequency := "event"
  revision := "r1"
  missing := false
  delayed := false
  duplicate := false
  revised := false

/-- An event of the sample scope. -/
def sampleEvent (cursor : Nat) (eventId : String) (kind : EventKind) : CanonicalEvent where
  schemaVersion := contractVersion
  cursor := cursor
  eventId := eventId
  scopeId := "scope"
  receivedAt := cursor
  sourceObservedAt := cursor
  normalizerVersion := normalizerV2
  configRevision := "config"
  source := sampleEvidence
  rawPayload := .object []
  kind := kind

/-- A two-sided book of the sample scope. -/
def sampleFullBook (tokenId : String) : EventKind :=
  .fullBook tokenId [⟨1 / 4, 1⟩] [⟨3 / 4, 1⟩] (1 / 4) "tick-v1"

/-- An active binary market on two given tokens. -/
def sampleMarket (marketId first second : String) : MarketRecord where
  marketId := marketId
  conditionId := marketId ++ "-condition"
  outcomes :=
    { first := { tokenId := first, outcome := "Yes", instrumentId := first }
      second := { tokenId := second, outcome := "No", instrumentId := second } }
  negativeRiskGroup := none
  lifecycleState := .active
  resolution := none
  metadataRevision := "metadata"
  observedAt := 0
  terminalAt := none
  instrumentFacts := none

/-- Events of the sample scope, from a cursor on. -/
def sampleEventsFrom (cursor : Nat) : List EventKind → List CanonicalEvent
  | [] => []
  | kind :: kinds =>
    sampleEvent cursor (toString cursor) kind :: sampleEventsFrom (cursor + 1) kinds

/-- The first events of the sample scope. -/
def sampleEvents : List EventKind → List CanonicalEvent := sampleEventsFrom 1

/-- Apply the first events of the sample scope one by one. -/
def sampleCommands (kinds : List EventKind) : List Command :=
  (sampleEvents kinds).map fun event => .apply event.cursor event

/-- A log that stores nothing. -/
def sampleLog : DurableLog Unit where
  appendOutcome := fun log _ => (.ok (), log)
  appendOutcomes := fun log _ => (.ok (), log)

/-- The writer of the sample scope. -/
def sampleWriter : SingleWriter Unit := SingleWriter.new "scope" () 0

end MarketCow.Core
