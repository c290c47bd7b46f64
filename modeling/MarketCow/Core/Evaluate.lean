import MarketCow.Core.Recovery
import MarketCow.Library.Fallible

/-!
# Evaluation of one event

The whole step of the writer: admission, decision, market recovery, readiness,
market metadata and the window of recent events. The step is a function of the
canonical state and the event; the writer stamps the publication time.
-/

namespace MarketCow.Core

open Library

/-! ## Readiness -/

variable (state : CanonicalState)

/-- Readiness of a state, given the verdict on its instrument ticks. -/
def CanonicalState.readiness (instrumentTicksConsistent : Bool) : Bool :=
  state.unresolvedGaps.card == 0 && state.usableProjection &&
    state.catalogBooksComplete && instrumentTicksConsistent &&
    state.activeMarketBooksTwoSided

/-- Why a state is not ready, in order of precedence. -/
def CanonicalState.closedReason
    (instrumentTicksConsistent : Bool) (rejected : Option String) : Option String :=
  rejected.or <|
    (if instrumentTicksConsistent then none else some "instrument_tick_inconsistent").or <|
      (if state.activeMarketBooksTwoSided then none else some "one_sided_active_book").or <|
        if state.readiness instrumentTicksConsistent then none
        else if state.unresolvedGaps.card == 0 then some "no_healthy_markets"
        else some "unresolved_gap"

def CanonicalState.assessReadiness
    (instrumentTicksConsistent : Bool) (rejected : Option String) : CanonicalState :=
  { state with
    ready := state.readiness instrumentTicksConsistent
    failClosedReason := state.closedReason instrumentTicksConsistent rejected }

/-! ## Market metadata -/

/-- Health of a market after an event attributed to it. -/
def MarketProjectionHealth.recordEvent (sequence : Nat) (event : CanonicalEvent)
    (health : MarketProjectionHealth) : MarketProjectionHealth :=
  { health with
    lastMarketSequence := sequence
    sourceObservedAt := some event.sourceObservedAt
    projectionGeneration := state.generation
    catalogRevision := state.catalogRevision
    lastEventRevision := some event.eventId }

def recordMarketEvent (attribution : Attribution) (event : CanonicalEvent)
    (state : CanonicalState) : CanonicalState :=
  state.upsertHealth attribution.marketId state.catalogRevision
    (MarketProjectionHealth.recordEvent state attribution.marketSequence event)

/-- The status of a market, recovering when it has no record. -/
def CanonicalState.marketStatus (marketId : String) : MarketProjectionStatus :=
  (state.marketHealth[marketId]?).elim .recovering MarketProjectionHealth.projectionStatus

def marketMetadata (attribution : Attribution) (event : CanonicalEvent) (assessment : Assessment)
    (state : CanonicalState) : MarketEventMetadata where
  marketId := attribution.marketId
  marketSequence := attribution.marketSequence
  projectionGeneration := state.generation
  catalogRevision := state.catalogRevision.getD ""
  eventRevision := event.eventId
  projectionStatus := state.marketStatus attribution.marketId
  reasonCode := assessment.reasonCode
  transition := assessment.transition

/-! ## The recent events -/

/-- Length of the duplicate window. -/
def recentEventLimit : Nat := 10000

/-- Append an event to the duplicate window, which drops its oldest entry. -/
def pushRecent (recentEventIds : List String) (eventId : String) : List String :=
  let extended := recentEventIds ++ [eventId]
  if recentEventLimit < extended.length then extended.tail else extended

def CanonicalState.remember (event : CanonicalEvent) : CanonicalState :=
  { state with
    persistedCursor := event.cursor
    recentEventIds := pushRecent state.recentEventIds event.eventId }

/-! ## The step -/

/-- The state in which an event is decided. -/
def admittedState (state : CanonicalState) (event : CanonicalEvent) : CanonicalState :=
  let started := state.advance event
  (eventMarketId started event.kind).elim started started.admitExecutableMarket

/-- The market an event is attributed to, as the admitted state has it. -/
def attribution (state : CanonicalState) (event : CanonicalEvent) : Option Attribution :=
  (eventMarketId (state.advance event) event.kind).map (attributeTo (admittedState state event))

/-- The end of a step, after the ticks have been reconciled. -/
def conclude (attribution : Option Attribution) (event : CanonicalEvent)
    (applied instrumentTicksConsistent : Bool)
    (assessment : Assessment) : CanonicalState × PersistedEvent :=
  let settled := settleMarket attribution event applied assessment
  let assessed :=
    settled.state.assessReadiness instrumentTicksConsistent settled.rejected
  let recorded :=
    attribution.elim assessed fun attribution => recordMarketEvent attribution event assessed
  (recorded.remember event,
    { event := event
      applied := applied
      failClosedReason := settled.rejected
      market := attribution.map fun attribution =>
        marketMetadata attribution event settled recorded })

/-- The decided part of a step. -/
def settle
    (platform : Platform) (attribution : Option Attribution) (event : CanonicalEvent)
    (decision : Decision) : Except Failure (CanonicalState × PersistedEvent) := do
  let localized := localizeRejection attribution event decision
  let (consistent, reconciled) ←
    reconcileActiveMarketInstrumentTicks platform localized.state
  .ok (conclude attribution event decision.applied consistent
    { localized with state := reconciled })

/-- Evaluate one event in a state. -/
def evaluateEvent
    (platform : Platform) (validateRawPayload validateDuplicate enforceSourceFreshness : Bool)
    (state : CanonicalState)
    (event : CanonicalEvent) : Except Failure (CanonicalState × PersistedEvent) := do
  validate platform validateRawPayload validateDuplicate state event
  let admitted := admittedState state event
  let stored := rewriteEvent enforceSourceFreshness admitted event
  let decision ← decideEvent platform enforceSourceFreshness admitted event
  settle platform (attribution state event) stored decision

variable {validateRawPayload validateDuplicate enforceSourceFreshness : Bool}

/-- A successful step in its phases. -/
theorem evaluateEvent_ok_iff {state : CanonicalState} :
    evaluateEvent platform validateRawPayload validateDuplicate enforceSourceFreshness
        state event = .ok result ↔
      validate platform validateRawPayload validateDuplicate state event = .ok () ∧
        ∃ decision consistent reconciled,
          decideEvent platform enforceSourceFreshness (admittedState state event) event =
              .ok decision ∧
            reconcileActiveMarketInstrumentTicks platform
                (localizeRejection (attribution state event)
                  (rewriteEvent enforceSourceFreshness (admittedState state event) event)
                  decision).state = .ok (consistent, reconciled) ∧
            result = conclude (attribution state event)
              (rewriteEvent enforceSourceFreshness (admittedState state event) event)
              decision.applied consistent
              { localizeRejection (attribution state event)
                  (rewriteEvent enforceSourceFreshness (admittedState state event) event)
                  decision with state := reconciled } := by
  unfold evaluateEvent settle
  constructor
  · intro evaluated
    obtain ⟨_, valid, decision, decided, evaluated⟩ := bind₂_ok.mp evaluated
    obtain ⟨⟨consistent, reconciled⟩, reconcile, concluded⟩ := bind_ok.mp evaluated
    exact ⟨valid, decision, consistent, reconciled, decided, reconcile, (ok.inj concluded).symm⟩
  · rintro ⟨valid, decision, consistent, reconciled, decided, reconcile, rfl⟩
    exact bind_ok.mpr ⟨(), valid, bind_ok.mpr
      ⟨decision, decided, bind_ok.mpr ⟨(consistent, reconciled), reconcile, rfl⟩⟩⟩

/-- The record of a step stores the rewritten event. -/
theorem persisted_event_of_evaluateEvent
    {state next : CanonicalState}
    (evaluated :
      evaluateEvent platform validateRawPayload validateDuplicate enforceSourceFreshness
        state event = .ok (next, persisted)) :
    persisted.event = rewriteEvent enforceSourceFreshness (admittedState state event) event := by
  obtain ⟨_, decision, consistent, reconciled, _, _, concluded⟩ := evaluateEvent_ok_iff.mp evaluated
  rw [(Prod.mk.inj concluded).2]

end MarketCow.Core
