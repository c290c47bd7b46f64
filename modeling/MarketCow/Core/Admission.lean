import MarketCow.Core.Projection

/-!
# Admission of an event

What happens to an event before its branch is chosen: the checks that leave the
state alone, the attribution to a market, the tests for a frame that an
authoritative book overtook, and the rewriting of atomic deltas into the change
list that the log stores.
-/

namespace MarketCow.Core

open Library

/-! ## Checks -/

/-- Evidence a source may be held to. -/
def SourceEvidence.isValid (source : SourceEvidence) : Bool :=
  decide (source.requestedAt ≤ source.respondedAt) && Text.isDigest source.rawSha256

/-- The evidence checks of one event; the raw payload is hashed on request. -/
def evidenceIsValid
    (platform : Platform) (validateRawPayload : Bool) (event : CanonicalEvent) : Bool :=
  !event.normalizerVersion.isEmpty && !event.configRevision.isEmpty &&
    event.source.isValid &&
    (!validateRawPayload ||
      platform.contentSha256 event.rawPayload ==
        Text.asciiLowercase event.source.rawSha256)

/-- The checks of an event, in the order of the source. -/
def validate
    (platform : Platform) (validateRawPayload validateDuplicate : Bool) (state : CanonicalState)
    (event : CanonicalEvent) : Except Failure Unit :=
  if event.schemaVersion ≠ contractVersion then .error (.error .schemaMismatch)
  else if event.scopeId ≠ state.scopeId then .error (.error .scopeMismatch)
  else if !evidenceIsValid platform validateRawPayload event then
    .error (.error .invalidSourceEvidence)
  else if validateDuplicate && decide (event.eventId ∈ state.recentEventIds) then
    .error (.error (.duplicateEvent event.eventId))
  else if event.cursor ≠ state.cursor + 1 then
    .error (.error (.cursorGap (state.cursor + 1) event.cursor))
  else .ok ()

/-- An event passes exactly when no check fires. -/
theorem validate_ok_iff :
    validate platform validateRawPayload validateDuplicate state event = .ok () ↔
      event.schemaVersion = contractVersion ∧ event.scopeId = state.scopeId ∧
        evidenceIsValid platform validateRawPayload event = true ∧
        (validateDuplicate = true → event.eventId ∉ state.recentEventIds) ∧
        event.cursor = state.cursor + 1 := by
  unfold validate
  by_cases schema : event.schemaVersion = contractVersion
  · by_cases scope : event.scopeId = state.scopeId
    · by_cases evidence : evidenceIsValid platform validateRawPayload event = true
      · by_cases cursor : event.cursor = state.cursor + 1
        · by_cases duplicate : validateDuplicate = true
          · simp [schema, scope, evidence, cursor, duplicate]
          · simp [schema, scope, evidence, cursor, duplicate]
        · simp [schema, scope, evidence, cursor]
          split <;> simp
      · simp [schema, scope, evidence]
    · simp [schema, scope]
  · simp [schema]

/-! ## Start of a step -/

/-- A step counts one generation and takes the cursor of its event. -/
def CanonicalState.advance (state : CanonicalState) (event : CanonicalEvent) : CanonicalState :=
  { state with
    generation := state.generation + 1
    cursor := event.cursor }

namespace CanonicalState

/-- Change the health of a market, starting from a recovering record when the
market has none. -/
def upsertHealth (state : CanonicalState) (marketId : String) (catalogRevision : Option String)
    (change : MarketProjectionHealth → MarketProjectionHealth) : CanonicalState :=
  let health := (state.marketHealth[marketId]?).getD
    (MarketProjectionHealth.recovering marketId state.generation catalogRevision)
  { state with marketHealth := state.marketHealth.insert marketId (change health) }

/-- A market without a health record whose books are executable is taken as
ready. -/
def admitExecutableMarket (state : CanonicalState) (marketId : String) : CanonicalState :=
  if !state.marketHealth.contains marketId && marketBooksAreExecutable state marketId then
    { state with
      marketHealth := state.marketHealth.insert marketId
        { MarketProjectionHealth.recovering marketId state.generation
            state.catalogRevision with
          projectionStatus := .ready
          reasonCode := none
          retryable := false } }
  else state

end CanonicalState

/-- The market of an event, the sequence number the event takes there and the
status the market had before it. -/
structure Attribution where
  marketId : String
  marketSequence : Nat
  previousMarketStatus : Option MarketProjectionStatus
  deriving DecidableEq

def attributeTo (state : CanonicalState) (marketId : String) : Attribution where
  marketId := marketId
  marketSequence :=
    (state.marketHealth[marketId]?).elim 1 fun health => health.lastMarketSequence + 1
  previousMarketStatus :=
    (state.marketHealth[marketId]?).map MarketProjectionHealth.projectionStatus

/-! ## Frames overtaken by an authoritative book -/

variable (state : CanonicalState)

/-- A delayed atomic delta no newer than the book. -/
def delayedAtomicDeltaSupersededByBook (event : CanonicalEvent) : Bool :=
  event.source.delayed && event.normalizerVersion == normalizerV2 &&
    event.kind.isAtomicDelta &&
    (state.books[event.kind.tokenId]?).any fun book =>
      book.sourceObservedAt.any fun bookAt => event.sourceObservedAt ≤ bookAt

/-- An atomic delta that was queued while a refreshed book was in flight. -/
def queuedAtomicDeltaSupersededByRefresh (event : CanonicalEvent) : Bool :=
  event.normalizerVersion == normalizerV2 && event.kind.isAtomicDelta &&
    (state.books[event.kind.tokenId]?).any fun book =>
      book.authoritativeRefreshReceivedAt.any fun refreshAt =>
        decide (event.receivedAt < refreshAt) ||
          book.sourceObservedAt.any fun bookAt => event.sourceObservedAt < bookAt

/-- A quote that was queued before the refresh, or observed before the book. -/
def bestBidAskSupersededByBook (event : CanonicalEvent) : Bool :=
  event.normalizerVersion == normalizerV2 && event.kind.isBestBidAsk &&
    (state.books[event.kind.tokenId]?).any fun book =>
      (book.authoritativeRefreshReceivedAt.any fun refreshAt =>
        event.receivedAt < refreshAt) ||
        book.sourceObservedAt.any fun bookAt => event.sourceObservedAt < bookAt

def incrementalSupersededByBook (event : CanonicalEvent) : Bool :=
  delayedAtomicDeltaSupersededByBook state event ||
    queuedAtomicDeltaSupersededByRefresh state event ||
    bestBidAskSupersededByBook state event

variable (enforceSourceFreshness : Bool)

/-- The source itself says that the data is missing or, where freshness is
enforced, late. -/
def sourceRejected (state : CanonicalState) (event : CanonicalEvent) : Bool :=
  event.source.missing ||
    (enforceSourceFreshness && event.source.delayed &&
      !incrementalSupersededByBook state event)

/-! ## The event the log stores -/

/-- Replace the changes of an atomic delta. -/
def EventKind.withChanges (kind : EventKind) (changes : List SideLevels) : EventKind :=
  match kind with
  | .atomicDelta tokenId _ bestBid bestAsk => .atomicDelta tokenId changes bestBid bestAsk
  | other => other

/-- Complete the changes of a fresh atomic delta by the deletions that its
quote proves. -/
def completeAtomicChanges (state : CanonicalState) (event : CanonicalEvent) : EventKind :=
  match event.kind with
  | .atomicDelta tokenId changes bestBid bestAsk =>
    match state.books[tokenId]? with
    | some book =>
      if !event.source.missing &&
          (!event.source.delayed || !enforceSourceFreshness) &&
          !incrementalSupersededByBook state event &&
          event.normalizerVersion == normalizerV2 then
        .atomicDelta tokenId
          (book.replayCompleteAtomicChanges changes bestBid bestAsk) bestBid bestAsk
      else event.kind
    | none => event.kind
  | other => other

/-- The event as it is stored: completed while fresh, emptied once overtaken. -/
def rewriteEvent (state : CanonicalState) (event : CanonicalEvent) : CanonicalEvent :=
  let completed :=
    { event with kind := completeAtomicChanges enforceSourceFreshness state event }
  if sourceRejected enforceSourceFreshness state event then completed
  else if incrementalSupersededByBook state event then
    -- An overtaken frame keeps its cursor and its evidence, and changes nothing.
    { completed with kind := completed.kind.withChanges [] }
  else completed

end MarketCow.Core
