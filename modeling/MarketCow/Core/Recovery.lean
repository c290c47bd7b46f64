import MarketCow.Core.Decision

/-!
# Market faults and recovery

What follows a decision: a rejected event of one market becomes a fault of that
market alone, the instrument facts of the catalog follow the ticks of the books,
full books of both outcomes bring a market back, and a market whose books no
longer allow execution is taken out.
-/

namespace MarketCow.Core

open Library

/-- The state of a step after its decision. -/
structure Assessment where
  state : CanonicalState
  rejected : Option String
  transition : Option MarketTransitionKind
  reasonCode : Option String

/-! ## Quarantine -/

variable (state : CanonicalState)

/-- The token record that a quarantine writes. -/
def quarantinedToken
    (marketId tokenId reason : String) (event : CanonicalEvent) : TokenProjectionHealth where
  tokenId := tokenId
  marketId := marketId
  reasonCode := reason
  retryable := true
  retryAfter := some (event.receivedAt + seconds 1)
  unavailableSince := event.receivedAt
  sourceObservedAt := event.sourceObservedAt
  projectionGeneration := state.generation
  catalogRevision := state.catalogRevision
  availabilityRevision := event.eventId

/-- Health of a market that has just been quarantined. -/
def MarketProjectionHealth.quarantine (sequence : Nat) (reason : String) (event : CanonicalEvent)
    (health : MarketProjectionHealth) : MarketProjectionHealth :=
  { health with
    projectionStatus := .quarantined
    gapFrom := health.gapFrom.or (some sequence)
    gapTo := some sequence
    reasonCode := some reason
    retryable := true
    retryAfter := some (event.receivedAt + seconds 1) }

/-- Take one token and its market out of the public projection. The gap of the
token gives way to its quarantine, and recovery starts from nothing. -/
def quarantineMarket (marketId affectedTokenId : String) (sequence : Nat) (reason : String)
    (event : CanonicalEvent) : CanonicalState :=
  let marked :=
    { state with
      unresolvedGaps := state.unresolvedGaps.erase affectedTokenId
      quarantinedTokenIds := insert affectedTokenId state.quarantinedTokenIds
      tokenHealth := state.tokenHealth.insert affectedTokenId
        (quarantinedToken state marketId affectedTokenId reason event)
      marketRecoveryTokenIds := state.marketRecoveryTokenIds.insert marketId ∅ }
  marked.upsertHealth marketId marked.catalogRevision
    (MarketProjectionHealth.quarantine sequence reason event)

namespace Assessment

def quarantine (assessment : Assessment) (attribution : Attribution) (event : CanonicalEvent)
    (reason : String) : Assessment :=
  { assessment with
    state := quarantineMarket assessment.state attribution.marketId event.kind.tokenId
      attribution.marketSequence reason event
    transition := some .quarantined
    reasonCode := some reason }

end Assessment

/-- A rejected event of one market is a fault of that market, recorded with it,
and no longer a fault of the whole projection. -/
def localizeRejection (attribution : Option Attribution) (event : CanonicalEvent)
    (decision : Decision) : Assessment :=
  let assessment : Assessment :=
    { state := decision.state
      rejected := decision.rejected
      transition := none
      reasonCode := none }
  match attribution, decision.rejected with
  | some attribution, some reason =>
    if event.kind.isLocallyRecoverable then
      { assessment.quarantine attribution event reason with rejected := none }
    else assessment
  | _, _ => assessment

/-! ## Instrument ticks -/

/-- The tick and the tick version of a book that has both. -/
def Book.tick? (book : Book) : Option (Price × String) :=
  book.tickSize.bind fun tick =>
    if book.tickVersion.isEmpty then none else some (tick, book.tickVersion)

/-- The common tick of the two books of a market, with both tick versions. -/
def commonTick
    (market : MarketRecord) : Option (Price × String × String) := do
  let first ← (state.books[market.outcomes.first.tokenId]?).bind Book.tick?
  let second ← (state.books[market.outcomes.second.tokenId]?).bind Book.tick?
  if first.1 = second.1 then some (first.1, first.2, second.2) else none

variable (platform : Platform)

/-- The ticks of the two tokens, in token order. -/
def tokenTicks
    (market : MarketRecord) (tick : Price) (firstVersion secondVersion : String) : Json :=
  let ticks : TreeMap String Json :=
    TreeMap.collect
      ([(market.outcomes.first.tokenId, firstVersion),
        (market.outcomes.second.tokenId, secondVersion)].map fun entry =>
          (entry.1, Json.object
            [("tick_size", .string (platform.decimalText tick)),
             ("tick_version", .string entry.2)]))
  .object ticks.toList

/-- Digest of the facts of a market together with the ticks of its tokens. -/
def instrumentRevision (market : MarketRecord) (facts : MarketInstrumentFacts) (tick : Price)
    (firstVersion secondVersion : String) : String :=
  platform.contentSha256 (.object
    [("condition_id", .string market.conditionId),
     ("end_at", .string (platform.dateTimeText facts.endAt)),
     ("market_id", .string market.marketId),
     ("minimum_order_size", .string (platform.decimalText facts.minimumOrderSize)),
     ("price_increment", .string (platform.decimalText tick)),
     ("schema_version", .string "marketcow.polymarket.instrument-facts-revision.v1"),
     ("settlement_currency", .string facts.settlementCurrency),
     ("size_increment", .string (platform.decimalText facts.sizeIncrement)),
     ("start_at", .string (platform.dateTimeText facts.startAt)),
     ("token_ticks", tokenTicks platform market tick firstVersion secondVersion)])

/-- A price increment that a market takes over from its books. -/
structure TickUpdate where
  marketId : String
  priceIncrement : Price
  revision : String

/-- The update of one active market; an error when a public market has facts
and its books share no tick. -/
def tickUpdate (state : CanonicalState) (market : MarketRecord) : Except Unit (Option TickUpdate) :=
  match market.instrumentFacts with
  | none => .ok none
  | some facts =>
    match commonTick state market with
    | none => if state.marketIsPublic market.marketId then .error () else .ok none
    | some (tick, firstVersion, secondVersion) =>
      .ok (some
        { marketId := market.marketId
          priceIncrement := tick
          revision :=
            instrumentRevision platform market facts tick firstVersion secondVersion })

/-- Write one update to the facts of its market. -/
def applyTickUpdate (markets : TreeMap String MarketRecord)
    (update : TickUpdate) : Except Failure (TreeMap String MarketRecord) :=
  match markets[update.marketId]? with
  | none => .error (.panic "active market facts were validated above")
  | some market =>
    match market.instrumentFacts with
    | none => .error (.panic "active market facts were validated above")
    | some facts =>
      .ok (markets.insert update.marketId
        { market with
          instrumentFacts := some
            { facts with
              priceIncrement := update.priceIncrement
              revision := update.revision } })

/-- Bring the facts of all active markets to the ticks of their books, or leave
every fact alone and say that the ticks are inconsistent. -/
def reconcileActiveMarketInstrumentTicks
    (state : CanonicalState) : Except Failure (Bool × CanonicalState) :=
  if state.catalogRevision.isNone then .ok (true, state)
  else
    match state.activeMarkets.mapM (tickUpdate platform state) with
    | .error () => .ok (false, state)
    | .ok updates => do
      let markets ← (updates.filterMap id).foldlM applyTickUpdate state.markets
      .ok (true, { state with markets := markets })

/-! ## Recovery by full books -/

/-- The tokens whose books a recovering market waits for. -/
def expectedTokens (state : CanonicalState) (marketId : String) : Finset String :=
  (state.markets[marketId]?).elim ∅ fun market => market.tokenIds.toFinset

/-- Note the full book of one token of a recovering market. -/
def observeToken (marketId tokenId : String) : CanonicalState :=
  { state with
    marketRecoveryTokenIds := state.marketRecoveryTokenIds.insert marketId
      (insert tokenId ((state.marketRecoveryTokenIds[marketId]?).getD ∅)) }

/-- All expected tokens have been observed. -/
def recoveryIsComplete (state : CanonicalState) (marketId : String) : Bool :=
  decide (expectedTokens state marketId ≠ ∅) &&
    decide (expectedTokens state marketId ⊆
      (state.marketRecoveryTokenIds[marketId]?).getD ∅)

/-- Lift the quarantine of both tokens of a market and forget its recovery. -/
def closeRecovery (state : CanonicalState) (marketId : String) : CanonicalState :=
  let tokens := ((state.markets[marketId]?).elim [] MarketRecord.tokenIds)
  { state with
    quarantinedTokenIds := state.quarantinedTokenIds \ tokens.toFinset
    tokenHealth := tokens.foldl (fun health tokenId => health.erase tokenId) state.tokenHealth
    marketRecoveryTokenIds := state.marketRecoveryTokenIds.erase marketId }

/-- Health of a market whose recovery is complete. -/
def MarketProjectionHealth.recover
    (event : CanonicalEvent) (health : MarketProjectionHealth) : MarketProjectionHealth :=
  { health with
    projectionStatus := .ready
    gapFrom := none
    gapTo := none
    reasonCode := none
    retryable := false
    retryAfter := none
    lastRecoveredAt := some event.receivedAt }

/-- Health of a market that still waits for a book. -/
def MarketProjectionHealth.awaitSnapshot
    (health : MarketProjectionHealth) : MarketProjectionHealth :=
  { health with
    projectionStatus := .recovering
    reasonCode := some "atomic_market_snapshot_incomplete" }

/-- An applied full book of a token, in the market it belongs to. A market that
was not ready becomes ready once both books were observed and allow execution. -/
def recoverFromFullBook (attribution : Attribution) (tokenId : String) (event : CanonicalEvent)
    (assessment : Assessment) : Assessment :=
  let marketId := attribution.marketId
  let recovering := attribution.previousMarketStatus != some .ready
  let observed :=
    if recovering then observeToken assessment.state marketId tokenId else assessment.state
  let boundary := !recovering || recoveryIsComplete observed marketId
  let closed := if boundary then closeRecovery observed marketId else observed
  if boundary && marketBooksAreExecutable closed marketId then
    { assessment with
      state := closed.upsertHealth marketId closed.catalogRevision
        (MarketProjectionHealth.recover event)
      transition := if recovering then some .recovered else assessment.transition }
  else if recovering then
    { assessment with
      state := closed.upsertHealth marketId closed.catalogRevision
        MarketProjectionHealth.awaitSnapshot
      transition := some .recoveryStarted
      reasonCode := some "atomic_market_snapshot_incomplete" }
  else { assessment with state := closed }

/-- The recovery step, taken for a full book that nothing rejected. -/
def recoverMarket (attribution : Attribution) (event : CanonicalEvent) (applied : Bool)
    (assessment : Assessment) : Assessment :=
  match event.kind with
  | .fullBook tokenId _ _ _ _ =>
    if applied && assessment.rejected.isNone && assessment.reasonCode.isNone then
      recoverFromFullBook attribution tokenId event assessment
    else assessment
  | _ => assessment

/-- A ready market whose books stopped admitting execution is quarantined. -/
def excludeUnexecutable
    (attribution : Attribution) (event : CanonicalEvent) (assessment : Assessment) : Assessment :=
  if assessment.reasonCode.isNone && assessment.rejected.isNone &&
      attribution.previousMarketStatus == some .ready &&
      event.kind.isLocallyRecoverable &&
      !marketBooksAreExecutable assessment.state attribution.marketId then
    assessment.quarantine attribution event "market_book_not_executable"
  else assessment

/-- Recovery and exclusion of the market an event is attributed to. -/
def settleMarket (attribution : Option Attribution) (event : CanonicalEvent) (applied : Bool)
    (assessment : Assessment) : Assessment :=
  match attribution with
  | none => assessment
  | some attribution =>
    excludeUnexecutable attribution event
      (recoverMarket attribution event applied assessment)

end MarketCow.Core
