import MarketCow.Core.Event

/-!
# Projections

The canonical state of a scope and the observations the writer and its readers
make on it. The publication time is the only field of a projection outside the
canonical state: no evaluation reads it, and the projection hash leaves it out.
-/

namespace MarketCow.Core

open Library

structure MarketProjectionHealth where
  marketId : String
  projectionStatus : MarketProjectionStatus
  lastMarketSequence : Nat
  gapFrom : Option Nat
  gapTo : Option Nat
  reasonCode : Option String
  retryable : Bool
  retryAfter : Option DateTime
  sourceObservedAt : Option DateTime
  lastRecoveredAt : Option DateTime
  projectionGeneration : Nat
  catalogRevision : Option String
  lastEventRevision : Option String
  deriving DecidableEq

namespace MarketProjectionHealth

def recovering (marketId : String) (generation : Nat)
    (catalogRevision : Option String) : MarketProjectionHealth where
  marketId := marketId
  projectionStatus := .recovering
  lastMarketSequence := 0
  gapFrom := none
  gapTo := none
  reasonCode := some "initial_snapshot_required"
  retryable := true
  retryAfter := none
  sourceObservedAt := none
  lastRecoveredAt := none
  projectionGeneration := generation
  catalogRevision := catalogRevision
  lastEventRevision := none

end MarketProjectionHealth

structure TokenProjectionHealth where
  tokenId : String
  marketId : String
  reasonCode : String
  retryable : Bool
  retryAfter : Option DateTime
  unavailableSince : DateTime
  sourceObservedAt : DateTime
  projectionGeneration : Nat
  catalogRevision : Option String
  availabilityRevision : String
  deriving DecidableEq

/-- Every field of a projection but its publication time. -/
structure CanonicalState where
  generation : Nat
  cursor : Nat
  persistedCursor : Nat
  scopeId : String
  books : TreeMap String Book
  catalogRevision : Option String
  markets : TreeMap String MarketRecord
  conditionToMarket : TreeMap String String
  negativeRiskRelations : TreeMap String NegativeRiskRelation
  monitoringMarkets : TreeMap String MarketRecord
  monitoringBooks : TreeMap String Book
  marketHealth : TreeMap String MarketProjectionHealth
  quarantinedTokenIds : Finset String
  tokenHealth : TreeMap String TokenProjectionHealth
  marketRecoveryTokenIds : TreeMap String (Finset String)
  unresolvedGaps : Finset String
  recentEventIds : List String
  ready : Bool
  failClosedReason : Option String
  deriving DecidableEq

structure Projection extends CanonicalState where
  publishedAt : DateTime
  deriving DecidableEq

namespace CanonicalState

def bootstrap (scopeId : String) : CanonicalState where
  generation := 0
  cursor := 0
  persistedCursor := 0
  scopeId := scopeId
  books := ∅
  catalogRevision := none
  markets := ∅
  conditionToMarket := ∅
  negativeRiskRelations := ∅
  monitoringMarkets := ∅
  monitoringBooks := ∅
  marketHealth := ∅
  quarantinedTokenIds := ∅
  tokenHealth := ∅
  marketRecoveryTokenIds := ∅
  unresolvedGaps := ∅
  recentEventIds := []
  ready := false
  failClosedReason := some "bootstrap_required"

def marketIsPublic (state : CanonicalState) (marketId : String) : Bool :=
  (state.marketHealth[marketId]?).all fun health =>
    health.projectionStatus == .ready

/-- Active markets of the catalog, in key order. -/
def activeMarkets (state : CanonicalState) : List MarketRecord :=
  state.markets.valueList.filter MarketRecord.isActive

/-- Active markets that are open to new opportunities. -/
def publicMarkets (state : CanonicalState) : List MarketRecord :=
  state.activeMarkets.filter fun market => state.marketIsPublic market.marketId

def instrumentTicksConsistent (state : CanonicalState) : Bool :=
  state.catalogRevision.isNone ||
    state.publicMarkets.all fun market =>
      market.instrumentFacts.all fun facts =>
        market.tokenIds.all fun tokenId =>
          (state.books[tokenId]?).any fun book =>
            !book.tickVersion.isEmpty && book.tickSize == some facts.priceIncrement

def activeMarketBooksTwoSided (state : CanonicalState) : Bool :=
  state.catalogRevision.isNone ||
    state.publicMarkets.all fun market =>
      market.tokenIds.all fun tokenId =>
        (state.books[tokenId]?).any fun book =>
          !book.bids.isEmpty && !book.asks.isEmpty

/-- Every public market has both of its books. -/
def catalogBooksComplete (state : CanonicalState) : Bool :=
  state.catalogRevision.isNone ||
    state.publicMarkets.all fun market =>
      market.tokenIds.all fun tokenId => state.books.contains tokenId

/-- Some book without a catalog, some public market with one. -/
def usableProjection (state : CanonicalState) : Bool :=
  if state.catalogRevision.isNone then !state.books.isEmpty
  else !state.publicMarkets.isEmpty

def marketIdForToken (state : CanonicalState) (tokenId : String) : Option String :=
  (state.markets.valueList.find? fun market => market.hasToken tokenId).map
    MarketRecord.marketId

def configuredTokenIds (state : CanonicalState) : Finset String :=
  (state.activeMarkets.flatMap MarketRecord.tokenIds).toFinset

def tokenHasRecoveryGap (state : CanonicalState) (tokenId : String) : Bool :=
  tokenId ∈ state.unresolvedGaps || tokenId ∈ state.quarantinedTokenIds

/-- Tokens of the markets retained for settlement monitoring. -/
def monitoringTokenIds (state : CanonicalState) : Finset String :=
  (state.monitoringMarkets.valueList.flatMap MarketRecord.tokenIds).toFinset

/-- A gap of a token known only from a monitored market. -/
def isStaleScopeGap (state : CanonicalState) (gap : String) : Bool :=
  decide (gap ∈ state.configuredTokenIds ∪ state.monitoringTokenIds) &&
    decide (gap ∉ state.configuredTokenIds)

/-- Removes token-local gaps that belong only to markets retained for
settlement monitoring. -/
def pruneStaleScopeGaps (state : CanonicalState) : CanonicalState :=
  let pruned :=
    { state with
      unresolvedGaps := state.unresolvedGaps.filter fun gap => !state.isStaleScopeGap gap }
  if pruned.unresolvedGaps.card < state.unresolvedGaps.card then
    let ready :=
      pruned.unresolvedGaps.card == 0 &&
        pruned.usableProjection &&
        pruned.catalogBooksComplete &&
        pruned.instrumentTicksConsistent &&
        pruned.activeMarketBooksTwoSided
    { pruned with
      ready := ready
      failClosedReason := if ready then none else state.failClosedReason }
  else pruned

end CanonicalState

namespace Projection

def bootstrap (scopeId : String) (now : DateTime) : Projection where
  toCanonicalState := CanonicalState.bootstrap scopeId
  publishedAt := now

end Projection

/-- The market an event is attributed to. -/
def eventMarketId (state : CanonicalState) : EventKind → Option String
  | .catalogSnapshot .. => none
  | .newMarket _ => none
  | .marketResolved conditionId _ _ => state.conditionToMarket[conditionId]?
  | .sourceGap tokenId reason =>
    -- A connection boundary is announced once a token, but the missing
    -- interval is connection-wide: the token is no attribution.
    if reason = "upstream_connection_boundary" then none
    else state.marketIdForToken tokenId
  | .fullBook tokenId _ _ _ _ => state.marketIdForToken tokenId
  | .delta tokenId _ _ => state.marketIdForToken tokenId
  | .atomicDelta tokenId _ _ _ => state.marketIdForToken tokenId
  | .bestBidAsk tokenId _ _ => state.marketIdForToken tokenId
  | .lastTradePrice tokenId _ => state.marketIdForToken tokenId
  | .tickSizeChange tokenId _ _ _ => state.marketIdForToken tokenId

/-- A book from which the market can be quoted. -/
def Book.isExecutable (book : Book) : Bool :=
  !book.bids.isEmpty && !book.asks.isEmpty && book.tickSize.isSome &&
    !book.tickVersion.isEmpty && !book.crossedOrLocked

/-- Instrument facts allow execution at the tick of both books. -/
def factsExecutable
    (state : CanonicalState) (market : MarketRecord) (facts : MarketInstrumentFacts) : Bool :=
  facts.feeSchedule.all MarketFeeSchedule.isComplete &&
    market.tokenIds.all fun tokenId =>
      (state.books[tokenId]?).any fun book =>
        book.tickSize == some facts.priceIncrement

/-- The negative-risk relation of a group is complete and lists the market. -/
def relationExecutable (state : CanonicalState) (marketId groupId : String) : Bool :=
  (state.negativeRiskRelations[groupId]?).any fun relation =>
    relation.complete && !relation.revision.isEmpty &&
      decide (marketId ∈ relation.memberMarketIds)

def marketBooksAreExecutable (state : CanonicalState) (marketId : String) : Bool :=
  match state.markets[marketId]? with
  | none => false
  | some market =>
    market.isActive &&
      market.instrumentFacts.all (factsExecutable state market) &&
      market.negativeRiskGroup.all (relationExecutable state marketId) &&
      market.tokenIds.all fun tokenId =>
        !decide (tokenId ∈ state.quarantinedTokenIds) &&
          (state.books[tokenId]?).any Book.isExecutable

end MarketCow.Core
