import MarketCow.Core.BookDecision

/-!
# The decision of an event

The branches of the events that name a market, and the choice of a branch: the
source rejects its own data, an authoritative book has overtaken the frame, or
the kind of the event decides.
-/

namespace MarketCow.Core

open Library

/-! ## Market events -/

/-- A new market asks for a catalog refresh. The event itself is applied. -/
def decideNewMarket (state : CanonicalState) (conditionId : String) : Decision where
  state :=
    { state with
      unresolvedGaps := insert ("catalog:" ++ conditionId) state.unresolvedGaps }
  applied := true
  rejected := some "catalog_refresh_required"

variable (platform : Platform)

/-- Digest of a revision together with the evidence that closes it. -/
def closedRevision (revision : String) (event : CanonicalEvent) : String :=
  platform.textDigest (revision ++ "\x00" ++ event.source.rawSha256)

/-- A market record at its resolution. -/
def resolvedMarket (event : CanonicalEvent) (winningTokenId winningOutcome : Option String)
    (market : MarketRecord) : MarketRecord :=
  { market with
    lifecycleState := .resolved
    resolution := winningOutcome.or (winningTokenId.or (some "resolved"))
    terminalAt := some event.sourceObservedAt
    metadataRevision := closedRevision platform market.metadataRevision event }

/-- A negative-risk relation one of whose members resolved. -/
def closedRelation
    (event : CanonicalEvent) (relation : NegativeRiskRelation) : NegativeRiskRelation :=
  { relation with
    complete := false
    validTo := some event.sourceObservedAt
    revision := closedRevision platform relation.revision event }

namespace CanonicalState

/-- Drop the book and the gap of an outcome. -/
def dropOutcome (state : CanonicalState) (outcome : OutcomeToken) : CanonicalState :=
  { state with
    books := state.books.erase outcome.tokenId
    unresolvedGaps := state.unresolvedGaps.erase outcome.tokenId }

/-- The gap and the relation of a resolved market's group. -/
def closeGroup (platform : Platform) (event : CanonicalEvent) (state : CanonicalState)
    (groupId : String) : CanonicalState :=
  { state with
    negativeRiskRelations :=
      state.negativeRiskRelations.adjust groupId (closedRelation platform event)
    unresolvedGaps := insert ("negative_risk:" ++ groupId) state.unresolvedGaps }

/-- Resolve a market of the catalog. -/
def resolveMarket (platform : Platform) (event : CanonicalEvent) (conditionId : String)
    (winningTokenId winningOutcome : Option String) (state : CanonicalState) (marketId : String)
    (market : MarketRecord) : CanonicalState :=
  let resolved :=
    { state with
      markets := state.markets.insert marketId
        (resolvedMarket platform event winningTokenId winningOutcome market) }
  let dropped := market.outcomes.toList.foldl dropOutcome resolved
  let closed := market.negativeRiskGroup.elim dropped (dropped.closeGroup platform event)
  { closed with
    unresolvedGaps := insert ("catalog:" ++ conditionId) closed.unresolvedGaps }

end CanonicalState

def decideMarketResolved (state : CanonicalState) (event : CanonicalEvent) (conditionId : String)
    (winningTokenId winningOutcome : Option String) : Except Failure Decision :=
  match state.conditionToMarket[conditionId]? with
  | none =>
    .ok (Decision.reject state ("catalog:" ++ conditionId) "catalog_refresh_required")
  | some marketId =>
    match state.markets[marketId]? with
    | none => .error (.panic "condition index is valid")
    | some market =>
      if winningTokenId.all market.hasToken &&
          winningOutcome.all fun winner =>
            market.outcomes.toList.any fun outcome => outcome.outcome == winner then
        .ok (Decision.accept
          (state.resolveMarket platform event conditionId winningTokenId
            winningOutcome marketId market))
      else
        .ok (Decision.reject state ("catalog:" ++ conditionId)
          "market_resolution_source_mismatch")

/-! ## Choosing the branch -/

/-- The branch of the event's kind. -/
def decideKind (state : CanonicalState) (event : CanonicalEvent) : Except Failure Decision :=
  match event.kind with
  | .catalogSnapshot catalogRevision markets negativeRiskRelations =>
    .ok (decideCatalogSnapshot state catalogRevision markets negativeRiskRelations)
  | .newMarket conditionId => .ok (decideNewMarket state conditionId)
  | .marketResolved conditionId winningTokenId winningOutcome =>
    decideMarketResolved platform state event conditionId winningTokenId winningOutcome
  | .sourceGap tokenId reason => .ok (decideSourceGap state tokenId reason)
  | .fullBook tokenId bids asks tickSize tickVersion =>
    .ok (decideFullBook state event tokenId bids asks tickSize tickVersion)
  | .delta tokenId side levels => .ok (decideDelta state event tokenId side levels)
  | .atomicDelta tokenId changes bestBid bestAsk =>
    .ok (decideAtomicDelta state event tokenId changes bestBid bestAsk)
  | .bestBidAsk tokenId bestBid bestAsk =>
    .ok (decideBestBidAsk state event tokenId bestBid bestAsk)
  | .lastTradePrice tokenId price => decideLastTradePrice state event tokenId price
  | .tickSizeChange tokenId oldTickSize newTickSize tickVersion =>
    decideTickSizeChange state tokenId oldTickSize newTickSize tickVersion

/-- Reject an event on the word of its source. -/
def rejectSource (state : CanonicalState) (event : CanonicalEvent) : Decision :=
  Decision.reject state event.kind.tokenId
    (if event.source.missing then "source_data_missing" else "source_data_delayed")

/-- The decision of an event, whose kind branches see it as it is stored. -/
def decideEvent (enforceSourceFreshness : Bool) (state : CanonicalState)
    (event : CanonicalEvent) : Except Failure Decision :=
  if sourceRejected enforceSourceFreshness state event then
    .ok (rejectSource state event)
  else if incrementalSupersededByBook state event then .ok (Decision.accept state)
  else decideKind platform state (rewriteEvent enforceSourceFreshness state event)

end MarketCow.Core
