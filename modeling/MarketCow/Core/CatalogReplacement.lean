import MarketCow.Core.Admission

/-!
# Replacing the catalog

A valid snapshot replaces the indexes of the scope. Active markets that leave
the catalog are retained for settlement monitoring together with their last
books; markets that come back drop their retained copy. The per-token maps keep
the tokens of active markets only.
-/

namespace MarketCow.Core

open Library

/-- What a branch decides: the next state, whether the event was applied, and
why it was rejected. -/
structure Decision where
  state : CanonicalState
  applied : Bool
  rejected : Option String

namespace Decision

/-- The event takes effect. -/
def accept (state : CanonicalState) : Decision where
  state := state
  applied := true
  rejected := none

/-- The event opens a gap and takes no effect. -/
def reject (state : CanonicalState) (gap reason : String) : Decision where
  state := { state with unresolvedGaps := insert gap state.unresolvedGaps }
  applied := false
  rejected := some reason

end Decision

/-- Resolved markets stay in the catalog until a snapshot lists them again. -/
def retainedResolvedMarkets
    (state : CanonicalState) (markets : List MarketRecord) : List MarketRecord :=
  state.markets.valueList.filter fun existing =>
    existing.lifecycleState == .resolved &&
      !markets.any fun market => market.marketId == existing.marketId

/-- Active markets that a new catalog no longer lists. -/
def removedActiveMarkets
    (state : CanonicalState) (catalog : TreeMap String MarketRecord) : List MarketRecord :=
  state.activeMarkets.filter fun market => !catalog.contains market.marketId

/-- Health of a market that left the catalog. -/
def MarketProjectionHealth.removedFromScan (generation : Nat) (catalogRevision : String)
    (health : MarketProjectionHealth) : MarketProjectionHealth :=
  { health with
    projectionStatus := .temporarilyUnavailable
    reasonCode := some "removed_from_scan_universe"
    retryable := false
    retryAfter := none
    projectionGeneration := generation
    catalogRevision := some catalogRevision }

namespace CanonicalState

/-- Copy the last book of an outcome to the monitored books. -/
def monitorBook (state : CanonicalState) (outcome : OutcomeToken) : CanonicalState :=
  match state.books[outcome.tokenId]? with
  | none => state
  | some book =>
    { state with
      monitoringBooks := state.monitoringBooks.insert outcome.tokenId book }

/-- Retain a market that left the catalog. -/
def monitorMarket
    (catalogRevision : String) (state : CanonicalState) (market : MarketRecord) : CanonicalState :=
  let copied := market.outcomes.toList.foldl monitorBook state
  let marked := copied.upsertHealth market.marketId (some catalogRevision)
    (MarketProjectionHealth.removedFromScan state.generation catalogRevision)
  { marked with
    monitoringMarkets := marked.monitoringMarkets.insert market.marketId market }

/-- Drop the retained copy of a market that is listed again. -/
def releaseMarket (state : CanonicalState) (market : MarketRecord) : CanonicalState :=
  match state.monitoringMarkets[market.marketId]? with
  | none => state
  | some retained =>
    { state with
      monitoringMarkets := state.monitoringMarkets.erase market.marketId
      monitoringBooks := retained.outcomes.toList.foldl
        (fun books outcome => books.erase outcome.tokenId) state.monitoringBooks }

/-- Give an active market without a health record a recovering one. -/
def ensureHealth (state : CanonicalState) (market : MarketRecord) : CanonicalState :=
  state.upsertHealth market.marketId state.catalogRevision id

/-- Replace the indexes and keep the per-token state of active tokens. -/
def replaceIndexes
    (state : CanonicalState) (catalogRevision : String) (catalog : CatalogState) : CanonicalState :=
  { state with
    catalogRevision := some catalogRevision
    markets := catalog.markets
    conditionToMarket := catalog.conditionToMarket
    negativeRiskRelations := catalog.negativeRiskRelations
    books := state.books.filter fun tokenId _ => decide (tokenId ∈ catalog.activeTokens)
    quarantinedTokenIds :=
      state.quarantinedTokenIds.filter fun tokenId => tokenId ∈ catalog.activeTokens
    tokenHealth :=
      state.tokenHealth.filter fun tokenId _ => decide (tokenId ∈ catalog.activeTokens)
    marketRecoveryTokenIds :=
      state.marketRecoveryTokenIds.filter fun marketId _ =>
        catalog.markets.contains marketId
    marketHealth :=
      state.marketHealth.filter fun marketId _ =>
        (catalog.markets[marketId]?).any MarketRecord.isActive ||
          state.monitoringMarkets.contains marketId }

/-- Names of gaps that a valid catalog closes. -/
def isCatalogGap (gap : String) : Bool :=
  Text.startsWith gap "catalog:" || Text.startsWith gap "negative_risk:"

def closeCatalogGaps (state : CanonicalState) : CanonicalState :=
  { state with
    unresolvedGaps := state.unresolvedGaps.filter fun gap => !isCatalogGap gap }

/-- Install a validated catalog. -/
def installCatalog
    (state : CanonicalState) (catalogRevision : String) (catalog : CatalogState) : CanonicalState :=
  let monitored :=
    (removedActiveMarkets state catalog.markets).foldl (monitorMarket catalogRevision) state
  let released := catalog.markets.valueList.foldl releaseMarket monitored
  let replaced := released.replaceIndexes catalogRevision catalog
  let healthy := replaced.activeMarkets.foldl ensureHealth replaced
  healthy.closeCatalogGaps.pruneStaleScopeGaps

end CanonicalState

/-- The branch of a catalog snapshot. -/
def decideCatalogSnapshot
    (state : CanonicalState) (catalogRevision : String) (markets : List MarketRecord)
    (negativeRiskRelations : List NegativeRiskRelation) : Decision :=
  if catalogRevision.isEmpty then
    Decision.reject state "catalog:invalid" "invalid_catalog_snapshot"
  else
    match validatedCatalog (markets ++ retainedResolvedMarkets state markets)
        negativeRiskRelations with
    | some catalog => Decision.accept (state.installCatalog catalogRevision catalog)
    | none => Decision.reject state "catalog:invalid" "invalid_catalog_snapshot"

end MarketCow.Core
