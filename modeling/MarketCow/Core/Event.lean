import MarketCow.Core.Catalog

/-!
# Canonical events

The events a writer evaluates, the evidence they carry, the records it
persists and the errors it reports.
-/

namespace MarketCow.Core

open Library

def contractVersion : String := "marketcow.polymarket.shadow.v1"

/-- The normalizer whose best-quote semantics the writer corrects for. -/
def normalizerV2 : String := "marketcow.polymarket.normalizer.v2"

inductive EventKind
  | catalogSnapshot
      (catalogRevision : String)
      (markets : List MarketRecord)
      (negativeRiskRelations : List NegativeRiskRelation)
  | newMarket (conditionId : String)
  | marketResolved
      (conditionId : String)
      (winningTokenId winningOutcome : Option String)
  | fullBook
      (tokenId : String)
      (bids asks : List Level)
      (tickSize : Price)
      (tickVersion : String)
  | delta (tokenId : String) (side : Side) (levels : List Level)
  | atomicDelta
      (tokenId : String)
      (changes : List SideLevels)
      (bestBid bestAsk : Option Price)
  | bestBidAsk (tokenId : String) (bestBid bestAsk : Option Price)
  | lastTradePrice (tokenId : String) (price : Price)
  | tickSizeChange
      (tokenId : String)
      (oldTickSize : Option Price)
      (newTickSize : Price)
      (tickVersion : String)
  | sourceGap (tokenId reason : String)
  deriving DecidableEq

namespace EventKind

/-- The name under which an event opens a gap: the token of a token event, the
condition or the catalog revision of the others. -/
def tokenId : EventKind → String
  | .catalogSnapshot catalogRevision _ _ => catalogRevision
  | .newMarket conditionId => conditionId
  | .marketResolved conditionId _ _ => conditionId
  | .fullBook tokenId _ _ _ _ => tokenId
  | .delta tokenId _ _ => tokenId
  | .atomicDelta tokenId _ _ _ => tokenId
  | .bestBidAsk tokenId _ _ => tokenId
  | .lastTradePrice tokenId _ => tokenId
  | .tickSizeChange tokenId _ _ _ => tokenId
  | .sourceGap tokenId _ => tokenId

def isAtomicDelta : EventKind → Bool
  | .atomicDelta .. => true
  | _ => false

def isBestBidAsk : EventKind → Bool
  | .bestBidAsk .. => true
  | _ => false

/-- The kinds of a fault that stays inside the market it is attributed to. -/
def isLocallyRecoverable : EventKind → Bool
  | .fullBook .. => true
  | .delta .. => true
  | .atomicDelta .. => true
  | .bestBidAsk .. => true
  | .lastTradePrice .. => true
  | .sourceGap .. => true
  | _ => false

end EventKind

structure SourceEvidence where
  source : String
  sourceUrl : Option String
  requestedAt : DateTime
  respondedAt : DateTime
  observedAt : DateTime
  rawSha256 : String
  updateFrequency : String
  revision : String
  missing : Bool
  delayed : Bool
  duplicate : Bool
  revised : Bool
  deriving DecidableEq

/-- One event. Cursors count events from zero; the model does not wrap them at
the width of the source's counter. -/
structure CanonicalEvent where
  schemaVersion : String
  cursor : Nat
  eventId : String
  scopeId : String
  receivedAt : DateTime
  sourceObservedAt : DateTime
  normalizerVersion : String
  configRevision : String
  source : SourceEvidence
  rawPayload : Json
  kind : EventKind
  deriving DecidableEq

inductive MarketProjectionStatus
  | recovering
  | ready
  | temporarilyUnavailable
  | quarantined
  deriving DecidableEq

inductive MarketTransitionKind
  | quarantined
  | recoveryStarted
  | recovered
  deriving DecidableEq

structure MarketEventMetadata where
  marketId : String
  marketSequence : Nat
  projectionGeneration : Nat
  catalogRevision : String
  eventRevision : String
  projectionStatus : MarketProjectionStatus
  reasonCode : Option String
  transition : Option MarketTransitionKind
  deriving DecidableEq

structure PersistedEvent where
  event : CanonicalEvent
  applied : Bool
  failClosedReason : Option String
  market : Option MarketEventMetadata
  deriving DecidableEq

inductive CoreError
  | invalidDecimal (value : String)
  | invalidPrice (value : String)
  | invalidQuantity
  | invalidTickSize
  | schemaMismatch
  | scopeMismatch
  | invalidSourceEvidence
  | duplicateEvent (eventId : String)
  | cursorGap (expected actual : Nat)
  | pathMustBeAbsolute
  | segmentTooSmall
  | corruptWal
  | walStreamMismatch
  | checkpointHash
  | persistedWatermarkMismatch
  | replayDivergence (cursor : Nat)
  | io (message : String)
  | json (message : String)
  deriving DecidableEq

/-- How a call ends without a value: a reported error, or a panic. -/
inductive Failure
  | error (cause : CoreError)
  | panic (message : String)
  deriving DecidableEq

end MarketCow.Core
