import MarketCow.Core.Platform

/-!
# Normalized provider events

The provider-neutral event of the realtime plane with its identity: the hash
that names an event and the evidence every event has to carry before it may be
persisted.
-/

namespace MarketCow.Realtime

open Library MarketCow.Core

def realtimeContractVersion : String := "marketcow.realtime.provider-neutral.v1"

def hyperliquidNormalizerVersion : String := "marketcow.hyperliquid.normalizer.v1"

def longportNormalizerVersion : String := "marketcow.longport.normalizer.v1"

/-- A decimal that travels as a JSON string. -/
structure ExactDecimal where
  value : Decimal
  deriving DecidableEq

inductive AggressorSide
  | buyer
  | seller
  | noAggressor
  deriving DecidableEq

/-- The name serde gives the side. -/
def AggressorSide.text : AggressorSide → String
  | .buyer => "BUYER"
  | .seller => "SELLER"
  | .noAggressor => "NO_AGGRESSOR"

structure EventQuality where
  status : String
  delayed : Bool
  stale : Bool
  degraded : Bool
  deriving DecidableEq

namespace EventQuality

/-- Quality of an event received in time. -/
def live : EventQuality where
  status := "live"
  delayed := false
  stale := false
  degraded := false

/-- Quality of an event of a degraded source. -/
def degradedSource : EventQuality where
  status := "degraded"
  delayed := false
  stale := false
  degraded := true

end EventQuality

structure BookLevel where
  price : ExactDecimal
  size : ExactDecimal
  orderId : String
  orderCount : Option Nat
  deriving DecidableEq

inductive ProviderPayload
  | orderBookSnapshot
      (bookType : String)
      (depth : UInt8)
      (baselineSequence : Nat)
      (bids asks : List BookLevel)
      (tsEventSource : String)
      (providerSequence : Option Nat)
  | quote
      (bidPrice askPrice bidSize askSize : ExactDecimal)
      (tsEventSource : String)
  | trade
      (price size : ExactDecimal)
      (tradeId : String)
      (aggressorSide : AggressorSide)
      (session : String)
  | assetContext
      (markPrice oraclePrice externalOraclePrice midPrice : Option ExactDecimal)
      (fundingRate openInterest premium : Option ExactDecimal)
      (marketStatus oracleStatus : String)
  | marketState
      (tradeStatus session : String)
      (tradable : Bool)
      (providerSequence : Option Nat)
      (tsEventSource : String)
  | streamStatus
      (state reasonCode : String)
      (lastSequence : Option Nat)
      (resumeSupported : Bool)
  deriving DecidableEq

structure NormalizedProviderEvent where
  contractVersion : String
  normalizerVersion : String
  instrumentId : String
  source : String
  sourceObservedAt : DateTime
  receivedAt : DateTime
  rawSha256 : String
  normalizerOrdinal : Nat
  eventId : String
  quality : EventQuality
  payload : ProviderPayload
  deriving DecidableEq

/-! ## JSON of a payload

Objects of a JSON value are printed in the order of their field names. -/

variable (platform : Platform)

def ExactDecimal.toJson (decimal : ExactDecimal) : Json :=
  .string (platform.decimalText decimal.value)

/-- An absent value is `null`. -/
def optionToJson {α : Type} (toJson : α → Json) : Option α → Json
  | none => .null
  | some value => toJson value

/-- A field that is left out when it is absent. -/
def presentField {α : Type} (name : String) (toJson : α → Json) :
    Option α → List (String × Json)
  | none => []
  | some value => [(name, toJson value)]

def natToJson (value : Nat) : Json := .integer value

def BookLevel.toJson (level : BookLevel) : Json :=
  .object
    (presentField "order_count" natToJson level.orderCount ++
      [("order_id", .string level.orderId), ("price", level.price.toJson platform),
        ("size", level.size.toJson platform)])

/-- Name and content of a payload, as serde tags it. -/
def ProviderPayload.toJson : ProviderPayload → Json
  | .orderBookSnapshot bookType depth baselineSequence bids asks tsEventSource providerSequence =>
      tagged "order_book_snapshot"
        ([("asks", .array (asks.map (BookLevel.toJson platform))),
          ("baseline_sequence", natToJson baselineSequence),
          ("bids", .array (bids.map (BookLevel.toJson platform))),
          ("book_type", .string bookType),
          ("depth", natToJson depth.toNat)] ++
          presentField "provider_sequence" natToJson providerSequence ++
          [("ts_event_source", .string tsEventSource)])
  | .quote bidPrice askPrice bidSize askSize tsEventSource =>
    tagged "quote"
      [("ask_price", askPrice.toJson platform), ("ask_size", askSize.toJson platform),
        ("bid_price", bidPrice.toJson platform),
        ("bid_size", bidSize.toJson platform),
        ("ts_event_source", .string tsEventSource)]
  | .trade price size tradeId aggressorSide session =>
    tagged "trade"
      [("aggressor_side", .string aggressorSide.text), ("price", price.toJson platform),
        ("session", .string session),
        ("size", size.toJson platform),
        ("trade_id", .string tradeId)]
  | .assetContext markPrice oraclePrice externalOraclePrice midPrice fundingRate
      openInterest premium marketStatus oracleStatus =>
      tagged "asset_context"
        [("external_oracle_price", decimal externalOraclePrice),
          ("funding_rate", decimal fundingRate),
          ("mark_price", decimal markPrice),
          ("market_status", .string marketStatus),
          ("mid_price", decimal midPrice),
          ("open_interest", decimal openInterest),
          ("oracle_price", decimal oraclePrice),
          ("oracle_status", .string oracleStatus),
          ("premium", decimal premium)]
  | .marketState tradeStatus session tradable providerSequence tsEventSource =>
    tagged "market_state"
      (presentField "provider_sequence" natToJson providerSequence ++
        [("session", .string session), ("tradable", .bool tradable),
          ("trade_status", .string tradeStatus),
          ("ts_event_source", .string tsEventSource)])
  | .streamStatus state reasonCode lastSequence resumeSupported =>
    tagged "stream_status"
      [("last_sequence", optionToJson natToJson lastSequence), ("reason_code", .string reasonCode),
        ("resume_supported", .bool resumeSupported),
        ("state", .string state)]
where
  tagged (eventType : String) (fields : List (String × Json)) : Json :=
    .object [("event_type", .string eventType), ("payload", .object fields)]
  decimal : Option ExactDecimal → Json :=
    optionToJson (ExactDecimal.toJson platform)

/-! ## Evidence -/

namespace NormalizedProviderEvent

/-- The hash that names an event: everything but the receipt. -/
def identity (event : NormalizedProviderEvent) : String :=
  platform.contentSha256
    (.object
      [("instrument_id", .string event.instrumentId),
        ("normalizer", .string event.normalizerVersion),
        ("ordinal", natToJson event.normalizerOrdinal),
        ("payload", event.payload.toJson platform),
        ("raw_sha256", .string event.rawSha256),
        ("source_observed_at", .string (platform.dateTimeText event.sourceObservedAt))])

/-- The identity does not depend on the name the event already has. -/
theorem identity_named (event : NormalizedProviderEvent) (eventId : String) :
    identity platform { event with eventId } = identity platform event := rfl

def qualityIsValid (event : NormalizedProviderEvent) : Bool :=
  let live := event.quality == EventQuality.live
  let degraded := event.quality == EventQuality.degradedSource
  if event.source = "hyperliquid" then live
  else if event.source = "longport" then
    match event.payload with
    | .quote _ _ _ _ _ => degraded
    | .streamStatus state _ _ _ =>
      (state == "live" && live) || (state == "degraded" && degraded)
    | _ => live
  else false

def knownNormalizerSource (event : NormalizedProviderEvent) : Bool :=
  (event.normalizerVersion == hyperliquidNormalizerVersion && event.source == "hyperliquid") ||
    (event.normalizerVersion == longportNormalizerVersion && event.source == "longport")

/-- The text of a SHA-256 in lower case. -/
def validSha256Text (value : String) : Bool :=
  value.toList.length == 64 &&
    value.toList.all fun character =>
      character.isDigit || ('a' ≤ character && character ≤ 'f')

/-- What an event has to satisfy before it may be persisted. -/
def evidenceIsValid (event : NormalizedProviderEvent) : Bool :=
  event.contractVersion == realtimeContractVersion &&
    event.knownNormalizerSource &&
    !event.instrumentId.isEmpty &&
    validSha256Text event.rawSha256 &&
    decide (event.sourceObservedAt ≤ event.receivedAt) &&
    event.eventId == event.identity platform &&
    event.qualityIsValid

end NormalizedProviderEvent

end MarketCow.Realtime
