import MarketCow.Polymarket.Normalizer

/-!
# Snapshots of the venue's REST interface

The strict codec that turns one raw book into a full book event. It checks the
book before it writes anything, and keeps the texts of prices and sizes.
-/

namespace MarketCow.Polymarket

open Library MarketCow.Core

/-- A decimal with the text it is written as. -/
structure ScaledDecimal where
  value : Decimal
  text : String
  deriving DecidableEq

/-- Functions of external packages: hashes and printers, the lossy parsers of the
normalizer, the parser that keeps the scale of a decimal, and the text of a time,
in which UTC is written as `Z` or as an offset. -/
structure Externals where
  platform : Platform
  parsers : Parsers
  exactDecimal : String → Option ScaledDecimal
  timeText (value : DateTime) (useZ : Bool) : String

namespace Externals

/-- Hash of a value with sorted keys. -/
def canonicalHash (externals : Externals) (value : Json) : String :=
  externals.platform.contentSha256 value

/-- The text of a time on the wire, cut to microseconds. -/
def wireTime (externals : Externals) (value : DateTime) : String :=
  externals.timeText (value / 1000 * 1000) true

end Externals

/-- The field of a value, or null in its absence. -/
def field (value : Json) (name : String) : Json :=
  (value.get? name).getD .null

/-- A nonempty text. -/
def textField (value : Json) (key : String) : Except String String :=
  match (value.get? key).bind Json.asString? with
  | some text => if text.isEmpty then .error ("missing or non-string " ++ key) else .ok text
  | none => .error ("missing or non-string " ++ key)

/-- The names and the position of a REST recovery. -/
structure SnapshotBoundary where
  marketId : String
  conditionId : String
  tokenId : String
  recoveryId : String
  cursor : Nat
  receivedAt : DateTime

section Codec

variable (externals : Externals)

def exactDecimal (text : String) : Except String ScaledDecimal :=
  match externals.exactDecimal text with
  | some value => .ok value
  | none => .error "decimal is invalid or exceeds exact precision"

/-- Add one level of a raw book to a side. -/
def addSnapshotLevel
    (tick : Decimal) (side : TreeMap Decimal (ScaledDecimal × ScaledDecimal))
    (row : Json) : Except String (TreeMap Decimal (ScaledDecimal × ScaledDecimal)) := do
  let priceText ← textField row "price"
  let price ← exactDecimal externals priceText
  let sizeText ← textField row "size"
  let size ← exactDecimal externals sizeText
  if price.value < 0 ∨ 1 < price.value ∨ size.value < 0 ∨ Decimal.rem price.value tick ≠ 0 then
    .error "invalid price, size or off-tick level"
  else if side.contains price.value then .error "duplicate price level"
  else .ok (side.insert price.value (price, size))

def snapshotLevelJson (level : ScaledDecimal × ScaledDecimal) : Json :=
  .object [("price", .string level.1.text), ("size", .string level.2.text)]

/-- The levels of a side in increasing order. -/
def snapshotLevels (raw : Json) (side : String)
    (tick : Decimal) : Except String (List (ScaledDecimal × ScaledDecimal)) :=
  match (raw.get? side).bind Json.asArray? with
  | none => .error ("missing " ++ side)
  | some rows => do
    let levels ← rows.foldlM (addSnapshotLevel externals tick) ∅
    .ok levels.valueList

/-- Both sides have levels, and the best bid is not below the best ask. -/
def snapshotCrossed (bids asks : List (ScaledDecimal × ScaledDecimal)) : Bool :=
  match bids.getLast?, asks.head? with
  | some bid, some ask => ask.1.value ≤ bid.1.value
  | _, _ => false

/-- The last trade of a raw book. -/
def snapshotLastTrade (raw : Json) : Except String Json :=
  match raw.get? "last_trade_price" with
  | none => .ok .null
  | some .null => .ok .null
  | some (.string text) =>
    if text.isEmpty then .ok .null
    else do
      let value ← exactDecimal externals text
      if value.value < 0 ∨ 1 < value.value then .error "invalid last trade"
      else .ok (.string value.text)
  | some _ => .error "invalid last trade type"

/-- A raw book that the codec has checked. -/
structure CheckedBook where
  tick : ScaledDecimal
  bids : List (ScaledDecimal × ScaledDecimal)
  asks : List (ScaledDecimal × ScaledDecimal)
  exchangeAt : DateTime
  sourceHash : String
  lastTrade : Json

def checkBook (raw : Json) (boundary : SnapshotBoundary) : Except String CheckedBook := do
  if boundary.cursor = 0 ∨ boundary.recoveryId.isEmpty ∨ boundary.marketId.isEmpty ∨
      boundary.receivedAt % 1000 ≠ 0 then
    .error "invalid explicit boundary"
  else
    let tokenId ← textField raw "asset_id"
    let conditionId ← textField raw "market"
    if tokenId ≠ boundary.tokenId ∨ conditionId ≠ boundary.conditionId then
      .error "source token/condition differs from catalog"
    else
      let tickText ← textField raw "tick_size"
      let tick ← exactDecimal externals tickText
      if tick.value ≤ 0 ∨ 1 < tick.value then .error "invalid tick"
      else
        let bids ← snapshotLevels externals raw "bids" tick.value
        let asks ← snapshotLevels externals raw "asks" tick.value
        if snapshotCrossed bids asks then .error "crossed or locked book"
        else
          let timestamp ← textField raw "timestamp"
          match Text.parseI64 timestamp with
          | none => .error "invalid source timestamp"
          | some milliseconds =>
            match externals.parsers.timestampMillis milliseconds with
            | none => .error "timestamp out of range"
            | some exchangeAt => do
              let sourceHash ← textField raw "hash"
              let lastTrade ← snapshotLastTrade externals raw
              .ok { tick, bids, asks, exchangeAt, sourceHash, lastTrade }

def snapshotEpoch (boundary : SnapshotBoundary) (book : CheckedBook) : String :=
  externals.canonicalHash (.object
    [("token_id", .string boundary.tokenId), ("recovery_id", .string boundary.recoveryId),
     ("source_hash", .string book.sourceHash),
     ("exchange_at", .string (externals.timeText book.exchangeAt false))])

def snapshotBids (book : CheckedBook) : Json :=
  .array (book.bids.reverse.map snapshotLevelJson)

def snapshotAsks (book : CheckedBook) : Json :=
  .array (book.asks.map snapshotLevelJson)

def snapshotPayload (boundary : SnapshotBoundary) (book : CheckedBook) : Json :=
  .object
    [("token_id", .string boundary.tokenId), ("condition_id", .string boundary.conditionId),
     ("book_epoch", .string (snapshotEpoch externals boundary book)), ("sequence", .integer 1),
     ("sequence_semantics", .string "deterministic_normalized"),
     ("exchange_at", .string (externals.timeText book.exchangeAt true)),
     ("received_at", .string (externals.timeText boundary.receivedAt true)),
     ("tick_version", .string (externals.canonicalHash
        (.object [("tick_size", .string book.tick.text)]))),
     ("tick_size", .string book.tick.text), ("bids", snapshotBids book),
     ("asks", snapshotAsks book), ("last_trade_price", book.lastTrade),
     ("state_checksum", .string (externals.canonicalHash (.object
        [("token_id", .string boundary.tokenId), ("tick_size", .string book.tick.text),
         ("bids", snapshotBids book), ("asks", snapshotAsks book)]))),
     ("source_hash", .string book.sourceHash)]

/-- The fields of a full book event before its cursor and its identity. -/
def snapshotDraft (raw : Json) (boundary : SnapshotBoundary) (book : CheckedBook) :
    List (String × Json) :=
  let payload := snapshotPayload externals boundary book
  [("contract_version", .string "marketcow.prediction_market.v1"),
   ("schema_version", .string "marketcow.polymarket.live.v2"), ("event_type", .string "book"),
   ("market_id", .string boundary.marketId), ("condition_id", .string boundary.conditionId),
   ("token_id", .string boundary.tokenId),
   ("book_epoch", .string (snapshotEpoch externals boundary book)), ("sequence", .integer 1),
   ("exchange_at", .string (externals.timeText book.exchangeAt true)),
   ("received_at", .string (externals.timeText boundary.receivedAt true)),
   ("canonical_payload_sha256", .string (externals.canonicalHash payload)),
   ("canonical_payload", payload),
   ("raw_payload_sha256", .string (externals.canonicalHash raw)), ("raw_payload", raw),
   ("applied", .bool true), ("fail_closed_reason", .null), ("gaps", .array [])]

/-- Check one raw book and write its full book event. -/
def snapshotEvent (raw : Json) (boundary : SnapshotBoundary) : Except String Json := do
  let book ← checkBook externals raw boundary
  let draft := snapshotDraft externals raw boundary book ++ [("cursor", .integer boundary.cursor)]
  .ok (.object (draft ++ [("event_id", .string (externals.canonicalHash (.object draft)))]))

end Codec

end MarketCow.Polymarket
