import MarketCow.Core.Event

/-!
# Normalizing raw frames

The translation of one raw frame of the venue into canonical events. A frame is
refused as a whole on its first fault; price changes of one frame become one
atomic delta a token, in which the last assignment of a price stands.
-/

namespace MarketCow
namespace Core

open Library

/-! ## Decimals from text -/

variable (decimal : String → Option Decimal)

/-- Prices lie between zero and one. -/
def Price.parse (value : String) : Except CoreError Price :=
  match decimal value with
  | none => .error (.invalidDecimal value)
  | some parsed =>
    if parsed < 0 || 1 < parsed then .error (.invalidPrice value) else .ok parsed

def Price.parseTick
    (value : String) : Except CoreError Price := do
  let tick ← Price.parse decimal value
  if tick.isZero then .error .invalidTickSize else .ok tick

def Level.new (price quantity : String) : Except CoreError Level :=
  match decimal quantity with
  | none => .error (.invalidDecimal quantity)
  | some quantity =>
    if quantity < 0 then .error .invalidQuantity
    else do
      let price ← Price.parse decimal price
      .ok { price := price, quantity := quantity }

end Core

namespace Polymarket

open Library MarketCow.Core

def normalizerVersion : String := "marketcow.polymarket.normalizer.v2"

def clobMarketStreamSourceUrl : String :=
  "https://ws-subscriptions-clob.polymarket.com/ws/market"

/-- Parsers of external packages: decimals, timestamps and the typed records of
a catalog. -/
structure Parsers where
  decimal : String → Option Decimal
  timestampMillis : Int → Option DateTime
  rfc3339 : String → Option DateTime
  marketRecords : Json → Option (List MarketRecord)
  negativeRiskRelations : Json → Option (List NegativeRiskRelation)

structure NormalizerConfig where
  scopeId : String
  configRevision : String
  maximumSourceDelayMs : Int

inductive NormalizeError
  | invalidConfig
  | frameNotObject
  | unsupportedEventType (eventType : String)
  | missingField (field : String)
  | invalidTimestamp
  | invalidSide
  | invalidLevels
  | invalidDecimal
  | invalidCatalog
  deriving DecidableEq

def NormalizerConfig.new (scopeId configRevision : String) : NormalizerConfig where
  scopeId := scopeId
  configRevision := configRevision
  maximumSourceDelayMs := 5000

def NormalizerConfig.validate (config : NormalizerConfig) : Except NormalizeError Unit :=
  if config.scopeId.isEmpty || config.configRevision.isEmpty ||
      config.maximumSourceDelayMs < 0 then
    .error .invalidConfig
  else .ok ()

/-- What the events of one frame share. -/
structure FrameContext where
  rawPayload : Json
  rawSha256 : String
  receivedAt : DateTime
  observedAt : DateTime

/-! ## Reading fields -/

/-- The fields of a raw object. -/
abbrev RawFields := List (String × Json)

/-- A value, or the error that reports its absence. -/
def okOr {α : Type} (value : Option α) (cause : NormalizeError) : Except NormalizeError α :=
  match value with
  | none => .error cause
  | some value => .ok value

/-- A decimal, whatever was wrong with it. -/
def orInvalidDecimal {α : Type} (parsed : Except CoreError α) : Except NormalizeError α :=
  match parsed with
  | .error _ => .error .invalidDecimal
  | .ok value => .ok value

def valueText : Option Json → Option String
  | some (.string value) => some value
  | some (.integer value) => some (toString value)
  | some (.float text) => some text
  | _ => none

/-- The text of the first of some fields that has one. -/
def stringAlias (raw : RawFields) (names : List String) : Option String :=
  names.findSome? fun name => valueText (raw.lookup name)

/-- The same, unless the text is empty. -/
def nonemptyAlias (raw : RawFields) (names : List String) : Option String :=
  (stringAlias raw names).filter fun value => !value.isEmpty

def readTokenId (raw : RawFields) : Except NormalizeError String :=
  okOr (nonemptyAlias raw ["asset_id", "token_id"]) (.missingField "asset_id")

section Parsing

variable (parsers : Parsers)

def requiredPrice (value : Option Json) (field : String) : Except NormalizeError Price := do
  let text ← okOr (valueText value) (.missingField field)
  orInvalidDecimal (Price.parse parsers.decimal text)

def requiredTick (value : Option Json) (field : String) : Except NormalizeError Price := do
  let text ← okOr (valueText value) (.missingField field)
  orInvalidDecimal (Price.parseTick parsers.decimal text)

def optionalPrice (value : Option Json) : Except NormalizeError (Option Price) :=
  match value with
  | none => .ok none
  | some .null => .ok none
  | value => (requiredPrice parsers value "best_bid/best_ask").map some

/-- The tick a change starts from, when the venue names it. -/
def optionalTick (value : Option Json) : Except NormalizeError (Option Price) :=
  match value with
  | none => .ok none
  | some .null => .ok none
  | value => (requiredTick parsers value "old_tick_size").map some

/-- One level of a full book. -/
def parseLevel (value : Json) : Except NormalizeError Level := do
  let item ← okOr value.asObject? .invalidLevels
  let price ← okOr (valueText (item.lookup "price")) .invalidLevels
  let size ← okOr (valueText (item.lookup "size")) .invalidLevels
  orInvalidDecimal (Level.new parsers.decimal price size)

def parseLevels (value : Option Json) : Except NormalizeError (List Level) := do
  let items ← okOr (value.bind Json.asArray?) .invalidLevels
  items.mapM (parseLevel parsers)

def parseObservedAt (value : Option Json) (fallback : DateTime) : Except NormalizeError DateTime :=
  match value with
  | none => .ok fallback
  | some value =>
    match value.asI64?.or (value.asString?.bind Text.parseI64) with
    | some milliseconds => okOr (parsers.timestampMillis milliseconds) .invalidTimestamp
    | none => okOr (value.asString?.bind parsers.rfc3339) .invalidTimestamp

end Parsing

/-- Both sides quoted with the bid at or above the ask. -/
def quoteIsCrossed (bestBid bestAsk : Option Price) : Bool :=
  match bestBid, bestAsk with
  | some bid, some ask => ask ≤ bid
  | _, _ => false

/-! ## Price changes -/

/-- The changes of one token in a frame and where each price was assigned. -/
structure AtomicPriceChanges where
  changes : List SideLevels
  bidPositions : TreeMap Price Nat
  askPositions : TreeMap Price Nat
  bestBid : Option Price
  bestAsk : Option Price

namespace AtomicPriceChanges

def start (bestBid bestAsk : Option Price) : AtomicPriceChanges where
  changes := []
  bidPositions := ∅
  askPositions := ∅
  bestBid := bestBid
  bestAsk := bestAsk

def positions (atomic : AtomicPriceChanges) : Side → TreeMap Price Nat
  | .bid => atomic.bidPositions
  | .ask => atomic.askPositions

/-- Note where a price was assigned. -/
def withPosition (atomic : AtomicPriceChanges) (side : Side) (price : Price)
    (position : Nat) : AtomicPriceChanges :=
  match side with
  | .bid => { atomic with bidPositions := atomic.bidPositions.insert price position }
  | .ask => { atomic with askPositions := atomic.askPositions.insert price position }

/-- Assign one level: the final write to a price is the one that stands. -/
def assign (atomic : AtomicPriceChanges) (side : Side) (level : Level) : AtomicPriceChanges :=
  match (atomic.positions side)[level.price]? with
  | some position =>
    { atomic with
      changes := atomic.changes.modify position fun change =>
        { change with levels := change.levels.set 0 level } }
  | none =>
    { atomic.withPosition side level.price atomic.changes.length with
      changes := atomic.changes ++ [{ side := side, levels := [level] }] }

end AtomicPriceChanges

def parseSide (text : Option String) : Except NormalizeError Side :=
  let side := Text.asciiUppercase (text.getD "")
  if side = "BUY" ∨ side = "BID" then .ok .bid
  else if side = "SELL" ∨ side = "ASK" then .ok .ask
  else .error .invalidSide

/-- Read one item of a price change into the changes of its token. -/
def readPriceChange
    (parsers : Parsers) (byToken : TreeMap String AtomicPriceChanges)
    (change : Json) : Except NormalizeError (TreeMap String AtomicPriceChanges) := do
  let item ← okOr change.asObject? .invalidLevels
  let tokenId ← readTokenId item
  let side ← parseSide (stringAlias item ["side"])
  let price ← okOr (valueText (item.lookup "price")) (.missingField "price")
  let size ← okOr (valueText (item.lookup "size")) (.missingField "size")
  let level ← orInvalidDecimal (Level.new parsers.decimal price size)
  if (item.lookup "best_bid").isSome != (item.lookup "best_ask").isSome then
    .error (.missingField "best_bid/best_ask")
  else
    let bestBid ← optionalPrice parsers (item.lookup "best_bid")
    let bestAsk ← optionalPrice parsers (item.lookup "best_ask")
    if quoteIsCrossed bestBid bestAsk then .error .invalidLevels
    else
      let entry := (byToken[tokenId]?).getD (AtomicPriceChanges.start bestBid bestAsk)
      if entry.bestBid ≠ bestBid ∨ entry.bestAsk ≠ bestAsk then .error .invalidLevels
      else .ok (byToken.insert tokenId (entry.assign side level))

/-! ## Events -/

def buildEvent
    (platform : Platform) (config : NormalizerConfig) (context : FrameContext) (cursor : Nat)
    (tokenId : String) (kind : EventKind) : CanonicalEvent where
  schemaVersion := contractVersion
  cursor := cursor
  eventId := platform.textDigest
    (config.scopeId ++ "\x00" ++ normalizerVersion ++ "\x00" ++ context.rawSha256 ++ "\x00" ++
      tokenId)
  scopeId := config.scopeId
  receivedAt := context.receivedAt
  sourceObservedAt := context.observedAt
  normalizerVersion := normalizerVersion
  configRevision := config.configRevision
  source :=
    { source := "polymarket_clob_ws"
      sourceUrl := some clobMarketStreamSourceUrl
      requestedAt := context.receivedAt
      respondedAt := context.receivedAt
      observedAt := context.observedAt
      rawSha256 := context.rawSha256
      updateFrequency := "realtime"
      revision := context.rawSha256
      missing := false
      delayed := decide (config.maximumSourceDelayMs <
        (context.receivedAt - context.observedAt).tdiv 1000000)
      duplicate := false
      revised := false }
  rawPayload := context.rawPayload
  kind := kind

/-- The name and the kind of the only event of a frame. -/
structure NamedKind where
  name : String
  kind : EventKind

section Kinds

variable (platform : Platform) (parsers : Parsers)

def readCatalogRevision (raw : RawFields) : Except NormalizeError NamedKind := do
  let catalogRevision ← okOr (nonemptyAlias raw ["catalog_revision", "revision"])
    (.missingField "catalog_revision")
  let listed ← okOr (raw.lookup "markets") (.missingField "markets")
  let markets ← okOr (parsers.marketRecords listed) .invalidCatalog
  let relations ← okOr
    (parsers.negativeRiskRelations ((raw.lookup "negative_risk_relations").getD (.array [])))
    .invalidCatalog
  .ok
    { name := catalogRevision
      kind := .catalogSnapshot catalogRevision markets relations }

def readNewMarket (raw : RawFields) : Except NormalizeError NamedKind := do
  let conditionId ← okOr (nonemptyAlias raw ["condition_id", "market"])
    (.missingField "condition_id")
  .ok { name := conditionId, kind := .newMarket conditionId }

def readMarketResolved (raw : RawFields) : Except NormalizeError NamedKind := do
  let conditionId ← okOr (nonemptyAlias raw ["condition_id", "market"])
    (.missingField "condition_id")
  let winningTokenId := nonemptyAlias raw ["winning_asset_id", "winning_token_id"]
  let winningOutcome := nonemptyAlias raw ["winning_outcome"]
  .ok
    { name := conditionId
      kind := .marketResolved conditionId winningTokenId winningOutcome }

def readSourceGap (raw : RawFields) : Except NormalizeError NamedKind := do
  let tokenId ← readTokenId raw
  let reason ← okOr (nonemptyAlias raw ["reason"]) (.missingField "reason")
  .ok { name := tokenId, kind := .sourceGap tokenId reason }

/-- The tick of a full book: its own, or the one verified elsewhere. -/
def readBookTick
    (verifiedBookTick : Option Price) (raw : RawFields) : Except NormalizeError Price :=
  match valueText (raw.lookup "tick_size") with
  | some text => orInvalidDecimal (Price.parseTick parsers.decimal text)
  | none => okOr verifiedBookTick (.missingField "tick_size")

def readBook
    (verifiedBookTick : Option Price) (raw : RawFields) : Except NormalizeError NamedKind := do
  let tokenId ← okOr (nonemptyAlias raw ["asset_id", "token_id"]) (.missingField "asset_id")
  let tickSize ← readBookTick parsers verifiedBookTick raw
  let bids ← parseLevels parsers (raw.lookup "bids")
  let asks ← parseLevels parsers (raw.lookup "asks")
  let tickVersion := platform.contentSha256
    (.object [("tick_size", .string (platform.decimalText tickSize))])
  .ok { name := tokenId, kind := .fullBook tokenId bids asks tickSize tickVersion }

def readBestBidAsk (raw : RawFields) : Except NormalizeError NamedKind := do
  let tokenId ← readTokenId raw
  if (raw.lookup "best_bid").isNone || (raw.lookup "best_ask").isNone then
    .error (.missingField "best_bid/best_ask")
  else
    let bestBid ← optionalPrice parsers (raw.lookup "best_bid")
    let bestAsk ← optionalPrice parsers (raw.lookup "best_ask")
    if quoteIsCrossed bestBid bestAsk then .error .invalidLevels
    else .ok { name := tokenId, kind := .bestBidAsk tokenId bestBid bestAsk }

def readLastTradePrice (raw : RawFields) : Except NormalizeError NamedKind := do
  let tokenId ← readTokenId raw
  let price ← requiredPrice parsers (raw.lookup "price") "price"
  .ok { name := tokenId, kind := .lastTradePrice tokenId price }

/-- A price as it is written to JSON. -/
def priceJson (price : Price) : Json := .string (platform.decimalText price)

def readTickSizeChange
    (context : FrameContext) (raw : RawFields) : Except NormalizeError NamedKind := do
  let tokenId ← readTokenId raw
  let newTickSize ← requiredTick parsers (raw.lookup "new_tick_size") "new_tick_size"
  let oldTickSize ← optionalTick parsers (raw.lookup "old_tick_size")
  let tickVersion := platform.contentSha256 (.object
    [("new_tick_size", priceJson platform newTickSize),
     ("old_tick_size", oldTickSize.elim .null (priceJson platform)),
     ("source_revision", .string context.rawSha256)])
  .ok
    { name := tokenId
      kind := .tickSizeChange tokenId oldTickSize newTickSize tickVersion }

end Kinds

/-- The events of a price change, one a token in token order. -/
def readPriceChanges
    (platform : Platform) (parsers : Parsers) (config : NormalizerConfig) (context : FrameContext)
    (firstCursor : Nat) (raw : RawFields) : Except NormalizeError (List CanonicalEvent) := do
  let changes ← okOr (((raw.lookup "price_changes").or (raw.lookup "changes")).bind
    Json.asArray?) (.missingField "price_changes")
  if changes.isEmpty then .error .invalidLevels
  else
    let byToken ← changes.foldlM (readPriceChange parsers) ∅
    byToken.toList.zipIdx.mapM fun ((tokenId, atomic), offset) =>
      if firstCursor + offset < 2 ^ 64 then
        .ok (buildEvent platform config context (firstCursor + offset) tokenId
          (.atomicDelta tokenId atomic.changes atomic.bestBid atomic.bestAsk))
      else .error .invalidConfig

/-- The frames whose quotes and trades carry the clock of the supplier. -/
def carriesSupplierClock (eventType : String) : Bool :=
  ["book", "price_change", "best_bid_ask", "last_trade_price", "tick_size_change"].contains
    eventType

/-- The only event of a frame that is no price change. -/
def readSingle (platform : Platform) (parsers : Parsers) (context : FrameContext)
    (verifiedBookTick : Option Price) (raw : RawFields)
    (eventType : String) : Except NormalizeError NamedKind :=
  if eventType = "catalog_revision" then readCatalogRevision parsers raw
  else if eventType = "new_market" then readNewMarket raw
  else if eventType = "market_resolved" then readMarketResolved raw
  else if eventType = "source_gap" then readSourceGap raw
  else if eventType = "book" then readBook platform parsers verifiedBookTick raw
  else if eventType = "best_bid_ask" then readBestBidAsk parsers raw
  else if eventType = "last_trade_price" then readLastTradePrice parsers raw
  else if eventType = "tick_size_change" then readTickSizeChange platform parsers context raw
  else .error (.unsupportedEventType eventType)

def normalizeFrameWithBookTick
    (platform : Platform) (parsers : Parsers) (config : NormalizerConfig) (rawPayload : Json)
    (receivedAt : DateTime) (firstCursor : Nat)
    (verifiedBookTick : Option Price) : Except NormalizeError (List CanonicalEvent) := do
  config.validate
  let raw ← okOr rawPayload.asObject? .frameNotObject
  let eventType ← okOr (stringAlias raw ["event_type", "type"]) (.missingField "event_type")
  if carriesSupplierClock eventType && (raw.lookup "timestamp").isNone then
    .error (.missingField "timestamp")
  else
    let observedAt ← parseObservedAt parsers (raw.lookup "timestamp") receivedAt
    let context : FrameContext :=
      { rawPayload := rawPayload
        rawSha256 := platform.contentSha256 rawPayload
        receivedAt := receivedAt
        observedAt := observedAt }
    if eventType = "price_change" then
      readPriceChanges platform parsers config context firstCursor raw
    else
      let single ← readSingle platform parsers context verifiedBookTick raw eventType
      .ok [buildEvent platform config context firstCursor single.name single.kind]

def normalizeFrame
    (platform : Platform) (parsers : Parsers) (config : NormalizerConfig) (rawPayload : Json)
    (receivedAt : DateTime) (firstCursor : Nat) : Except NormalizeError (List CanonicalEvent) :=
  normalizeFrameWithBookTick platform parsers config rawPayload receivedAt firstCursor none

end Polymarket
end MarketCow
