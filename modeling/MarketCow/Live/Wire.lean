import MarketCow.Core.Book
import MarketCow.Library.Proto

/-!
# Messages of the typed market stream

The messages of one market and how many bytes they take, and the codecs of
external packages that both ends of the stream rely on.
-/

namespace MarketCow.Live

open Library
open Library.Proto
open MarketCow.Core (Decimal)

def marketSchema : String := "marketcow.polymarket.btc5m.market-local.v7"

structure RecordIdentity where
  id : String
  revision : Nat
  deriving DecidableEq

structure MarketKey where
  marketId : String
  conditionId : String
  windowId : String
  startAt : String
  endAt : String
  upTokenId : String
  downTokenId : String
  rules : Option RecordIdentity
  deriving DecidableEq

structure PriceLevel where
  price : String
  size : String
  deriving DecidableEq

structure Trade where
  price : String
  sourceAt : Option String
  deriving DecidableEq

structure Confirmation where
  sourceAt : String
  receivedAt : String
  source : String
  boundQuoteSourceAt : String
  boundBookRevision : Nat
  evidenceId : Option String
  deriving DecidableEq

structure TokenMetadata where
  tokenId : String
  outcome : String
  tickSize : Option String
  quoteSourceAt : Option String
  lastTrade : Option Trade
  confirmation : Option Confirmation
  dataValid : Bool
  invalidReason : Option String
  receivedAt : Option String
  bookRevision : Nat
  deriving DecidableEq

structure TokenBook where
  metadata : Option TokenMetadata
  bids : List PriceLevel
  asks : List PriceLevel
  deriving DecidableEq

structure Snapshot where
  books : List TokenBook
  sourceStatus : String
  reason : Option String
  deriving DecidableEq

structure DepthChange where
  tokenId : String
  side : String
  price : String
  size : String
  deriving DecidableEq

structure BookBase where
  tokenId : String
  bookRevision : Nat
  deriving DecidableEq

structure PriceChange where
  baseSequence : Nat
  changes : List DepthChange
  postMetadata : List TokenMetadata
  sourceStatus : String
  reason : Option String
  baseBooks : List BookBase
  deriving DecidableEq

inductive Body
  | snapshot (snapshot : Snapshot)
  | priceChange (change : PriceChange)
  deriving DecidableEq

structure MarketFrame where
  schemaVersion : String
  key : Option MarketKey
  streamId : String
  stateSequence : Nat
  publishedAt : String
  body : Option Body
  deriving DecidableEq

/-! ## Encoded lengths -/

def RecordIdentity.encodedLength (identity : RecordIdentity) : Nat :=
  stringLength identity.id + uint64Length identity.revision

def MarketKey.encodedLength (key : MarketKey) : Nat :=
  stringLength key.marketId + stringLength key.conditionId + stringLength key.windowId +
    stringLength key.startAt + stringLength key.endAt + stringLength key.upTokenId +
    stringLength key.downTokenId + optionalLength RecordIdentity.encodedLength key.rules

def PriceLevel.encodedLength (level : PriceLevel) : Nat :=
  stringLength level.price + stringLength level.size

def Trade.encodedLength (trade : Trade) : Nat :=
  stringLength trade.price + optionalStringLength trade.sourceAt

def Confirmation.encodedLength (confirmation : Confirmation) : Nat :=
  stringLength confirmation.sourceAt + stringLength confirmation.receivedAt +
    stringLength confirmation.source + stringLength confirmation.boundQuoteSourceAt +
    uint64Length confirmation.boundBookRevision + optionalStringLength confirmation.evidenceId

def TokenMetadata.encodedLength (metadata : TokenMetadata) : Nat :=
  stringLength metadata.tokenId + stringLength metadata.outcome +
    optionalStringLength metadata.tickSize + optionalStringLength metadata.quoteSourceAt +
    optionalLength Trade.encodedLength metadata.lastTrade +
    optionalLength Confirmation.encodedLength metadata.confirmation +
    boolLength metadata.dataValid + optionalStringLength metadata.invalidReason +
    optionalStringLength metadata.receivedAt + uint64Length metadata.bookRevision

/-- The levels of both sides. -/
def TokenBook.depthLength (book : TokenBook) : Nat :=
  repeatedLength PriceLevel.encodedLength book.bids +
    repeatedLength PriceLevel.encodedLength book.asks

def TokenBook.encodedLength (book : TokenBook) : Nat :=
  book.depthLength + optionalLength TokenMetadata.encodedLength book.metadata

def Snapshot.encodedLength (snapshot : Snapshot) : Nat :=
  repeatedLength TokenBook.encodedLength snapshot.books + stringLength snapshot.sourceStatus +
    optionalStringLength snapshot.reason

def DepthChange.encodedLength (change : DepthChange) : Nat :=
  stringLength change.tokenId + stringLength change.side + stringLength change.price +
    stringLength change.size

def BookBase.encodedLength (base : BookBase) : Nat :=
  stringLength base.tokenId + uint64Length base.bookRevision

def PriceChange.encodedLength (change : PriceChange) : Nat :=
  uint64Length change.baseSequence + repeatedLength DepthChange.encodedLength change.changes +
    repeatedLength TokenMetadata.encodedLength change.postMetadata +
    stringLength change.sourceStatus + optionalStringLength change.reason +
    repeatedLength BookBase.encodedLength change.baseBooks

def Body.encodedLength : Body → Nat
  | .snapshot whole => nestedLength whole.encodedLength
  | .priceChange change => nestedLength change.encodedLength

def MarketFrame.encodedLength (frame : MarketFrame) : Nat :=
  stringLength frame.schemaVersion + optionalLength MarketKey.encodedLength frame.key +
    stringLength frame.streamId + uint64Length frame.stateSequence +
    stringLength frame.publishedAt + frame.body.elim 0 Body.encodedLength

/-! ## Decimals and times -/

/-- Functions of external packages: the decimal parsers, the normalized text of a
decimal, and the instant of an RFC 3339 time. -/
structure Codec where
  parse : String → Option Decimal
  parseExact : String → Option Decimal
  text : Decimal → String
  rfc3339 : String → Option Int

/-- A text of digits and points. -/
def isPlain (text : String) : Bool :=
  !text.isEmpty && text.utf8ByteSize ≤ 96 &&
    text.toList.all fun character => character.isDigit || character == '.'

/-- The text of a value is plain and is read back as the value. -/
structure Codec.Readable (codec : Codec) (value : Decimal) : Prop where
  plain : isPlain (codec.text value) = true
  parse : codec.parse (codec.text value) = some value
  parseExact : codec.parseExact (codec.text value) = some value

/-- What the packages promise: a value that was read is written so that both
parsers read it back, zero is read as zero, and no text is no time. -/
structure Codec.Lawful (codec : Codec) : Prop where
  readable : ∀ text value, codec.parse text = some value → 0 ≤ value → codec.Readable value
  zero : codec.parseExact "0" = some 0
  timeless : codec.rfc3339 "" = none

theorem Codec.Readable.text_inj {codec : Codec} {value other : Decimal}
    (readable : codec.Readable value) (otherReadable : codec.Readable other) :
    codec.text value = codec.text other ↔ value = other := by
  constructor
  · intro same
    have read := readable.parse
    rw [same, otherReadable.parse] at read
    exact (some.inj read).symm
  · rintro rfl
    rfl

end MarketCow.Live
