import MarketCow.Library.Fallible
import MarketCow.Library.Text
import MarketCow.Live.Wire

/-!
# The lane of one market

A lane turns atomic pairs of books into states with revisions. A frame carries a
state whole, or as changes against the state the connection was sent before.
-/

namespace MarketCow.Live

open Library
open Library.Proto
open MarketCow.Core (Decimal Side)

def maxLevels : Nat := 10000

def maxChanges : Nat := 40000

def maxBytes : Nat := 8 * 1024 * 1024

/-- Check a condition. -/
def ensure (condition : Bool) (cause : String) : Except String Unit :=
  if condition then .ok () else .error cause

/-- A value, or an error in its absence. -/
def need {α : Type} (value : Option α) (cause : String) : Except String α :=
  value.elim (.error cause) .ok

theorem ensure_ok : ensure condition cause = .ok result ↔ condition = true := by
  cases condition <;> simp [ensure]

theorem need_ok : need value cause = .ok result ↔ value = some result := by
  cases value <;> simp [need]

/-- The sum of two 64-bit numbers, unless it overflows. -/
def checkedAdd (first second : Nat) (cause : String) : Except String Nat :=
  if first + second < 2 ^ 64 then .ok (first + second) else .error cause

/-! ## Decimals, times and levels -/

def decimal (codec : Codec) (value : String) (positive : Bool) : Except String Decimal := do
  ensure (!value.isEmpty && value.utf8ByteSize ≤ 96 &&
    !value.toList.any fun character => character == 'e' || character == 'E' || character == '+')
    "invalid decimal syntax"
  let parsed ← need (codec.parse value) "invalid decimal"
  ensure (if positive then 0 < parsed else 0 ≤ parsed) "invalid decimal range"
  .ok parsed

def sourceTime (codec : Codec) (value : String) : Except String Int :=
  need (codec.rfc3339 value) "invalid source time"

/-- Whether a price comes before another on its side. -/
def comesBefore : Side → Decimal → Decimal → Bool
  | .bid, first, second => second < first
  | .ask, first, second => first < second

/-- Check and normalize the levels of a side after a price. -/
def levelsAfter (codec : Codec) (side : Side) :
    Option Decimal → List PriceLevel → Except String (List PriceLevel)
  | _, [] => .ok []
  | previous, row :: rows => do
    let price ← decimal codec row.price false
    ensure (price ≤ 1) "outcome price range"
    let size ← decimal codec row.size true
    ensure (previous.all fun before => comesBefore side before price) "depth order/duplicate"
    let rest ← levelsAfter codec side (some price) rows
    .ok ({ price := codec.text price, size := codec.text size } :: rest)

def levels (codec : Codec) (side : Side) (rows : List PriceLevel) :
    Except String (List PriceLevel) := do
  ensure (rows.length ≤ maxLevels) "depth capacity"
  levelsAfter codec side none rows

/-- The same facts of a book: depth, tick, quote time and validity. -/
def sameBook (first second : TokenBook) : Bool :=
  first.bids == second.bids && first.asks == second.asks &&
    match first.metadata, second.metadata with
    | none, none => true
    | some first, some second =>
      first.tokenId == second.tokenId && first.outcome == second.outcome &&
        first.tickSize == second.tickSize && first.quoteSourceAt == second.quoteSourceAt &&
        first.dataValid == second.dataValid && first.invalidReason == second.invalidReason
    | _, _ => false

/-! ## Lanes -/

structure Lane where
  key : MarketKey
  streamId : String
  sequence : Nat
  snapshot : Option Snapshot
  sourceGeneration : String
  depthBytes : Nat × Nat
  envelopeBytes : Nat
  deriving DecidableEq

structure State where
  key : MarketKey
  streamId : String
  sequence : Nat
  snapshot : Snapshot
  sourceGeneration : String
  deriving DecidableEq

/-- The bytes of a frame around its state, with room for the time of
publication and the largest sequence. -/
def envelopeLength (key : MarketKey) (streamId : String) : Nat :=
  nestedLength marketSchema.utf8ByteSize + nestedLength key.encodedLength +
    nestedLength streamId.utf8ByteSize + 11 + nestedLength 64

def Lane.new (codec : Codec) (key : MarketKey) (streamId : String) : Except String Lane := do
  ensure (!key.marketId.isEmpty && !key.windowId.isEmpty && !streamId.isEmpty)
    "missing market identity"
  ensure (key.conditionId.utf8ByteSize == 66 && Text.startsWith key.conditionId "0x" &&
    (key.conditionId.toList.drop 2).all Text.isHexDigit) "condition identity"
  ensure (!key.upTokenId.isEmpty && !key.downTokenId.isEmpty && key.upTokenId != key.downTokenId)
    "outcome identity"
  let rules ← need key.rules "missing rules identity"
  ensure (!rules.id.isEmpty && 0 < rules.revision) "invalid rules identity"
  let start ← need (codec.rfc3339 key.startAt) "start time"
  let finish ← need (codec.rfc3339 key.endAt) "end time"
  ensure (start < finish) "window interval"
  .ok
    { key
      streamId
      sequence := 0
      snapshot := none
      sourceGeneration := ""
      depthBytes := (0, 0)
      envelopeBytes := envelopeLength key streamId }

/-! ## Capture -/

/-- The text of a decimal in normal form. -/
def normalized (codec : Codec) (value : String) (positive : Bool) : Except String String := do
  let parsed ← decimal codec value positive
  .ok (codec.text parsed)

def checkTime (codec : Codec) : Option String → Except String Unit
  | none => .ok ()
  | some value => do
    let _ ← sourceTime codec value
    .ok ()

def normalizedTick (codec : Codec) : Option String → Except String (Option String)
  | none => .ok none
  | some tick => do
    let tick ← normalized codec tick true
    .ok (some tick)

def normalizedTrade (codec : Codec) : Option Trade → Except String (Option Trade)
  | none => .ok none
  | some trade => do
    let price ← normalized codec trade.price false
    checkTime codec trade.sourceAt
    .ok (some { trade with price })

def checkConfirmation (codec : Codec) (metadata : TokenMetadata) :
    Option Confirmation → Except String Unit
  | none => .ok ()
  | some confirmation => do
    let _ ← sourceTime codec confirmation.sourceAt
    let _ ← sourceTime codec confirmation.receivedAt
    ensure (metadata.quoteSourceAt == some confirmation.boundQuoteSourceAt)
      "confirmation quote binding"
    let quote ← need (codec.rfc3339 confirmation.boundQuoteSourceAt) "quote time"
    let source ← need (codec.rfc3339 confirmation.sourceAt) "confirmation time"
    ensure (quote ≤ source) "confirmation before quote"
    let received ← need (codec.rfc3339 confirmation.receivedAt) "receipt time"
    ensure (source ≤ received) "confirmation after receipt"

/-- Bind a confirmation to the revision of its book, unless it is bound to
another one. -/
def bindConfirmation (revision : Nat) : Option Confirmation → Except String (Option Confirmation)
  | none => .ok none
  | some confirmation => do
    ensure (confirmation.boundBookRevision == 0 || confirmation.boundBookRevision == revision)
      "confirmation book binding"
    .ok (some { confirmation with boundBookRevision := revision })

/-- Check and normalize the metadata of a book. -/
def checkMetadata
    (codec : Codec) (tokenId outcome : String)
    (metadata : TokenMetadata) : Except String TokenMetadata := do
  ensure (metadata.tokenId == tokenId && metadata.outcome == outcome) "token/outcome binding"
  let tickSize ← normalizedTick codec metadata.tickSize
  checkTime codec metadata.quoteSourceAt
  let lastTrade ← normalizedTrade codec metadata.lastTrade
  checkConfirmation codec metadata metadata.confirmation
  ensure (!metadata.dataValid || metadata.quoteSourceAt.isSome) "valid book without source time"
  .ok { metadata with tickSize, lastTrade }

def revisionOf (book : Option TokenBook) : Nat :=
  (book.bind TokenBook.metadata).elim 0 TokenMetadata.bookRevision

/-- The revision of a book after the book before it. -/
def nextRevision (before : Option TokenBook) (book : TokenBook) : Except String Nat :=
  if before.all fun earlier => !sameBook earlier book then
    checkedAdd (revisionOf before) 1 "book revision overflow"
  else .ok (revisionOf before)

/-- Check and normalize one book, and give it its revision. -/
def captureBook
    (codec : Codec) (tokenId outcome : String) (before : Option TokenBook)
    (book : TokenBook) : Except String TokenBook := do
  let bids ← levels codec .bid book.bids
  let asks ← levels codec .ask book.asks
  let metadata ← need book.metadata "missing token metadata"
  let metadata ← checkMetadata codec tokenId outcome metadata
  let bookRevision ← nextRevision before { metadata := some metadata, bids, asks }
  let confirmation ← bindConfirmation bookRevision metadata.confirmation
  .ok { metadata := some { metadata with bookRevision, confirmation }, bids, asks }

/-- The bytes of the levels of a book, counted once while they stay the same. -/
def depthBytesOf (before : Option TokenBook) (counted : Nat) (book : TokenBook) : Nat :=
  if before.any fun earlier => earlier.bids == book.bids && earlier.asks == book.asks then counted
  else book.depthLength

/-- The bytes of a book from the bytes of its levels. -/
def bookBytes (depthBytes : Nat) (book : TokenBook) : Nat :=
  nestedLength (depthBytes + optionalLength TokenMetadata.encodedLength book.metadata)

def isSourceStatus (status : String) : Bool :=
  status == "available" || status == "unavailable" || status == "waiting_baseline" ||
    status == "ended"

def isValidBook (book : TokenBook) : Bool :=
  book.metadata.any TokenMetadata.dataValid

/-- The state of a lane. -/
def Lane.state (lane : Lane) : Except String State := do
  let snapshot ← need lane.snapshot "missing captured state"
  .ok
    { key := lane.key
      streamId := lane.streamId
      sequence := lane.sequence
      snapshot
      sourceGeneration := lane.sourceGeneration }

/-- The next sequence of a lane: it grows when the state or its source
generation is another one. -/
def Lane.nextSequence (lane : Lane) (snapshot : Snapshot) (sourceGeneration : String) :
    Except String Nat :=
  if lane.snapshot ≠ some snapshot ∨ lane.sourceGeneration ≠ sourceGeneration then
    checkedAdd lane.sequence 1 "state revision overflow"
  else .ok lane.sequence

/-- Capture one atomic pair of books. -/
def Lane.capture (codec : Codec) (lane : Lane) (snapshot : Snapshot)
    (sourceGeneration : String) : Except String (State × Lane) :=
  match snapshot.books with
  | [up, down] => do
    ensure (isSourceStatus snapshot.sourceStatus) "source status"
    let upBefore := lane.snapshot.bind fun earlier => earlier.books[0]?
    let downBefore := lane.snapshot.bind fun earlier => earlier.books[1]?
    let up ← captureBook codec lane.key.upTokenId "Up" upBefore up
    let down ← captureBook codec lane.key.downTokenId "Down" downBefore down
    let snapshot := { snapshot with books := [up, down] }
    let upBytes := depthBytesOf upBefore lane.depthBytes.1 up
    let downBytes := depthBytesOf downBefore lane.depthBytes.2 down
    let stateBytes := bookBytes upBytes up + bookBytes downBytes down +
      stringLength snapshot.sourceStatus + optionalStringLength snapshot.reason
    ensure (stateBytes ≤ maxBytes) "typed state byte capacity"
    ensure (lane.envelopeBytes + nestedLength stateBytes ≤ maxBytes) "typed frame byte capacity"
    ensure (snapshot.sourceStatus != "available" || (isValidBook up && isValidBook down))
      "available state contains invalid book"
    let sequence ← lane.nextSequence snapshot sourceGeneration
    let lane :=
      { lane with
        sequence
        snapshot := some snapshot
        sourceGeneration
        depthBytes := (upBytes, downBytes) }
    let state ← lane.state
    .ok (state, lane)
  | _ => .error "two token books required"

/-! ## Frames -/

def sideText : Side → String
  | .bid => "BUY"
  | .ask => "SELL"

/-- Compare two levels in the order of their side. -/
def compareLevels (codec : Codec) (side : Side) (old new : PriceLevel) :
    Except String Ordering := do
  let first ← decimal codec old.price false
  let second ← decimal codec new.price false
  match side with
  | .bid => .ok (compare second first)
  | .ask => .ok (compare first second)

def setChange (tokenId : String) (side : Side) (level : PriceLevel) : DepthChange where
  tokenId := tokenId
  side := sideText side
  price := level.price
  size := level.size

def removeChange (tokenId : String) (side : Side) (level : PriceLevel) : DepthChange where
  tokenId := tokenId
  side := sideText side
  price := level.price
  size := "0"

/-- Merge the new levels with an old level and the old levels after it. -/
def mergeLevel
    (codec : Codec) (tokenId : String) (side : Side) (old : PriceLevel)
    (rest : List PriceLevel → Except String (List DepthChange)) :
    List PriceLevel → Except String (List DepthChange)
  | [] => do
    let changes ← rest []
    .ok (removeChange tokenId side old :: changes)
  | new :: news => do
    match ← compareLevels codec side old new with
    | .eq =>
      let changes ← rest news
      .ok (if old.size ≠ new.size then setChange tokenId side new :: changes else changes)
    | .lt =>
      let changes ← rest (new :: news)
      .ok (removeChange tokenId side old :: changes)
    | .gt =>
      let changes ← mergeLevel codec tokenId side old rest news
      .ok (setChange tokenId side new :: changes)

/-- The changes that lead from the old levels of a side to the new ones. -/
def mergeLevels (codec : Codec) (tokenId : String) (side : Side) :
    List PriceLevel → List PriceLevel → Except String (List DepthChange)
  | [], news => .ok (news.map (setChange tokenId side))
  | old :: olds, news =>
    mergeLevel codec tokenId side old (mergeLevels codec tokenId side olds) news

def sideChanges (codec : Codec) (tokenId : String) (side : Side)
    (old new : List PriceLevel) : Except String (List DepthChange) :=
  if old = new then .ok [] else mergeLevels codec tokenId side old new

def bookChanges (codec : Codec) (books : TokenBook × TokenBook) :
    Except String (List DepthChange) := do
  let metadata ← need books.2.metadata "metadata"
  let bids ← sideChanges codec metadata.tokenId .bid books.1.bids books.2.bids
  let asks ← sideChanges codec metadata.tokenId .ask books.1.asks books.2.asks
  .ok (bids ++ asks)

/-- The changes of depth between two states. -/
def depthChanges (codec : Codec) (before state : State) : Except String (List DepthChange) := do
  let changes ← (before.snapshot.books.zip state.snapshot.books).mapM (bookChanges codec)
  .ok changes.flatten

/-- Whether a state can be sent as changes against another. -/
def continues (before state : State) : Bool :=
  before.key == state.key && before.streamId == state.streamId &&
    before.sourceGeneration == state.sourceGeneration &&
    before.snapshot.sourceStatus == "available" && state.snapshot.sourceStatus == "available"

def priceChange (before state : State) (changes : List DepthChange) : PriceChange where
  baseSequence := before.sequence
  changes := changes
  postMetadata := state.snapshot.books.filterMap TokenBook.metadata
  sourceStatus := state.snapshot.sourceStatus
  reason := state.snapshot.reason
  baseBooks := (before.snapshot.books.filterMap TokenBook.metadata).map fun metadata =>
    { tokenId := metadata.tokenId, bookRevision := metadata.bookRevision }

def message (state : State) (publishedAt : String) (body : Body) : MarketFrame where
  schemaVersion := marketSchema
  key := some state.key
  streamId := state.streamId
  stateSequence := state.sequence
  publishedAt := publishedAt
  body := some body

/-- A state whole. -/
def snapshotFrame (state : State) (publishedAt : String) : Except String MarketFrame := do
  let frame := message state publishedAt (.snapshot state.snapshot)
  ensure (frame.encodedLength ≤ maxBytes) "typed frame byte capacity"
  .ok frame

/-- A state as changes, or whole where the changes take more than a state may. -/
def changeFrame (codec : Codec) (before state : State) (publishedAt : String) :
    Except String MarketFrame := do
  ensure (before.sequence < state.sequence) "state revision regression"
  let changes ← depthChanges codec before state
  let frame := message state publishedAt (.priceChange (priceChange before state changes))
  if changes.length ≤ maxChanges ∧ frame.encodedLength ≤ maxBytes then .ok frame
  else snapshotFrame state publishedAt

def frame (codec : Codec) (state : State) (previous : Option State) (publishedAt : String) :
    Except String MarketFrame :=
  match previous.filter fun before => continues before state with
  | some before => changeFrame codec before state publishedAt
  | none => snapshotFrame state publishedAt

end MarketCow.Live
