import MarketCow.Live.Lane

/-!
# The market state of a client

A client replaces its books by a snapshot, or changes them level by level. It
checks a frame as a whole before it changes anything.
-/

namespace MarketCow.Live

open Library
open Library.Proto
open MarketCow.Core (Decimal Side)

/-- A level as a client keeps it, with its size and its encoded length. -/
structure ClientLevel where
  price : String
  size : String
  numericSize : Decimal
  encodedBytes : Nat
  deriving DecidableEq

abbrev ClientSide := TreeMap Decimal ClientLevel

structure Book where
  metadata : TokenMetadata
  bids : ClientSide
  asks : ClientSide
  depthBytes : Nat

structure DeliveryBudget where
  maximumFrameBytes : Nat
  maximumStateBytes : Nat
  maximumLevelsPerSide : Nat
  maximumChanges : Nat

structure MarketState where
  key : MarketKey
  streamId : String
  sequence : Option Nat
  books : List Book
  sourceStatus : String
  reason : Option String
  publishedAt : String
  budget : DeliveryBudget

/-! ## Lengths -/

/-- The client counts the bytes of a number itself, seven bits at a time. -/
def varintBytes (value : Nat) : Nat :=
  if value < 128 then 1 else varintBytes (value / 128) + 1

theorem varintBytes_eq (value : Nat) : varintBytes value = varintLength value := by
  induction value using Nat.strong_induction_on with
  | _ value ih =>
    rw [varintBytes]
    split
    · rename_i small
      rw [varintLength_of_lt small]
    · rename_i large
      rw [ih (value / 128) (by omega)]
      exact (varintLength_of_le (by omega)).symm

def nestedBytes (content : Nat) : Nat := 1 + varintBytes content + content

@[simp] theorem nestedBytes_eq (content : Nat) : nestedBytes content = nestedLength content := by
  unfold nestedBytes nestedLength
  rw [varintBytes_eq]

def stringBytes (value : String) (optional : Bool) : Nat :=
  if value.isEmpty && !optional then 0 else nestedBytes value.utf8ByteSize

theorem stringBytes_false (value : String) : stringBytes value false = stringLength value := by
  unfold stringBytes stringLength
  rw [Bool.not_false, Bool.and_true, nestedBytes_eq]

theorem stringBytes_true (value : String) :
    stringBytes value true = nestedLength value.utf8ByteSize := by
  unfold stringBytes
  rw [Bool.not_true, Bool.and_false, if_neg Bool.false_ne_true, nestedBytes_eq]

/-! ## Checks -/

def clientDecimal (codec : Codec) (value : String) (positive : Bool) : Except String Decimal := do
  ensure (isPlain value && !value.toList.any fun character =>
    character == 'e' || character == 'E' || character == '+') "plain decimal required"
  let parsed ← need (codec.parseExact value) "decimal precision/value"
  ensure (if positive then 0 < parsed else 0 ≤ parsed) "decimal sign"
  .ok parsed

/-- Check a decimal that may be missing. -/
def checkDecimal (codec : Codec) (positive : Bool) : Option String → Except String Unit
  | none => .ok ()
  | some value => do
    let _ ← clientDecimal codec value positive
    .ok ()

/-- A confirmation is bound to the revision and the quote of its book. -/
def checkBinding (value : TokenMetadata) : Option Confirmation → Except String Unit
  | none => .ok ()
  | some confirm =>
    ensure (confirm.boundBookRevision == value.bookRevision &&
      some confirm.boundQuoteSourceAt == value.quoteSourceAt && !confirm.sourceAt.isEmpty)
      "confirmation book binding"

def clientMetadata (codec : Codec) (value : TokenMetadata) (token outcome : String) :
    Except String Unit := do
  ensure (value.tokenId == token && value.outcome == outcome && 0 < value.bookRevision)
    "book token/outcome/revision"
  checkDecimal codec true value.tickSize
  checkDecimal codec false (value.lastTrade.map Trade.price)
  checkBinding value value.confirmation

def clientTick (codec : Codec) (metadata : TokenMetadata) : Option Decimal :=
  metadata.tickSize.bind fun tick => (clientDecimal codec tick true).toOption

def economicMetadataEqual (codec : Codec) (first second : TokenMetadata) : Bool :=
  clientTick codec first == clientTick codec second &&
    first.quoteSourceAt == second.quoteSourceAt && first.dataValid == second.dataValid &&
    first.invalidReason == second.invalidReason

def clientLevel (codec : Codec) (price size : String) :
    Except String (Decimal × ClientLevel) := do
  let numericPrice ← clientDecimal codec price false
  ensure (numericPrice ≤ 1) "prediction price exceeds one"
  let numericSize ← clientDecimal codec size false
  .ok (numericPrice,
    { price, size, numericSize, encodedBytes := PriceLevel.encodedLength { price, size } })

/-! ## Snapshots -/

/-- Add one level of a snapshot to a side. -/
def addLevel (codec : Codec) (side : ClientSide × Nat) (value : PriceLevel) :
    Except String (ClientSide × Nat) := do
  let (price, level) ← clientLevel codec value.price value.size
  ensure (0 < level.numericSize && !side.1.contains price) "snapshot zero/duplicate level"
  .ok (side.1.insert price level, side.2 + nestedBytes level.encodedBytes)

def clientSide (codec : Codec) (values : List PriceLevel) (maximum : Nat) :
    Except String (ClientSide × Nat) := do
  ensure (values.length ≤ maximum) "book levels"
  values.foldlM (addLevel codec) (∅, 0)

def sameSide (first second : ClientSide) : Bool :=
  first.size == second.size &&
    (first.toList.zip second.toList).all fun levels =>
      levels.1.1 == levels.2.1 && levels.1.2.numericSize == levels.2.2.numericSize

/-- A book of a snapshot keeps its facts while it keeps its revision, and its
revision never goes back. -/
def checkRevision (codec : Codec) (old : Option Book) (next : Book) : Except String Unit :=
  match old with
  | none => .ok ()
  | some old => do
    ensure (old.metadata.bookRevision ≤ next.metadata.bookRevision)
      "snapshot book revision regression"
    if next.metadata.bookRevision = old.metadata.bookRevision then
      ensure (economicMetadataEqual codec next.metadata old.metadata &&
        sameSide next.bids old.bids && sameSide next.asks old.asks)
        "same revision changed book facts"
    else .ok ()

/-- The book of a snapshot that takes the place of another. -/
def replaceBook
    (codec : Codec) (maximum : Nat) (token outcome : String) (old : Option Book)
    (value : TokenBook) : Except String Book := do
  let metadata ← need value.metadata "book metadata missing"
  clientMetadata codec metadata token outcome
  let (bids, bidBytes) ← clientSide codec value.bids maximum
  let (asks, askBytes) ← clientSide codec value.asks maximum
  let next : Book := { metadata, bids, asks, depthBytes := bidBytes + askBytes }
  checkRevision codec old next
  .ok next

namespace MarketState

def new (key : Option MarketKey) (streamId : String) (budget : DeliveryBudget) :
    Except String MarketState := do
  let key ← need key "missing market key"
  ensure (!key.marketId.isEmpty && !key.conditionId.isEmpty && !key.upTokenId.isEmpty &&
    !key.downTokenId.isEmpty && key.upTokenId != key.downTokenId &&
    key.rules.any (fun rules => !rules.id.isEmpty && 0 < rules.revision) && !streamId.isEmpty)
    "market identity"
  ensure (0 < budget.maximumFrameBytes && 0 < budget.maximumStateBytes &&
    0 < budget.maximumLevelsPerSide && 0 < budget.maximumChanges) "market budget"
  .ok
    { key
      streamId
      budget
      sequence := none
      books := []
      sourceStatus := "unavailable"
      reason := none
      publishedAt := "" }

def replace (codec : Codec) (state : MarketState) (snapshot : Snapshot) :
    Except String MarketState :=
  match snapshot.books with
  | [up, down] => do
    ensure (snapshot.encodedLength ≤ state.budget.maximumStateBytes) "snapshot state bytes"
    let maximum := state.budget.maximumLevelsPerSide
    let up ← replaceBook codec maximum state.key.upTokenId "Up" state.books[0]? up
    let down ← replaceBook codec maximum state.key.downTokenId "Down" state.books[1]? down
    .ok
      { state with
        books := [up, down]
        sourceStatus := snapshot.sourceStatus
        reason := snapshot.reason }
  | _ => .error "snapshot must contain two books"

end MarketState

/-! ## Changes -/

/-- The place of a book in a state. -/
inductive Slot
  | up
  | down
  deriving DecidableEq

/-- One level of a book. -/
structure Place where
  slot : Slot
  side : Side
  price : Decimal
  deriving DecidableEq

/-- The books a change is made to. -/
structure Books where
  up : Book
  down : Book

namespace Books

def book (books : Books) : Slot → Book
  | .up => books.up
  | .down => books.down

def side (books : Books) (slot : Slot) : Side → ClientSide
  | .bid => (books.book slot).bids
  | .ask => (books.book slot).asks

end Books

/-- The changes of a frame, checked one by one before any is made. -/
structure Staging where
  changed : Slot → Bool
  bytes : Slot → Nat
  counts : Slot → Side → Nat
  seen : List Place
  staged : List (Place × ClientLevel)

def Staging.start (books : Books) : Staging where
  changed := fun _ => false
  bytes := fun slot => (books.book slot).depthBytes
  counts := fun slot side => (books.side slot side).size
  seen := []
  staged := []

def slotOf (key : MarketKey) (tokenId : String) : Except String Slot :=
  if tokenId = key.upTokenId then .ok .up
  else if tokenId = key.downTokenId then .ok .down
  else .error "unknown depth token"

def sideOf (text : String) : Except String Side :=
  if text = "BUY" then .ok .bid
  else if text = "SELL" then .ok .ask
  else .error "unknown depth side"

/-- The number of levels after one of them changes. -/
def countAfter (count : Nat) (old : Option ClientLevel) (level : ClientLevel) : Nat :=
  match old.isSome, decide (0 < level.numericSize) with
  | false, true => count + 1
  | true, false => count - 1
  | _, _ => count

/-- The bytes of a book after one of its levels changes. -/
def bytesAfter (bytes : Nat) (old : Option ClientLevel) (level : ClientLevel) : Nat :=
  let bytes := bytes - old.elim 0 fun old => nestedBytes old.encodedBytes
  if 0 < level.numericSize then bytes + nestedBytes level.encodedBytes else bytes

/-- Stage one level of a book. -/
def stageLevel
    (maximum : Nat) (books : Books) (staging : Staging) (place : Place)
    (level : ClientLevel) : Except String Staging := do
  ensure (!staging.seen.contains place) "duplicate depth change"
  let old := (books.side place.slot place.side)[place.price]?
  let count := countAfter (staging.counts place.slot place.side) old level
  ensure (count ≤ maximum) "book levels"
  .ok
    { changed := Function.update staging.changed place.slot
        (staging.changed place.slot ||
          (old.elim 0 ClientLevel.numericSize) != level.numericSize)
      bytes := Function.update staging.bytes place.slot
        (bytesAfter (staging.bytes place.slot) old level)
      counts := Function.update staging.counts place.slot
        (Function.update (staging.counts place.slot) place.side count)
      seen := place :: staging.seen
      staged := staging.staged ++ [(place, level)] }

def stageChange
    (codec : Codec) (key : MarketKey) (maximum : Nat) (books : Books) (staging : Staging)
    (delta : DepthChange) : Except String Staging := do
  let slot ← slotOf key delta.tokenId
  let side ← sideOf delta.side
  let (price, level) ← clientLevel codec delta.price delta.size
  stageLevel maximum books staging { slot, side, price } level

/-- Check the metadata after a change against the book before it. -/
def checkPost
    (codec : Codec) (old : Book) (changed : Bool) (base : BookBase)
    (post : TokenMetadata) : Except String Unit := do
  clientMetadata codec post old.metadata.tokenId old.metadata.outcome
  ensure (base.tokenId == old.metadata.tokenId && base.bookRevision == old.metadata.bookRevision)
    "token book base"
  let changed := changed || !economicMetadataEqual codec old.metadata post
  ensure (if changed then old.metadata.bookRevision < post.bookRevision
    else post.bookRevision == old.metadata.bookRevision) "book revision/facts relationship"

/-- Make a staged change to a side. -/
def ClientSide.set (side : ClientSide) (price : Decimal) (level : ClientLevel) : ClientSide :=
  if level.numericSize = 0 then side.erase price else side.insert price level

/-- Make a staged change. -/
def Book.commit (slot : Slot) (book : Book) (change : Place × ClientLevel) : Book :=
  if change.1.slot = slot then
    match change.1.side with
    | .bid => { book with bids := ClientSide.set book.bids change.1.price change.2 }
    | .ask => { book with asks := ClientSide.set book.asks change.1.price change.2 }
  else book

/-- A book with all staged changes of its slot. -/
def Book.commitAll (slot : Slot) (book : Book) (staging : Staging) (post : TokenMetadata) : Book :=
  { staging.staged.foldl (Book.commit slot) book with
    metadata := post
    depthBytes := staging.bytes slot }

namespace MarketState

def changeBooks
    (codec : Codec) (state : MarketState) (books : Books) (change : PriceChange)
    (baseUp baseDown : BookBase) (postUp postDown : TokenMetadata) : Except String MarketState := do
  ensure (change.changes.length ≤ state.budget.maximumChanges) "depth changes"
  let staging ← change.changes.foldlM
    (stageChange codec state.key state.budget.maximumLevelsPerSide books) (Staging.start books)
  checkPost codec books.up (staging.changed .up) baseUp postUp
  checkPost codec books.down (staging.changed .down) baseDown postDown
  let stateBytes := stringBytes change.sourceStatus false +
    change.reason.elim 0 (stringBytes · true) +
    nestedBytes (staging.bytes .up + nestedBytes postUp.encodedLength) +
    nestedBytes (staging.bytes .down + nestedBytes postDown.encodedLength)
  ensure (stateBytes ≤ state.budget.maximumStateBytes) "book state bytes"
  .ok
    { state with
      books := [books.up.commitAll .up staging postUp, books.down.commitAll .down staging postDown]
      sourceStatus := change.sourceStatus
      reason := change.reason }

def change (codec : Codec) (state : MarketState) (change : PriceChange) :
    Except String MarketState :=
  match state.books, change.baseBooks, change.postMetadata with
  | [up, down], [baseUp, baseDown], [postUp, postDown] => do
    ensure (state.sequence == some change.baseSequence) "delta base/shape"
    changeBooks codec state { up, down } change baseUp baseDown postUp postDown
  | _, _, _ => .error "delta base/shape"

def takeBody (codec : Codec) (state : MarketState) : Body → Except String MarketState
  | .snapshot snapshot => state.replace codec snapshot
  | .priceChange change => state.change codec change

/-- Take one frame. -/
def apply (codec : Codec) (state : MarketState) (frame : MarketFrame) :
    Except String MarketState := do
  ensure (frame.schemaVersion == marketSchema && frame.key == some state.key &&
    frame.streamId == state.streamId && state.sequence.all fun sequence =>
      sequence < frame.stateSequence) "market frame identity/sequence"
  let body ← need frame.body "missing market body"
  let after ← state.takeBody codec body
  .ok { after with sequence := some frame.stateSequence, publishedAt := frame.publishedAt }

end MarketState

/-! ## What a client shows -/

/-- The levels of a side from the best to the worst price. -/
def ClientSide.levels (levels : ClientSide) (side : Side) : List PriceLevel :=
  let values := levels.valueList.map fun level => { price := level.price, size := level.size }
  match side with
  | .bid => values.reverse
  | .ask => values

def Book.tokenBook (book : Book) : TokenBook where
  metadata := some book.metadata
  bids := ClientSide.levels book.bids .bid
  asks := ClientSide.levels book.asks .ask

/-- The state of a client as a frame that carries it whole. -/
def MarketState.snapshot (state : MarketState) : Option MarketFrame :=
  state.sequence.map fun sequence =>
    { schemaVersion := marketSchema
      key := some state.key
      streamId := state.streamId
      stateSequence := sequence
      publishedAt := state.publishedAt
      body := some (.snapshot
        { books := state.books.map Book.tokenBook
          sourceStatus := state.sourceStatus
          reason := state.reason }) }

end MarketCow.Live
