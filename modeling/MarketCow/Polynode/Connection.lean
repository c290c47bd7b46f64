import MarketCow.Polynode.TokenBook

/-!
# One PN1 connection

The parser of the raw frames of one socket generation. A bad outer frame fences
every token, a bad depth update only its own. Every update the parser gets to is
recorded with what it did and the connection after it; the outcome of a frame is
read off these records.
-/

namespace MarketCow.Polynode

open Library
open MarketCow.Core (Decimal Side)
open Effect (collect ensure get lift modify need)
open Json (asArray? asString? asU64?)

/-! ## Receipts -/

structure Level where
  price : String
  size : String
  deriving DecidableEq

structure ChangedLevel where
  side : Side
  price : String
  size : String
  deriving DecidableEq

inductive DepthPayload
  | anchor (bids asks : List Level)
  | delta (prevSeq : Nat) (changes : List ChangedLevel)
  deriving DecidableEq

structure DepthReceipt where
  tokenId : String
  conditionId : String
  providerConnectionEpoch : String
  providerSeq : Nat
  providerChecksum : String
  providerBatchTimeMs : Option Nat
  socketReceivedAt : String
  rawFrameSha256 : String
  isAnchor : Bool
  payload : DepthPayload
  deriving DecidableEq

def changedLevel (side : Side) (row : Json) : Except String ChangedLevel := do
  let price ← rowText row "price"
  let price ← decimal price
  let size ← rowText row "size"
  let size ← decimal size
  .ok { side, price, size }

def changedLevels (update : Json) (kind : String) : Except String (List ChangedLevel) :=
  if kind = "price_change" then do
    let row ← priceChangeRow update "PN1 price change count"
    let side ← priceChangeSide row
    let change ← changedLevel side row
    .ok [change]
  else do
    let bids ← rows update "bids"
    let bids ← bids.mapM (changedLevel .bid)
    let asks ← rows update "asks"
    let asks ← asks.mapM (changedLevel .ask)
    .ok (bids ++ asks)

/-- A level with the value of its price. -/
def valuedLevel (provider : Provider) (entry : String × String) : Except String (Decimal × Level) :=
  match provider.decimalFromStr entry.1 with
  | some value => .ok (value, { price := entry.1, size := entry.2 })
  | none => .error "Invalid decimal"

variable (provider : Provider)

def sortedLevels
    (levels : Levels) (descending : Bool) : Except String (List Level) := do
  let values ← levels.toList.mapM (valuedLevel provider)
  let before (left right : Decimal × Level) : Bool :=
    if descending then right.1 ≤ left.1 else left.1 ≤ right.1
  .ok ((values.mergeSort before).map Prod.snd)

structure IngestOutcome where
  verifiedDepth : List DepthReceipt
  invalidatedTokens : List String
  controls : List String
  resyncRetryAfterMs : Option Nat
  deriving DecidableEq

def IngestOutcome.empty : IngestOutcome where
  verifiedDepth := []
  invalidatedTokens := []
  controls := []
  resyncRetryAfterMs := none

/-! ## Connections -/

structure Connection where
  epoch : String
  tokens : TreeMap String (String × TokenBook)
  subscribed : Bool

namespace Connection

def new (epoch : String) (tokens : TreeMap String String) : Except String Connection :=
  if epoch.isEmpty || tokens.isEmpty || 6 < tokens.size then
    .error "PN1 connection identity/budget"
  else if !tokens.toList.all (fun entry =>
      10 < entry.1.utf8ByteSize && entry.1.toList.all Char.isDigit &&
        entry.2.utf8ByteSize == 66 && Text.startsWith entry.2 "0x") then
    .error "PN1 token/condition identity"
  else
    .ok
      { epoch
        tokens := tokens.map fun _ condition => (condition, TokenBook.empty)
        subscribed := false }

def invalidateAll (connection : Connection) : Connection :=
  { connection with
    subscribed := false
    tokens := connection.tokens.map fun _ entry => (entry.1, entry.2.invalidate) }

/-- Replace the book of one token. -/
def setBook (connection : Connection) (token : String) (book : TokenBook) : Connection :=
  { connection with
    tokens := connection.tokens.adjust token fun entry => (entry.1, book) }

/-- Fence one token. -/
def fence (connection : Connection) (token : String) : Connection :=
  { connection with
    tokens := connection.tokens.adjust token fun entry => (entry.1, entry.2.invalidate) }

end Connection

/-! ## Depth updates -/

/-- What the receipts of one raw frame share. -/
structure FrameContext where
  batchTimeMs : Option Nat
  socketReceivedAt : String
  rawFrameSha256 : String

/-- What one update of a frame did. -/
inductive UpdateEffect
  /-- A trade, a notice without depth or a repeated frame. -/
  | ignored
  | fenced (token : String)
  | accepted (receipt : DepthReceipt)
  deriving DecidableEq

/-- Fence every token and fail. -/
def fault {α : Type} (cause : String) : Effect Connection String α := do
  modify Connection.invalidateAll
  Effect.fail cause

def integrityField (update : Json) (field : String) : Option Json :=
  (update.get? "integrity").bind (·.get? field)

def frameSequence (update : Json) : Option Nat :=
  (integrityField update "seq").bind asU64?

def frameChecksum (update : Json) : Option String :=
  (integrityField update "checksum").bind asString?

def observedCondition (update : Json) : Option String :=
  ((update.get? "condition_id").or (update.get? "market")).bind asString?

/-- The token the first row of a price change names. -/
def firstAsset (update : Json) : Option String :=
  ((((update.get? "assets").bind asArray?).bind List.head?).bind (·.get? "asset_id")).bind
    asString?

/-- The latest committed depth frame again: same sequence, same checksum. -/
def isRepeated (provider : Provider) (book : TokenBook) (update : Json) : Bool :=
  !isAnchor update && book.sequence == frameSequence update &&
    frameChecksum update == some (book.checksum provider)

def payloadOf (update : Json) (kind : String) (book : TokenBook) : Except String DepthPayload :=
  if isAnchor update then do
    let bids ← sortedLevels provider book.bids true
    let asks ← sortedLevels provider book.asks false
    .ok (.anchor bids asks)
  else do
    let prevSeq ← ((integrityField update "prev_seq").bind asU64?).elim
      (.error "verified PN1 prev_seq") .ok
    let changes ← changedLevels update kind
    .ok (.delta prevSeq changes)

variable (context : FrameContext)

/-- The receipt of a frame that the book has accepted. -/
def receiptOf
    (epoch token condition : String) (update : Json) (kind : String)
    (book : TokenBook) : Except String DepthReceipt := do
  let payload ← payloadOf provider update kind book
  let providerSeq ← book.sequence.elim (.error "verified PN1 seq") .ok
  .ok
    { tokenId := token
      conditionId := condition
      providerConnectionEpoch := epoch
      providerSeq
      providerChecksum := book.checksum provider
      providerBatchTimeMs := context.batchTimeMs
      socketReceivedAt := context.socketReceivedAt
      rawFrameSha256 := context.rawFrameSha256
      isAnchor := isAnchor update
      payload }

/-- A depth update of a token of the connection. -/
def ingestDepth (update : Json) (kind token condition : String)
    (book : TokenBook) : Effect Connection String UpdateEffect :=
  if kind = "price_change" ∧ firstAsset update ≠ some token then do
    modify (·.fence token)
    pure (.fenced token)
  else if observedCondition update ≠ some condition then do
    modify (·.fence token)
    pure (.fenced token)
  else if isRepeated provider book update then pure .ignored
  else
    match book.applyDepth provider update with
    | (.error _, after) => do
      modify (·.setBook token after)
      pure (.fenced token)
    | (.ok (), after) => do
      modify (·.setBook token after)
      let connection ← get
      let receipt ← lift
        (receiptOf provider context connection.epoch token condition update kind after)
      pure (.accepted receipt)

/-- A price change that says nothing about depth. -/
def isNotice (row : Json) : Bool :=
  (row.get? "size").isNone && (row.get? "side").isNone

/-- An update without the integrity envelope. -/
def ingestBare (update : Json) (kind : String) : Effect Connection String UpdateEffect :=
  if kind = "price_change" then do
    let assets ← lift (rows update "assets")
    if assets.all isNotice then pure .ignored
    else fault "PN1 depth update lacks integrity"
  else fault "PN1 depth update lacks integrity"

def isDepthKind (kind : String) : Bool :=
  kind == "book_snapshot" || kind == "book_update" || kind == "price_change"

def isControlKind (kind : String) : Bool :=
  kind == "resyncing" || kind == "snapshots_done" || kind == "pong"

def ingestUpdate
    (update : Json) : Effect Connection String UpdateEffect := do
  let kind ← need ((update.get? "type").bind asString?) "PN1 update type"
  if kind = "last_trade_price" then do
    ensure (update.get? "integrity").isNone "PN1 trade cannot carry depth integrity"
    pure .ignored
  else if isControlKind kind then fault "PN1 control nested inside depth batch"
  else if !isDepthKind kind then fault "unknown PN1 update type"
  else if (update.get? "integrity").isNone then ingestBare update kind
  else do
    let token ← need ((update.get? "asset_id").bind asString?) "PN1 token id"
    let connection ← get
    match connection.tokens[token]? with
    | none => fault "PN1 update outside acknowledged token set"
    | some (condition, book) => ingestDepth provider context update kind token condition book

/-- An update the parser got to, what it did and the connection after it. -/
structure Processed where
  update : Json
  effect : UpdateEffect
  after : Connection

def processUpdate
    (update : Json) : Effect Connection String Processed := do
  let effect ← ingestUpdate provider context update
  let after ← get
  pure { update, effect, after }

def IngestOutcome.record (outcome : IngestOutcome) (processed : Processed) : IngestOutcome :=
  match processed.effect with
  | .ignored => outcome
  | .fenced token =>
    { outcome with invalidatedTokens := outcome.invalidatedTokens ++ [token] }
  | .accepted receipt =>
    { outcome with verifiedDepth := outcome.verifiedDepth ++ [receipt] }

/-! ## Raw frames -/

/-- The outcome of a raw frame and the updates behind it. -/
structure Ingested where
  outcome : IngestOutcome
  updates : List Processed

/-- The outcome of a control frame. -/
def controlled (outcome : IngestOutcome) : Ingested where
  outcome := outcome
  updates := []

def retryAfter (value : Json) : Nat :=
  min (((value.get? "retry_after_ms").bind asU64?).getD 250) 5000

def resyncInProgress (value : Json) : Ingested :=
  controlled
    { IngestOutcome.empty with
      controls := ["resync_in_progress"]
      resyncRetryAfterMs := some (retryAfter value) }

def ingestAcknowledgement (value : Json) : Effect Connection String Ingested := do
  let connection ← get
  if integrityField value "enabled" ≠ some (.bool true) ∨
      (integrityField value "protocol").bind asString? ≠ some "pn1" ∨
        (value.get? "markets").bind asU64? ≠ some connection.tokens.size then
    fault "PN1 subscription not acknowledged for exact tokens"
  else do
    modify fun connection => { connection.invalidateAll with subscribed := true }
    pure (controlled { IngestOutcome.empty with controls := ["subscribed"] })

/-- Fence one token a resync notice names. -/
def resyncToken (item : Json) : Effect Connection String String := do
  let token ← need item.asString? "PN1 resync token"
  let connection ← get
  ensure (connection.tokens.contains token) "PN1 resync token outside subscription"
  modify (·.fence token)
  pure token

/-- Fence every token, with the connection still subscribed. -/
def Connection.fenceAll (connection : Connection) : Connection :=
  { connection with
    tokens := connection.tokens.map fun _ entry => (entry.1, entry.2.invalidate) }

/-- Fence the tokens a resync notice names, or all of them. -/
def resyncTokens (value : Json) : Effect Connection String (List String) :=
  match (value.get? "markets").bind asArray? with
  | some markets => collect resyncToken markets
  | none => do
    let connection ← get
    modify Connection.fenceAll
    pure connection.tokens.keyList

def ingestResync (value : Json) : Effect Connection String Ingested := do
  let invalidatedTokens ← resyncTokens value
  pure (controlled { IngestOutcome.empty with invalidatedTokens, controls := ["resyncing"] })

/-- The updates of a frame: its own, or those of a batch with its time. -/
def updatesOf (value : Json) (kind : String) : Except String (Option Nat × List Json) :=
  if kind = "batch" then do
    let time ← ((value.get? "ts").bind asU64?).elim (.error "PN1 batch ts") .ok
    let updates ← ((value.get? "updates").bind asArray?).elim
      (.error "PN1 batch updates") .ok
    if (value.get? "count").bind asU64? ≠ some updates.length then
      .error "PN1 batch count mismatch"
    else .ok (some time, updates)
  else .ok (none, [value])

def ingestUpdates (updates : List Json) : Effect Connection String (List Processed) :=
  collect (processUpdate provider context) updates

def ingestData
    (raw socketReceivedAt : String) (value : Json)
    (kind : String) : Effect Connection String Ingested := do
  let (batchTimeMs, updates) ← lift (updatesOf value kind)
  let context : FrameContext :=
    { batchTimeMs
      socketReceivedAt
      rawFrameSha256 := Text.hexEncode (provider.sha256 raw.toUTF8.toList).toList }
  let updates ← ingestUpdates provider context updates
  pure { outcome := updates.foldl IngestOutcome.record IngestOutcome.empty, updates }

/-- A frame that reports no error, by its type. -/
def ingestTyped (raw socketReceivedAt : String) (value : Json)
    (kind : String) : Effect Connection String Ingested :=
  if kind = "subscribed" then ingestAcknowledgement value
  else do
    let connection ← get
    ensure connection.subscribed "PN1 data before subscription acknowledgement"
    if kind = "resyncing" then ingestResync value
    else if kind = "pong" ∨ kind = "snapshots_done" then
      pure (controlled { IngestOutcome.empty with controls := [kind] })
    else if kind = "resync_in_progress" then pure (resyncInProgress value)
    else ingestData provider raw socketReceivedAt value kind

def ingestValue
    (raw socketReceivedAt : String) (value : Json) : Effect Connection String Ingested := do
  let connection ← get
  match (value.get? "error").bind asString? with
  | some error =>
    if error = "resync_in_progress" ∧ connection.subscribed then pure (resyncInProgress value)
    else fault "PN1 provider rejected subscription or integrity recovery"
  | none =>
    match (value.get? "type").bind asString? with
    | none => fault "PN1 frame type missing"
    | some kind => ingestTyped provider raw socketReceivedAt value kind

def ingestInner
    (raw socketReceivedAt : String) : Effect Connection String Ingested := do
  ensure (raw.utf8ByteSize ≤ 2 * 1024 * 1024) "PN1 frame byte limit"
  match provider.fromStr raw with
  | none => fault "PN1 frame is not JSON"
  | some value => ingestValue provider raw socketReceivedAt value

/-- A failure fences every token. -/
def fencing {α : Type} (computation : Effect Connection String α) : Effect Connection String α :=
  fun connection =>
    match computation connection with
    | (.ok value, after) => (.ok value, after)
    | (.error cause, after) => (.error cause, after.invalidateAll)

namespace Connection

/-- Take one raw frame, with the record of its updates. -/
def ingestRecorded
    (provider : Provider) (raw socketReceivedAt : String) : Effect Connection String Ingested :=
  fencing (ingestInner provider raw socketReceivedAt)

/-- Take one raw frame. A failed frame fences every token. -/
def ingest
    (provider : Provider)
    (raw socketReceivedAt : String) : Effect Connection String IngestOutcome := do
  let ingested ← ingestRecorded provider raw socketReceivedAt
  pure ingested.outcome

end Connection

end MarketCow.Polynode
