import MarketCow.Discovery.Validation
import MarketCow.Library.MapSums

/-!
# The stored index

The tables of the index beside the event log, the manifest that readers compare
it with, and how a writer is opened on them.
-/

namespace MarketCow.Discovery

open Library

/-! ## Tables -/

/-- A stored text with its checksum. -/
structure StoredRow where
  payload : Bytes
  sha256 : String
  deriving DecidableEq

/-- The row of a value: its text and the checksum of the text. -/
def Externals.row (externals : Externals) (value : Json) : StoredRow where
  payload := externals.json.toVec value
  sha256 := sha256 (externals.json.toVec value)

structure BookRow extends StoredRow where
  marketId : String
  cursor : Nat
  deriving DecidableEq

structure LifecycleRow extends StoredRow where
  cursor : Nat
  deriving DecidableEq

/-- A row of the cold catalog or of the cold evidence. -/
structure ColdRow extends StoredRow where
  marketId : String
  retiredAfter : Nat
  deriving DecidableEq

structure OffsetRow where
  byteOffset : Nat
  byteLength : Nat
  eventId : String
  marketId : String
  tokenId : Option String
  lineSha256 : String
  deriving DecidableEq

structure StreamKey where
  marketId : String
  streamEpoch : String
  deriving DecidableEq

/-- The columns of the key in order. -/
def StreamKey.columns (key : StreamKey) : List String := [key.marketId, key.streamEpoch]

instance : Ord StreamKey where
  compare first second := compare first.columns second.columns

instance : Std.TransOrd StreamKey :=
  inferInstanceAs (Std.TransCmp (compareOn StreamKey.columns))

structure StreamRow where
  durableCursor : Nat
  replayFloor : Nat
  deriving DecidableEq

structure GroupRow where
  stream : StreamKey
  marketCursor : Nat
  firstGlobalCursor : Nat
  lastGlobalCursor : Nat
  groupSha256 : String
  deriving DecidableEq

structure NativeGroupRow where
  stream : StreamKey
  marketCursor : Nat
  firstEventCursor : Nat
  deriving DecidableEq

/-- The metadata of a bounded history, which is written as a whole. -/
structure HistoryMetadata where
  boundedHistoryBytes : Nat
  historyFloorCursor : Nat
  recentEventBytes : Nat
  deriving DecidableEq

structure Metadata where
  schemaVersion : String
  catalogRevision : String
  activeRecoveryId : String
  unresolvedGapCount : Nat
  eventLogSize : Nat
  latestCursor : Nat
  bookTokenCount : Nat
  bookCompleteMarketCount : Nat
  oldestBookReceivedAt : Option Int
  history : Option HistoryMetadata
  deriving DecidableEq

/-- Rows of the cold tables and of the groups are listed as they were inserted. -/
structure Index where
  metadata : Metadata
  unresolvedGaps : Nat
  eventOffsets : TreeMap Nat OffsetRow
  recentEvents : TreeMap Nat StoredRow
  books : TreeMap String BookRow
  bookConfirmations : TreeSet String
  sourceTokenRecoveries : TreeMap String StoredRow
  marketLifecycle : TreeMap String LifecycleRow
  coldMarketCatalog : List ColdRow
  coldMarketEvidence : List ColdRow
  marketStreams : TreeMap StreamKey StreamRow
  marketGroups : List GroupRow
  marketNativeGroups : List NativeGroupRow
  marketNativeStreams : TreeMap StreamKey Nat

structure Manifest where
  catalogRevision : String
  latestCursor : Nat
  activeRecoveryId : String
  bookTokenCount : Nat
  bookCompleteMarketCount : Nat
  unresolvedGapCount : Nat
  oldestBookReceivedAt : Option Int
  deriving DecidableEq

/-- The directory of a generation; `pending` says that the scratch file of the
manifest is there. -/
structure Files where
  log : Bytes
  index : Index
  manifest : Option Manifest
  pending : Bool

def stateIndexVersion : String := "marketcow.polymarket.state-index.v1"

/-! ## The writer -/

structure BookHealth where
  marketId : String
  receivedAt : Int
  complete : Bool
  deriving DecidableEq

section Books

variable (externals : Externals)

def isSomeArray (value : Json) : Bool :=
  match value.asArray? with
  | some items => !items.isEmpty
  | none => false

def BookHealth.fromBook (marketId : String) (book : Json) : Except String BookHealth := do
  let text ← required book "received_at"
  let receivedAt ← need (externals.parseTime text) "invalid received_at"
  .ok
    { marketId
      receivedAt
      complete := isSomeArray (field book "bids") && isSomeArray (field book "asks") }

end Books

/-- The writer of a prepared source in memory, with the files it holds. -/
structure Writer where
  files : Files
  recoveries : TreeMap String Json
  terminalMarkets : TreeSet String
  maximumBatchBytes : Nat
  poisoned : Bool
  historyLimit : Option Nat
  health : TreeMap String BookHealth
  tokenMarkets : TreeMap String String

namespace Writer

def index (writer : Writer) : Index := writer.files.index

def cursor (writer : Writer) : Nat := writer.index.metadata.latestCursor

end Writer

/-! ## Opening -/

section Open

variable (externals : Externals)

/-- The bound of the query that loads the recoveries. -/
def recoveryQueryLimit : Nat := 2049

def isNonemptyText (value : Json) : Bool :=
  match value with
  | .string text => !text.isEmpty
  | _ => false

/-- A text of at most as many bytes. -/
def isShortText (limit : Nat) (value : Json) : Bool :=
  match value with
  | .string text => decide (text.utf8ByteSize ≤ limit)
  | _ => false

/-- The checks of a stored recovery. -/
def isStoredRecovery (token : String) (model : Json) : Bool :=
  !token.isEmpty && decide (token.utf8ByteSize ≤ 128) &&
    field model "token_id" == .string token &&
    field (field model "gap") "token_id" == .string token &&
    field (field model "gap") "resolved" == .bool false &&
    field (field model "gap") "code" == .string "coverage_gap" &&
    Json.isString (field (field model "gap") "detected_at") &&
    isNonemptyText (field model "market_id") &&
    isNonemptyText (field model "condition_id") &&
    (isNonemptyText (field model "recovery_id") && isShortText 128 (field model "recovery_id")) &&
    (field model "snapshot_cursor" == .null ||
      (field model "snapshot_cursor").asU64?.any fun cursor => decide (0 < cursor))

def loadTokenRecovery (result : TreeMap String Json) (entry : String × StoredRow) :
    Except String (TreeMap String Json) := do
  ensure (decide (result.size < maxSourceTokenIdentities)) "stored recovery limit"
  ensure (decide (entry.2.payload.length ≤ 65536) && sha256 entry.2.payload == entry.2.sha256)
    "recovery checksum/cap"
  let model ← need (externals.json.fromSlice entry.2.payload) "invalid recovery"
  ensure (isStoredRecovery entry.1 model) "recovery identity"
  .ok (result.insert entry.1 model)

/-- The query names no order; one beyond its bound is refused by its caller. -/
def loadTokenRecoveries (index : Index) : Except String (TreeMap String Json) :=
  (index.sourceTokenRecoveries.toList.take recoveryQueryLimit).foldlM
    (loadTokenRecovery externals) ∅

def isTerminalState (model : Json) : Bool :=
  field model "lifecycle_state" == .string "closed" ||
    field model "lifecycle_state" == .string "resolved"

def Index.isCold (index : Index) (market : String) : Bool :=
  index.coldMarketCatalog.any fun row => row.marketId == market

def loadTerminalMarket (result : TreeSet String) (entry : String × LifecycleRow) :
    Except String (TreeSet String) := do
  ensure (sha256 entry.2.payload == entry.2.sha256) "terminal lifecycle hash mismatch"
  let model ← need (externals.json.fromSlice entry.2.payload) "invalid lifecycle"
  .ok (if isTerminalState model then result.insert entry.1 else result)

/-- The markets with a lifecycle row that never were in the cold catalog. -/
def loadTerminalMarkets (index : Index) : Except String (TreeSet String) :=
  (index.marketLifecycle.toList.filter fun entry => !index.isCold entry.1).foldlM
    (loadTerminalMarket externals) ∅

/-- A recovery whose market is closed. -/
def isStale (terminalMarkets : TreeSet String) (recovery : Json) : Bool :=
  match field recovery "market_id" with
  | .string market => terminalMarkets.contains market
  | _ => false

/-- Drop the recoveries of closed markets from the stored table. -/
def Index.reconcile
    (index : Index) (terminalMarkets : TreeSet String) (recoveries : TreeMap String Json) : Index :=
  let stale := recoveries.filter fun _ recovery => isStale terminalMarkets recovery
  if stale.isEmpty then index
  else
    { index with
      sourceTokenRecoveries :=
        index.sourceTokenRecoveries.filter fun token _ => !stale.contains token
      metadata :=
        { index.metadata with
          unresolvedGapCount :=
            (recoveries.filter fun _ recovery => !isStale terminalMarkets recovery).size } }

/-- The end of the log is the last event that the index knows. -/
def checkLogTail (maximumBatchBytes : Nat) (log : Bytes) (index : Index) : Except String Unit := do
  let size := index.metadata.eventLogSize
  let cursor := index.metadata.latestCursor
  ensure (log.length == size) "unindexed or missing log tail; explicit recovery required"
  if cursor = 0 then .ok ()
  else
    ensure (decide (cursor < 2 ^ 63)) "cursor out of range"
    let row ← need index.eventOffsets[cursor]? "missing tail row"
    ensure (decide (row.byteLength ≤ maximumBatchBytes) &&
        row.byteOffset + row.byteLength == size)
      "invalid tail boundary"
    ensure (sha256 ((log.drop row.byteOffset).take row.byteLength) == row.lineSha256)
      "tail checksum mismatch"

/-- The sizes of the stored payloads. -/
def recentBytes (events : TreeMap Nat StoredRow) : Nat :=
  TreeMap.sum (fun row => row.payload.length) events

/-- The bounded history ends with the last event and accounts for its rows. -/
def checkHistory
    (history : HistoryMetadata) (index : Index)
    (recoveries : TreeMap String Json) : Except String Unit := do
  let cursor := index.metadata.latestCursor
  let latest := index.recentEvents.lastKey?
  if cursor = 0 then
    ensure (latest.isNone && index.metadata.eventLogSize == 0 && history.recentEventBytes == 0 &&
        history.historyFloorCursor == 0)
      "invalid empty bounded boundary"
    ensure (index.books.isEmpty && recoveries.isEmpty) "empty boundary has source state"
  else
    ensure (latest == some cursor) "bounded history boundary mismatch"
    ensure (decide (cursor < 2 ^ 63)) "cursor out of range"
    let row ← need index.recentEvents[cursor]? "missing recent event"
    ensure (sha256 row.payload == row.sha256) "bounded history checksum mismatch"
    ensure (recentBytes index.recentEvents == history.recentEventBytes &&
        index.recentEvents.firstKey? == some (history.historyFloorCursor + 1))
      "bounded history accounting mismatch"

def checkBoundary (maximumBatchBytes : Nat) (log : Bytes) (index : Index)
    (recoveries : TreeMap String Json) : Except String Unit :=
  match index.metadata.history with
  | none => checkLogTail maximumBatchBytes log index
  | some history => checkHistory history index recoveries

def loadBook (result : TreeMap String BookHealth) (entry : String × BookRow) :
    Except String (TreeMap String BookHealth) := do
  let book ← need (externals.json.fromSlice entry.2.payload) "invalid book"
  let health ← BookHealth.fromBook externals entry.2.marketId book
  .ok (result.insert entry.1 health)

def loadHealth (index : Index) : Except String (TreeMap String BookHealth) :=
  index.books.toList.foldlM (loadBook externals) ∅

/-- What opening reads before it changes anything: the recoveries and the markets
that are closed. -/
def readRecoveries (maximumBatchBytes : Nat) (index : Index) :
    Except String (TreeMap String Json × TreeSet String) := do
  ensure (decide (0 < maximumBatchBytes)) "batch byte budget is required"
  ensure (index.metadata.schemaVersion == stateIndexVersion) "wrong source schema"
  let recoveries ← loadTokenRecoveries externals index
  ensure (index.metadata.unresolvedGapCount == recoveries.size)
    "source recovery required: unaccounted gaps"
  ensure (index.unresolvedGaps == 0) "source gap ledger disagrees"
  let terminalMarkets ← loadTerminalMarkets externals index
  .ok (recoveries, terminalMarkets)

/-- Open the writer. The stale recoveries are dropped from the index before the
log is checked, and the scratch manifest is removed after everything else. -/
def openWriter (maximumBatchBytes : Nat) (files : Files) : Except String Writer × Files :=
  match readRecoveries externals maximumBatchBytes files.index with
  | .error cause => (.error cause, files)
  | .ok (stored, terminalMarkets) =>
    let reconciled :=
      { files with index := files.index.reconcile terminalMarkets stored }
    let recoveries := stored.filter fun _ recovery => !isStale terminalMarkets recovery
    let read : Except String (TreeMap String BookHealth) := do
      checkBoundary maximumBatchBytes files.log reconciled.index recoveries
      loadHealth externals reconciled.index
    match read with
    | .error cause => (.error cause, reconciled)
    | .ok health =>
      let cleared := { reconciled with pending := false }
      (.ok
        { files := cleared
          recoveries
          terminalMarkets
          maximumBatchBytes
          poisoned := false
          historyLimit :=
            reconciled.index.metadata.history.map HistoryMetadata.boundedHistoryBytes
          health
          tokenMarkets := health.map fun _ summary => summary.marketId },
        cleared)

end Open

end MarketCow.Discovery
