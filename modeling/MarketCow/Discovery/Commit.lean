import MarketCow.Discovery.Batches
import MarketCow.Discovery.Index

/-!
# The durable commit

One batch is written to the log, indexed in one transaction and announced in
the manifest, in this order. The writer is poisoned before the first of these
steps and usable again after the last.
-/

namespace MarketCow.Discovery

open Library

/-! ## Where the storage stops

The storage may fail, or the process may stop, at each step of a commit. What
the files hold then is the same in both cases. -/

/-- The step that is not completed. -/
inductive Stop
  /-- The budget of the write-ahead file is exhausted. -/
  | budget
  /-- The publication lock is taken, or no transaction begins. -/
  | lock
  /-- Of the new lines, these bytes reached the log. -/
  | writing (kept : Nat)
  /-- The log is complete and the transaction is rolled back. -/
  | committing
  /-- The transaction is committed; the scratch manifest may be there. -/
  | manifest (scratch : Bool)
  /-- The manifest is replaced, and the directory is not flushed. -/
  | renamed
  deriving DecidableEq

/-! ## Checks before the commit -/

section Checks

variable (externals : Externals)

/-- What the check of the groups carries from one to the next. -/
structure GroupScan where
  offset : Nat
  nextByStream : TreeMap StreamKey Nat

def MarketGroupProof.stream (group : MarketGroupProof) : StreamKey where
  marketId := group.marketId
  streamEpoch := group.streamEpoch

/-- The number of events of a group. -/
def MarketGroupProof.count (group : MarketGroupProof) : Nat :=
  group.lastGlobalCursor - group.firstGlobalCursor + 1

def durableCursorOf (index : Index) (stream : StreamKey) : Nat :=
  (index.marketStreams[stream]?.map StreamRow.durableCursor).getD 0

def validateMarketGroupProof
    (index : Index) (events : List Json) (scan : GroupScan)
    (group : MarketGroupProof) : Except String GroupScan := do
  ensure (!group.marketId.isEmpty && !group.streamEpoch.isEmpty &&
      decide (0 < group.marketCursor) && decide (0 < group.firstGlobalCursor) &&
      decide (0 < group.firstEventCursor) &&
      decide (group.firstGlobalCursor ≤ group.lastGlobalCursor))
    "invalid market group boundary"
  ensure (decide (scan.offset + group.count ≤ events.length)) "market group exceeds batch"
  let slice := (events.drop scan.offset).take group.count
  ensure (slice.zipIdx.all fun entry =>
      field entry.1 "market_id" == .string group.marketId &&
        (field entry.1 "cursor").asU64? == checkedAdd group.firstEventCursor entry.2)
    "market group does not cover exact public events"
  ensure (group.nativeCursor || group.firstEventCursor == group.firstGlobalCursor)
    "physical group cursor domain differs"
  let commitment ← marketGroupHash externals group.marketId group.streamEpoch group.marketCursor
    slice
  ensure (commitment == group.groupSha256) "market group commitment differs"
  let previous := scan.nextByStream.getD group.stream (durableCursorOf index group.stream)
  ensure (checkedAdd previous 1 == some group.marketCursor)
    "market durable cursor is not contiguous"
  .ok
    { offset := scan.offset + group.count
      nextByStream := scan.nextByStream.insert group.stream group.marketCursor }

/-- The groups cover the events of the batch and continue their streams. -/
def validateMarketGroupProofs
    (index : Index) (events : List Json) (groups : List MarketGroupProof) : Except String Unit :=
  if groups.isEmpty then .ok ()
  else do
    let scan ← groups.foldlM (validateMarketGroupProof externals index events)
      { offset := 0, nextByStream := ∅ }
    ensure (scan.offset == events.length) "market groups leave uncovered events"

/-- One group takes the next archive positions. -/
def archivePosition (next : Nat) (group : MarketGroupProof) : Except String Nat := do
  ensure (group.firstGlobalCursor == next) "market group archive position differs"
  need (checkedAdd group.lastGlobalCursor 1) "archive cursor overflow"

def checkArchivePositions (cursor count : Nat) (groups : List MarketGroupProof) :
    Except String Unit :=
  if groups.isEmpty then .ok ()
  else do
    let first ← need (checkedAdd cursor 1) "archive cursor overflow"
    let next ← groups.foldlM archivePosition first
    let finish ← need (checkedAdd cursor (count + 1)) "archive cursor overflow"
    ensure (next == finish) "market groups do not cover archive batch"

/-- No event of a market that is closed. -/
def checkFence (terminal : Bool) (terminalMarkets : TreeSet String) (events : List Json) :
    Except String Unit :=
  if terminal then .ok ()
  else
    ensure (events.all fun event =>
        match field event "market_id" with
        | .string market => !terminalMarkets.contains market
        | _ => false)
      "event targets durable terminal market"

/-- A terminal event removes the recoveries of the tokens it retires. -/
def retireRecoveries (terminal : Bool) (events : List Json) (recoveries : TreeMap String Json) :
    Except String (TreeMap String Json) :=
  if terminal then do
    let first ← need events.head? "empty batch"
    let retired ← retiredItems first
    retired.foldlM
      (fun state token => do
        let token ← retiredToken token
        .ok (state.erase token))
      recoveries
  else .ok recoveries

/-- The recoveries after a batch. -/
def nextRecoveries (terminal : Bool) (events : List Json) (recoveries : TreeMap String Json) :
    Except String (TreeMap String Json) := do
  let recoveries ← retireRecoveries terminal events recoveries
  events.foldlM applyTokenRecovery recoveries

end Checks

/-! ## The transaction -/

/-- What the loop over the events changes: the log, and the index and the book
health as the transaction sees them. -/
structure Session where
  log : Bytes
  offset : Nat
  index : Index
  health : TreeMap String BookHealth

section Events

variable (externals : Externals)

/-- Integer columns hold signed 64-bit numbers. -/
def column (value : Nat) : Except String Nat := do
  ensure (decide (value < 2 ^ 63)) "integer out of range"
  .ok value

def insertRecentEvent (eventCursor : Nat) (line : Bytes) (index : Index) : Except String Index := do
  let key ← column eventCursor
  ensure (!index.recentEvents.contains key) "recent event exists"
  .ok { index with
    recentEvents := index.recentEvents.insert key { payload := line, sha256 := sha256 line } }

def insertEventOffset
    (eventCursor offset : Nat) (market : String) (event : Json) (line : Bytes)
    (index : Index) : Except String Index := do
  let key ← column eventCursor
  let byteOffset ← column offset
  let byteLength ← column line.length
  let eventId ← required event "event_id"
  ensure (!index.eventOffsets.contains key) "event offset exists"
  .ok { index with
    eventOffsets := index.eventOffsets.insert key
      { byteOffset
        byteLength
        eventId
        marketId := market
        tokenId := (field event "token_id").asString?
        lineSha256 := sha256 line } }

/-- An existing row keeps its market. -/
def upsertBook (token market : String) (eventCursor : Nat) (book : Json)
    (books : TreeMap String BookRow) : TreeMap String BookRow :=
  let owner := (books[token]?.map BookRow.marketId).getD market
  books.insert token
    { toStoredRow := externals.row book
      marketId := owner
      cursor := eventCursor }

/-- The book after an event: the one that was materialized for it, or its payload. -/
def storedBook (books : TreeMap Nat Json) (publicCursor : Nat) (event : Json) : Json :=
  books[publicCursor]?.getD (field event "canonical_payload")

def storeBook
    (materializedBooks : TreeMap Nat Json) (market : String) (publicCursor eventCursor : Nat)
    (event : Json) (session : Session) : Except String Session := do
  let token ← need (field event "token_id").asString? "missing book token"
  let state := storedBook materializedBooks publicCursor event
  let payload := field event "canonical_payload"
  ensure (!Json.isString (field payload "payload_semantics") ||
      field payload "canonical_book_sha256" == .string (externals.canonicalHash state))
    "compact durable book commitment differs"
  let summary ← BookHealth.fromBook externals market state
  .ok { session with
    index :=
      { session.index with
        books := upsertBook externals token market eventCursor state session.index.books
        bookConfirmations := session.index.bookConfirmations.erase token }
    health := session.health.insert token summary }

/-- The archive position of the event at a place of its batch. -/
def insertEvent (bounded : Bool) (eventCursor : Nat) (market : String) (event : Json) (line : Bytes)
    (session : Session) : Except String Index :=
  if bounded then insertRecentEvent eventCursor line session.index
  else insertEventOffset eventCursor session.offset market event line session.index

/-- What an event is stored as besides its line: a lifecycle row, nothing, or a book. -/
def storeEventKind (terminal : Bool) (materializedBooks : TreeMap Nat Json) (market : String)
    (publicCursor eventCursor : Nat) (event : Json) (session : Session) : Except String Session :=
  if terminal then
    let model := field (field event "canonical_payload") "market"
    .ok { session with
      index :=
        { session.index with
          marketLifecycle := session.index.marketLifecycle.insert market
            { toStoredRow := externals.row model
              cursor := eventCursor } } }
  else if isTokenRecovery event then .ok session
  else storeBook externals materializedBooks market publicCursor eventCursor event session

/-- The part of one event in the transaction. -/
def storeEvent
    (bounded terminal native : Bool) (cursor : Nat) (materializedBooks : TreeMap Nat Json)
    (event : Json) (line : Bytes) (position : Nat) (session : Session) : Except String Session := do
  let market ← required event "market_id"
  let publicCursor ← need (field event "cursor").asU64? "missing cursor"
  let eventCursor ← need (checkedAdd cursor (position + 1)) "archive cursor overflow"
  ensure (native || publicCursor == eventCursor) "physical event cursor differs"
  let index ← insertEvent bounded eventCursor market event line session
  let stored ← storeEventKind externals terminal materializedBooks market publicCursor eventCursor
    event { session with index := index }
  .ok { stored with offset := stored.offset + line.length }

/-- One event: its line goes to the log before the index sees it, and stays there
when the index refuses it. -/
def appendEvent
    (bounded terminal native : Bool) (cursor : Nat) (materializedBooks : TreeMap Nat Json)
    (session : Session) (entry : (Json × Bytes) × Nat) : Except (String × Bytes) Session :=
  let ((event, line), position) := entry
  let log := if bounded then session.log else session.log ++ line
  (storeEvent externals bounded terminal native cursor materializedBooks event line position
    { session with log }).mapError fun cause => (cause, log)

def appendEvents
    (bounded terminal native : Bool) (cursor : Nat) (materializedBooks : TreeMap Nat Json)
    (events : List Json) (lines : List Bytes)
    (session : Session) : Except (String × Bytes) Session :=
  (events.zip lines).zipIdx.foldlM
    (appendEvent externals bounded terminal native cursor materializedBooks) session

end Events

section Groups

def storeStream (group : MarketGroupProof) (streams : TreeMap StreamKey StreamRow) :
    TreeMap StreamKey StreamRow :=
  let floor := (streams[group.stream]?.map StreamRow.replayFloor).getD 0
  streams.insert group.stream
    { durableCursor := group.marketCursor
      replayFloor := floor }

def storeNativeGroup (index : Index) (group : MarketGroupProof) : Except String Index := do
  let firstEventCursor ← column group.firstEventCursor
  ensure (!index.marketNativeGroups.any fun row =>
      decide (row.stream = group.stream ∧ row.marketCursor = group.marketCursor))
    "native market group exists"
  let last ← need
    (checkedAdd group.firstEventCursor (group.lastGlobalCursor - group.firstGlobalCursor))
    "native market cursor overflow"
  let last ← column last
  .ok { index with
    marketNativeGroups := index.marketNativeGroups ++
      [{ stream := group.stream, marketCursor := group.marketCursor, firstEventCursor }]
    marketNativeStreams := index.marketNativeStreams.insert group.stream last }

def storeGroup (index : Index) (group : MarketGroupProof) : Except String Index := do
  let marketCursor ← column group.marketCursor
  let firstGlobalCursor ← column group.firstGlobalCursor
  let lastGlobalCursor ← column group.lastGlobalCursor
  ensure (!index.marketGroups.any fun row =>
      decide (row.stream = group.stream ∧ row.marketCursor = group.marketCursor))
    "market group exists"
  let index :=
    { index with
      marketGroups := index.marketGroups ++
        [{ stream := group.stream
           marketCursor
           firstGlobalCursor
           lastGlobalCursor
           groupSha256 := group.groupSha256 }] }
  let index ← if group.nativeCursor then storeNativeGroup index group else .ok index
  .ok { index with marketStreams := storeStream group index.marketStreams }

end Groups

section Recoveries

variable (externals : Externals)

/-- Write the recoveries that changed and delete those that are gone. -/
def storeRecoveries (before after : TreeMap String Json)
    (table : TreeMap String StoredRow) : TreeMap String StoredRow :=
  let gone := before.keyList.filter fun token => !after.contains token
  let kept := gone.foldl (fun table token => table.erase token) table
  after.toList.foldl
    (fun table entry =>
      if before[entry.1]? = some entry.2 then table
      else table.insert entry.1 (externals.row entry.2))
    kept

end Recoveries

section Eviction

/-- Delete the oldest events until the rest fits: what remains, and the last event
that was deleted. -/
def evict (limit : Nat) (rows : List (Nat × StoredRow)) (bytes : Nat) :
    Except String (Nat × Option Nat) :=
  if bytes ≤ limit then .ok (bytes, none)
  else
    match rows with
    | [] => .error "no recent event"
    | (oldest, row) :: rows => do
      let (remaining, pruned) ← evict limit rows (bytes - row.payload.length)
      .ok (remaining, some (pruned.getD oldest))

/-- Raise the floor of a stream over one of its groups. -/
def expireGroup (streams : TreeMap StreamKey StreamRow) (row : GroupRow) :
    TreeMap StreamKey StreamRow :=
  TreeMap.adjust streams row.stream fun stream =>
    { stream with replayFloor := max stream.replayFloor row.marketCursor }

/-- A group that lost an event is not replayable. -/
def expireGroups (prunedThrough : Nat) (index : Index) : Index :=
  let expired := index.marketGroups.filter fun row => decide (row.firstGlobalCursor ≤ prunedThrough)
  let groups := index.marketGroups.filter fun row => decide (prunedThrough < row.firstGlobalCursor)
  { index with
    marketStreams := expired.foldl expireGroup index.marketStreams
    marketGroups := groups
    marketNativeGroups := index.marketNativeGroups.filter fun native =>
      groups.any fun row =>
        decide (row.stream = native.stream ∧ row.marketCursor = native.marketCursor) }

/-- Keep the stored events within the budget of the history. -/
def boundHistory (history : HistoryMetadata) (limit added : Nat) (index : Index) :
    Except String Index := do
  let (bytes, pruned) ← evict limit index.recentEvents.toList (history.recentEventBytes + added)
  match pruned with
  | none =>
    .ok { index with
      metadata :=
        { index.metadata with history := some { history with recentEventBytes := bytes } } }
  | some prunedThrough =>
    .ok { expireGroups prunedThrough index with
      recentEvents := index.recentEvents.filter fun key _ => decide (prunedThrough < key)
      metadata :=
        { index.metadata with
          history := some { history with
            recentEventBytes := bytes
            historyFloorCursor := prunedThrough } } }

end Eviction

/-! ## Book health -/

def oldestReceivedAt (health : TreeMap String BookHealth) : Option Int :=
  health.valueList.foldl
    (fun oldest summary => some (oldest.elim summary.receivedAt (min summary.receivedAt))) none

/-- The markets of which both books are complete. -/
def completeMarketCount (health : TreeMap String BookHealth) : Nat :=
  let complete := (health.valueList.filter BookHealth.complete).map BookHealth.marketId
  (complete.eraseDups.filter fun market => complete.count market == 2).length

/-- Book health in the metadata. -/
def Metadata.withHealth (metadata : Metadata) (health : TreeMap String BookHealth) : Metadata :=
  { metadata with
    bookTokenCount := health.size
    bookCompleteMarketCount := completeMarketCount health
    oldestBookReceivedAt := oldestReceivedAt health }

def Metadata.manifest (metadata : Metadata) : Manifest where
  catalogRevision := metadata.catalogRevision
  latestCursor := metadata.latestCursor
  activeRecoveryId := metadata.activeRecoveryId
  bookTokenCount := metadata.bookTokenCount
  bookCompleteMarketCount := metadata.bookCompleteMarketCount
  unresolvedGapCount := metadata.unresolvedGapCount
  oldestBookReceivedAt := metadata.oldestBookReceivedAt

/-! ## The commit -/

/-- What a batch brings to a commit. -/
structure CommitInput where
  events : List Json
  lines : List Bytes
  terminal : Bool
  cursor : Nat
  materializedBooks : TreeMap Nat Json
  marketGroups : List MarketGroupProof

section Commit

variable (externals : Externals)

/-- Everything that is checked before the writer is poisoned, and the recoveries
after the batch. -/
def checkCommit (writer : Writer) (input : CommitInput) (stop : Option Stop) :
    Except String (TreeMap String Json) := do
  validateMarketGroupProofs externals writer.index input.events input.marketGroups
  checkArchivePositions input.cursor input.events.length input.marketGroups
  checkFence input.terminal writer.terminalMarkets input.events
  ensure (writer.historyLimit.isNone || stop != some .budget)
    "bounded history WAL budget exhausted: reader/checkpoint maintenance required"
  nextRecoveries input.terminal input.events writer.recoveries

def startSession (writer : Writer) : Session where
  log := writer.files.log
  offset := if writer.historyLimit.isNone then writer.files.log.length else 0
  index := writer.index
  health := writer.health

/-- Where the stored events end: the size of the log, or the bounded history. -/
def storeBoundary (writer : Writer) (input : CommitInput) (offset : Nat) (index : Index) :
    Except String Index :=
  match writer.historyLimit with
  | none => .ok { index with metadata := { index.metadata with eventLogSize := offset } }
  | some limit => do
    let history ← need index.metadata.history "missing history byte accounting"
    boundHistory history limit ((input.lines.map List.length).sum) index

/-- The rest of the transaction after the events: groups, recoveries, history and
metadata. -/
def finishTransaction
    (writer : Writer) (input : CommitInput) (recoveries : TreeMap String Json)
    (session : Session) : Except String Index := do
  let index ← input.marketGroups.foldlM storeGroup session.index
  let index :=
    { index with
      sourceTokenRecoveries :=
        storeRecoveries externals writer.recoveries recoveries index.sourceTokenRecoveries
      metadata :=
        { index.metadata with
          unresolvedGapCount := recoveries.size
          latestCursor := input.cursor + input.events.length } }
  let index ← storeBoundary writer input session.offset index
  .ok { index with metadata := index.metadata.withHealth session.health }

/-- The memory after a committed transaction. -/
def commitMemory
    (writer : Writer) (input : CommitInput) (recoveries : TreeMap String Json) (session : Session)
    (index : Index) : Except String Writer := do
  let first ← need input.events.head? "empty batch"
  let terminalMarkets ←
    if input.terminal then do
      let market ← required first "market_id"
      Except.ok (writer.terminalMarkets.insert market)
    else .ok writer.terminalMarkets
  .ok { writer with
    files := { writer.files with log := session.log, index := index }
    recoveries
    terminalMarkets
    health := session.health }

/-- Announce the committed index in the manifest: a scratch file is renamed. -/
def writeIndexManifest (stop : Option Stop) (writer : Writer) : Except String Unit × Writer :=
  if writer.files.pending then (.error "scratch manifest exists", writer)
  else
    let replaced :=
      { writer with
        files := { writer.files with manifest := some writer.index.metadata.manifest } }
    match stop with
    | some (.manifest scratch) =>
      (.error "manifest not written",
        { writer with files := { writer.files with pending := scratch } })
    | some .renamed => (.error "directory not flushed", replaced)
    | _ => (.ok (), replaced)

/-- The new text of the log. -/
def CommitInput.text (input : CommitInput) : Bytes := input.lines.flatten

/-- The transaction of a batch: what it leaves in the log when it fails, and the
session and the index when it is ready to be committed. -/
def transaction
    (writer : Writer) (input : CommitInput) (recoveries : TreeMap String Json)
    (stop : Option Stop) : Except (String × Bytes) (Session × Index) := do
  let bounded := writer.historyLimit.isSome
  let whole := if bounded then writer.files.log else writer.files.log ++ input.text
  match stop with
  | some .lock => .error ("publication lock", writer.files.log)
  | some (.writing kept) =>
    .error ("log write",
      if bounded then writer.files.log else writer.files.log ++ input.text.take kept)
  | _ => do
    let session ← appendEvents externals bounded input.terminal
      (input.marketGroups.any MarketGroupProof.nativeCursor) input.cursor
      input.materializedBooks input.events input.lines (startSession writer)
    let index ← (finishTransaction externals writer input recoveries session).mapError
      fun cause => (cause, session.log)
    if stop = some .committing then .error ("transaction", whole)
    else .ok (session, index)

/-- Commit one batch. The writer stays poisoned unless everything succeeds. -/
def commitEncoded (input : CommitInput) (stop : Option Stop) (writer : Writer) :
    Except String Unit × Writer :=
  match checkCommit externals writer input stop with
  | .error cause => (.error cause, writer)
  | .ok recoveries =>
    let poisoned := { writer with poisoned := true }
    match transaction externals poisoned input recoveries stop with
    | .error (cause, log) =>
      (.error cause, { poisoned with files := { poisoned.files with log := log } })
    | .ok (session, index) =>
      match commitMemory poisoned input recoveries session index with
      | .error cause =>
        (.error cause,
          { poisoned with files := { poisoned.files with log := session.log, index := index } })
      | .ok committed =>
        match writeIndexManifest stop committed with
        | (.error cause, stopped) => (.error cause, stopped)
        | (.ok (), announced) => (.ok (), { announced with poisoned := false })

end Commit

end MarketCow.Discovery
