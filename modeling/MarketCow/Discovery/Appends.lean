import MarketCow.Discovery.Commit

/-!
# The operations of the writer

Appending batches, binding identities, and moving the history into the index.
An operation that is refused before the commit leaves the writer as it was.
-/

namespace MarketCow.Discovery

open Library

/-- What an operation returns, and the writer after it. -/
abbrev Outcome := Except String Unit × Writer

/-- Go on with a value, or stop with the error and the writer as it is. -/
def Writer.attempt
    {α : Type} (writer : Writer) (computation : Except String α) (next : α → Outcome) : Outcome :=
  match computation with
  | .error cause => (.error cause, writer)
  | .ok value => next value

section Appends

variable (externals : Externals) (stop : Option Stop)

/-- Validate events and commit them. -/
def appendSourceEvents (events : List Json) (terminal : Bool) (writer : Writer) : Outcome :=
  writer.attempt (do
    ensure (!writer.poisoned) "writer requires restart/recovery after failed commit"
    validateSourceEvents externals events terminal writer.cursor writer.tokenMarkets
      writer.maximumBatchBytes) fun lines =>
  commitEncoded externals
    { events
      lines
      terminal
      cursor := writer.cursor
      materializedBooks := ∅
      marketGroups := [] } stop writer

def appendMarketBatch (events : List Json) (writer : Writer) : Outcome :=
  appendSourceEvents externals stop events false writer

def appendTerminal (event : Json) (writer : Writer) : Outcome :=
  appendSourceEvents externals stop [event] true writer

/-- The tokens of an event are bound to its market. -/
def checkUniverse (tokenMarkets : TreeMap String String) (terminal : Bool) (event : Json) :
    Except String Unit := do
  let market ← required event "market_id"
  if terminal then do
    let outcomes ← need (outcomesOf event).asArray? "outcomes"
    let tokens ← outcomes.mapM fun outcome => required outcome "token_id"
    ensure (tokens.all fun token => tokenMarkets[token]? == some market)
      "proof outside writer universe"
  else do
    let token ← required event "token_id"
    ensure (tokenMarkets[token]? == some market) "proof outside writer universe"

def appendValidatedWithBooksAt
    (batch : SourceBatch) (materializedBooks : TreeMap Nat Json) (physicalAfter : Nat)
    (groups : List MarketGroupProof) (writer : Writer) : Outcome :=
  writer.attempt (do
    ensure (!writer.poisoned) "writer poisoned"
    ensure (decide (batch.encodedBytes ≤ writer.maximumBatchBytes)) "writer byte cap"
    let _ ← batch.events.mapM (checkUniverse writer.tokenMarkets batch.terminal)) fun _ =>
  commitEncoded externals
    { events := batch.events
      lines := batch.lines
      terminal := batch.terminal
      cursor := physicalAfter
      materializedBooks
      marketGroups := groups } stop writer

def appendValidatedWithBooks
    (batch : SourceBatch) (materializedBooks : TreeMap Nat Json) (writer : Writer) : Outcome :=
  writer.attempt (do
    ensure (batch.marketGroups.all fun group => !group.nativeCursor)
      "native market group requires archive-binding append"
    ensure (writer.cursor == batch.after) "validated batch boundary differs") fun _ =>
  appendValidatedWithBooksAt externals stop batch materializedBooks batch.after
    batch.marketGroups writer

/-- The proof of a native group at the next archive positions. -/
def nativeProof (writer : Writer) (batch : SourceBatch) : Except String MarketGroupProof := do
  let group ← need batch.marketGroups.head? "one native market group required"
  ensure (!writer.poisoned && batch.marketGroups.length == 1) "one native market group required"
  ensure (decide (batch.encodedBytes ≤ writer.maximumBatchBytes)) "writer byte cap"
  let first ← need (checkedAdd writer.cursor 1) "archive cursor overflow"
  let last ← need (checkedAdd writer.cursor batch.events.length) "archive cursor overflow"
  ensure (checkedAdd batch.after 1 == some group.firstGlobalCursor && group.nativeCursor)
    "native group public boundary differs"
  ensure ((writer.index.marketNativeStreams.getD group.stream 0) == batch.after)
    "native market event cursor is not contiguous"
  .ok { group with
    firstGlobalCursor := first
    lastGlobalCursor := last
    nativeCursor := true }

/-- Append one group of a market. Its events keep their public cursors. -/
def appendNativeMarketGroupWithBooks
    (batch : SourceBatch) (materializedBooks : TreeMap Nat Json) (writer : Writer) : Outcome :=
  writer.attempt (nativeProof writer batch) fun proof =>
  appendValidatedWithBooksAt externals stop batch materializedBooks writer.cursor [proof] writer

/-- What the loop over the batches of a persistence group carries. -/
structure GroupMerge where
  after : Nat
  bytes : Nat
  count : Nat
  materializedBooks : TreeMap Nat Json

/-- A materialized book for a cursor that has none. -/
def mergeBook (books : TreeMap Nat Json) (entry : Nat × Json) : Except String (TreeMap Nat Json) := do
  ensure (!books.contains entry.1) "duplicate materialized book cursor"
  .ok (books.insert entry.1 entry.2)

def mergeBatch
    (maximumBatchBytes : Nat) (terminal : Bool) (merge : GroupMerge)
    (entry : SourceBatch × TreeMap Nat Json) : Except String GroupMerge := do
  let (batch, books) := entry
  ensure (batch.after == merge.after && batch.terminal == terminal)
    "incompatible persistence group"
  let bytes := merge.bytes + batch.encodedBytes
  let count := merge.count + batch.events.length
  ensure (decide (bytes ≤ maximumBatchBytes) && decide (count ≤ 256)) "persistence group cap"
  let last ← need batch.events.getLast? "empty batch"
  let after ← need (field last "cursor").asU64? "cursor"
  let materializedBooks ← books.toList.foldlM mergeBook merge.materializedBooks
  .ok { after, bytes, count, materializedBooks }

/-- The batches of a persistence group as one. -/
def mergedBatch (first : SourceBatch) (batches : List SourceBatch) : SourceBatch where
  events := batches.flatMap SourceBatch.events
  lines := batches.flatMap SourceBatch.lines
  terminal := first.terminal
  after := first.after
  marketGroups := batches.flatMap SourceBatch.marketGroups

/-- Append contiguous batches in one commit, or one native group. -/
def appendValidatedGroupWithBooks
    (batches : List (ValidatedSourceBatch externals × TreeMap Nat Json))
    (writer : Writer) : Outcome :=
  let plain := batches.map fun entry => (entry.1.val, entry.2)
  match plain with
  | [] => (.error "empty persistence group", writer)
  | (first, books) :: _ =>
    if plain.any fun entry => entry.1.marketGroups.any MarketGroupProof.nativeCursor then
      if plain.length == 1 && first.marketGroups.length == 1 &&
          first.marketGroups.all MarketGroupProof.nativeCursor then
        appendNativeMarketGroupWithBooks externals stop first books writer
      else (.error "native market group requires one fair writer item", writer)
    else
      writer.attempt (plain.foldlM (mergeBatch writer.maximumBatchBytes first.terminal)
        { after := first.after, bytes := 0, count := 0, materializedBooks := ∅ }) fun merge =>
      appendValidatedWithBooks externals stop (mergedBatch first (plain.map Prod.fst))
        merge.materializedBooks writer

def appendValidated (batch : ValidatedSourceBatch externals) (writer : Writer) : Outcome :=
  appendValidatedWithBooks externals stop batch.val ∅ writer

end Appends

/-! ## Identities and checkpoints -/

structure DurableMarketCheckpoint where
  marketId : String
  streamEpoch : String
  durableCursor : Nat
  replayFloor : Nat
  deriving DecidableEq

def marketCheckpoint (marketId streamEpoch : String) (writer : Writer) :
    Except String (Option DurableMarketCheckpoint) := do
  ensure (!writer.poisoned) "market checkpoint writer is poisoned"
  match writer.index.marketStreams[(⟨marketId, streamEpoch⟩ : StreamKey)]? with
  | none => .ok none
  | some row => do
    ensure (decide (row.replayFloor ≤ row.durableCursor))
      "market checkpoint floor exceeds durable"
    .ok (some
      { marketId
        streamEpoch
        durableCursor := row.durableCursor
        replayFloor := row.replayFloor })

/-- One binding: names that are there, and no other market for a bound token. -/
def checkBinding (tokenMarkets : TreeMap String String) (entry : String × String) :
    Except String Unit := do
  ensure (!entry.1.isEmpty && !entry.2.isEmpty) "empty catalog identity"
  ensure (tokenMarkets[entry.1]?.all fun previous => previous == entry.2)
    "catalog token identity changed"

/-- The map extended by another one. -/
def extend (tokenMarkets bindings : TreeMap String String) : TreeMap String String :=
  bindings.toList.foldl (fun map entry => map.insert entry.1 entry.2) tokenMarkets

/-- Bind identities of the catalog. -/
def bindCatalogTokens (bindings : TreeMap String String) (writer : Writer) : Outcome :=
  writer.attempt (do
    ensure (decide (bindings.size ≤ maxSourceTokenIdentities) &&
        decide (writer.tokenMarkets.size +
            (bindings.keyList.filter fun token => !writer.tokenMarkets.contains token).length ≤
          maxSourceTokenIdentities))
      "bounded scoped identity budget exceeded"
    let _ ← bindings.toList.mapM (checkBinding writer.tokenMarkets)) fun _ =>
  (.ok (), { writer with tokenMarkets := extend writer.tokenMarkets bindings })

/-! ## Bounded history -/

/-- The last line of the log, with its checksum and its length. -/
def migrationTail (writer : Writer) : Except String (Option (StoredRow × Nat)) :=
  let metadata := writer.index.metadata
  if metadata.latestCursor = 0 then do
    ensure (metadata.eventLogSize == 0 && writer.index.books.isEmpty &&
        writer.index.eventOffsets.isEmpty && writer.recoveries.isEmpty)
      "empty migration has source state"
    .ok none
  else do
    let key ← column metadata.latestCursor
    let row ← need writer.index.eventOffsets[key]? "missing tail row"
    let line := (writer.files.log.drop row.byteOffset).take row.byteLength
    ensure (line.length == row.byteLength) "short read"
    ensure (sha256 line == row.lineSha256) "migration tail hash differs"
    .ok (some ({ payload := line, sha256 := row.lineSha256 }, row.byteLength))

/-- The index with a bounded history that holds at most the last line. Former
groups expire; their streams keep their cursors. -/
def migrateIndex (index : Index) (maximumBytes : Nat) (tail : Option (StoredRow × Nat)) : Index :=
  let cursor := index.metadata.latestCursor
  { index with
    recentEvents :=
      match tail with
      | some (row, _) => (∅ : TreeMap Nat StoredRow).insert cursor row
      | none => ∅
    eventOffsets := ∅
    marketStreams := index.marketStreams.map fun _ stream =>
      { stream with replayFloor := stream.durableCursor }
    marketGroups := []
    marketNativeGroups := []
    metadata :=
      { index.metadata with
        history := some
          { boundedHistoryBytes := maximumBytes
            historyFloorCursor := cursor - 1
            recentEventBytes := (tail.map Prod.snd).getD 0 } } }

/-- What SQLite says about the pages of its file: a page has at least 512 bytes, and
their number is a 32-bit word. -/
structure DatabasePages where
  size : Nat
  count : Nat
  leastSize : 512 ≤ size
  countWord : count < 2 ^ 32

/-- The pages that the file may grow to. -/
def maximumPages (pages : DatabasePages) (maximumBytes : Nat) : Except String Nat := do
  ensure (decide (maximumBytes * 4 < 2 ^ 64)) "history budget overflow"
  need (checkedAdd pages.count (maximumBytes * 4 / pages.size + 1024)) "page budget overflow"

/-- A page budget is also a signed word. -/
theorem maximumPages_lt
    (computed : maximumPages pages maximumBytes = .ok maximum) : maximum < 2 ^ 63 := by
  obtain ⟨_, small, computed⟩ := bind_ok.mp computed
  have bytes := of_decide_eq_true (ensure_ok.mp small)
  obtain ⟨rfl, _⟩ := checkedAdd_eq_some_iff.mp (need_ok.mp computed)
  have fewer : maximumBytes * 4 / pages.size ≤ maximumBytes * 4 / 512 :=
    Nat.div_le_div_left pages.leastSize (by decide)
  have count := pages.countWord
  omega

/-- Move the end of the log into the index. The page budget is converted after the
transaction: a failure there leaves the files moved. -/
def enableBoundedHistory
    (pages : DatabasePages) (stop : Option Stop) (maximumBytes : Nat) (writer : Writer) : Outcome :=
  if writer.maximumBatchBytes ≤ maximumBytes then
    match writer.historyLimit with
    | some existing =>
      if existing = maximumBytes then (.ok (), writer)
      else (.error "history budget differs; explicit migration required", writer)
    | none =>
      writer.attempt (migrationTail writer) fun tail =>
      writer.attempt (maximumPages pages maximumBytes) fun maximum =>
      if stop.isSome then (.error "transaction", writer)
      else
        let moved :=
          { writer with
            files := { writer.files with index := migrateIndex writer.index maximumBytes tail } }
        if maximum < 2 ^ 63 then (.ok (), { moved with historyLimit := some maximumBytes })
        else (.error "out of range integral type conversion attempted", moved)
  else (.error "history must fit one maximum batch", writer)

end MarketCow.Discovery
