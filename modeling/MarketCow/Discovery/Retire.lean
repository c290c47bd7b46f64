import MarketCow.Discovery.Appends

/-!
# Retirement of catalog markets

Markets that leave the catalog move their last record and the evidence about
their books to the cold tables. Records are keyed by their checksum, and an
existing row is never replaced.
-/

namespace MarketCow.Discovery

open Library

section Retire

variable (externals : Externals)

/-- The byte budget of a cold record. -/
def coldRecordBytes : Nat := 256 * 1024

def identityOf (record : Json) : Json := field record "identity"

/-- A stored row whose text has its checksum. -/
def readRow (row : StoredRow) (message : String) : Except String Json := do
  ensure (sha256 row.payload == row.sha256) message
  need (externals.json.fromSlice row.payload) "invalid row"

/-- The rows of a market. -/
def rowsOf (market : String) (rows : List ColdRow) : List ColdRow :=
  rows.filter fun row => row.marketId == market

/-- The text and the checksum of a table's row for a token. -/
def evidenceRow (row : Option StoredRow) : Except String (Option Json) :=
  match row with
  | none => .ok none
  | some row => do
    let payload ← readRow externals row "retirement source state hash mismatch"
    .ok (some (.object [("payload", payload), ("payload_sha256", .string row.sha256)]))

/-- The rows of a table for the tokens of a market, as an object. -/
def evidenceRows (table : String → Option StoredRow) (tokens : List String) :
    Except String Json := do
  let rows ← tokens.mapM fun token => do
    let row ← evidenceRow externals (table token)
    .ok (row.map fun row => (token, row))
  .ok (.object (rows.filterMap id))

def evidenceLifecycle (row : Option LifecycleRow) : Except String (Json × Json) :=
  match row with
  | none => .ok (.null, .null)
  | some row => do
    let model ← readRow externals row.toStoredRow "retirement lifecycle hash mismatch"
    .ok (model, .string row.sha256)

def marketTokens (tokenMarkets : TreeMap String String) (market : String) : List String :=
  TreeMap.keyList (tokenMarkets.filter fun _ owner => owner == market)

/-- What the index knows about a market when it is retired. -/
def evidenceOf
    (tokenMarkets : TreeMap String String) (after : Nat) (market hash : String)
    (index : Index) : Except String Json := do
  let tokens := marketTokens tokenMarkets market
  let books ← evidenceRows externals
    (fun token => index.books[token]?.map BookRow.toStoredRow) tokens
  let recoveries ← evidenceRows externals (fun token => index.sourceTokenRecoveries[token]?) tokens
  let confirmed := tokens.filter fun token => index.bookConfirmations.contains token
  let (lifecycle, lifecycleSha256) ← evidenceLifecycle externals index.marketLifecycle[market]?
  .ok (.object
    [("books", books), ("catalog_record_sha256", .string hash),
     ("confirmed_token_ids", .array (confirmed.map .string)), ("lifecycle", lifecycle),
     ("lifecycle_sha256", lifecycleSha256), ("market_id", .string market),
     ("recoveries", recoveries), ("retired_after_cursor", .integer after),
     ("schema_version", .string "marketcow.cold-market-evidence.v1")])

def coldRow (market : String) (after : Nat) (value : Json) : ColdRow where
  toStoredRow := externals.row value
  marketId := market
  retiredAfter := after

/-- Insert a row unless one of the market has the same checksum. -/
def insertCatalogRow (row : ColdRow) (rows : List ColdRow) : List ColdRow :=
  if rows.any fun other => other.marketId == row.marketId && other.sha256 == row.sha256 then rows
  else rows ++ [row]

/-- A prior record of the market names the same identity. -/
def checkPriorRecord (record : Json) (prior : Option ColdRow) : Except String Unit :=
  match prior with
  | none => .ok ()
  | some row => do
    let previous ← readRow externals row.toStoredRow
      "retirement prior cold catalog hash mismatch"
    ensure (identityOf previous == identityOf record) "retirement cold catalog identity changed"

/-- Evidence at the same cursor is of the same record. -/
def checkPriorEvidence (market : String) (after : Nat) (hash : String) (row : ColdRow) :
    Except String Unit := do
  let prior ← readRow externals row.toStoredRow "retirement prior cold evidence hash mismatch"
  ensure (field prior "market_id" == .string market &&
      (field prior "retired_after_cursor").asU64? == some after &&
      field prior "catalog_record_sha256" == .string hash)
    "retirement prior cold evidence binding mismatch"

/-- One market. Evidence that is there already stays as it is. -/
def retireMarket
    (tokenMarkets : TreeMap String String) (after : Nat) (index : Index)
    (entry : String × Json) : Except String Index := do
  let (market, record) := entry
  let row := coldRow externals market after record
  ensure (decide (row.payload.length ≤ coldRecordBytes))
    "retirement cold catalog record exceeds read budget"
  checkPriorRecord externals record (rowsOf market index.coldMarketCatalog).head?
  let retiredAfter ← column after
  let index :=
    { index with coldMarketCatalog := insertCatalogRow row index.coldMarketCatalog }
  match (rowsOf market index.coldMarketEvidence).find? fun row =>
      row.retiredAfter == retiredAfter with
  | some existing => do
    checkPriorEvidence externals market after row.sha256 existing
    .ok index
  | none => do
    let evidence ← evidenceOf externals tokenMarkets after market row.sha256 index
    .ok { index with
      coldMarketEvidence := index.coldMarketEvidence ++ [coldRow externals market after evidence] }

/-- Forget the books and the recoveries of the retired tokens. -/
def releaseTokens (tokens : TreeSet String) (index : Index) : Index :=
  { index with
    books := index.books.filter fun token _ => !tokens.contains token
    bookConfirmations := index.bookConfirmations.filter fun token => !tokens.contains token
    sourceTokenRecoveries :=
      index.sourceTokenRecoveries.filter fun token _ => !tokens.contains token }

/-- The checks before the writer is poisoned. -/
def checkRetirement
    (after : Nat) (markets : TreeSet String) (coldRecords : TreeMap String Json)
    (writer : Writer) : Except String Unit := do
  ensure (!writer.poisoned && writer.cursor == after) "retirement boundary differs"
  ensure (!markets.isEmpty && decide (markets.size ≤ 4096)) "retirement market budget"
  ensure (TreeSet.ofElements coldRecords.keyList == markets)
    "retirement cold catalog identity set"
  ensure (coldRecords.toList.all fun entry =>
      field (identityOf entry.2) "market_id" == .string entry.1)
    "retirement cold catalog market identity"

/-- The bound tokens of the retired markets. -/
def retiringTokens (tokenMarkets : TreeMap String String) (markets : TreeSet String) :
    TreeSet String :=
  TreeSet.ofElements
    (TreeMap.keyList (tokenMarkets.filter fun _ market => markets.contains market))

/-- The transaction of a retirement. -/
def retireTransaction
    (after : Nat) (markets : TreeSet String) (coldRecords : TreeMap String Json)
    (writer : Writer) : Except String Index := do
  let tokens := retiringTokens writer.tokenMarkets markets
  let index ← coldRecords.toList.foldlM (retireMarket externals writer.tokenMarkets after)
    writer.index
  let kept := writer.health.filter fun token _ => !tokens.contains token
  let released := releaseTokens tokens index
  .ok { released with
    metadata :=
      { released.metadata.withHealth kept with
        unresolvedGapCount :=
          (writer.recoveries.filter fun token _ => !tokens.contains token).size } }

/-- The memory after a committed retirement. -/
def retireMemory (markets : TreeSet String) (index : Index) (writer : Writer) : Writer :=
  let tokens := retiringTokens writer.tokenMarkets markets
  { writer with
    files := { writer.files with index := index }
    health := writer.health.filter fun token _ => !tokens.contains token
    recoveries := writer.recoveries.filter fun token _ => !tokens.contains token
    terminalMarkets := writer.terminalMarkets.filter fun market => !markets.contains market
    tokenMarkets := writer.tokenMarkets.filter fun token _ => !tokens.contains token }

/-- Retire markets at the cursor of the writer. -/
def retireCatalogMarkets (stop : Option Stop) (after : Nat) (markets : TreeSet String)
    (coldRecords : TreeMap String Json) (writer : Writer) : Outcome :=
  writer.attempt (checkRetirement after markets coldRecords writer) fun _ =>
  let poisoned := { writer with poisoned := true }
  poisoned.attempt (retireTransaction externals after markets coldRecords poisoned) fun index =>
  match stop with
  | some .lock => (.error "transaction", poisoned)
  | some .committing => (.error "transaction", poisoned)
  | _ =>
    match writeIndexManifest stop (retireMemory markets index poisoned) with
    | (.error cause, stopped) => (.error cause, stopped)
    | (.ok (), announced) => (.ok (), { announced with poisoned := false })

end Retire

end MarketCow.Discovery
