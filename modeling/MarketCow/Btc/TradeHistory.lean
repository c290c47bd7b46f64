import MarketCow.Btc.TradeBatches

/-!
# Frozen ranges of trades

A session keeps the bounds of its pages and the revision of its range, never the
rows. A page is read from the store of the day, which must not have been repaired
in the range since.
-/

namespace MarketCow.Btc

open Library
open Live (ensure need)
open Sdk (Trade)

/-! ## Budgets -/

/-- Milliseconds a session lives. -/
def timeToLive : Nat := 600000

/-- The most rows a session may have. -/
def maxRows : Nat := 1024000

/-- The most pages a session may have. -/
def maxPages : Nat := 1024

/-- The bytes of a page. -/
def pageBytes : Nat := 4 * 1024 * 1024

/-- The bytes of all pages of a session. -/
def sessionBytes : Nat := 1024 * 1024 * 1024

/-! ## Messages -/

/-- The trades from a time on, up to an id, in pages of a limit. -/
structure Range where
  source : Int
  instrumentId : String
  startTimeMs : Int
  throughTradeId : Nat
  limit : Nat
  deriving DecidableEq

/-- Ids without a trade. -/
structure MissingRange where
  firstTradeId : Nat
  lastTradeId : Nat
  deriving DecidableEq

/-- How a writer is doing, with what it dropped. -/
structure Health where
  state : String
  reason : Option String
  lastSuccessSequence : Option Nat
  lastSuccessSourceTimeMs : Option Int
  failedAtNs : Option Int
  droppedRecords : Nat
  deriving DecidableEq

/-- A page token, whose text joins the parts with a colon. -/
structure PageToken where
  sessionId : String
  place : Nat
  deriving DecidableEq

/-- A page as it is sent; the last one is complete when nothing is missing. -/
structure HistoryPage where
  schemaVersion : String
  sessionId : String
  range : Range
  pageIndex : Nat
  pageCount : Nat
  sessionTtlSeconds : Nat
  predecessor : Option Trade
  trades : List Trade
  nextPageToken : Option PageToken
  complete : Bool
  coverageVerified : Bool
  reason : Option String
  missingRanges : List MissingRange
  coverageFirstTimeMs : Option Int
  coverageLastTimeMs : Option Int
  totalTradeCount : Nat
  databaseHealthAtFreeze : Option Health
  archiveHealthAtFreeze : Option Health
  databaseRevision : Nat
  requestId : Option String
  deriving DecidableEq

/-! ## Sessions -/

/-- The ids of a page and how many rows they have. -/
structure PageRange where
  first : Nat
  last : Nat
  count : Nat
  deriving DecidableEq

/-- What a session froze: the pages, the trade before them and the revision of their range. -/
structure Session where
  id : String
  owner : Option String
  requestId : Option String
  range : Range
  created : Nat
  revision : Nat
  pages : List PageRange
  predecessor : Option Nat
  count : Nat
  firstTime : Option Int
  lastTime : Option Int
  reason : Option String
  missing : List MissingRange
  databaseHealth : Option Health
  archiveHealth : Option Health
  deriving DecidableEq

/-- The trades of the one instrument, from a positive time, in pages of at most a thousand. -/
def validateRange (range : Range) : Except String Unit := do
  ensure (decide (range.source = Sdk.Source.binanceSpotTrade.number) &&
    range.instrumentId == "BTCUSDT.BINANCE" && decide (0 < range.startTimeMs) &&
    decide (0 < range.throughTradeId) && decide (1 ≤ range.limit ∧ range.limit ≤ 1000))
    "invalid history range"
  let _ ← rowNumber range.throughTradeId "out of range integral type conversion attempted"
  .ok ()

/-- What was read of a range so far. -/
structure Scan where
  previous : Option Nat
  previousTime : Option Int
  firstTime : Option Int
  count : Nat
  pages : List PageRange
  first : Nat
  inPage : Nat
  byteUpper : Nat
  reason : Option String
  missing : List MissingRange

namespace Scan

/-- A bound on the bytes of the rows, from the lengths of their texts. -/
def weigh (scan : Scan) (row : Trade) : Except String Scan := do
  ensure (decide (0 < row.tradeId) && decide (0 < row.tradeTimeMs))
    "database invalid identity/time"
  let fieldBytes := row.price.length + row.quantity.length +
    (row.evidence.map fun known => known.evidenceId.length).getD 0
  ensure (decide (fieldBytes ≤ 1024)) "database invalid field budget"
  ensure (decide (scan.byteUpper + (fieldBytes + 192) ≤ sessionBytes)) "history_session_bytes"
  .ok { scan with byteUpper := scan.byteUpper + (fieldBytes + 192) }

/-- Record the ids that are missing before a row. -/
def skip (scan : Scan) (row : Trade) : Except String Scan :=
  match scan.previous with
  | some previous =>
    if row.tradeId ≠ previous + 1 then do
      ensure (decide (scan.missing.length < 1024)) "history_gap_capacity"
      .ok { scan with
        missing := scan.missing ++ [⟨previous + 1, row.tradeId - 1⟩]
        reason := some "trade_id_gap" }
    else .ok scan
  | none => .ok scan

/-- Record a time before the start, or before the time of the row before. -/
def regress (startTimeMs : Int) (scan : Scan) (row : Trade) : Scan :=
  if decide (row.tradeTimeMs < startTimeMs) ||
      scan.previousTime.any (fun time => decide (row.tradeTimeMs < time)) then
    { scan with reason := some "supplier_time_regression" }
  else scan

/-- Count a row into the open page. -/
def take (scan : Scan) (row : Trade) : Except String Scan := do
  let first := if scan.inPage = 0 then row.tradeId else scan.first
  ensure (decide (scan.count + 1 ≤ maxRows)) "history_trade_capacity"
  .ok { scan with
    first
    inPage := scan.inPage + 1
    count := scan.count + 1
    firstTime := scan.firstTime.or (some row.tradeTimeMs)
    previous := some row.tradeId
    previousTime := some row.tradeTimeMs }

/-- Close the open page at its last row. -/
def close (scan : Scan) (last : Nat) : Except String Scan := do
  ensure (decide (scan.byteUpper + 64 * 1024 ≤ sessionBytes)) "history_session_bytes"
  .ok { scan with
    byteUpper := scan.byteUpper + 64 * 1024
    pages := scan.pages ++ [⟨scan.first, last, scan.inPage⟩]
    inPage := 0 }

/-- Close the open page when it is full. -/
def fill (limit : Nat) (scan : Scan) (row : Trade) : Except String Scan :=
  if scan.inPage = limit then do
    let scan ← scan.close row.tradeId
    ensure (decide (scan.pages.length ≤ maxPages)) "history_page_capacity"
    .ok scan
  else .ok scan

/-- One row of a range; `late` is the number of rows that were read in time. -/
def step
    (range : Range) (late : Option Nat) (scan : Scan) (row : Trade) : Except String Scan := do
  ensure (decide (late ≠ some scan.count)) "history_deadline"
  let scan ← scan.weigh row
  let scan ← scan.skip row
  let scan ← (scan.regress range.startTimeMs row).take row
  scan.fill range.limit row

/-- Close the last page. -/
def finish (scan : Scan) : Except String Scan :=
  if 0 < scan.inPage then scan.close (scan.previous.getD 0) else .ok scan

/-- A range without rows has one page without rows. -/
def fallback (range : Range) (scan : Scan) : Scan :=
  if scan.pages.isEmpty then
    { scan with
      pages := [⟨range.throughTradeId, range.throughTradeId, 0⟩]
      reason := some "range_has_no_trades" }
  else scan

/-- What is wrong with the ends of a range, if anything. -/
def boundary (range : Range) (high predecessor : Option Nat) (scan : Scan) : Option String :=
  if scan.previous ≠ some range.throughTradeId then
    some (if high.all fun top => decide (top < range.throughTradeId) then "database_write_lag"
      else "through_trade_missing")
  else if predecessor.isNone then some "boundary_predecessor_missing"
  else scan.reason

end Scan

/-- The last trade before a time, of the ids of a range. -/
def Store.predecessor (store : Store) (range : Range) : Option Nat :=
  (store.trades.last fun row => decide (row.tradeTimeMs < range.startTimeMs) &&
    decide (row.tradeId ≤ range.throughTradeId)).map Trade.tradeId

/-- A trade of the wanted times hides before the predecessor. -/
def Store.skipped (store : Store) (range : Range) : Bool :=
  (store.predecessor range).any fun before => store.trades.rows.any fun row =>
    decide (range.startTimeMs ≤ row.tradeTimeMs) && decide (row.tradeId ≤ before)

/-- The trades between two ids, the first excluded. -/
def Store.between (store : Store) (after through : Nat) : List Trade :=
  store.trades.select fun row => decide (after < row.tradeId) && decide (row.tradeId ≤ through)

/-- Before the first row, with the reason that a skipped trade gives. -/
def Scan.initial (predecessor : Option Nat) (skipped : Bool) : Scan where
  previous := predecessor
  previousTime := none
  firstTime := none
  count := 0
  pages := []
  first := 0
  inPage := 0
  byteUpper := 0
  reason := if skipped then some "supplier_time_regression" else none
  missing := []

/-- Freeze a range, under a new id and at a time. -/
def freeze
    (id : String) (created : Nat) (late : Option Nat) (archiveHealth databaseHealth : Option Health)
    (range : Range) (store : Store) : Except String Session := do
  validateRange range
  let predecessor := store.predecessor range
  let current ← revision store.repairs (predecessor.getD 0) range.throughTradeId
  let scan ← (store.between (predecessor.getD 0) range.throughTradeId).foldlM
    (Scan.step range late) (Scan.initial predecessor (store.skipped range))
  let scan ← scan.finish
  let scan := scan.fallback range
  ensure (decide (scan.pages.length ≤ maxPages)) "history_page_capacity"
  ensure (scan.previousTime.all fun time => decide (time - range.startTimeMs ≤ 960000))
    "history_span_capacity"
  .ok
    { id
      owner := none
      requestId := none
      range
      created
      revision := current
      pages := scan.pages
      predecessor
      count := scan.count
      firstTime := scan.firstTime
      lastTime := scan.previousTime
      reason := scan.boundary range (highest store.trades) predecessor
      missing := scan.missing
      databaseHealth
      archiveHealth }

/-! ## Pages -/

/-- The trades of a page, from its first to its last id. -/
def readTrades (store : Store) (first through limit : Nat) : Except String (List Trade) := do
  ensure (decide (0 < first) && decide (first ≤ through) && decide (1 ≤ limit ∧ limit ≤ 1000))
    "typed page range"
  let first ← rowNumber first "out of range integral type conversion attempted"
  let through ← rowNumber through "out of range integral type conversion attempted"
  .ok ((store.trades.select fun row =>
    decide (first ≤ row.tradeId) && decide (row.tradeId ≤ through)).take limit)

/-- The trade of an id that a column can hold. -/
def readTrade (store : Store) (number : Nat) : Except String (Option Trade) := do
  let number ← rowNumber number "out of range integral type conversion attempted"
  .ok (store.trades.find number)

/-- The rows of a page; an empty page reads none. -/
def readPage (store : Store) (selected : PageRange) : Except String (List Trade) :=
  if selected.count = 0 then .ok []
  else readTrades store selected.first selected.last selected.count

/-- The first page names the trade before the range. -/
def readPredecessor (store : Store) (session : Session) (index : Nat) :
    Except String (Option Trade) :=
  match session.predecessor with
  | some number => if index = 0 then readTrade store number else .ok none
  | none => .ok none

/-- The page with what is the same on every page of the session. -/
def Session.assemble (session : Session) (index : Nat) (trades : List Trade)
    (predecessor : Option Trade) : HistoryPage where
  schemaVersion := "marketcow.btc-trade-history.v3"
  sessionId := session.id
  range := session.range
  pageIndex := index
  pageCount := session.pages.length
  sessionTtlSeconds := 600
  predecessor
  trades
  nextPageToken := if index + 1 = session.pages.length then none else some ⟨session.id, index + 1⟩
  complete := decide (index + 1 = session.pages.length) && session.reason.isNone
  coverageVerified := session.reason.isNone
  reason := session.reason
  missingRanges := session.missing
  coverageFirstTimeMs := session.firstTime
  coverageLastTimeMs := session.lastTime
  totalTradeCount := session.count
  databaseHealthAtFreeze := session.databaseHealth
  archiveHealthAtFreeze := session.archiveHealth
  databaseRevision := session.revision
  requestId := session.requestId

/-- A page of a session, at a time. How many bytes a page takes on the wire is the
business of an external package. -/
def page
    (encodedLen : HistoryPage → Nat) (now : Nat) (session : Session) (index : Nat)
    (store : Store) : Except String HistoryPage := do
  ensure (decide (now - session.created < timeToLive)) "session_expired_or_unknown"
  let selected ← need session.pages[index]? "page_out_of_range"
  let current ← revision store.repairs (session.predecessor.getD 0) session.range.throughTradeId
  ensure (decide (current = session.revision)) "session_invalidated"
  let trades ← readPage store selected
  ensure (decide (trades.length = selected.count)) "session_invalidated"
  let predecessor ← readPredecessor store session index
  ensure (decide (index ≠ 0) || decide (predecessor.map Trade.tradeId = session.predecessor))
    "session_invalidated"
  ensure (decide (encodedLen (session.assemble index trades predecessor) ≤ pageBytes))
    "history_page_bytes"
  .ok (session.assemble index trades predecessor)

end MarketCow.Btc
