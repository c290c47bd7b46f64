import MarketCow.Btc.ObservationStore
import MarketCow.Btc.PageLength

/-!
# Frozen ranges of observations

A session keeps the first and the last id of its range. A page is what the store of
the day has after the place of its token, up to that last id, and its own token
names the last observation that it returns.
-/

namespace MarketCow.Btc

open Library
open Live (ensure need)
open Sdk (Observation)

/-! ## Messages -/

/-- The observations of a source in a window, up to an id when one was resolved. -/
structure ObservationRange where
  source : Int
  instrumentId : String
  startTimeMs : Int
  endTimeMs : Int
  limit : Nat
  maximumObservationId : Option Nat
  deriving DecidableEq

/-- Asks which observations a window has. -/
structure ObservationRangeQuery where
  source : Int
  instrumentId : String
  startTimeMs : Int
  endTimeMs : Int
  limit : Nat
  deriving DecidableEq

/-- The greatest id and the count of a window. -/
structure ResolvedObservationRange where
  schemaVersion : String
  query : ObservationRangeQuery
  maximumObservationId : Nat
  totalObservations : Nat
  deriving DecidableEq

/-- An observation as a page carries it. -/
structure ObservationRecord where
  observationId : Nat
  sourceGeneration : String
  observation : Option Observation
  deriving DecidableEq

/-- Opens a session, or reads on in one. -/
structure ObservationPageRequest where
  range : ObservationRange
  pageToken : Option PageToken
  requestId : Option String
  deriving DecidableEq

/-- A page of observations; the last one is complete. -/
structure ObservationPage where
  schemaVersion : String
  range : ObservationRange
  observations : List ObservationRecord
  nextPageToken : Option PageToken
  complete : Bool
  coverageVerified : Bool
  reason : Option String
  frozenHighObservationId : Nat
  databaseHealthAtFreeze : Option Health
  sessionId : String
  requestId : Option String
  sessionTtlSeconds : Nat
  deriving DecidableEq

/-- What a session froze: the ids from first to high. -/
structure ObservationSession where
  id : String
  owner : Option String
  requestId : Option String
  range : ObservationRange
  created : Nat
  high : Nat
  first : Nat
  health : Option Health
  deriving DecidableEq

/-! ## Windows -/

/-- The source with a number. -/
def sourceOfNumber (number : Int) : Except String Sdk.Source :=
  need ([(0, Sdk.Source.unspecified), (1, .binanceSpotTrade), (2, .chainlinkBtcUsd),
    (3, .chainlinkBtcUsdTwap60)].lookup number) ("unknown enumeration value " ++ toString number)

/-- The instrument of a source of observations. -/
def observationInstrument : Sdk.Source → Option String
  | .chainlinkBtcUsd => some "BTCUSD.CHAINLINK"
  | .chainlinkBtcUsdTwap60 => some "BTCUSD.CHAINLINK.TWAP60"
  | _ => none

/-- A window of the source's instrument, of at most sixteen minutes, in pages of at most a
thousand. -/
def ObservationRange.validate (range : ObservationRange) : Except String Unit := do
  let source ← sourceOfNumber range.source
  ensure (decide (observationInstrument source = some range.instrumentId) &&
    decide (0 < range.startTimeMs) && decide (range.startTimeMs < range.endTimeMs) &&
    decide (range.endTimeMs - range.startTimeMs ≤ 960000) &&
    decide (1 ≤ range.limit ∧ range.limit ≤ 1000)) "invalid history range"

/-- A query may name a window of any length. -/
def ObservationRangeQuery.validate (query : ObservationRangeQuery) : Except String Unit := do
  let source ← sourceOfNumber query.source
  ensure (decide (observationInstrument source = some query.instrumentId) &&
    decide (0 < query.startTimeMs) && decide (query.startTimeMs < query.endTimeMs) &&
    decide (1 ≤ query.limit ∧ query.limit ≤ 1000)) "invalid history range"

/-- A row of a source and of a window of times, up to an id. -/
def ObservationRow.within
    (source startTimeMs endTimeMs : Int) (maximum : Nat) (row : ObservationRow) : Bool :=
  decide (row.source = source) && decide (startTimeMs ≤ row.sourceTimeMs) &&
    decide (row.sourceTimeMs < endTimeMs) && decide (row.observationId ≤ maximum)

/-- The rows of a source and of a window, up to an id, in the order of their ids. -/
def ObservationStore.window (store : ObservationStore) (source startTimeMs endTimeMs : Int)
    (maximum : Nat) : List ObservationRow :=
  store.rows.select (ObservationRow.within source startTimeMs endTimeMs maximum)

/-- Count the rows of a window up to the highest id of the source. -/
def resolveObservations
    (query : ObservationRangeQuery)
    (store : ObservationStore) : Except String ResolvedObservationRange := do
  query.validate
  let high ← need (store.rows.last fun row => decide (row.source = query.source))
    "source_not_collected"
  let rows := store.window query.source query.startTimeMs query.endTimeMs high.observationId
  ensure (decide ((rows.take (maxRows + 1)).length ≤ maxRows)) "history_observation_capacity"
  .ok
    { schemaVersion := "marketcow.btc-observation-range.v3"
      query
      maximumObservationId := high.observationId
      totalObservations := (rows.take (maxRows + 1)).length }

/-! ## Sessions -/

/-- The largest id that a range lets in. -/
def ObservationRange.maximum (range : ObservationRange) : Except String Nat :=
  match range.maximumObservationId with
  | some maximum => rowNumber maximum "out of range integral type conversion attempted"
  | none => .ok (2 ^ 63 - 1)

/-- The bytes that a row counts for. -/
def ObservationRow.bytes (row : ObservationRow) : Nat :=
  row.price.length + row.sourceGeneration.length + row.evidenceId.length + 192

/-- Freeze a range, under a new id and at a time. -/
def freezeObservations
    (id : String) (created : Nat) (owner requestId : Option String) (range : ObservationRange)
    (store : ObservationStore) : Except String ObservationSession := do
  ensure (store.rows.rows.any fun row => decide (row.source = range.source))
    "source_not_collected"
  let maximum ← range.maximum
  let rows := store.window range.source range.startTimeMs range.endTimeMs maximum
  ensure (decide (rows.length ≤ maxRows)) "history_observation_capacity"
  ensure (decide ((rows.length + range.limit - 1) / range.limit ≤ maxPages))
    "history_page_capacity"
  ensure (decide ((rows.map ObservationRow.bytes).sum ≤ sessionBytes)) "history_session_bytes"
  .ok
    { id
      owner
      requestId
      range
      created
      high := (rows.getLast?.map ObservationRow.observationId).getD 0
      first := (rows.head?.map ObservationRow.observationId).getD 1
      health := none }

/-- The place that a token of a session names. -/
def ObservationSession.resume
    (session : ObservationSession) (owner requestId : Option String) (range : ObservationRange)
    (token : PageToken) : Except String Nat := do
  ensure (decide (session.id = token.sessionId)) "session_expired_or_unknown"
  ensure (decide (session.range = range)) "session_range_mismatch"
  ensure (decide (session.owner = owner)) "session_owner_mismatch"
  ensure (decide (session.requestId = requestId)) "session_request_mismatch"
  ensure (decide (session.first - 1 ≤ token.place) && decide (token.place ≤ session.high))
    "invalid page index"
  .ok token.place

/-! ## Pages -/

/-- A row as a page carries it. -/
def ObservationRow.record (row : ObservationRow) : ObservationRecord where
  observationId := row.observationId
  sourceGeneration := row.sourceGeneration
  observation := some
    { sourceTimeMs := row.sourceTimeMs
      price := row.price
      sourceSequence := some row.sourceSequence
      rowIndex := some row.rowIndex
      receivedAtNs := row.receivedAtNs
      evidence := some ⟨row.evidenceId, some row.rowIndex⟩ }

/-- The rows of a session after a place. -/
def ObservationStore.rest
    (store : ObservationStore) (session : ObservationSession) (place : Nat) : List ObservationRow :=
  store.rows.select fun row => decide (place < row.observationId) &&
    row.within session.range.source session.range.startTimeMs session.range.endTimeMs session.high

/-- One row more than a page has was read, to know whether there are more. -/
def ObservationSession.assemble
    (session : ObservationSession) (rows : List ObservationRow) : ObservationPage :=
  let more := decide (session.range.limit < rows.length)
  let output := if more then rows.dropLast else rows
  { schemaVersion := "marketcow.btc-observation-history.v3"
    range := session.range
    observations := output.map ObservationRow.record
    nextPageToken := if more then
      output.getLast?.map fun row => ⟨session.id, row.observationId⟩ else none
    complete := !more
    coverageVerified := false
    reason := some "observation_prefix_coverage_unverified"
    frozenHighObservationId := session.high
    databaseHealthAtFreeze := session.health
    sessionId := session.id
    requestId := session.requestId
    sessionTtlSeconds := 600 }

/-- The page after a place. How many bytes a page takes on the wire is the business
of an external package. -/
def observationPage
    (encodedLen : ObservationPage → Nat) (session : ObservationSession) (place : Nat)
    (store : ObservationStore) : Except String ObservationPage := do
  let value := session.assemble ((store.rest session place).take (session.range.limit + 1))
  ensure (decide (encodedLen value ≤ pageBytes)) "history_page_bytes"
  .ok value

/-- The first page of a session, or the page that a token names. -/
def ObservationSession.read
    (encodedLen : ObservationPage → Nat) (session : ObservationSession) (owner : Option String)
    (request : ObservationPageRequest)
    (store : ObservationStore) : Except String ObservationPage := do
  request.range.validate
  let place ← match request.pageToken with
    | some token => session.resume owner request.requestId request.range token
    | none => do
      ensure (decide (session.range = request.range)) "session_range_mismatch"
      .ok (session.first - 1)
  observationPage encodedLen session place store

/-! ## Lengths of encoded pages -/

section Lengths

open Library.Proto

/-- The encoded length of a range. -/
def observationRangeLength (value : ObservationRange) : Nat :=
  int64Length value.source + stringLength value.instrumentId + int64Length value.startTimeMs +
    int64Length value.endTimeMs + uint64Length value.limit +
    optionalUint64Length value.maximumObservationId

/-- The encoded length of an observation. -/
def observationLength (value : Observation) : Nat :=
  int64Length value.sourceTimeMs + stringLength value.price +
    optionalUint64Length value.sourceSequence + optionalUint64Length value.rowIndex +
    optionalInt64Length value.receivedAtNs + optionalLength evidenceLength value.evidence

/-- The encoded length of a record. -/
def observationRecordLength (value : ObservationRecord) : Nat :=
  uint64Length value.observationId + stringLength value.sourceGeneration +
    optionalLength observationLength value.observation

/-- The number of bytes of an encoded page. -/
def observationPageLength (value : ObservationPage) : Nat :=
  stringLength value.schemaVersion + nestedLength (observationRangeLength value.range) +
    repeatedLength observationRecordLength value.observations +
    optionalLength tokenLength value.nextPageToken + boolLength value.complete +
    boolLength value.coverageVerified + optionalStringLength value.reason +
    uint64Length value.frozenHighObservationId +
    optionalLength healthLength value.databaseHealthAtFreeze + stringLength value.sessionId +
    optionalStringLength value.requestId + uint64Length value.sessionTtlSeconds

end Lengths

end MarketCow.Btc
