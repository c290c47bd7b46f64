import MarketCow.Btc.TradeHistory

/-!
# Lengths of encoded history pages

What a page of trades takes on the wire, field by field. A field number from
sixteen on makes the tag one byte longer.
-/

namespace MarketCow.Btc

open Library.Proto
open Sdk (Trade EvidenceReference)

/-- The length of a signed field, which is left out when zero. -/
def int64Length (value : Int) : Nat :=
  if value = 0 then 0 else 1 + varintLength (value % 2 ^ 64).toNat

/-- The length of a signed field that may be absent. -/
def optionalInt64Length : Option Int → Nat
  | none => 0
  | some value => 1 + varintLength (value % 2 ^ 64).toNat

/-- The length of an unsigned field that may be absent. -/
def optionalUint64Length : Option Nat → Nat
  | none => 0
  | some value => 1 + varintLength value

/-- The length of a flag that may be absent. -/
def optionalBoolLength : Option Bool → Nat
  | none => 0
  | some _ => 2

/-- A field whose number is sixteen or more. -/
def farField (length : Nat) : Nat := if length = 0 then 0 else length + 1

/-- The encoded length of a reference. -/
def evidenceLength (value : EvidenceReference) : Nat :=
  stringLength value.evidenceId + optionalUint64Length value.rowIndex

/-- The encoded length of a trade. -/
def tradeLength (value : Trade) : Nat :=
  uint64Length value.tradeId + int64Length value.tradeTimeMs +
    optionalInt64Length value.eventTimeMs + stringLength value.price +
    stringLength value.quantity + optionalBoolLength value.buyerIsMaker +
    optionalInt64Length value.receivedAtNs + optionalLength evidenceLength value.evidence

/-- The encoded length of a range. -/
def rangeLength (value : Range) : Nat :=
  int64Length value.source + stringLength value.instrumentId + int64Length value.startTimeMs +
    uint64Length value.throughTradeId + uint64Length value.limit

/-- The encoded length of a missing range. -/
def missingLength (value : MissingRange) : Nat :=
  uint64Length value.firstTradeId + uint64Length value.lastTradeId

/-- The encoded length of a health report. -/
def healthLength (value : Health) : Nat :=
  stringLength value.state + optionalStringLength value.reason +
    optionalUint64Length value.lastSuccessSequence +
    optionalInt64Length value.lastSuccessSourceTimeMs + optionalInt64Length value.failedAtNs +
    uint64Length value.droppedRecords

/-- The text of a token: the id, a colon and the place in decimal digits. -/
def tokenLength (value : PageToken) : Nat :=
  value.sessionId.utf8ByteSize + 1 + (Nat.toDigits 10 value.place).length

/-- The number of bytes of an encoded page. -/
def historyPageLength (value : HistoryPage) : Nat :=
  stringLength value.schemaVersion + stringLength value.sessionId +
    nestedLength (rangeLength value.range) + uint64Length value.pageIndex +
    uint64Length value.pageCount + uint64Length value.sessionTtlSeconds +
    optionalLength tradeLength value.predecessor + repeatedLength tradeLength value.trades +
    optionalLength tokenLength value.nextPageToken + boolLength value.complete +
    boolLength value.coverageVerified + optionalStringLength value.reason +
    repeatedLength missingLength value.missingRanges +
    optionalInt64Length value.coverageFirstTimeMs + optionalInt64Length value.coverageLastTimeMs +
    farField (uint64Length value.totalTradeCount) +
    farField (optionalLength healthLength value.databaseHealthAtFreeze) +
    farField (optionalLength healthLength value.archiveHealthAtFreeze) +
    farField (uint64Length value.databaseRevision) +
    farField (optionalStringLength value.requestId)

end MarketCow.Btc
