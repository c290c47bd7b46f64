import MarketCow.Realtime.WalFormat

/-!
# Verification of the realtime log

Reading a log directory back: every segment, batch and record is checked
against what came before it.
-/

namespace MarketCow.Realtime

open Library MarketCow.Core

/-- What verification knows of the records it has read. -/
structure WalScan where
  records : List PersistedRealtimeEvent
  previousRecordSha256 : Option String
  appliedEventIds : TreeSet String
  expectedPublicSequence : Nat
  sparseEntries : List SparseCursorEntry

def WalScan.empty : WalScan where
  records := []
  previousRecordSha256 := none
  appliedEventIds := ∅
  expectedPublicSequence := 0
  sparseEntries := []

/-- What verification knows after whole segments. -/
structure DirectoryScan where
  log : WalScan
  previousSegmentSha256 : Option String
  streamId : Option String
  configRevision : Option String
  lastSegmentId : Nat

def DirectoryScan.empty : DirectoryScan where
  log := WalScan.empty
  previousSegmentSha256 := none
  streamId := none
  configRevision := none
  lastSegmentId := 0

structure VerifiedWal where
  records : List PersistedRealtimeEvent
  paths : List SegmentFilename
  lastSegmentId : Nat
  sparseIndex : RealtimeSparseIndex

def duplicateEvent : String := "duplicate_event"

/-- Accept a record that was applied. -/
def WalScan.pushApplied (scan : WalScan) (record : PersistedRealtimeEvent) : WalScan :=
  { scan with
    records := scan.records ++ [record]
    previousRecordSha256 := some record.recordSha256
    appliedEventIds := scan.appliedEventIds.insert record.event.eventId
    expectedPublicSequence := scan.expectedPublicSequence + 1 }

/-- Accept the record of a duplicate. -/
def WalScan.pushDuplicate (scan : WalScan) (record : PersistedRealtimeEvent) : WalScan :=
  { scan with
    records := scan.records ++ [record]
    previousRecordSha256 := some record.recordSha256 }

variable (serde : Serde)

def verifyRecord (scan : WalScan) (record : PersistedRealtimeEvent) :
    Except DurabilityError WalScan :=
  let integrity := serde.recordIntegrity record.toRecordIntegrity
  if record.schemaVersion ≠ realtimeWalVersion ∨ record.walCursor ≠ scan.records.length + 1 ∨
      record.previousRecordSha256 ≠ scan.previousRecordSha256 ∨
      record.recordSha256 ≠ serde.digest integrity ∨
      record.crc32c ≠ serde.crc32c integrity ∨
      serde.validEventEvidence record.event = false then
    .error .corruptWal
  else if record.applied then
    match checkedAdd scan.expectedPublicSequence 1 with
    | none => .error .cursorOverflow
    | some expectedPublicSequence =>
      if record.publicSequence ≠ some expectedPublicSequence ∨ record.failClosedReason.isSome ∨
          record.event.eventId ∈ scan.appliedEventIds then
        .error .corruptWal
      else .ok (scan.pushApplied record)
  else if record.publicSequence.isSome ∨ record.failClosedReason ≠ some duplicateEvent ∨
      record.event.eventId ∉ scan.appliedEventIds then
    .error .corruptWal
  else .ok (scan.pushDuplicate record)

/-- Entry of a batch in the index, when it gets one. -/
def indexBatch (entries : List SparseCursorEntry) (segmentId byteOffset : Nat)
    (previousRecordSha256 : Option String) (firstWalCursor lastWalCursor : Nat) :
    List SparseCursorEntry :=
  if shouldIndexBatch entries segmentId firstWalCursor lastWalCursor then
    entries ++ [⟨firstWalCursor, lastWalCursor, segmentId, byteOffset, previousRecordSha256⟩]
  else entries

/-- Verify one line of a segment, which starts at the given offset. -/
def verifyBatch (segmentId : Nat) (progress : WalScan × Nat) (line : Bytes) :
    Except DurabilityError (WalScan × Nat) :=
  let (scan, byteOffset) := progress
  if line.isEmpty then .error .corruptWal
  else
    match serde.walBatchRecord.fromSlice line with
    | none => .error .json
    | some batch =>
      let integrity := serde.batchIntegrity batch.toBatchIntegrity
      if batch.schemaVersion ≠ realtimeWalBatchVersion ∨ batch.records = [] ∨
          batch.firstWalCursor ≠ scan.records.length + 1 ∨
          batch.records.head?.map (fun record => record.walCursor) ≠
            some batch.firstWalCursor ∨
          batch.records.getLast?.map (fun record => record.walCursor) ≠
            some batch.lastWalCursor ∨
          batch.batchSha256 ≠ serde.digest integrity ∨
          batch.crc32c ≠ serde.crc32c integrity then
        .error .corruptWal
      else do
        let indexed := { scan with
          sparseEntries := indexBatch scan.sparseEntries segmentId byteOffset
            scan.previousRecordSha256 batch.firstWalCursor batch.lastWalCursor }
        let scan ← batch.records.foldlM (verifyRecord serde) indexed
        .ok (scan, byteOffset + (line.length + 1))

/-- Header line and batch lines of the bytes of a segment. -/
def segmentLines (bytes : Bytes) : Except DurabilityError (Bytes × List Bytes) :=
  if bytes.getLast? ≠ some Lines.newline then .error .corruptWal
  else
    match Lines.split bytes with
    | [] => .error .corruptWal
    | headerLine :: rest =>
      if rest.getLast? ≠ some [] then .error .corruptWal
      else .ok (headerLine, rest.dropLast)

def verifyHeader
    (expectedScope : Option (String × String)) (scan : DirectoryScan) (name : SegmentFilename)
    (line : Bytes) :
    Except DurabilityError SegmentHeader :=
  match serde.segmentHeader.fromSlice line with
  | none => .error .json
  | some header =>
    if header.schemaVersion ≠ realtimeWalSegmentVersion ∨
        serde.digest (serde.headerIntegrity header.toHeaderIntegrity) ≠ header.headerSha256 ∨
        header.segmentId ≠ min (scan.lastSegmentId + 1) (2 ^ 64 - 1) ∨
        header.firstWalCursor ≠ scan.log.records.length + 1 ∨
        header.previousSegmentSha256 ≠ scan.previousSegmentSha256 ∨
        name ≠ ⟨header.segmentId, header.firstWalCursor⟩ then
      .error .corruptWal
    else if scan.streamId.getD header.streamId ≠ header.streamId ∨
        scan.configRevision.getD header.configRevision ≠ header.configRevision then
      .error .walScopeMismatch
    else if expectedScope.any (fun expected =>
        header.streamId != expected.1 || header.configRevision != expected.2) then
      .error .walScopeMismatch
    else .ok header

def verifySegment
    (expectedScope : Option (String × String)) (scan : DirectoryScan) (file : SegmentFile) :
    Except DurabilityError DirectoryScan := do
  let lines ← segmentLines file.bytes
  let header ← verifyHeader serde expectedScope scan file.name lines.1
  let progress ← lines.2.foldlM (verifyBatch serde header.segmentId)
    (scan.log, lines.1.length + 1)
  .ok
    { log := progress.1
      previousSegmentSha256 := some (serde.digest file.bytes)
      streamId := some header.streamId
      configRevision := some header.configRevision
      lastSegmentId := header.segmentId }

/-- Stream and revision the index is kept for. -/
def indexScope (scan : DirectoryScan) (expectedScope : Option (String × String)) :
    Except DurabilityError (String × String) :=
  match scan.streamId, scan.configRevision, expectedScope with
  | some streamId, some configRevision, _ => .ok (streamId, configRevision)
  | none, none, some expected => .ok expected
  | _, _, _ => .error .walScopeMismatch

/-- The segments in the order of their names. -/
def sortedSegments (directory : WalDirectory) : List SegmentFile :=
  directory.segments.mergeSort fun first second => first.name.sortsBefore second.name

/-- The index of some entries. -/
def sparseIndexOf (scope : String × String) (entries : List SparseCursorEntry) :
    RealtimeSparseIndex :=
  sealSparseIndex serde
    { schemaVersion := realtimeSparseIndexVersion
      streamId := scope.1
      configRevision := scope.2
      stride := sparseIndexStride
      entries }

def verifyWal
    (directory : WalDirectory) (expectedScope : Option (String × String)) :
    Except DurabilityError VerifiedWal := do
  let files := sortedSegments directory
  let scan ← files.foldlM (verifySegment serde expectedScope) DirectoryScan.empty
  let scope ← indexScope scan expectedScope
  .ok
    { records := scan.log.records
      paths := files.map SegmentFile.name
      lastSegmentId := scan.lastSegmentId
      sparseIndex := sparseIndexOf serde scope scan.log.sparseEntries }

end MarketCow.Realtime
