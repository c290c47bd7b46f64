import MarketCow.Realtime.VerifyWal

/-!
# The segmented log

Opening a log directory and appending batches of decisions to it. An append
may stop anywhere in the bytes it writes; the log is then poisoned.
-/

namespace MarketCow.Realtime

open Library MarketCow.Core

/-- A decision that is not persisted yet. -/
structure PendingDecision where
  event : NormalizedProviderEvent
  publicSequence : Option Nat
  applied : Bool
  failClosedReason : Option String
  deriving DecidableEq

namespace PendingDecision

/-- An event that was seen before takes no sequence. -/
def ofDuplicate (event : NormalizedProviderEvent) : PendingDecision where
  event
  publicSequence := none
  applied := false
  failClosedReason := some duplicateEvent

/-- A new event takes a sequence. -/
def ofApplied (event : NormalizedProviderEvent) (sequence : Nat) : PendingDecision where
  event
  publicSequence := some sequence
  applied := true
  failClosedReason := none

end PendingDecision

structure SegmentedRealtimeWal where
  streamId : String
  configRevision : String
  maxSegmentBytes : Nat
  currentPath : Option SegmentFilename
  currentBytes : Nat
  currentSegmentId : Nat
  records : List PersistedRealtimeEvent
  appliedEventIds : TreeSet String
  sparseIndex : RealtimeSparseIndex
  sparseIndexHealthy : Bool
  poisoned : Bool

/-- How far the writes of an append get. When they stop, the file they go to
keeps the first `written` bytes; a new file may not even be created. -/
inductive WriteOutcome
  | completes
  | stops (created : Bool) (written : Nat)

/-- What an append takes from its surroundings: the readings of the clock and
how its writes go. -/
structure AppendEnvironment where
  recordedAt : Nat → DateTime
  createdAt : DateTime
  write : WriteOutcome
  indexWrites : Bool

namespace WalDirectory

/-- Bytes of a segment file. -/
def read (directory : WalDirectory) (name : SegmentFilename) : Option Bytes :=
  (directory.segments.find? fun file => file.name == name).map SegmentFile.bytes

/-- Add bytes at the end of a segment file. -/
def append (directory : WalDirectory) (name : SegmentFilename) (bytes : Bytes) : WalDirectory :=
  { directory with
    segments := directory.segments.map fun file =>
      if file.name = name then { file with bytes := file.bytes ++ bytes } else file }

/-- Add a new segment file. -/
def create (directory : WalDirectory) (file : SegmentFile) : WalDirectory :=
  { directory with segments := directory.segments ++ [file] }

end WalDirectory

def validateConfig (streamId configRevision : String) (maxSegmentBytes : Nat) :
    Except DurabilityError Unit :=
  if streamId.isEmpty || configRevision.isEmpty || decide (maxSegmentBytes < 1024) then
    .error .invalidConfig
  else .ok ()

/-- Ids of the applied records. -/
def appliedIds (records : List PersistedRealtimeEvent) : TreeSet String :=
  TreeSet.ofElements
    ((records.filter fun record => record.applied).map fun record => record.event.eventId)

namespace SegmentedRealtimeWal

/-- Verify a directory and take it over. -/
def openWal
    (serde : Serde) (indexWrites : Bool) (directory : WalDirectory)
    (streamId configRevision : String) (maxSegmentBytes : Nat) :
    Except DurabilityError (SegmentedRealtimeWal × WalDirectory) := do
  let _ ← validateConfig streamId configRevision maxSegmentBytes
  let verified ← verifyWal serde directory (some (streamId, configRevision))
  let installed := installSparseIndex serde indexWrites directory verified.sparseIndex
  let currentPath := verified.paths.getLast?
  .ok
    ({ streamId
       configRevision
       maxSegmentBytes
       currentPath
       currentBytes := ((currentPath.bind directory.read).map List.length).getD 0
       currentSegmentId := verified.lastSegmentId
       records := verified.records
       appliedEventIds := appliedIds verified.records
       sparseIndex := verified.sparseIndex
       sparseIndexHealthy := installed.1
       poisoned := false },
      installed.2)

def walCursor (wal : SegmentedRealtimeWal) : Nat :=
  (wal.records.getLast?.map fun record => record.walCursor).getD 0

end SegmentedRealtimeWal

/-! ## Appending -/

/-- The record of a decision. -/
def recordOf
    (serde : Serde) (recordedAt : DateTime) (walCursor : Nat) (previousRecordSha256 : Option String)
    (decision : PendingDecision) : PersistedRealtimeEvent :=
  sealRecord serde
    { schemaVersion := realtimeWalVersion
      walCursor
      publicSequence := decision.publicSequence
      applied := decision.applied
      failClosedReason := decision.failClosedReason
      event := decision.event
      previousRecordSha256
      recordedAt }

/-- The records of some decisions, chained by their hashes. -/
def sealRecords (serde : Serde) (recordedAt : Nat → DateTime) (firstWalCursor : Nat) :
    Nat → Option String → List PendingDecision →
      Except DurabilityError (List PersistedRealtimeEvent)
  | _, _, [] => .ok []
  | index, previousRecordSha256, decision :: decisions =>
    if decision.applied ≠ decision.publicSequence.isSome ∨
        (decision.applied ∧ decision.failClosedReason.isSome) ∨
        (¬decision.applied ∧ decision.failClosedReason ≠ some duplicateEvent) then
      .error .invalidDecision
    else
      match checkedAdd firstWalCursor index with
      | none => .error .cursorOverflow
      | some walCursor => do
        let record :=
          recordOf serde (recordedAt index) walCursor previousRecordSha256 decision
        let later ← sealRecords serde recordedAt firstWalCursor (index + 1)
          (some record.recordSha256) decisions
        .ok (record :: later)

/-- Where the next batch goes: a segment, the bytes it has so far, and its
header line when it has to be created first. -/
structure SegmentTarget where
  segmentId : Nat
  name : SegmentFilename
  headerLine : Option Bytes
  byteOffset : Nat

/-- The segment a batch of some size goes to. A batch that does not fit opens a
new segment, which names the hash of the one before. -/
def ensureSegment
    (serde : Serde) (createdAt : DateTime) (wal : SegmentedRealtimeWal) (directory : WalDirectory)
    (firstWalCursor recordBytes : Nat) :
    Except DurabilityError SegmentTarget :=
  match wal.currentPath with
  | some path =>
    if min (wal.currentBytes + recordBytes) (2 ^ 64 - 1) ≤ wal.maxSegmentBytes then
      .ok
        { segmentId := wal.currentSegmentId
          name := path
          headerLine := none
          byteOffset := wal.currentBytes }
    else
      match directory.read path with
      | none => .error .io
      | some bytes => newSegment (some (serde.digest bytes))
  | none => newSegment none
where
  newSegment (previousSegmentSha256 : Option String) :
      Except DurabilityError SegmentTarget :=
    match checkedAdd wal.currentSegmentId 1 with
    | none => .error .cursorOverflow
    | some segmentId =>
      let name : SegmentFilename := ⟨segmentId, firstWalCursor⟩
      let header := sealHeader serde
        { schemaVersion := realtimeWalSegmentVersion
          streamId := wal.streamId
          configRevision := wal.configRevision
          segmentId
          firstWalCursor
          previousSegmentSha256
          createdAt }
      let line := serde.segmentHeader.toVec header
      if (directory.read name).isSome then .error .io
      else .ok { segmentId, name, headerLine := some line, byteOffset := line.length + 1 }

/-- The directory after the writes of a batch line, as far as they got. -/
def writeBatch (outcome : WriteOutcome) (directory : WalDirectory) (target : SegmentTarget)
    (line : Bytes) : WalDirectory :=
  match target.headerLine, outcome with
  | none, .completes => directory.append target.name (Lines.write [line])
  | none, .stops _ written => directory.append target.name ((Lines.write [line]).take written)
  | some headerLine, .completes =>
    directory.create ⟨target.name, Lines.write [headerLine, line]⟩
  | some headerLine, .stops created written =>
    if created then
      directory.create ⟨target.name, (Lines.write [headerLine, line]).take written⟩
    else directory

namespace SegmentedRealtimeWal

/-- The batch of some records that starts at a cursor. -/
def batchOf (serde : Serde) (firstWalCursor lastWalCursor : Nat)
    (records : List PersistedRealtimeEvent) : WalBatchRecord :=
  sealBatch serde
    { schemaVersion := realtimeWalBatchVersion, firstWalCursor, lastWalCursor, records }

/-- The log after a batch that was written to a segment. -/
def appended
    (serde : Serde) (indexWrites : Bool) (wal : SegmentedRealtimeWal) (directory : WalDirectory)
    (target : SegmentTarget) (lineLength firstWalCursor lastWalCursor : Nat)
    (records : List PersistedRealtimeEvent) :
    SegmentedRealtimeWal × WalDirectory :=
  let indexChanged :=
    shouldIndexBatch wal.sparseIndex.entries target.segmentId firstWalCursor lastWalCursor
  let sparseIndex := if indexChanged then
      sealSparseIndex serde
        { wal.sparseIndex.toSparseIndexIntegrity with
          entries := indexBatch wal.sparseIndex.entries target.segmentId target.byteOffset
            (wal.records.getLast?.map fun record => record.recordSha256)
            firstWalCursor lastWalCursor }
    else wal.sparseIndex
  let replaced := if indexChanged || !wal.sparseIndexHealthy then
      replaceSparseIndex serde indexWrites directory sparseIndex
    else (wal.sparseIndexHealthy, directory)
  ({ wal with
     currentPath := some target.name
     currentBytes := target.byteOffset + (lineLength + 1)
     currentSegmentId := target.segmentId
     records := wal.records ++ records
     appliedEventIds :=
       (records.filter fun record => record.applied).foldl
         (fun ids record => ids.insert record.event.eventId) wal.appliedEventIds
     sparseIndex
     sparseIndexHealthy := replaced.1 },
    replaced.2)

/-- Persist a batch of decisions: one line and one barrier. A failed write
poisons the log, which then only refuses. -/
def appendDecisions (serde : Serde) (environment : AppendEnvironment) (wal : SegmentedRealtimeWal)
    (directory : WalDirectory) (decisions : List PendingDecision) :
    Except DurabilityError (List PersistedRealtimeEvent) × SegmentedRealtimeWal × WalDirectory :=
  if wal.poisoned then (.error .writerPoisoned, wal, directory)
  else if decisions.isEmpty then (.error .emptyBatch, wal, directory)
  else
    match checkedAdd wal.walCursor 1 with
    | none => (.error .cursorOverflow, wal, directory)
    | some firstWalCursor =>
      match sealRecords serde environment.recordedAt firstWalCursor 0
        (wal.records.getLast?.map fun record => record.recordSha256) decisions with
      | .error cause => (.error cause, wal, directory)
      | .ok records =>
        match records.getLast? with
        | none => (.error .emptyBatch, wal, directory)
        | some last =>
          let batch := batchOf serde firstWalCursor last.walCursor records
          let line := serde.walBatchRecord.toVec batch
          match ensureSegment serde environment.createdAt wal directory firstWalCursor
            (line.length + 1) with
          | .error cause => (.error cause, { wal with poisoned := true }, directory)
          | .ok target =>
            let written := writeBatch environment.write directory target line
            match environment.write with
            | .stops _ _ => (.error .io, { wal with poisoned := true }, written)
            | .completes =>
              (.ok records,
                appended serde environment.indexWrites wal written target line.length
                  firstWalCursor last.walCursor records)

end SegmentedRealtimeWal

end MarketCow.Realtime
