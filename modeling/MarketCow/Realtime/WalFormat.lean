import MarketCow.Library.Codec
import MarketCow.Realtime.SequencedReplay

/-!
# Stored formats of the realtime plane

The records, headers, checkpoints and indexes the durable writer stores, the
directories they are stored in, and the functions of external packages they
are stored with.
-/

namespace MarketCow.Realtime

open Library MarketCow.Core

def realtimeWalVersion : String := "marketcow.realtime.wal.v1"

def realtimeWalBatchVersion : String := "marketcow.realtime.wal-batch.v1"

def realtimeWalSegmentVersion : String := "marketcow.realtime.wal-segment.v1"

def realtimeCheckpointV1 : String := "marketcow.realtime.checkpoint.v1"

def realtimeCheckpointVersion : String := "marketcow.realtime.checkpoint.v2"

def realtimeSparseIndexVersion : String := "marketcow.realtime.sparse-index.v1"

def sparseIndexStride : Nat := 1024

inductive DurabilityError
  | invalidConfig
  | corruptWal
  | walScopeMismatch
  | corruptCheckpoint
  | checkpointWalDivergence
  | cursorOverflow
  | emptyBatch
  | invalidDecision
  | invalidEventEvidence
  | writerPoisoned
  | publicationAfterPersistence (cause : RealtimeError)
  | realtime (cause : RealtimeError)
  | io
  | json
  deriving DecidableEq

/-! ## Stored values -/

/-- The fields of a record its hash covers. -/
structure RecordIntegrity where
  schemaVersion : String
  walCursor : Nat
  publicSequence : Option Nat
  applied : Bool
  failClosedReason : Option String
  event : NormalizedProviderEvent
  previousRecordSha256 : Option String
  recordedAt : DateTime
  deriving DecidableEq

structure PersistedRealtimeEvent extends RecordIntegrity where
  recordSha256 : String
  crc32c : UInt32
  deriving DecidableEq

/-- The fields of a segment header its hash covers. -/
structure HeaderIntegrity where
  schemaVersion : String
  streamId : String
  configRevision : String
  segmentId : Nat
  firstWalCursor : Nat
  previousSegmentSha256 : Option String
  createdAt : DateTime
  deriving DecidableEq

structure SegmentHeader extends HeaderIntegrity where
  headerSha256 : String
  deriving DecidableEq

/-- The fields of a batch its hash covers. -/
structure BatchIntegrity where
  schemaVersion : String
  firstWalCursor : Nat
  lastWalCursor : Nat
  records : List PersistedRealtimeEvent
  deriving DecidableEq

structure WalBatchRecord extends BatchIntegrity where
  batchSha256 : String
  crc32c : UInt32
  deriving DecidableEq

structure SparseCursorEntry where
  firstWalCursor : Nat
  lastWalCursor : Nat
  segmentId : Nat
  byteOffset : Nat
  previousRecordSha256 : Option String
  deriving DecidableEq

/-- The fields of a sparse index its hash covers. -/
structure SparseIndexIntegrity where
  schemaVersion : String
  streamId : String
  configRevision : String
  stride : Nat
  entries : List SparseCursorEntry
  deriving DecidableEq

structure RealtimeSparseIndex extends SparseIndexIntegrity where
  stateSha256 : String
  deriving DecidableEq

/-- The fields the hash of a checkpoint of the first version covers. -/
structure CheckpointIntegrityV1 where
  schemaVersion : String
  streamId : String
  configRevision : String
  walCursor : Nat
  publicSequence : Nat
  lastRecordSha256 : Option String
  replayCapacity : Nat
  replay : List StreamEvent
  createdAt : DateTime
  deriving DecidableEq

/-- The fields the hash of a checkpoint of the second version covers. -/
structure CheckpointIntegrityV2 extends CheckpointIntegrityV1 where
  sparseIndexStateSha256 : Option String
  boundarySegmentId : Option Nat
  boundaryByteOffset : Option Nat
  deriving DecidableEq

structure RealtimeCheckpoint extends CheckpointIntegrityV2 where
  stateSha256 : String
  deriving DecidableEq

/-! ## External packages -/

/-- The hashes and the JSON texts the writer uses. Reading a text `serde_json`
wrote gives the value back. -/
structure Serde where
  /-- SHA-256 and the texts of decimals and timestamps. -/
  platform : Platform
  /-- CRC-32C. -/
  crc32c : Bytes → UInt32
  segmentHeader : Codec SegmentHeader
  walBatchRecord : Codec WalBatchRecord
  realtimeCheckpoint : Codec RealtimeCheckpoint
  realtimeSparseIndex : Codec RealtimeSparseIndex
  recordIntegrity : RecordIntegrity → Bytes
  headerIntegrity : HeaderIntegrity → Bytes
  batchIntegrity : BatchIntegrity → Bytes
  checkpointIntegrityV1 : CheckpointIntegrityV1 → Bytes
  checkpointIntegrityV2 : CheckpointIntegrityV2 → Bytes
  sparseIndexIntegrity : SparseIndexIntegrity → Bytes

namespace Serde

/-- Lower-case hexadecimal SHA-256. -/
def digest (serde : Serde) (bytes : Bytes) : String :=
  serde.platform.hexDigest bytes

def validEventEvidence (serde : Serde) (event : NormalizedProviderEvent) : Bool :=
  event.evidenceIsValid serde.platform

end Serde

/-! ## Hashes of stored values -/

/-- The record of some fields, with its hash and its checksum. -/
def sealRecord (serde : Serde) (integrity : RecordIntegrity) : PersistedRealtimeEvent where
  toRecordIntegrity := integrity
  recordSha256 := serde.digest (serde.recordIntegrity integrity)
  crc32c := serde.crc32c (serde.recordIntegrity integrity)

/-- The header of some fields, with its hash. -/
def sealHeader (serde : Serde) (integrity : HeaderIntegrity) : SegmentHeader where
  toHeaderIntegrity := integrity
  headerSha256 := serde.digest (serde.headerIntegrity integrity)

/-- The batch of some fields, with its hash and its checksum. -/
def sealBatch (serde : Serde) (integrity : BatchIntegrity) : WalBatchRecord where
  toBatchIntegrity := integrity
  batchSha256 := serde.digest (serde.batchIntegrity integrity)
  crc32c := serde.crc32c (serde.batchIntegrity integrity)

/-- The index of some fields, with its hash. -/
def sealSparseIndex (serde : Serde) (integrity : SparseIndexIntegrity) : RealtimeSparseIndex where
  toSparseIndexIntegrity := integrity
  stateSha256 := serde.digest (serde.sparseIndexIntegrity integrity)

/-- The bytes the hash of a checkpoint covers, by its version. -/
def checkpointIntegrityBytes (serde : Serde) (checkpoint : CheckpointIntegrityV2) :
    Except DurabilityError Bytes :=
  if checkpoint.schemaVersion = realtimeCheckpointV1 then
    .ok (serde.checkpointIntegrityV1 checkpoint.toCheckpointIntegrityV1)
  else if checkpoint.schemaVersion = realtimeCheckpointVersion then
    .ok (serde.checkpointIntegrityV2 checkpoint)
  else .error .corruptCheckpoint

/-! ## The sparse index -/

/-- Number of leading items that satisfy a predicate which holds of a prefix. -/
def partitionPoint {α : Type} (holds : α → Bool) (items : List α) : Nat :=
  (items.takeWhile holds).length

namespace RealtimeSparseIndex

/-- The nearest indexed batch at or before a cursor. -/
def locate (index : RealtimeSparseIndex) (cursor : Nat) : Option SparseCursorEntry :=
  match partitionPoint (fun entry => decide (entry.firstWalCursor ≤ cursor)) index.entries with
  | 0 => none
  | boundary + 1 => index.entries[boundary]?

end RealtimeSparseIndex

/-- Hash of the entries up to a cursor. -/
def sparseIndexPrefixDigest (serde : Serde) (index : RealtimeSparseIndex) (walCursor : Nat) :
    String :=
  let boundary :=
    partitionPoint (fun entry => decide (entry.firstWalCursor ≤ walCursor)) index.entries
  serde.digest
    (serde.sparseIndexIntegrity
      { index.toSparseIndexIntegrity with entries := index.entries.take boundary })

/-- Whether a batch gets an entry: the first of a segment and the first to pass
a multiple of the stride do. -/
def shouldIndexBatch
    (entries : List SparseCursorEntry) (segmentId firstWalCursor lastWalCursor : Nat) : Bool :=
  match entries.getLast? with
  | none => true
  | some last =>
    last.segmentId != segmentId ||
      decide (last.lastWalCursor / sparseIndexStride < lastWalCursor / sparseIndexStride) ||
      firstWalCursor == 1

/-- Two neighbouring entries are in order. -/
def entriesInOrder (first second : SparseCursorEntry) : Bool :=
  decide (first.firstWalCursor < second.firstWalCursor) &&
    decide (first.lastWalCursor < second.firstWalCursor) &&
    decide (first.segmentId ≤ second.segmentId) &&
    (first.segmentId != second.segmentId || decide (first.byteOffset < second.byteOffset))

def sparseIndexIsValid (serde : Serde) (index : RealtimeSparseIndex) : Bool :=
  index.schemaVersion == realtimeSparseIndexVersion &&
    !index.streamId.isEmpty &&
    !index.configRevision.isEmpty &&
    index.stride == sparseIndexStride &&
    index.entries.all (fun entry =>
      decide (0 < entry.firstWalCursor) && decide (entry.firstWalCursor ≤ entry.lastWalCursor)) &&
    (index.entries.zip index.entries.tail).all (fun pair => entriesInOrder pair.1 pair.2) &&
    serde.digest (serde.sparseIndexIntegrity index.toSparseIndexIntegrity) == index.stateSha256

/-! ## Directories -/

/-- The numbers in the name of a segment file. Both are written with twenty
digits, which hold every `u64`: names sort as the numbers do. -/
structure SegmentFilename where
  segmentId : Nat
  firstWalCursor : Nat
  deriving DecidableEq

/-- Order of the names. -/
def SegmentFilename.sortsBefore (first second : SegmentFilename) : Bool :=
  decide (first.segmentId < second.segmentId) ||
    (first.segmentId == second.segmentId &&
      decide (first.firstWalCursor ≤ second.firstWalCursor))

structure SegmentFile where
  name : SegmentFilename
  bytes : Bytes
  deriving DecidableEq

/-- The directory of the log: its segments and the file of the sparse index. -/
structure WalDirectory where
  segments : List SegmentFile
  cursorIndex : Option Bytes
  deriving DecidableEq

/-- The directory of the checkpoints. -/
structure CheckpointDirectory where
  current : Option Bytes
  previous : Option Bytes
  deriving DecidableEq

/-- Everything below the root of one writer. -/
structure StorageRoot where
  wal : WalDirectory
  checkpoints : CheckpointDirectory
  deriving DecidableEq

/-- A root nothing was written to. -/
def StorageRoot.empty : StorageRoot where
  wal := { segments := [], cursorIndex := none }
  checkpoints := { current := none, previous := none }

/-- Write the index file. An invalid index is not written, and writing may
fail. -/
def writeSparseIndex
    (serde : Serde) (writes : Bool) (directory : WalDirectory) (index : RealtimeSparseIndex) :
    Except DurabilityError WalDirectory :=
  if !sparseIndexIsValid serde index then .error .corruptWal
  else if !writes then .error .io
  else .ok { directory with cursorIndex := some (serde.realtimeSparseIndex.toVec index) }

/-- Write the index file and tell whether that went well. -/
def replaceSparseIndex
    (serde : Serde) (writes : Bool) (directory : WalDirectory) (index : RealtimeSparseIndex) :
    Bool × WalDirectory :=
  match writeSparseIndex serde writes directory index with
  | .ok directory => (true, directory)
  | .error _ => (false, directory)

/-- Keep the index file when it holds the verified index, else write it again.
The flag tells whether the file is good. -/
def installSparseIndex
    (serde : Serde) (writes : Bool) (directory : WalDirectory) (verified : RealtimeSparseIndex) :
    Bool × WalDirectory :=
  let existing := directory.cursorIndex.bind serde.realtimeSparseIndex.fromSlice
  if existing.any fun existing =>
      sparseIndexIsValid serde existing && existing == verified then
    (true, directory)
  else replaceSparseIndex serde writes directory verified

variable (serde : Serde) (writes : Bool) (directory : WalDirectory)

@[simp] theorem replaceSparseIndex_segments (index : RealtimeSparseIndex) :
    (replaceSparseIndex serde writes directory index).2.segments = directory.segments := by
  unfold replaceSparseIndex writeSparseIndex
  by_cases valid : sparseIndexIsValid serde index = true
  · cases writes <;> simp [valid]
  · simp [valid]

@[simp] theorem installSparseIndex_segments (verified : RealtimeSparseIndex) :
    (installSparseIndex serde writes directory verified).2.segments = directory.segments := by
  unfold installSparseIndex
  dsimp only
  split
  · rfl
  · exact replaceSparseIndex_segments serde writes directory verified

end MarketCow.Realtime
