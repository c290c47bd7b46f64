import Mathlib.Tactic.DeriveCountable
import MarketCow.Library.Hash
import MarketCow.Library.JsonText
import MarketCow.Realtime.SegmentedWal

/-!
# JSON of stored values

The texts of stored values, with the fields in the order the stored types
declare them, and the hashes and texts of a writer that stores them.
-/

namespace MarketCow.Realtime

open Library MarketCow.Core

variable (platform : Platform)

def dateTimeToJson (dateTime : DateTime) : Json :=
  .string (platform.dateTimeText dateTime)

def textToJson : Option String → Json :=
  optionToJson Json.string

/-- A payload. Stream statuses are listed in the order they are declared in. -/
def ProviderPayload.toStored : ProviderPayload → Json
  | .streamStatus state reasonCode lastSequence resumeSupported =>
    .object
      [("event_type", .string "stream_status"),
        ("payload", .object
          [("state", .string state), ("reason_code", .string reasonCode),
            ("last_sequence", optionToJson natToJson lastSequence),
            ("resume_supported", .bool resumeSupported)])]
  | payload => payload.toJson platform

def EventQuality.toStored (quality : EventQuality) : Json :=
  .object
    [("status", .string quality.status), ("delayed", .bool quality.delayed),
      ("stale", .bool quality.stale),
      ("degraded", .bool quality.degraded)]

def NormalizedProviderEvent.toStored (event : NormalizedProviderEvent) : Json :=
  .object
    [("contract_version", .string event.contractVersion),
      ("normalizer_version", .string event.normalizerVersion),
      ("instrument_id", .string event.instrumentId),
      ("source", .string event.source),
      ("source_observed_at", dateTimeToJson platform event.sourceObservedAt),
      ("received_at", dateTimeToJson platform event.receivedAt),
      ("raw_sha256", .string event.rawSha256),
      ("normalizer_ordinal", natToJson event.normalizerOrdinal),
      ("event_id", .string event.eventId),
      ("quality", event.quality.toStored),
      ("payload", event.payload.toStored platform)]

def StreamEvent.toStored (stream : StreamEvent) : Json :=
  .object
    [("stream_id", .string stream.streamId), ("sequence", natToJson stream.sequence),
      ("event", stream.event.toStored platform)]

def RecordIntegrity.fields (record : RecordIntegrity) : List (String × Json) :=
  [("schema_version", .string record.schemaVersion), ("wal_cursor", natToJson record.walCursor),
    ("public_sequence", optionToJson natToJson record.publicSequence),
    ("applied", .bool record.applied),
    ("fail_closed_reason", textToJson record.failClosedReason),
    ("event", record.event.toStored platform),
    ("previous_record_sha256", textToJson record.previousRecordSha256),
    ("recorded_at", dateTimeToJson platform record.recordedAt)]

def PersistedRealtimeEvent.toStored (record : PersistedRealtimeEvent) : Json :=
  .object
    (record.toRecordIntegrity.fields platform ++
      [("record_sha256", .string record.recordSha256), ("crc32c", natToJson record.crc32c.toNat)])

def HeaderIntegrity.fields (header : HeaderIntegrity) : List (String × Json) :=
  [("schema_version", .string header.schemaVersion), ("stream_id", .string header.streamId),
    ("config_revision", .string header.configRevision),
    ("segment_id", natToJson header.segmentId),
    ("first_wal_cursor", natToJson header.firstWalCursor),
    ("previous_segment_sha256", textToJson header.previousSegmentSha256),
    ("created_at", dateTimeToJson platform header.createdAt)]

def SegmentHeader.fields (header : SegmentHeader) : List (String × Json) :=
  header.toHeaderIntegrity.fields platform ++ [("header_sha256", .string header.headerSha256)]

def BatchIntegrity.fields (batch : BatchIntegrity) : List (String × Json) :=
  [("schema_version", .string batch.schemaVersion),
    ("first_wal_cursor", natToJson batch.firstWalCursor),
    ("last_wal_cursor", natToJson batch.lastWalCursor),
    ("records", .array (batch.records.map (PersistedRealtimeEvent.toStored platform)))]

def WalBatchRecord.fields (batch : WalBatchRecord) : List (String × Json) :=
  batch.toBatchIntegrity.fields platform ++
    [("batch_sha256", .string batch.batchSha256), ("crc32c", natToJson batch.crc32c.toNat)]

def SparseCursorEntry.toStored (entry : SparseCursorEntry) : Json :=
  .object
    [("first_wal_cursor", natToJson entry.firstWalCursor),
      ("last_wal_cursor", natToJson entry.lastWalCursor),
      ("segment_id", natToJson entry.segmentId),
      ("byte_offset", natToJson entry.byteOffset),
      ("previous_record_sha256", textToJson entry.previousRecordSha256)]

def SparseIndexIntegrity.fields (index : SparseIndexIntegrity) : List (String × Json) :=
  [("schema_version", .string index.schemaVersion), ("stream_id", .string index.streamId),
    ("config_revision", .string index.configRevision),
    ("stride", natToJson index.stride),
    ("entries", .array (index.entries.map SparseCursorEntry.toStored))]

def RealtimeSparseIndex.fields (index : RealtimeSparseIndex) : List (String × Json) :=
  index.toSparseIndexIntegrity.fields ++ [("state_sha256", .string index.stateSha256)]

def CheckpointIntegrityV1.stateFields (checkpoint : CheckpointIntegrityV1) : List (String × Json) :=
  [("schema_version", .string checkpoint.schemaVersion), ("stream_id", .string checkpoint.streamId),
    ("config_revision", .string checkpoint.configRevision),
    ("wal_cursor", natToJson checkpoint.walCursor),
    ("public_sequence", natToJson checkpoint.publicSequence),
    ("last_record_sha256", textToJson checkpoint.lastRecordSha256),
    ("replay_capacity", natToJson checkpoint.replayCapacity),
    ("replay", .array (checkpoint.replay.map (StreamEvent.toStored platform)))]

def CheckpointIntegrityV1.fields (checkpoint : CheckpointIntegrityV1) : List (String × Json) :=
  checkpoint.stateFields platform ++
    [("created_at", dateTimeToJson platform checkpoint.createdAt)]

def CheckpointIntegrityV2.fields (checkpoint : CheckpointIntegrityV2) : List (String × Json) :=
  checkpoint.stateFields platform ++
    [("sparse_index_state_sha256", textToJson checkpoint.sparseIndexStateSha256),
      ("boundary_segment_id", optionToJson natToJson checkpoint.boundarySegmentId),
      ("boundary_byte_offset", optionToJson natToJson checkpoint.boundaryByteOffset),
      ("created_at", dateTimeToJson platform checkpoint.createdAt)]

/-- Absent fields of the index are left out. -/
def RealtimeCheckpoint.fields (checkpoint : RealtimeCheckpoint) : List (String × Json) :=
  checkpoint.stateFields platform ++
    presentField "sparse_index_state_sha256" Json.string checkpoint.sparseIndexStateSha256 ++
    presentField "boundary_segment_id" natToJson checkpoint.boundarySegmentId ++
    presentField "boundary_byte_offset" natToJson checkpoint.boundaryByteOffset ++
    [("created_at", dateTimeToJson platform checkpoint.createdAt),
      ("state_sha256", .string checkpoint.stateSha256)]

/-! ## A writer's hashes and texts -/

instance instCountableUInt8 : Countable UInt8 := countable_uint8

instance instCountableUInt32 : Countable UInt32 := countable_uint32

instance instCountableString : Countable String := countable_string

deriving instance Countable for ExactDecimal
deriving instance Countable for AggressorSide
deriving instance Countable for EventQuality
deriving instance Countable for BookLevel
deriving instance Countable for ProviderPayload
deriving instance Countable for NormalizedProviderEvent
deriving instance Countable for StreamEvent
deriving instance Countable for RecordIntegrity
deriving instance Countable for PersistedRealtimeEvent
deriving instance Countable for HeaderIntegrity
deriving instance Countable for SegmentHeader
deriving instance Countable for BatchIntegrity
deriving instance Countable for WalBatchRecord
deriving instance Countable for SparseCursorEntry
deriving instance Countable for SparseIndexIntegrity
deriving instance Countable for RealtimeSparseIndex
deriving instance Countable for CheckpointIntegrityV1
deriving instance Countable for CheckpointIntegrityV2
deriving instance Countable for RealtimeCheckpoint

/-- The codec of a type that prints some of its objects. -/
noncomputable def Codec.printing {α : Type} [Countable α] (fields : α → List (String × Json))
    (known : List α) : Codec α :=
  Codec.withTexts known (fun value => Json.print (.object (fields value)))
    (fun _ => Json.newline_notMem_print _) (fun _ => Json.brace_mem_print _)

/-- The hashes of a writer, and the JSON they cover. -/
noncomputable def hashingSerde : Serde where
  platform := platform
  crc32c := crc32c
  segmentHeader := Codec.rows
  walBatchRecord := Codec.rows
  realtimeCheckpoint := Codec.rows
  realtimeSparseIndex := Codec.rows
  recordIntegrity record := Json.print (.object (record.fields platform))
  headerIntegrity header := Json.print (.object (header.fields platform))
  batchIntegrity batch := Json.print (.object (batch.fields platform))
  checkpointIntegrityV1 checkpoint := Json.print (.object (checkpoint.fields platform))
  checkpointIntegrityV2 checkpoint := Json.print (.object (checkpoint.fields platform))
  sparseIndexIntegrity index := Json.print (.object index.fields)

/-- Values that are written to files. -/
structure StoredValues where
  headers : List SegmentHeader
  batches : List WalBatchRecord
  checkpoints : List RealtimeCheckpoint
  indexes : List RealtimeSparseIndex

/-- The hashes of a writer, with codecs that print the values it writes. -/
noncomputable def printingSerde (values : StoredValues) : Serde :=
  { hashingSerde platform with
    segmentHeader := Codec.printing (SegmentHeader.fields platform) values.headers
    walBatchRecord := Codec.printing (WalBatchRecord.fields platform) values.batches
    realtimeCheckpoint := Codec.printing (RealtimeCheckpoint.fields platform) values.checkpoints
    realtimeSparseIndex := Codec.printing RealtimeSparseIndex.fields values.indexes }

/-! ## Two stream statuses -/

/-- Real hashes and JSON, at the start of the epoch. -/
def epochPlatform : Platform where
  sha256 := Sha256.hash
  toVec := Json.print
  decimalText decimal := toString decimal
  dateTimeText _ := "1970-01-01T00:00:00Z"

/-- The status of a stream whose overnight trade was rejected, not named yet. -/
def unnamedStatus (normalizerOrdinal : Nat) : NormalizedProviderEvent where
  contractVersion := realtimeContractVersion
  normalizerVersion := longportNormalizerVersion
  instrumentId := "AAPL.US"
  source := "longport"
  sourceObservedAt := 0
  receivedAt := 0
  rawSha256 := "44136fa355b3678a1146ad16f7e8649e94fb4fc21fe77e8310c060f61caaff8a"
  normalizerOrdinal
  eventId := ""
  quality := EventQuality.degradedSource
  payload := .streamStatus "degraded" "overnight_trade_rejected" none true

def sampleStatus (normalizerOrdinal : Nat) : NormalizedProviderEvent :=
  { unnamedStatus normalizerOrdinal with
    eventId := (unnamedStatus normalizerOrdinal).identity epochPlatform }

/-- The values a log of two statuses writes, and a checkpoint of its empty
start. -/
noncomputable def sampleValues : StoredValues :=
  let hashing := hashingSerde epochPlatform
  let index := sealSparseIndex hashing
    { schemaVersion := realtimeSparseIndexVersion
      streamId := "longport"
      configRevision := "revision-1"
      stride := sparseIndexStride
      entries := [] }
  let first := recordOf hashing 0 1 none (PendingDecision.ofApplied (sampleStatus 0) 1)
  let second := recordOf hashing 0 2 (some first.recordSha256)
    (PendingDecision.ofApplied (sampleStatus 1) 2)
  let integrity : CheckpointIntegrityV2 :=
    { schemaVersion := realtimeCheckpointVersion
      streamId := "longport"
      configRevision := "revision-1"
      walCursor := 0
      publicSequence := 0
      lastRecordSha256 := none
      replayCapacity := 2
      replay := []
      createdAt := 0
      sparseIndexStateSha256 := some index.stateSha256
      boundarySegmentId := none
      boundaryByteOffset := none }
  let header := sealHeader hashing
    { schemaVersion := realtimeWalSegmentVersion
      streamId := "longport"
      configRevision := "revision-1"
      segmentId := 1
      firstWalCursor := 1
      previousSegmentSha256 := none
      createdAt := 0 }
  let checkpoint : RealtimeCheckpoint :=
    { integrity with stateSha256 := hashing.digest (hashing.checkpointIntegrityV2 integrity) }
  { headers := [header]
    batches :=
      [SegmentedRealtimeWal.batchOf hashing 1 1 [first],
        SegmentedRealtimeWal.batchOf hashing 2 2 [second]]
    checkpoints := [checkpoint]
    indexes := [index] }

noncomputable def sampleSerde : Serde :=
  printingSerde epochPlatform sampleValues

def sampleEnvironment : AppendEnvironment where
  recordedAt _ := 0
  createdAt := 0
  write := .completes
  indexWrites := false

theorem sampleStatus_proven (normalizerOrdinal : Nat) :
    sampleSerde.validEventEvidence (sampleStatus normalizerOrdinal) = true := by
  let status := sampleStatus normalizerOrdinal
  have named : status.eventId = status.identity epochPlatform :=
    ((unnamedStatus normalizerOrdinal).identity_named epochPlatform _).symm
  have raw : NormalizedProviderEvent.validSha256Text status.rawSha256 = true := by
    change NormalizedProviderEvent.validSha256Text (unnamedStatus 0).rawSha256 = true
    decide +kernel
  have known : status.knownNormalizerSource = true := rfl
  have quality : status.qualityIsValid = true := rfl
  have version : (status.contractVersion == realtimeContractVersion) = true := beq_self_eq_true _
  have instrument : status.instrumentId.isEmpty = false := rfl
  have order : status.sourceObservedAt ≤ status.receivedAt := le_rfl
  change status.evidenceIsValid epochPlatform = true
  unfold NormalizedProviderEvent.evidenceIsValid
  rw [named, version, known, raw, quality, instrument, decide_eq_true order, beq_self_eq_true]
  rfl

theorem sampleConfig_valid : validateConfig "longport" "revision-1" 4096 = .ok () := by
  decide +kernel

end MarketCow.Realtime
