import MarketCow.Realtime.SegmentedWal

/-!
# The durable realtime writer

The writer decides which events of a batch are duplicates, persists all
decisions and only then publishes the applied ones to its replay. A checkpoint
stores the replay next to the log position it belongs to.
-/

namespace MarketCow.Realtime

open Library MarketCow.Core
open SparseCursorEntry (byteOffset segmentId)

structure DurableApplyOutcome where
  persisted : PersistedRealtimeEvent
  published : Option StreamEvent
  deriving DecidableEq

structure DurableRealtimeWriter where
  streamId : String
  configRevision : String
  replayCapacity : Nat
  wal : SegmentedRealtimeWal
  replay : SequencedReplay
  recoveredCheckpointCursor : Option Nat
  poisoned : Bool

/-! ## Checkpoint files -/

def readCheckpoint (serde : Serde) (bytes : Bytes) :
    Except DurabilityError RealtimeCheckpoint :=
  match serde.realtimeCheckpoint.fromSlice bytes with
  | none => .error .json
  | some checkpoint => do
    let integrity ← checkpointIntegrityBytes serde checkpoint.toCheckpointIntegrityV2
    if serde.digest integrity ≠ checkpoint.stateSha256 then .error .corruptCheckpoint
    else .ok checkpoint

/-- How far the two renames of a checkpoint get. -/
inductive CheckpointWrite
  | completes
  | stops (renames : Nat)

/-- Write a checkpoint. Only a readable current checkpoint is kept as the
previous one. -/
def writeCheckpoint (serde : Serde) (outcome : CheckpointWrite) (directory : CheckpointDirectory)
    (checkpoint : RealtimeCheckpoint) :
    Except DurabilityError Unit × CheckpointDirectory :=
  let readable := directory.current.any fun bytes => (readCheckpoint serde bytes).isOk
  let promoted : CheckpointDirectory :=
    if readable then { current := none, previous := directory.current } else directory
  let replaced : CheckpointDirectory :=
    { promoted with current := some (serde.realtimeCheckpoint.toVec checkpoint) }
  match outcome with
  | .completes => (.ok (), replaced)
  | .stops 0 => (.error .io, directory)
  | .stops 1 => (.error .io, promoted)
  | .stops _ => (.error .io, replaced)

/-! ## Recovery -/

/-- The applied records as published events. -/
def publishedEvents (streamId : String) (records : List PersistedRealtimeEvent) :
    List StreamEvent :=
  (records.filter fun record => record.applied).map fun record =>
    { streamId, sequence := record.publicSequence.getD 0, event := record.event }

/-- The hash of a checkpoint is the hash of its fields. -/
def checkpointIntact (serde : Serde) (checkpoint : RealtimeCheckpoint) : Bool :=
  match checkpointIntegrityBytes serde checkpoint.toCheckpointIntegrityV2 with
  | .ok bytes => serde.digest bytes == checkpoint.stateSha256
  | .error _ => false

/-- The checkpoint points to the batch the index locates. Checkpoints of the
first version point nowhere. -/
def checkpointIndexMatches
    (serde : Serde) (checkpoint : RealtimeCheckpoint) (sparseIndex : RealtimeSparseIndex) : Bool :=
  if checkpoint.schemaVersion = realtimeCheckpointVersion then
    let boundary := sparseIndex.locate checkpoint.walCursor
    checkpoint.sparseIndexStateSha256 ==
        some (sparseIndexPrefixDigest serde sparseIndex checkpoint.walCursor) &&
      checkpoint.boundarySegmentId == boundary.map segmentId &&
      checkpoint.boundaryByteOffset == boundary.map byteOffset
  else
    checkpoint.sparseIndexStateSha256.isNone &&
      checkpoint.boundarySegmentId.isNone &&
      checkpoint.boundaryByteOffset.isNone

/-- The checkpoint describes a prefix of the verified log. -/
def checkpointMatches
    (serde : Serde) (checkpoint : RealtimeCheckpoint) (streamId configRevision : String)
    (replayCapacity : Nat) (records : List PersistedRealtimeEvent)
    (sparseIndex : RealtimeSparseIndex) : Bool :=
  if !(checkpoint.schemaVersion == realtimeCheckpointV1 ||
        checkpoint.schemaVersion == realtimeCheckpointVersion) ||
      checkpoint.streamId != streamId ||
      checkpoint.configRevision != configRevision ||
      checkpoint.replayCapacity != replayCapacity ||
      !checkpointIntact serde checkpoint then false
  else
    let boundary :=
      partitionPoint (fun record => decide (record.walCursor ≤ checkpoint.walCursor)) records
    if !checkpointIndexMatches serde checkpoint sparseIndex ||
        boundary != checkpoint.walCursor then false
    else
      let lastRecordSha256 :=
        records[boundary - 1]?.map fun record => record.recordSha256
      if lastRecordSha256 != checkpoint.lastRecordSha256 then false
      else
        let published := publishedEvents streamId (records.take boundary)
        let expectedSequence := (published.getLast?.map StreamEvent.sequence).getD 0
        checkpoint.publicSequence == expectedSequence &&
          checkpoint.replay == published.rtake replayCapacity

/-- The first readable checkpoint for the requested capacity. It has to match
the log. -/
def selectCheckpoint
    (serde : Serde) (streamId configRevision : String) (replayCapacity : Nat)
    (records : List PersistedRealtimeEvent) (sparseIndex : RealtimeSparseIndex) :
    List (Option Bytes) → Except DurabilityError (Option RealtimeCheckpoint)
  | [] => .ok none
  | none :: candidates =>
    selectCheckpoint serde streamId configRevision replayCapacity records sparseIndex candidates
  | some bytes :: candidates =>
    match readCheckpoint serde bytes with
    | .error _ =>
      selectCheckpoint serde streamId configRevision replayCapacity records sparseIndex
        candidates
    | .ok checkpoint =>
      if checkpoint.streamId ≠ streamId ∨ checkpoint.configRevision ≠ configRevision then
        .error .checkpointWalDivergence
      else if checkpoint.replayCapacity ≠ replayCapacity then
        selectCheckpoint serde streamId configRevision replayCapacity records sparseIndex
          candidates
      else if checkpointMatches serde checkpoint streamId configRevision replayCapacity
          records sparseIndex then .ok (some checkpoint)
      else .error .checkpointWalDivergence

/-- Lift an error of the replay. -/
def fromRealtime {α : Type} : Except RealtimeError α → Except DurabilityError α
  | .ok value => .ok value
  | .error cause => .error (.realtime cause)

/-- Publish a record of the log again. -/
def replayRecord (replay : SequencedReplay) (record : PersistedRealtimeEvent) :
    Except DurabilityError SequencedReplay :=
  if record.applied then
    match record.publicSequence with
    | none => .error .corruptWal
    | some sequence => do
      let committed ← fromRealtime (replay.commitPersisted record.event sequence)
      .ok committed.2
  else .ok replay

/-- The replay a selected checkpoint starts from, and the cursor it covers. -/
def startReplay
    (streamId : String) (replayCapacity : Nat) :
    Option RealtimeCheckpoint → Except DurabilityError (SequencedReplay × Nat × Option Nat)
  | none => do
    let replay ← fromRealtime (SequencedReplay.new streamId replayCapacity)
    .ok (replay, 0, none)
  | some checkpoint => do
    let replay ← fromRealtime (SequencedReplay.restoreTail checkpoint.streamId
      checkpoint.replayCapacity checkpoint.publicSequence checkpoint.replay)
    .ok (replay, checkpoint.walCursor, some checkpoint.walCursor)

def recoverReplay
    (serde : Serde) (directory : CheckpointDirectory) (streamId configRevision : String)
    (replayCapacity : Nat) (records : List PersistedRealtimeEvent)
    (sparseIndex : RealtimeSparseIndex) :
    Except DurabilityError (SequencedReplay × Option Nat) := do
  let selected ← selectCheckpoint serde streamId configRevision replayCapacity records
    sparseIndex [directory.current, directory.previous]
  let start ← startReplay streamId replayCapacity selected
  let later := records.filter fun record => decide (record.walCursor > start.2.1)
  let replay ← later.foldlM replayRecord start.1
  .ok (replay, start.2.2)

namespace DurableRealtimeWriter

def openWriter
    (serde : Serde) (indexWrites : Bool) (root : StorageRoot) (streamId configRevision : String)
    (maxSegmentBytes replayCapacity : Nat) :
    Except DurabilityError (DurableRealtimeWriter × StorageRoot) :=
  if replayCapacity = 0 then .error .invalidConfig
  else do
    let opened ← SegmentedRealtimeWal.openWal serde indexWrites root.wal streamId
      configRevision maxSegmentBytes
    let recovered ← recoverReplay serde root.checkpoints streamId configRevision
      replayCapacity opened.1.records opened.1.sparseIndex
    .ok
      ({ streamId
         configRevision
         replayCapacity
         wal := opened.1
         replay := recovered.1
         recoveredCheckpointCursor := recovered.2
         poisoned := false },
        { root with wal := opened.2 })

def walCursor (writer : DurableRealtimeWriter) : Nat := writer.wal.walCursor

def sequence (writer : DurableRealtimeWriter) : Nat := writer.replay.sequence

def records (writer : DurableRealtimeWriter) : List PersistedRealtimeEvent :=
  writer.wal.records

end DurableRealtimeWriter

/-! ## Applying batches -/

/-- Decide which events of a batch are applied, and under which sequence. -/
def pendingDecisions :
    TreeSet String → Nat → List NormalizedProviderEvent →
      Except DurabilityError (List PendingDecision)
  | _, _, [] => .ok []
  | seen, nextSequence, event :: events =>
    if event.eventId ∈ seen then do
      let later ← pendingDecisions seen nextSequence events
      .ok (PendingDecision.ofDuplicate event :: later)
    else
      match checkedAdd nextSequence 1 with
      | none => .error .cursorOverflow
      | some nextSequence => do
        let later ← pendingDecisions (seen.insert event.eventId) nextSequence events
        .ok (PendingDecision.ofApplied event nextSequence :: later)

/-- Publish persisted records in order, as far as that goes. -/
def publishPersisted :
    SequencedReplay → List PersistedRealtimeEvent →
      Except DurabilityError (List DurableApplyOutcome) × SequencedReplay
  | replay, [] => (.ok [], replay)
  | replay, record :: records =>
    if record.applied then
      match record.publicSequence with
      | none => (.error .invalidDecision, replay)
      | some sequence =>
        match replay.commitPersisted record.event sequence with
        | .error cause => (.error (.publicationAfterPersistence cause), replay)
        | .ok (stream, replay) =>
          let later := publishPersisted replay records
          (later.1.map fun outcomes =>
            { persisted := record, published := some stream } :: outcomes, later.2)
    else
      let later := publishPersisted replay records
      (later.1.map fun outcomes =>
        { persisted := record, published := none } :: outcomes, later.2)

namespace DurableRealtimeWriter

/-- Persist a batch and publish what was applied. -/
def applyBatch (serde : Serde) (environment : AppendEnvironment) (writer : DurableRealtimeWriter)
    (root : StorageRoot) (events : List NormalizedProviderEvent) :
    Except DurabilityError (List DurableApplyOutcome) × DurableRealtimeWriter × StorageRoot :=
  if writer.poisoned then (.error .writerPoisoned, writer, root)
  else if events.isEmpty then (.error .emptyBatch, writer, root)
  else if events.any fun event => !serde.validEventEvidence event then
    (.error .invalidEventEvidence, writer, root)
  else
    match pendingDecisions writer.wal.appliedEventIds writer.replay.sequence events with
    | .error cause => (.error cause, writer, root)
    | .ok decisions =>
      match writer.wal.appendDecisions serde environment root.wal decisions with
      | (.error cause, wal, directory) =>
        (.error cause, { writer with wal }, { root with wal := directory })
      | (.ok persisted, wal, directory) =>
        let published := publishPersisted writer.replay persisted
        let diverged :=
          match published.1 with
          | .error (.publicationAfterPersistence _) => true
          | _ => false
        (published.1,
          { writer with
            wal := { wal with poisoned := wal.poisoned || diverged }
            replay := published.2
            poisoned := writer.poisoned || diverged },
          { root with wal := directory })

/-- The checkpoint of the present state. -/
def takeCheckpoint (serde : Serde) (createdAt : DateTime)
    (writer : DurableRealtimeWriter) : CheckpointIntegrityV2 :=
  let boundary := writer.wal.sparseIndex.locate writer.walCursor
  { schemaVersion := realtimeCheckpointVersion
    streamId := writer.streamId
    configRevision := writer.configRevision
    walCursor := writer.walCursor
    publicSequence := writer.replay.sequence
    lastRecordSha256 := writer.records.getLast?.map fun record => record.recordSha256
    replayCapacity := writer.replayCapacity
    replay := writer.replay.replay
    createdAt
    sparseIndexStateSha256 :=
      some (sparseIndexPrefixDigest serde writer.wal.sparseIndex writer.walCursor)
    boundarySegmentId := boundary.map segmentId
    boundaryByteOffset := boundary.map byteOffset }

/-- Store the present state next to its position in the log. -/
def checkpoint (serde : Serde) (createdAt : DateTime) (outcome : CheckpointWrite)
    (writer : DurableRealtimeWriter) (root : StorageRoot) :
    Except DurabilityError RealtimeCheckpoint × StorageRoot :=
  if writer.poisoned || writer.wal.poisoned then (.error .writerPoisoned, root)
  else if decide (writer.walCursor > 0) &&
      (writer.wal.sparseIndex.locate writer.walCursor).isNone then (.error .corruptWal, root)
  else
    let integrity := writer.takeCheckpoint serde createdAt
    let checkpoint : RealtimeCheckpoint :=
      { integrity with stateSha256 := serde.digest (serde.checkpointIntegrityV2 integrity) }
    let written := writeCheckpoint serde outcome root.checkpoints checkpoint
    (written.1.map fun _ => checkpoint, { root with checkpoints := written.2 })

/-- A checkpoint leaves the log alone. -/
theorem checkpoint_wal (serde : Serde) (createdAt : DateTime) (outcome : CheckpointWrite)
    (writer : DurableRealtimeWriter) (root : StorageRoot) :
    (writer.checkpoint serde createdAt outcome root).2.wal = root.wal := by
  unfold checkpoint
  split
  · rfl
  · split <;> rfl

end DurableRealtimeWriter

end MarketCow.Realtime
