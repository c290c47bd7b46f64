import MarketCow.Library.Transition
import MarketCow.Realtime.CheckpointState
import MarketCow.Realtime.StoredJson

/-!
# Restarting the durable writer

A session opens a root, applies batches, takes checkpoints, drops the writer
and opens the root again, with the same stream and revision. A restart gives
back the log, the sequence and the window of the last events, unless the
checkpoint it starts from was taken before the first batch.
-/

namespace MarketCow.Realtime

open Library MarketCow.Core SequencedReplay

/-- The writer of a session: dropped, or at work on its root. -/
inductive Session
  | closed (root : StorageRoot) (last : Option DurableRealtimeWriter)
  | running (root : StorageRoot) (writer : DurableRealtimeWriter)

inductive SessionAction
  | openWriter (indexWrites : Bool) (maxSegmentBytes replayCapacity : Nat)
  | applyBatch (environment : AppendEnvironment) (events : List NormalizedProviderEvent)
  | checkpoint (createdAt : DateTime)
  | drop

/-- The successful steps of a session of one stream. -/
inductive SessionStep
    (serde : Serde) (streamId configRevision : String) :
    Session → SessionAction → Session → Prop
  | opened
      {root after : StorageRoot}
      {last : Option DurableRealtimeWriter}
      {indexWrites : Bool}
      {maxSegmentBytes replayCapacity : Nat}
      {writer : DurableRealtimeWriter} :
      DurableRealtimeWriter.openWriter serde indexWrites root streamId configRevision
        maxSegmentBytes replayCapacity = .ok (writer, after) →
      SessionStep serde streamId configRevision (.closed root last)
        (.openWriter indexWrites maxSegmentBytes replayCapacity) (.running after writer)
  | applied
      {root rootAfter : StorageRoot}
      {writer after : DurableRealtimeWriter}
      {environment : AppendEnvironment}
      {events : List NormalizedProviderEvent}
      {outcomes : List DurableApplyOutcome} :
      writer.applyBatch serde environment root events = (.ok outcomes, after, rootAfter) →
      SessionStep serde streamId configRevision (.running root writer)
        (.applyBatch environment events) (.running rootAfter after)
  | checkpointed
      {root after : StorageRoot}
      {writer : DurableRealtimeWriter}
      {createdAt : DateTime}
      {checkpoint : RealtimeCheckpoint} :
      writer.checkpoint serde createdAt .completes root = (.ok checkpoint, after) →
      SessionStep serde streamId configRevision (.running root writer)
        (.checkpoint createdAt) (.running after writer)
  | dropped
      {root : StorageRoot}
      {writer : DurableRealtimeWriter} :
      SessionStep serde streamId configRevision (.running root writer) .drop
        (.closed root (some writer))

/-- A run of a session that starts with an empty root. -/
abbrev SessionRun (serde : Serde) (streamId configRevision : String) :
    List SessionAction → Session → Prop :=
  Run (SessionStep serde streamId configRevision) (.closed StorageRoot.empty none)

/-- The records the session had before the writer was dropped. -/
def lastRecords (last : Option DurableRealtimeWriter) : List PersistedRealtimeEvent :=
  (last.map DurableRealtimeWriter.records).getD []

/-- The reopened writer is the dropped one, with the window of its last
events. -/
structure RoundTrip
    (streamId : String) (replayCapacity : Nat) (last : Option DurableRealtimeWriter)
    (reopened : DurableRealtimeWriter) : Prop where
  records : reopened.records = lastRecords last
  walCursor : reopened.walCursor = (last.map DurableRealtimeWriter.walCursor).getD 0
  sequence : reopened.sequence = (last.map DurableRealtimeWriter.sequence).getD 0
  replay : reopened.replay.replay =
    (publishedEvents streamId (lastRecords last)).rtake replayCapacity
  ordered : Contiguous streamId (publishedEvents streamId (lastRecords last))

/-- What a session keeps. -/
inductive SessionHeld
    (serde : Serde) (streamId configRevision : String) : Session → Prop
  | closed
      {root : StorageRoot}
      {last : Option DurableRealtimeWriter}
      {entries : List SparseCursorEntry}
      (holds : RootHolds serde (streamId, configRevision) root (lastRecords last) entries)
      (taken : CheckpointsTaken serde (streamId, configRevision) (lastRecords last) entries
        root.checkpoints.candidates)
      (walCursor : (last.map DurableRealtimeWriter.walCursor).getD 0 = (lastRecords last).length)
      (sequence : (last.map DurableRealtimeWriter.sequence).getD 0 =
        (appliedRecords (lastRecords last)).length) :
      SessionHeld serde streamId configRevision (.closed root last)
  | running
      {root : StorageRoot}
      {writer : DurableRealtimeWriter}
      (held : WriterHeld serde writer root)
      (stream : writer.streamId = streamId)
      (revision : writer.configRevision = configRevision)
      (taken : CheckpointsTaken serde (streamId, configRevision) writer.records
        writer.wal.sparseIndex.entries root.checkpoints.candidates) :
      SessionHeld serde streamId configRevision (.running root writer)

section Session

variable {serde : Serde} {streamId configRevision : String}

theorem sessionHeld_start : SessionHeld serde streamId configRevision (.closed .empty none) :=
  .closed (rootHolds_empty serde _) checkpointsTaken_empty rfl rfl

variable {maxSegmentBytes replayCapacity : Nat} {indexWrites : Bool}

/-- What is opened is what the root holds. -/
theorem opened_records (holds : RootHolds serde (streamId, configRevision) root records entries)
    (success : DurableRealtimeWriter.openWriter serde indexWrites root streamId configRevision
      maxSegmentBytes replayCapacity = .ok opened) :
    opened.1.records = records ∧ opened.1.wal.sparseIndex.entries = entries := by
  obtain ⟨scan, scanned, rfl, rfl⟩ := holds.scanned
  have result := openWriter_opened holds.sorted success
  obtain ⟨again, scannedAgain, sameRecords, sameEntries⟩ := result.held.rootHolds.scanned
  rw [result.segments, result.streamId, result.configRevision] at scannedAgain
  obtain rfl := scanned.unique scannedAgain
  exact ⟨sameRecords.symm, sameEntries.symm⟩

theorem SessionHeld.step {before after : Session} {action : SessionAction}
    (held : SessionHeld serde streamId configRevision before)
    (taken : SessionStep serde streamId configRevision before action after) :
    SessionHeld serde streamId configRevision after := by
  cases taken with
  | opened success =>
    cases held with
    | closed holds stored walCursor sequence =>
      have result := openWriter_opened holds.sorted success
      obtain ⟨sameRecords, sameEntries⟩ := opened_records holds success
      refine .running result.held result.streamId result.configRevision ?_
      rw [sameRecords, sameEntries, result.checkpoints]
      exact stored
  | applied success =>
    cases held with
    | running writerHeld stream revision stored =>
      rcases applyBatch_cases writerHeld _ with
        ⟨outcomes, after, rootAfter, result, applied⟩ | ⟨_, _, _, failed, _⟩
      · rw [success] at result
        cases result
        obtain ⟨added, grown, placed⟩ := applied.index
        refine .running applied.held (applied.streamId.trans stream)
          (applied.configRevision.trans revision) ?_
        rw [applied.persisted, grown, applied.checkpoints]
        exact stored.grow _ placed
      · rw [success] at failed
        cases failed
  | checkpointed success =>
    cases held with
    | running writerHeld stream revision stored =>
      subst stream revision
      obtain ⟨sameWal, storedAfter⟩ := checkpoint_taken writerHeld stored _ .completes
      rw [success] at sameWal storedAfter
      exact .running ⟨sameWal ▸ writerHeld.wal, writerHeld.streamId,
        writerHeld.configRevision, writerHeld.positive, writerHeld.replay⟩ rfl rfl storedAfter
  | dropped =>
    cases held with
    | running writerHeld stream revision stored =>
      have holds := writerHeld.rootHolds
      rw [stream, revision] at holds
      exact .closed holds stored writerHeld.wal.walCursor writerHeld.sequence

theorem sessionHeld_of_run (run : SessionRun serde streamId configRevision actions session) :
    SessionHeld serde streamId configRevision session := by
  have preserved : ∀ before action after, SessionHeld serde streamId configRevision before →
      SessionStep serde streamId configRevision before action after →
      SessionHeld serde streamId configRevision after :=
    fun _ _ _ held taken => held.step taken
  exact Run.preserves preserved run sessionHeld_start

/-- A session that stores one event. -/
theorem run_of_event
    {indexWrites : Bool} {maxSegmentBytes replayCapacity : Nat} {environment : AppendEnvironment}
    {event : NormalizedProviderEvent}
    (valid : validateConfig streamId configRevision maxSegmentBytes = .ok ())
    (positive : 0 < replayCapacity) (completes : environment.write = .completes)
    (proven : serde.validEventEvidence event = true) :
    ∃ root last,
      SessionRun serde streamId configRevision
        [.openWriter indexWrites maxSegmentBytes replayCapacity, .applyBatch environment [event],
          .drop] (.closed root last) ∧
        root.checkpoints = StorageRoot.empty.checkpoints := by
  obtain ⟨writer, root, opens, opened, noRecords, noSegment⟩ :=
    @openWriter_empty serde indexWrites _ _ _ _ valid positive
  obtain ⟨outcomes, after, rootAfter, applies, applied⟩ :=
    applyBatch_succeeds opened.held ⟨opened.healthy, opened.walHealthy⟩ completes
      (List.cons_ne_nil event []) (by simpa using proven) (by simp [noRecords])
      (by rw [noSegment]; decide)
  refine ⟨rootAfter, some after, ?_, applied.checkpoints.trans opened.checkpoints⟩
  exact .cons (.opened opens) (.cons (.applied applies) (Run.single .dropped))

/-- A session that takes a checkpoint before its first batch cannot be reopened
with the same capacity. -/
theorem checkpoint_before_event_blocks
    (valid : validateConfig streamId configRevision maxSegmentBytes = .ok ())
    (positive : 0 < replayCapacity) (completes : environment.write = .completes)
    (proven : serde.validEventEvidence event = true) :
    ∃ root last,
      SessionRun serde streamId configRevision
        [.openWriter indexWrites maxSegmentBytes replayCapacity, .checkpoint createdAt,
          .applyBatch environment [event], .drop] (.closed root last) ∧
      ∀ indexWrites, DurableRealtimeWriter.openWriter serde indexWrites root streamId
        configRevision maxSegmentBytes replayCapacity = .error .checkpointWalDivergence := by
  obtain ⟨writer, root, opens, opened, noRecords, noSegment⟩ :=
    @openWriter_empty serde indexWrites _ _ _ _ valid positive
  have cursor : writer.walCursor = 0 := by
    have counted := opened.held.wal.walCursor
    change writer.walCursor = writer.records.length at counted
    rw [counted, noRecords, List.length_nil]
  let stored := sealedCheckpoint serde createdAt writer
  let saved : StorageRoot :=
    { root with checkpoints := ⟨some (serde.realtimeCheckpoint.toVec stored), none⟩ }
  have saves : writer.checkpoint serde createdAt .completes root = (.ok stored, saved) := by
    unfold DurableRealtimeWriter.checkpoint
    rw [opened.healthy, opened.walHealthy, cursor]
    have noFiles := opened.checkpoints
    simp only [Bool.or_self, false_eq_true, if_false, gt_iff_lt, lt_irrefl, decide_false,
      Bool.false_and, noFiles]
    rfl
  have held : WriterHeld serde writer saved :=
    ⟨opened.held.wal, opened.held.streamId, opened.held.configRevision, opened.held.positive,
      opened.held.replay⟩
  have taken := sealedCheckpoint_taken held createdAt
  rw [opened.streamId, opened.configRevision] at taken
  obtain ⟨outcomes, after, rootAfter, applies, applied⟩ :=
    applyBatch_succeeds held ⟨opened.healthy, opened.walHealthy⟩ completes
      (List.cons_ne_nil event []) (by simpa using proven) (by simp [noRecords])
      (by rw [noSegment]; decide)
  refine ⟨rootAfter, some after, ?_, ?_⟩
  · exact .cons (.opened opens) (.cons (.checkpointed saves)
      (.cons (.applied applies) (Run.single .dropped)))
  · intro indexWrites
    have holds := applied.held.rootHolds
    obtain ⟨added, grown, placed⟩ := applied.index
    have filled : after.records ≠ [] := by
      intro empty
      have events := applied.events
      have appended := applied.persisted
      rw [empty, noRecords, List.nil_append] at appended
      rw [List.map_eq_nil_iff.mp appended.symm] at events
      cases events
    have described := taken.grow (outcomes.map DurableApplyOutcome.persisted) placed
    rw [← applied.persisted, ← grown] at described
    rw [applied.streamId, applied.configRevision, opened.streamId, opened.configRevision] at holds
    refine openWriter_eq_error_of_select holds valid positive ?_
    rw [applied.checkpoints]
    have capacity : stored.replayCapacity = replayCapacity := opened.capacity
    rw [← capacity]
    exact selectCheckpoint_diverges described applied.held.records cursor filled

/-- In every state a session reaches with its writer dropped, opening the root
again gives the writer back exactly when the first checkpoint of the requested
capacity was not taken before the first batch, unless there is no batch yet. -/
theorem restart_roundTrips_iff
    {actions : List SessionAction} {root : StorageRoot} {last : Option DurableRealtimeWriter}
    {indexWrites : Bool} {maxSegmentBytes replayCapacity : Nat}
    (run : SessionRun serde streamId configRevision actions (.closed root last))
    (valid : validateConfig streamId configRevision maxSegmentBytes = .ok ())
    (positive : 1 ≤ replayCapacity) :
    (∃ opened, DurableRealtimeWriter.openWriter serde indexWrites root streamId configRevision
        maxSegmentBytes replayCapacity = .ok opened ∧
        RoundTrip streamId replayCapacity last opened.1) ↔
      ∀ checkpoint, firstOfCapacity serde replayCapacity root.checkpoints.candidates =
        some checkpoint → checkpoint.walCursor = 0 → lastRecords last = [] := by
  cases sessionHeld_of_run run with
  | closed holds stored walCursor sequence =>
    obtain ⟨scan, scanned, sameRecords, _⟩ := holds.scanned
    have sound : RecordsSound (lastRecords last) := sameRecords ▸ scanned.fits.sound.records
    have opens := @openWriter_succeeds_iff serde indexWrites root streamId configRevision
      maxSegmentBytes replayCapacity _ _ holds valid positive
    have selects := @selectCheckpoint_succeeds_iff serde (streamId, configRevision)
      (lastRecords last) _ replayCapacity _ stored sound
    rw [← selects]
    refine Iff.trans ?_ opens
    constructor
    · rintro ⟨opened, success, _⟩
      exact ⟨opened, success, opened_records holds success⟩
    · rintro ⟨opened, success, reopened, _⟩
      have result := openWriter_opened holds.sorted success
      refine ⟨opened, success, reopened, ?_, ?_, ?_, sound.contiguous streamId⟩
      · rw [walCursor, ← reopened]
        exact result.held.wal.walCursor
      · rw [sequence, ← reopened]
        exact result.held.sequence
      · rw [result.held.replay, result.streamId, result.capacity, reopened]
        rfl

end Session

/-! ## A session of one stream status -/

theorem restart_roundTrips_sample :
    ∃ root last opened,
      SessionRun sampleSerde "longport" "revision-1"
        [.openWriter true 4096 2, .applyBatch sampleEnvironment [sampleStatus 0], .drop]
        (.closed root last) ∧
      DurableRealtimeWriter.openWriter sampleSerde false root "longport" "revision-1" 4096 2 =
        .ok opened ∧
      RoundTrip "longport" 2 last opened.1 := by
  have positive : 0 < 2 := by decide
  have completes : sampleEnvironment.write = .completes := rfl
  obtain ⟨root, last, run, noCheckpoints⟩ :=
    @run_of_event sampleSerde "longport" "revision-1" true 4096 2 _ _ sampleConfig_valid positive
      completes (sampleStatus_proven 0)
  have unsaved : ∀ checkpoint,
      firstOfCapacity sampleSerde 2 root.checkpoints.candidates = some checkpoint →
        checkpoint.walCursor = 0 → lastRecords last = [] := by
    intro checkpoint first
    rw [noCheckpoints] at first
    cases first
  obtain ⟨opened, success, roundTrip⟩ :=
    (restart_roundTrips_iff run sampleConfig_valid positive).mpr unsaved
  exact ⟨root, last, opened, run, success, roundTrip⟩

theorem restart_fails_after_empty_checkpoint :
    ∃ root last,
      SessionRun sampleSerde "longport" "revision-1"
        [.openWriter true 4096 2, .checkpoint 0, .applyBatch sampleEnvironment [sampleStatus 0],
          .drop] (.closed root last) ∧
      ∀ indexWrites, DurableRealtimeWriter.openWriter sampleSerde indexWrites root "longport"
        "revision-1" 4096 2 = .error .checkpointWalDivergence :=
  checkpoint_before_event_blocks sampleConfig_valid (by decide) rfl (sampleStatus_proven 0)

end MarketCow.Realtime
