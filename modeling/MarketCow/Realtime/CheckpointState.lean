import MarketCow.Realtime.WriterState

/-!
# Stored checkpoints

A checkpoint describes the log at the moment it was taken, and that stays a
prefix of the log. Whether such a checkpoint matches a later log depends on one
thing only: a checkpoint of the empty log matches nothing but the empty log.
-/

namespace MarketCow.Realtime

open Library MarketCow.Core SequencedReplay List
open SparseCursorEntry (byteOffset segmentId)

/-- Some entries of an index and the hash and boundary a checkpoint takes from
them. -/
structure IndexTaken
    (serde : Serde) (scope : String × String) (entries : List SparseCursorEntry)
    (checkpoint : RealtimeCheckpoint) : Prop where
  digest : checkpoint.sparseIndexStateSha256 = some (sparseIndexOf serde scope entries).stateSha256
  segment : checkpoint.boundarySegmentId = entries.getLast?.map segmentId
  offset : checkpoint.boundaryByteOffset = entries.getLast?.map byteOffset

/-- The checkpoint was taken when the log had the first `walCursor` records. -/
structure CheckpointTaken
    (serde : Serde) (scope : String × String) (records : List PersistedRealtimeEvent)
    (entries : List SparseCursorEntry) (checkpoint : RealtimeCheckpoint) : Prop where
  version : checkpoint.schemaVersion = realtimeCheckpointVersion
  sealed : checkpoint.stateSha256 =
    serde.digest (serde.checkpointIntegrityV2 checkpoint.toCheckpointIntegrityV2)
  streamId : checkpoint.streamId = scope.1
  configRevision : checkpoint.configRevision = scope.2
  inside : checkpoint.walCursor ≤ records.length
  sequence : checkpoint.publicSequence =
    (publishedEvents scope.1 (records.take checkpoint.walCursor)).length
  lastRecord : checkpoint.lastRecordSha256 =
    (records.take checkpoint.walCursor).getLast?.map fun record => record.recordSha256
  replay : checkpoint.replay =
    (publishedEvents scope.1 (records.take checkpoint.walCursor)).rtake checkpoint.replayCapacity
  index : ∃ taken later, entries = taken ++ later ∧
    (∀ entry ∈ taken, entry.firstWalCursor ≤ checkpoint.walCursor) ∧
    (∀ entry ∈ later, checkpoint.walCursor < entry.firstWalCursor) ∧
    IndexTaken serde scope taken checkpoint

variable {serde : Serde} {scope : String × String} {records : List PersistedRealtimeEvent}
  {entries : List SparseCursorEntry} {checkpoint : RealtimeCheckpoint}

/-- A checkpoint still describes the log after the log has grown. -/
theorem CheckpointTaken.grow (taken : CheckpointTaken serde scope records entries checkpoint)
    (more : List PersistedRealtimeEvent) {added : List SparseCursorEntry}
    (placed : ∀ entry ∈ added, records.length < entry.firstWalCursor) :
    CheckpointTaken serde scope (records ++ more) (entries ++ added) checkpoint := by
  have same : (records ++ more).take checkpoint.walCursor = records.take checkpoint.walCursor :=
    take_append_of_le_length taken.inside
  obtain ⟨early, later, split, before, after, index⟩ := taken.index
  refine ⟨taken.version, taken.sealed, taken.streamId, taken.configRevision, ?_,
    same ▸ taken.sequence, same ▸ taken.lastRecord, same ▸ taken.replay,
    early, later ++ added, ?_, before, ?_, index⟩
  · rw [length_append]
    exact taken.inside.trans (Nat.le_add_right _ _)
  · rw [split, append_assoc]
  · intro entry mem
    rcases mem_append.mp mem with old | new
    · exact after entry old
    · exact taken.inside.trans_lt (placed entry new)

/-! ## Reading a checkpoint back -/

theorem readCheckpoint_taken (taken : CheckpointTaken serde scope records entries checkpoint) :
    readCheckpoint serde (serde.realtimeCheckpoint.toVec checkpoint) = .ok checkpoint := by
  have ne : realtimeCheckpointVersion ≠ realtimeCheckpointV1 := by decide
  unfold readCheckpoint
  rw [Codec.fromSlice_toVec]
  dsimp only
  unfold checkpointIntegrityBytes
  rw [taken.version, if_neg ne, if_pos rfl]
  refine bind_ok.mpr ⟨_, rfl, ?_⟩
  rw [if_neg (not_not.mpr taken.sealed.symm)]

variable {taken later : List SparseCursorEntry} {cursor : Nat}

section

variable (before : ∀ entry ∈ taken, entry.firstWalCursor ≤ cursor)
include before

section

variable (after : ∀ entry ∈ later, cursor < entry.firstWalCursor)
include after

theorem takeWhile_located :
    partitionPoint (fun entry => decide (entry.firstWalCursor ≤ cursor)) (taken ++ later) =
      taken.length := by
  unfold partitionPoint
  have whole : taken.takeWhile (fun entry => decide (entry.firstWalCursor ≤ cursor)) = taken :=
    takeWhile_eq_self_iff.mpr fun entry mem => decide_eq_true (before entry mem)
  rw [takeWhile_append, whole, if_pos rfl, length_append]
  cases later with
  | nil => rfl
  | cons entry later =>
    have beyond := after entry (by simp)
    rw [takeWhile_cons, if_neg (by simpa using beyond)]
    rfl

/-- The index locates the last of the entries up to the cursor. -/
theorem locate_sparseIndexOf :
    (sparseIndexOf serde scope (taken ++ later)).locate cursor = taken.getLast? := by
  have point : partitionPoint (fun entry => decide (entry.firstWalCursor ≤ cursor))
      (sparseIndexOf serde scope (taken ++ later)).entries = taken.length :=
    takeWhile_located before after
  unfold RealtimeSparseIndex.locate
  rw [point, getLast?_eq_getElem?]
  cases size : taken.length with
  | zero =>
    rw [length_eq_zero_iff.mp size]
    rfl
  | succ count =>
    rw [Nat.add_sub_cancel]
    exact getElem?_append_left (by omega)

/-- The hash of the entries up to the cursor. -/
theorem sparseIndexPrefixDigest_sparseIndexOf :
    sparseIndexPrefixDigest serde (sparseIndexOf serde scope (taken ++ later)) cursor =
      (sparseIndexOf serde scope taken).stateSha256 := by
  have point : partitionPoint (fun entry => decide (entry.firstWalCursor ≤ cursor))
      (sparseIndexOf serde scope (taken ++ later)).entries = taken.length :=
    takeWhile_located before after
  unfold sparseIndexPrefixDigest
  dsimp only
  rw [point]
  have cut : (sparseIndexOf serde scope (taken ++ later)).entries.take taken.length = taken :=
    take_left
  rw [cut]
  rfl

end

end

/-! ## Matching a checkpoint -/

theorem checkpointIntact_taken (taken : CheckpointTaken serde scope records entries checkpoint) :
    checkpointIntact serde checkpoint = true := by
  have ne : realtimeCheckpointVersion ≠ realtimeCheckpointV1 := by decide
  unfold checkpointIntact checkpointIntegrityBytes
  rw [taken.version, if_neg ne, if_pos rfl]
  exact beq_iff_eq.mpr taken.sealed.symm

theorem checkpointIndexMatches_taken
    (taken : CheckpointTaken serde scope records entries checkpoint) :
    checkpointIndexMatches serde checkpoint (sparseIndexOf serde scope entries) = true := by
  obtain ⟨early, later, rfl, before, after, index⟩ := taken.index
  unfold checkpointIndexMatches
  rw [if_pos taken.version, locate_sparseIndexOf before after,
    sparseIndexPrefixDigest_sparseIndexOf before after, index.digest, index.segment,
    index.offset]
  simp

/-- The last record a checkpoint covers, as matching looks it up: a checkpoint
of the empty log is compared with the first record. -/
theorem lastRecord_matches_iff (taken : CheckpointTaken serde scope records entries checkpoint) :
    records[checkpoint.walCursor - 1]?.map (fun record => record.recordSha256) =
        checkpoint.lastRecordSha256 ↔
      (checkpoint.walCursor = 0 → records = []) := by
  rw [taken.lastRecord]
  cases cursor : checkpoint.walCursor with
  | zero =>
    cases records with
    | nil | cons record rest => simp
  | succ count =>
    have inside := taken.inside
    rw [cursor] at inside
    have found : records[count]? = some records[count] := getElem?_eq_getElem inside
    rw [getLast?_take, if_neg (Nat.succ_ne_zero count), Nat.add_sub_cancel, found]
    simp

/-- A stored checkpoint matches the log, unless it was taken with an empty log
that is empty no more. -/
theorem checkpointMatches_iff (taken : CheckpointTaken serde scope records entries checkpoint)
    (sound : RecordsSound records) :
    checkpointMatches serde checkpoint scope.1 scope.2 checkpoint.replayCapacity records
        (sparseIndexOf serde scope entries) = true ↔
      (checkpoint.walCursor = 0 → records = []) := by
  have boundary : partitionPoint (fun record => decide (record.walCursor ≤ checkpoint.walCursor))
      records = checkpoint.walCursor := by
    rw [sound.partitionPoint_walCursor, Nat.min_eq_left taken.inside]
  have contiguous := (sound.take checkpoint.walCursor).contiguous scope.1
  unfold checkpointMatches
  rw [boundary, checkpointIntact_taken taken, checkpointIndexMatches_taken taken, taken.version,
    taken.streamId, taken.configRevision, if_neg (by simp)]
  dsimp only
  rw [if_neg (by simp), ← lastRecord_matches_iff taken]
  by_cases same : records[checkpoint.walCursor - 1]?.map (fun record => record.recordSha256) =
      checkpoint.lastRecordSha256
  · rw [if_neg (by simp [same]), contiguous.last_sequence, taken.sequence, taken.replay]
    simp [same]
  · rw [if_pos (by simp [same])]
    simp [same]

/-! ## The checkpoint directory -/

/-- Every stored checkpoint describes a prefix of the log. -/
def CheckpointsTaken
    (serde : Serde) (scope : String × String) (records : List PersistedRealtimeEvent)
    (entries : List SparseCursorEntry) (files : List (Option Bytes)) : Prop :=
  ∀ bytes, some bytes ∈ files → ∃ checkpoint,
    bytes = serde.realtimeCheckpoint.toVec checkpoint ∧
      CheckpointTaken serde scope records entries checkpoint

/-- The checkpoint files in the order recovery tries them. -/
def CheckpointDirectory.candidates (directory : CheckpointDirectory) : List (Option Bytes) :=
  [directory.current, directory.previous]

theorem checkpointsTaken_empty :
    CheckpointsTaken serde scope records entries StorageRoot.empty.checkpoints.candidates := by
  intro bytes mem
  simp [StorageRoot.empty, CheckpointDirectory.candidates] at mem

theorem CheckpointsTaken.grow
    {files : List (Option Bytes)} (taken : CheckpointsTaken serde scope records entries files)
    (more : List PersistedRealtimeEvent) {added : List SparseCursorEntry}
    (placed : ∀ entry ∈ added, records.length < entry.firstWalCursor) :
    CheckpointsTaken serde scope (records ++ more) (entries ++ added) files := by
  intro bytes mem
  obtain ⟨checkpoint, written, before⟩ := taken bytes mem
  exact ⟨checkpoint, written, before.grow more placed⟩

/-- Wherever writing a checkpoint stops, every stored checkpoint is one that was
stored before or the new one. -/
theorem CheckpointsTaken.write
    (taken : CheckpointsTaken serde scope records entries directory.candidates)
    (fresh : CheckpointTaken serde scope records entries checkpoint) (outcome : CheckpointWrite) :
    CheckpointsTaken serde scope records entries
      (writeCheckpoint serde outcome directory checkpoint).2.candidates := by
  intro bytes mem
  have kept : ∀ file, some file = directory.current ∨ some file = directory.previous →
      ∃ checkpoint, file = serde.realtimeCheckpoint.toVec checkpoint ∧
        CheckpointTaken serde scope records entries checkpoint := by
    intro file stored
    exact taken file (by simpa [CheckpointDirectory.candidates] using stored)
  have cases : some bytes = directory.current ∨ some bytes = directory.previous ∨
      bytes = serde.realtimeCheckpoint.toVec checkpoint := by
    unfold writeCheckpoint at mem
    generalize (directory.current.any fun bytes => (readCheckpoint serde bytes).isOk) = readable
      at mem
    match outcome with
    | .completes => cases readable <;> simp [CheckpointDirectory.candidates] at mem <;> tauto
    | .stops 0 =>
      simp [CheckpointDirectory.candidates] at mem
      tauto
    | .stops 1 | .stops (_ + 2) =>
      cases readable <;> simp [CheckpointDirectory.candidates] at mem <;> tauto
  rcases cases with current | previous | new
  · exact kept bytes (.inl current)
  · exact kept bytes (.inr previous)
  · exact ⟨checkpoint, new, fresh⟩

/-- The first stored checkpoint with a replay capacity, in the order recovery
tries them. -/
def firstOfCapacity (serde : Serde) (replayCapacity : Nat)
    (files : List (Option Bytes)) : Option RealtimeCheckpoint :=
  (files.filterMap fun file => file.bind fun bytes => (readCheckpoint serde bytes).toOption).find?
    fun checkpoint => checkpoint.replayCapacity == replayCapacity

/-- A checkpoint can be selected, or none, unless the first one of the requested
capacity was taken with an empty log that is empty no more. -/
theorem selectCheckpoint_succeeds_iff {replayCapacity : Nat} {files : List (Option Bytes)}
    (taken : CheckpointsTaken serde scope records entries files) (sound : RecordsSound records) :
    (∃ selected, selectCheckpoint serde scope.1 scope.2 replayCapacity records
        (sparseIndexOf serde scope entries) files = .ok selected) ↔
      ∀ checkpoint, firstOfCapacity serde replayCapacity files = some checkpoint →
        checkpoint.walCursor = 0 → records = [] := by
  induction files with
  | nil =>
    constructor
    · intro _ checkpoint never
      cases never
    · intro _
      exact ⟨none, rfl⟩
  | cons file files ih =>
    have later : CheckpointsTaken serde scope records entries files :=
      fun bytes mem => taken bytes (mem_cons_of_mem _ mem)
    cases file with
    | none => exact ih later
    | some bytes =>
      obtain ⟨checkpoint, rfl, fresh⟩ := taken bytes (by simp)
      have read := readCheckpoint_taken fresh
      have inScope : ¬(checkpoint.streamId ≠ scope.1 ∨ checkpoint.configRevision ≠ scope.2) := by
        rw [fresh.streamId, fresh.configRevision]
        simp
      have first : firstOfCapacity serde replayCapacity
          (some (serde.realtimeCheckpoint.toVec checkpoint) :: files) =
          if checkpoint.replayCapacity = replayCapacity then some checkpoint
          else firstOfCapacity serde replayCapacity files := by
        unfold firstOfCapacity
        rw [filterMap_cons, Option.bind_some, read]
        dsimp only [Except.toOption]
        rw [find?_cons]
        by_cases same : checkpoint.replayCapacity = replayCapacity
        · rw [if_pos same, beq_iff_eq.mpr same]
        · rw [if_neg same, beq_eq_false_iff_ne.mpr same]
      rw [selectCheckpoint, read, first]
      dsimp only
      rw [if_neg inScope]
      by_cases same : checkpoint.replayCapacity = replayCapacity
      · have fits := checkpointMatches_iff fresh sound
        rw [same] at fits
        rw [if_neg (not_not.mpr same), if_pos same]
        constructor
        · rintro ⟨selected, chosen⟩ other isFirst
          cases isFirst
          split at chosen
          · rename_i matched
            exact fits.mp matched
          · cases chosen
        · intro condition
          rw [if_pos (fits.mpr (condition checkpoint rfl))]
          exact ⟨_, rfl⟩
      · rw [if_pos same, if_neg same]
        exact ih later

/-- A current checkpoint of the requested capacity that was taken with an empty
log blocks recovery from a longer one. -/
theorem selectCheckpoint_diverges
    (taken : CheckpointTaken serde scope records entries checkpoint) (sound : RecordsSound records)
    (early : checkpoint.walCursor = 0) (filled : records ≠ []) :
    selectCheckpoint serde scope.1 scope.2 checkpoint.replayCapacity records
      (sparseIndexOf serde scope entries)
      (some (serde.realtimeCheckpoint.toVec checkpoint) :: files) =
      .error .checkpointWalDivergence := by
  have inScope : ¬(checkpoint.streamId ≠ scope.1 ∨ checkpoint.configRevision ≠ scope.2) := by
    rw [taken.streamId, taken.configRevision]
    simp
  have mismatch : ¬checkpointMatches serde checkpoint scope.1 scope.2 checkpoint.replayCapacity
      records (sparseIndexOf serde scope entries) = true := by
    rw [checkpointMatches_iff taken sound]
    exact fun empties => filled (empties early)
  rw [selectCheckpoint, readCheckpoint_taken taken]
  dsimp only
  rw [if_neg inScope, if_neg (not_not.mpr rfl), if_neg mismatch]

/-! ## Taking a checkpoint -/

/-- The checkpoint a writer takes, with its hash. -/
def sealedCheckpoint
    (serde : Serde) (createdAt : DateTime) (writer : DurableRealtimeWriter) : RealtimeCheckpoint :=
  { writer.takeCheckpoint serde createdAt with
    stateSha256 :=
      serde.digest (serde.checkpointIntegrityV2 (writer.takeCheckpoint serde createdAt)) }

theorem sealedCheckpoint_taken (held : WriterHeld serde writer root) (createdAt : DateTime) :
    CheckpointTaken serde (writer.streamId, writer.configRevision) writer.records
      writer.wal.sparseIndex.entries (sealedCheckpoint serde createdAt writer) := by
  obtain ⟨scan, scanned, sameRecords, sameEntries, _⟩ := held.wal.scanned
  have cursor : writer.walCursor = writer.records.length := held.wal.walCursor
  have located : ∀ entry ∈ writer.wal.sparseIndex.entries,
      entry.firstWalCursor ≤ writer.walCursor := by
    intro entry mem
    rw [cursor]
    have bound := scanned.fits.indexed.located entry (sameEntries ▸ mem)
    rw [sameRecords] at bound
    exact bound
  have whole : writer.records.take (sealedCheckpoint serde createdAt writer).walCursor =
      writer.records := by
    change writer.records.take writer.walCursor = _
    rw [cursor, take_length]
  have index := held.wal.index
  rw [held.streamId, held.configRevision] at index
  have entries : writer.wal.sparseIndex = sparseIndexOf serde
      (writer.streamId, writer.configRevision) (writer.wal.sparseIndex.entries ++ []) := by
    rw [append_nil]
    exact index
  have boundary : writer.wal.sparseIndex.locate writer.walCursor =
      writer.wal.sparseIndex.entries.getLast? := by
    have found : (sparseIndexOf serde (writer.streamId, writer.configRevision)
        (writer.wal.sparseIndex.entries ++ [])).locate writer.walCursor = _ :=
      locate_sparseIndexOf located (by simp)
    rw [← entries] at found
    exact found
  have digest : sparseIndexPrefixDigest serde writer.wal.sparseIndex writer.walCursor =
      (sparseIndexOf serde (writer.streamId, writer.configRevision)
        writer.wal.sparseIndex.entries).stateSha256 := by
    have found : sparseIndexPrefixDigest serde (sparseIndexOf serde
        (writer.streamId, writer.configRevision) (writer.wal.sparseIndex.entries ++ []))
        writer.walCursor = _ :=
      sparseIndexPrefixDigest_sparseIndexOf located (by simp)
    rw [← entries] at found
    exact found
  refine ⟨rfl, rfl, rfl, rfl, cursor.le, ?_, ?_, ?_,
    writer.wal.sparseIndex.entries, [], (append_nil _).symm, located, by simp, ?_, ?_, ?_⟩
  · rw [whole, length_publishedEvents]
    exact held.sequence
  · rw [whole]
    rfl
  · rw [whole]
    change writer.replay.replay = _
    rw [held.replay]
    rfl
  · exact congrArg some digest
  · exact congrArg (Option.map segmentId) boundary
  · exact congrArg (Option.map byteOffset) boundary

/-- Taking a checkpoint leaves the log alone and stores checkpoints of the log
only, however far its writes get. -/
theorem checkpoint_taken (held : WriterHeld serde writer root)
    (taken : CheckpointsTaken serde (writer.streamId, writer.configRevision) writer.records
      writer.wal.sparseIndex.entries root.checkpoints.candidates)
    (createdAt : DateTime)
    (outcome : CheckpointWrite) :
    (writer.checkpoint serde createdAt outcome root).2.wal = root.wal ∧
      CheckpointsTaken serde (writer.streamId, writer.configRevision) writer.records
        writer.wal.sparseIndex.entries
        (writer.checkpoint serde createdAt outcome root).2.checkpoints.candidates := by
  unfold DurableRealtimeWriter.checkpoint
  split
  · exact ⟨rfl, taken⟩
  split
  · exact ⟨rfl, taken⟩
  · exact ⟨rfl, taken.write (sealedCheckpoint_taken held createdAt) outcome⟩

end MarketCow.Realtime
