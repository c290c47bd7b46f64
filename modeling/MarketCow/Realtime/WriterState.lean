import MarketCow.Realtime.AppendOutcome

/-!
# The state of the durable writer

The replay of a writer is the window of what its log has published: opening
establishes this, by a checkpoint or by the whole log, and batches keep it.
-/

namespace MarketCow.Realtime

open Library MarketCow.Core SequencedReplay List
open Library.Fallible (bind_eq_error_iff)
open DurableRealtimeWriter (applyBatch openWriter)

/-! ## Publishing sound records -/

/-- What a record publishes. -/
def publishedBy (streamId : String) (record : PersistedRealtimeEvent) : Option StreamEvent :=
  if record.applied then
    some { streamId, sequence := record.publicSequence.getD 0, event := record.event }
  else none

theorem publishedEvents_singleton (streamId : String) (record : PersistedRealtimeEvent) :
    publishedEvents streamId [record] = (publishedBy streamId record).toList := by
  unfold publishedBy publishedEvents
  cases applied : record.applied <;> simp [applied]

theorem publishedEvents_eq_filterMap (streamId : String) (records : List PersistedRealtimeEvent) :
    publishedEvents streamId records = records.filterMap (publishedBy streamId) := by
  induction records with
  | nil => rfl
  | cons record records ih =>
    have split := publishedEvents_append streamId [record] records
    rw [singleton_append, publishedEvents_singleton, ih] at split
    rw [split, filterMap_cons]
    cases publishedBy streamId record <;> rfl

namespace RecordsSound

variable {records : List PersistedRealtimeEvent}

theorem of_append
    (sound : RecordsSound (first ++ second)) :
    RecordsSound first := by
  have shorter : (appliedRecords first).length ≤ (appliedRecords (first ++ second)).length := by
    rw [appliedRecords_append, length_append]
    exact Nat.le_add_right _ _
  refine ⟨?_, ?_, ?_, shorter.trans_lt sound.bounded, ?_⟩
  · have same := congrArg (List.take first.length) sound.cursors
    rw [map_append, take_left' (length_map _), ← map_take,
      take_range, length_append, Nat.min_eq_left (Nat.le_add_right _ _)] at same
    exact same
  · have same := congrArg (List.take (appliedRecords first).length) sound.sequences
    rw [appliedRecords_append, map_append, take_left' (length_map _),
      ← map_take, take_range, length_append,
      Nat.min_eq_left (Nat.le_add_right _ _)] at same
    exact same
  · have distinct := sound.distinct
    rw [appliedRecords_append, map_append] at distinct
    exact (nodup_append.mp distinct).1
  · exact fun record mem => sound.duplicates record (mem_append_left _ mem)

/-- The last record, when it was applied, has the next sequence and a new id. -/
theorem last_applied
    (sound : RecordsSound (records ++ [record])) (applied : record.applied = true) :
    record.publicSequence = some ((appliedRecords records).length + 1) ∧
      (appliedRecords records).length + 1 < 2 ^ 64 ∧
      record.event.eventId ∉ (appliedRecords records).map fun record => record.event.eventId := by
  have sequences := sound.sequences
  have bounded := sound.bounded
  have distinct := sound.distinct
  rw [appliedRecords_append, appliedRecords_applied applied] at sequences bounded distinct
  rw [length_append, length_singleton] at sequences bounded
  rw [map_append, map_singleton, range_succ, map_append, map_singleton] at sequences
  rw [map_append, map_singleton] at distinct
  have last := append_inj_right sequences (by simp)
  refine ⟨singleton_inj.mp last, bounded, ?_⟩
  intro mem
  exact (nodup_append.mp distinct).2.2 _ mem _ (mem_singleton.mpr rfl) rfl

end RecordsSound

section Publish

variable {streamId : String} {capacity : Nat} {old : List PersistedRealtimeEvent}

/-- Committing the next applied record publishes it. -/
theorem commitPersisted_record (streamId : String)
    (positive : 0 < capacity) (sound : RecordsSound (old ++ [record]))
    (applied : record.applied = true) :
    ∃ sequence, record.publicSequence = some sequence ∧
      (ofPublished streamId capacity (publishedEvents streamId old)).commitPersisted
          record.event sequence =
        .ok ({ streamId, sequence, event := record.event },
          ofPublished streamId capacity (publishedEvents streamId (old ++ [record]))) := by
  obtain ⟨numbered, bounded, fresh⟩ := sound.last_applied applied
  have distinct := (sound.of_append.contiguous streamId).distinct
  rw [← eventIds_publishedEvents streamId] at fresh
  rw [← length_publishedEvents streamId old] at numbered bounded
  refine ⟨_, numbered, ?_⟩
  rw [commitPersisted_ofPublished positive bounded distinct fresh, publishedEvents_append,
    publishedEvents_singleton]
  unfold publishedBy
  rw [if_pos applied, numbered]
  rfl

theorem publishedEvents_duplicate
    (notApplied : record.applied = false) :
    publishedEvents streamId (old ++ [record]) = publishedEvents streamId old := by
  rw [publishedEvents_append, publishedEvents_singleton]
  unfold publishedBy
  rw [notApplied]
  exact append_nil _

theorem replayRecord_ofPublished
    (positive : 0 < capacity) (sound : RecordsSound (old ++ [record])) :
    replayRecord (ofPublished streamId capacity (publishedEvents streamId old)) record =
      .ok (ofPublished streamId capacity (publishedEvents streamId (old ++ [record]))) := by
  unfold replayRecord
  cases applied : record.applied with
  | false => rw [publishedEvents_duplicate applied]; rfl
  | true =>
    obtain ⟨sequence, numbered, committed⟩ := commitPersisted_record streamId positive sound applied
    rw [numbered]
    dsimp only
    rw [committed]
    rfl

/-- Replaying sound records publishes what they published. -/
theorem replayRecords_ofPublished
    (positive : 0 < capacity) (sound : RecordsSound (old ++ records)) :
    records.foldlM replayRecord (ofPublished streamId capacity (publishedEvents streamId old)) =
      .ok (ofPublished streamId capacity (publishedEvents streamId (old ++ records))) := by
  induction records generalizing old with
  | nil => rw [append_nil]; rfl
  | cons record records ih =>
    have regrouped : old ++ record :: records = (old ++ [record]) ++ records := by simp
    rw [regrouped] at sound ⊢
    exact foldlM_cons_ok.mpr ⟨_, replayRecord_ofPublished positive sound.of_append, ih sound⟩

/-- Publishing persisted records never fails on a sound log. -/
theorem publishPersisted_ofPublished (streamId : String)
    (positive : 0 < capacity) (sound : RecordsSound (old ++ records)) :
    publishPersisted (ofPublished streamId capacity (publishedEvents streamId old)) records =
      (.ok (records.map fun record =>
        { persisted := record, published := publishedBy streamId record }),
        ofPublished streamId capacity (publishedEvents streamId (old ++ records))) := by
  induction records generalizing old with
  | nil => rw [append_nil]; rfl
  | cons record records ih =>
    have regrouped : old ++ record :: records = (old ++ [record]) ++ records := by simp
    rw [regrouped] at sound ⊢
    have later := ih sound
    rw [publishPersisted, map_cons]
    unfold publishedBy
    cases applied : record.applied with
    | false =>
      rw [publishedEvents_duplicate applied] at later
      simp only [false_eq_true, if_false, later]
      rfl
    | true =>
      obtain ⟨sequence, numbered, committed⟩ :=
        commitPersisted_record streamId positive sound.of_append applied
      simp only [if_true, numbered, committed, later]
      rfl

end Publish

/-! ## Recovery -/

namespace RecordsSound

variable {records : List PersistedRealtimeEvent}

/-- The records after a cursor are the records after as many. -/
theorem filter_walCursor (sound : RecordsSound records) (cursor : Nat) :
    records.filter (fun record => decide (record.walCursor > cursor)) = records.drop cursor := by
  induction records using List.reverseRecOn with
  | nil => rw [drop_nil]; rfl
  | append_singleton records record ih =>
    have inside : records.length < (records ++ [record]).length := by simp
    have numbered := sound.walCursor_getElem inside
    rw [getElem_concat_length rfl] at numbered
    rw [filter_append, ih sound.of_append, drop_append]
    congr 1
    by_cases later : cursor ≤ records.length
    · rw [Nat.sub_eq_zero_of_le later, drop_zero, filter_cons, if_pos]
      · rfl
      · rw [numbered]
        exact decide_eq_true (by omega)
    · obtain ⟨distance, isDistance⟩ : ∃ distance, cursor - records.length = distance + 1 :=
        ⟨cursor - records.length - 1, by omega⟩
      rw [isDistance, drop_succ_cons, drop_nil, filter_cons, if_neg]
      · rfl
      · rw [numbered, decide_eq_true_eq]
        omega

/-- As many records lie at or before a cursor as the cursor says. -/
theorem partitionPoint_walCursor (sound : RecordsSound records) (cursor : Nat) :
    partitionPoint (fun record => decide (record.walCursor ≤ cursor)) records =
      min cursor records.length := by
  unfold partitionPoint
  induction records using List.reverseRecOn with
  | nil => simp
  | append_singleton records record ih =>
    have inside : records.length < (records ++ [record]).length := by simp
    have numbered := sound.walCursor_getElem inside
    rw [getElem_concat_length rfl] at numbered
    have earlier := ih sound.of_append
    rw [takeWhile_append, earlier, length_append, length_singleton]
    split
    · rename_i whole
      rw [length_append, takeWhile_cons, numbered]
      by_cases later : records.length + 1 ≤ cursor
      · rw [decide_eq_true later, if_pos rfl]
        simp only [takeWhile_nil, length_singleton]
        omega
      · rw [decide_eq_false later, if_neg Bool.false_ne_true, length_nil]
        omega
    · rw [earlier]
      omega

end RecordsSound

/-- What a matching checkpoint says about the log. -/
structure CheckpointFits
    (checkpoint : RealtimeCheckpoint) (streamId : String) (replayCapacity : Nat)
    (records : List PersistedRealtimeEvent) : Prop where
  stream : checkpoint.streamId = streamId
  capacity : checkpoint.replayCapacity = replayCapacity
  inside : checkpoint.walCursor ≤ records.length
  sequence : checkpoint.publicSequence =
    (publishedEvents streamId (records.take checkpoint.walCursor)).length
  replay : checkpoint.replay =
    (publishedEvents streamId (records.take checkpoint.walCursor)).rtake replayCapacity

/-- The last sequence of a contiguous history is its length. -/
theorem SequencedReplay.Contiguous.last_sequence {streamId : String} {published : List StreamEvent}
    (contiguous : Contiguous streamId published) :
    (published.getLast?.map StreamEvent.sequence).getD 0 = published.length := by
  cases last : published.getLast? with
  | none =>
    rw [getLast?_eq_none_iff.mp last]
    rfl
  | some event =>
    rw [getLast?_eq_getElem?] at last
    obtain ⟨inside, rfl⟩ := List.getElem?_eq_some_iff.mp last
    rw [map_some, getD_some, (contiguous.getElem inside).2]
    omega

theorem RecordsSound.take
    (sound : RecordsSound records) (count : Nat) :
    RecordsSound (records.take count) := by
  rw [← take_append_drop count records] at sound
  exact sound.of_append

theorem checkpointFits_of_matches
    {serde : Serde} {checkpoint : RealtimeCheckpoint} {streamId configRevision : String}
    {replayCapacity : Nat} {records : List PersistedRealtimeEvent}
    {sparseIndex : RealtimeSparseIndex} (sound : RecordsSound records)
    (fits : checkpointMatches serde checkpoint streamId configRevision replayCapacity records
      sparseIndex = true) :
    CheckpointFits checkpoint streamId replayCapacity records := by
  unfold checkpointMatches at fits
  split at fits
  · cases fits
  · rename_i inScope
    simp only [or_eq_true, not_or, bne_iff_ne, ne_eq, not_not] at inScope
    obtain ⟨⟨⟨⟨_, stream⟩, _⟩, capacity⟩, _⟩ := inScope
    dsimp only at fits
    split at fits
    · cases fits
    · rename_i placed
      simp only [or_eq_true, not_or, bne_iff_ne, ne_eq, not_not] at placed
      have boundary := placed.2
      rw [sound.partitionPoint_walCursor] at boundary fits
      have inside : checkpoint.walCursor ≤ records.length := by omega
      rw [boundary] at fits
      split at fits
      · cases fits
      · simp only [and_eq_true, beq_iff_eq] at fits
        have contiguous := (sound.take checkpoint.walCursor).contiguous streamId
        rw [contiguous.last_sequence] at fits
        exact ⟨stream, capacity, inside, fits.1, fits.2⟩

/-- A selected checkpoint matches the log. -/
theorem selectCheckpoint_matches
    {serde : Serde} {streamId configRevision : String} {replayCapacity : Nat}
    {records : List PersistedRealtimeEvent} {sparseIndex : RealtimeSparseIndex}
    {candidates : List (Option Bytes)} {checkpoint : RealtimeCheckpoint}
    (selected : selectCheckpoint serde streamId configRevision replayCapacity records sparseIndex
      candidates = .ok (some checkpoint)) :
    checkpointMatches serde checkpoint streamId configRevision replayCapacity records
      sparseIndex = true := by
  induction candidates with
  | nil => cases selected
  | cons candidate candidates ih =>
    cases candidate with
    | none => exact ih selected
    | some bytes =>
      rw [selectCheckpoint] at selected
      split at selected
      · exact ih selected
      · split at selected
        · cases selected
        · split at selected
          · exact ih selected
          · split at selected
            · rename_i fits
              rw [← some.inj (ok.inj selected)]
              exact fits
            · cases selected

/-- Recovery succeeds when a checkpoint or none can be selected, and gives the
replay of the whole log. -/
theorem recoverReplay_ok_iff
    {serde : Serde} {directory : CheckpointDirectory} {streamId configRevision : String}
    {replayCapacity : Nat} {records : List PersistedRealtimeEvent}
    {sparseIndex : RealtimeSparseIndex}
    (named : streamId.isEmpty = false) (positive : 0 < replayCapacity)
    (sound : RecordsSound records) {recovered : SequencedReplay × Option Nat} :
    recoverReplay serde directory streamId configRevision replayCapacity records sparseIndex =
        .ok recovered ↔
      ∃ selected, selectCheckpoint serde streamId configRevision replayCapacity records
          sparseIndex [directory.current, directory.previous] = .ok selected ∧
        recovered = (ofPublished streamId replayCapacity (publishedEvents streamId records),
          selected.map fun checkpoint => checkpoint.walCursor) := by
  have started : ∀ selected, selectCheckpoint serde streamId configRevision replayCapacity
      records sparseIndex [directory.current, directory.previous] = .ok selected →
      ∃ count, startReplay streamId replayCapacity selected =
        .ok (ofPublished streamId replayCapacity (publishedEvents streamId (records.take count)),
          count, selected.map fun checkpoint => checkpoint.walCursor) := by
    intro selected chosen
    cases selected with
    | none =>
      refine ⟨0, ?_⟩
      unfold startReplay
      rw [SequencedReplay.new_eq_ofPublished named positive]
      rfl
    | some checkpoint =>
      have fits := checkpointFits_of_matches sound (selectCheckpoint_matches chosen)
      have prefixSound := sound.take checkpoint.walCursor
      have bounded := prefixSound.bounded
      rw [← length_publishedEvents streamId] at bounded
      refine ⟨checkpoint.walCursor, ?_⟩
      unfold startReplay
      dsimp only
      rw [fits.stream, fits.capacity, fits.sequence, fits.replay,
        restoreTail_rtake positive bounded (prefixSound.contiguous streamId)]
      rfl
  have replayed : ∀ count,
      (records.filter fun record => decide (record.walCursor > count)).foldlM replayRecord
        (ofPublished streamId replayCapacity (publishedEvents streamId (records.take count))) =
      .ok (ofPublished streamId replayCapacity (publishedEvents streamId records)) := by
    intro count
    have whole : RecordsSound (records.take count ++ records.drop count) := by
      rw [take_append_drop]
      exact sound
    rw [sound.filter_walCursor, replayRecords_ofPublished positive whole, take_append_drop]
  unfold recoverReplay
  rw [bind_ok]
  constructor
  · rintro ⟨selected, chosen, rest⟩
    obtain ⟨count, start⟩ := started selected chosen
    rw [start] at rest
    obtain ⟨_, same, rest⟩ := bind_ok.mp rest
    cases same
    rw [bind_ok] at rest
    obtain ⟨replay, read, same⟩ := rest
    rw [replayed] at read
    cases read
    exact ⟨selected, chosen, (ok.inj same).symm⟩
  · rintro ⟨selected, chosen, rfl⟩
    obtain ⟨count, start⟩ := started selected chosen
    refine ⟨selected, chosen, ?_⟩
    rw [start]
    refine bind_ok.mpr ⟨_, rfl, ?_⟩
    exact bind_ok.mpr ⟨_, replayed count, rfl⟩

/-! ## The writer -/

/-- A writer holds the log of a root, and its replay is the window of what the
log has published. -/
structure WriterHeld
    (serde : Serde) (writer : DurableRealtimeWriter) (root : StorageRoot) : Prop where
  wal : WalHeld serde writer.wal root.wal.segments
  streamId : writer.wal.streamId = writer.streamId
  configRevision : writer.wal.configRevision = writer.configRevision
  positive : 0 < writer.replayCapacity
  replay : writer.replay = ofPublished writer.streamId writer.replayCapacity
    (publishedEvents writer.streamId writer.records)

namespace WriterHeld

variable {serde : Serde} {writer : DurableRealtimeWriter} {root : StorageRoot}

theorem records (held : WriterHeld serde writer root) : RecordsSound writer.records :=
  held.wal.records

/-- The public sequence is the number of applied records. -/
theorem sequence (held : WriterHeld serde writer root) :
    writer.replay.sequence = (appliedRecords writer.records).length := by
  rw [held.replay]
  exact length_publishedEvents _ _

end WriterHeld

/-- Two writers that hold one directory are at the same segment. -/
theorem WriterHeld.sameSegment
    (held : WriterHeld serde writer root) (otherHeld : WriterHeld serde other otherRoot)
    (segments : otherRoot.wal.segments = root.wal.segments)
    (stream : other.streamId = writer.streamId)
    (revision : other.configRevision = writer.configRevision) :
    other.wal.currentSegmentId = writer.wal.currentSegmentId := by
  obtain ⟨scan, scanned, _, _, segment⟩ := held.wal.scanned
  obtain ⟨otherScan, otherScanned, _, _, otherSegment⟩ := otherHeld.wal.scanned
  rw [otherHeld.streamId, otherHeld.configRevision, segments, stream, revision,
    ← held.streamId, ← held.configRevision] at otherScanned
  rw [← segment, ← otherSegment, scanned.unique otherScanned]

/-- A root whose directory verifies to some records of a stream. -/
structure RootHolds
    (serde : Serde) (scope : String × String) (root : StorageRoot)
    (records : List PersistedRealtimeEvent) (entries : List SparseCursorEntry) : Prop where
  sorted : SortedSegments root.wal.segments
  scanned : ∃ scan, Scanned serde scope root.wal.segments scan ∧
    scan.log.records = records ∧ scan.log.sparseEntries = entries

theorem WriterHeld.rootHolds (held : WriterHeld serde writer root) :
    RootHolds serde (writer.streamId, writer.configRevision) root writer.records
      writer.wal.sparseIndex.entries := by
  obtain ⟨scan, scanned, sameRecords, sameEntries, _⟩ := held.wal.scanned
  rw [held.streamId, held.configRevision] at scanned
  exact ⟨held.wal.sorted, scan, scanned, sameRecords, sameEntries⟩

theorem rootHolds_empty (serde : Serde) (scope : String × String) :
    RootHolds serde scope .empty [] [] :=
  ⟨.nil, .empty, scanned_nil_iff.mpr rfl, rfl, rfl⟩

/-- What an opened writer is. -/
structure Opened
    (serde : Serde) (root after : StorageRoot) (streamId configRevision : String)
    (replayCapacity : Nat) (writer : DurableRealtimeWriter) : Prop where
  held : WriterHeld serde writer after
  segments : after.wal.segments = root.wal.segments
  checkpoints : after.checkpoints = root.checkpoints
  streamId : writer.streamId = streamId
  configRevision : writer.configRevision = configRevision
  capacity : writer.replayCapacity = replayCapacity
  healthy : writer.poisoned = false
  walHealthy : writer.wal.poisoned = false

section Open

variable {serde : Serde} {indexWrites : Bool} {root : StorageRoot}
  {streamId configRevision : String} {maxSegmentBytes replayCapacity : Nat}

theorem openWriter_opened
    (sorted : SortedSegments root.wal.segments)
    (success : openWriter serde indexWrites root streamId configRevision
      maxSegmentBytes replayCapacity = .ok opened) :
    Opened serde root opened.2 streamId configRevision replayCapacity opened.1 := by
  unfold openWriter at success
  split at success
  · cases success
  · rename_i nonzero
    obtain ⟨⟨wal, directory⟩, openedWal, recovered, recovery, same⟩ := bind₂_ok.mp success
    obtain ⟨segments, held, stream, revision, _, healthy⟩ := openWal_held sorted openedWal
    have named : streamId.isEmpty = false := by
      unfold SegmentedRealtimeWal.openWal at openedWal
      obtain ⟨_, valid, _⟩ := bind_ok.mp openedWal
      exact (validateConfig_ok_iff.mp valid).1
    have positive := Nat.pos_of_ne_zero nonzero
    obtain ⟨_, _, rfl⟩ := (recoverReplay_ok_iff named positive held.records).mp recovery
    cases same
    rw [← segments] at held
    exact ⟨⟨held, stream, revision, positive, rfl⟩, segments, rfl, rfl, rfl, rfl, rfl, healthy⟩

/-- A root that holds a log is opened as soon as a checkpoint or none can be
selected. -/
theorem openWriter_succeeds_iff
    {records : List PersistedRealtimeEvent} {entries : List SparseCursorEntry}
    (holds : RootHolds serde (streamId, configRevision) root records entries)
    (valid : validateConfig streamId configRevision maxSegmentBytes = .ok ())
    (positive : 0 < replayCapacity) :
    (∃ opened, openWriter serde indexWrites root streamId configRevision
        maxSegmentBytes replayCapacity = .ok opened ∧ opened.1.records = records ∧
        opened.1.wal.sparseIndex.entries = entries) ↔
      ∃ selected, selectCheckpoint serde streamId configRevision replayCapacity records
        (sparseIndexOf serde (streamId, configRevision) entries)
        [root.checkpoints.current, root.checkpoints.previous] = .ok selected := by
  obtain ⟨scan, scanned, rfl, rfl⟩ := holds.scanned
  obtain ⟨⟨wal, directory⟩, openedWal, sameRecords, sameIndex⟩ :=
    @exists_openWal serde indexWrites _ _ _ _ _ holds.sorted valid scanned
  obtain ⟨segments, held, _⟩ := openWal_held holds.sorted openedWal
  have named := (validateConfig_ok_iff.mp valid).1
  have recovery := @recoverReplay_ok_iff serde root.checkpoints streamId configRevision
    replayCapacity wal.records wal.sparseIndex named positive held.records
  rw [sameRecords, sameIndex] at recovery
  unfold openWriter
  rw [if_neg (Nat.ne_of_gt positive), openedWal]
  constructor
  · rintro ⟨opened, success, _⟩
    obtain ⟨_, same, success⟩ := bind_ok.mp success
    cases same
    obtain ⟨recovered, recovers, _⟩ := bind_ok.mp success
    rw [sameRecords, sameIndex] at recovers
    obtain ⟨selected, chosen, _⟩ := recovery.mp recovers
    exact ⟨selected, chosen⟩
  · rintro ⟨selected, chosen⟩
    have recovers := recovery.mpr ⟨selected, chosen, rfl⟩
    rw [← sameRecords, ← sameIndex] at recovers
    refine ⟨_, bind_ok.mpr ⟨_, rfl, bind_ok.mpr ⟨_, recovers, rfl⟩⟩, sameRecords, ?_⟩
    rw [sameIndex]
    rfl

/-- A root whose checkpoints cannot be selected from is not opened. -/
theorem openWriter_eq_error_of_select
    (holds : RootHolds serde (streamId, configRevision) root records entries)
    (valid : validateConfig streamId configRevision maxSegmentBytes = .ok ())
    (positive : 0 < replayCapacity)
    (failed : selectCheckpoint serde streamId configRevision replayCapacity records
      (sparseIndexOf serde (streamId, configRevision) entries)
      [root.checkpoints.current, root.checkpoints.previous] = .error cause) :
    openWriter serde indexWrites root streamId configRevision
      maxSegmentBytes replayCapacity = .error cause := by
  obtain ⟨scan, scanned, rfl, rfl⟩ := holds.scanned
  obtain ⟨⟨wal, directory⟩, openedWal, sameRecords, sameIndex⟩ :=
    @exists_openWal serde indexWrites _ _ _ _ _ holds.sorted valid scanned
  rw [← sameRecords, ← sameIndex] at failed
  unfold openWriter
  rw [if_neg (Nat.ne_of_gt positive), openedWal]
  refine bind_eq_error_iff.mpr (.inr ⟨_, rfl, ?_⟩)
  refine bind_eq_error_iff.mpr (.inl ?_)
  unfold recoverReplay
  exact bind_eq_error_iff.mpr (.inl failed)

/-- An empty root is opened with an empty log. -/
theorem openWriter_empty (valid : validateConfig streamId configRevision maxSegmentBytes = .ok ())
    (positive : 0 < replayCapacity) :
    ∃ writer after,
      openWriter serde indexWrites .empty streamId configRevision
        maxSegmentBytes replayCapacity = .ok (writer, after) ∧
      Opened serde .empty after streamId configRevision replayCapacity writer ∧
      writer.records = [] ∧ writer.wal.currentSegmentId = 0 := by
  obtain ⟨⟨writer, after⟩, success, noRecords, _⟩ :=
    (openWriter_succeeds_iff (rootHolds_empty serde _) valid positive).mpr ⟨none, rfl⟩
  have opened := openWriter_opened (rootHolds_empty serde (streamId, configRevision)).sorted success
  obtain ⟨scan, scanned, _, _, segment⟩ := opened.held.wal.scanned
  rw [opened.segments] at scanned
  obtain rfl := scanned_nil_iff.mp scanned
  exact ⟨writer, after, success, opened, noRecords, segment.symm⟩

end Open

/-! ## Batches -/

/-- What a successful batch leaves. -/
structure BatchApplied
    (serde : Serde) (writer after : DurableRealtimeWriter) (root rootAfter : StorageRoot)
    (events : List NormalizedProviderEvent) (outcomes : List DurableApplyOutcome) : Prop where
  held : WriterHeld serde after rootAfter
  persisted : after.records = writer.records ++ outcomes.map DurableApplyOutcome.persisted
  events : outcomes.map (fun outcome => outcome.persisted.event) = events
  published : outcomes.map DurableApplyOutcome.published =
    outcomes.map fun outcome => publishedBy writer.streamId outcome.persisted
  index : ∃ added, after.wal.sparseIndex.entries = writer.wal.sparseIndex.entries ++ added ∧
    ∀ entry ∈ added, writer.records.length < entry.firstWalCursor
  checkpoints : rootAfter.checkpoints = root.checkpoints
  streamId : after.streamId = writer.streamId
  configRevision : after.configRevision = writer.configRevision
  capacity : after.replayCapacity = writer.replayCapacity
  healthy : after.poisoned = writer.poisoned
  walHealthy : after.wal.poisoned = writer.wal.poisoned
  segment : after.wal.currentSegmentId ≤ writer.wal.currentSegmentId + 1

/-- Why a writer whose writes complete does not take a batch. -/
inductive BatchBlocked
    (serde : Serde) (writer : DurableRealtimeWriter)
    (events : List NormalizedProviderEvent) : DurabilityError → Prop
  | poisoned (poisoned : writer.poisoned = true ∨ writer.wal.poisoned = true) :
      BatchBlocked serde writer events .writerPoisoned
  | empty (empty : events = []) : BatchBlocked serde writer events .emptyBatch
  | evidence
      {event : NormalizedProviderEvent}
      (member : event ∈ events)
      (invalid : serde.validEventEvidence event = false) :
      BatchBlocked serde writer events .invalidEventEvidence
  | cursors (exhausted : 2 ^ 64 ≤ writer.records.length + events.length) :
      BatchBlocked serde writer events .cursorOverflow
  | segments (exhausted : 2 ^ 64 ≤ writer.wal.currentSegmentId + 1) :
      BatchBlocked serde writer events .cursorOverflow

theorem BatchBlocked.unpublished
    (blocked : BatchBlocked serde writer events cause) (reason : RealtimeError) :
    cause ≠ .publicationAfterPersistence reason := by
  cases blocked <;> exact fun never => nomatch never

/-- What a failed batch leaves: the log that was held stays readable, or
nothing is. -/
structure BatchFailed
    (serde : Serde) (environment : AppendEnvironment) (writer after : DurableRealtimeWriter)
    (root rootAfter : StorageRoot) (events : List NormalizedProviderEvent)
    (cause : DurabilityError) : Prop where
  unpublished : ∀ reason, cause ≠ .publicationAfterPersistence reason
  blocked : environment.write = .completes → BatchBlocked serde writer events cause
  grows : DirectoryGrows serde (writer.streamId, writer.configRevision) root.wal.segments
    rootAfter.wal.segments
  completes : environment.write = .completes → rootAfter.wal.segments = root.wal.segments
  checkpoints : rootAfter.checkpoints = root.checkpoints
  records : after.records = writer.records
  replay : after.replay = writer.replay
  streamId : after.streamId = writer.streamId

/-- A log that is held blocks a batch only when it is poisoned or a counter
runs out. -/
theorem WriterHeld.blocked
    (held : WriterHeld serde writer root)
    (decided : pendingDecisions seen nextSequence events = .ok decisions)
    (blocked : AppendBlocked writer.wal root.wal decisions cause) :
    BatchBlocked serde writer events cause := by
  obtain ⟨size, wellFormed⟩ := pendingDecisions_wellFormed decided
  cases blocked with
  | poisoned poisoned => exact .poisoned (.inr poisoned)
  | empty empty =>
    subst empty
    exact .empty (eq_nil_of_length_eq_zero size.symm)
  | invalid mem malformed => exact absurd (wellFormed _ mem) malformed
  | cursors exhausted =>
    rw [held.wal.walCursor, size] at exhausted
    exact .cursors exhausted
  | segments exhausted => exact .segments exhausted
  | unread current missing =>
    obtain ⟨bytes, read⟩ := held.wal.read_current current
    rw [missing] at read
    cases read
  | taken present =>
    rw [held.wal.read_next] at present
    cases present

/-- A batch is applied whole or fails without being published. -/
theorem applyBatch_cases
    {serde : Serde} {environment : AppendEnvironment} {writer : DurableRealtimeWriter}
    {root : StorageRoot}
    (held : WriterHeld serde writer root) (events : List NormalizedProviderEvent) :
    (∃ outcomes after rootAfter,
      writer.applyBatch serde environment root events = (.ok outcomes, after, rootAfter) ∧
        BatchApplied serde writer after root rootAfter events outcomes) ∨
    (∃ cause after rootAfter,
      writer.applyBatch serde environment root events = (.error cause, after, rootAfter) ∧
        BatchFailed serde environment writer after root rootAfter events cause) := by
  have unchanged : ∀ cause, BatchBlocked serde writer events cause →
      BatchFailed serde environment writer writer root root events cause := by
    intro cause blocked
    exact ⟨blocked.unpublished, fun _ => blocked, DirectoryGrows.refl held.wal.sorted,
      fun _ => rfl, rfl, rfl, rfl, rfl⟩
  unfold applyBatch
  split
  · rename_i poisoned
    exact .inr ⟨_, _, _, rfl, unchanged _ (.poisoned (.inl poisoned))⟩
  split
  · rename_i empty
    exact .inr ⟨_, _, _, rfl, unchanged _ (.empty (isEmpty_iff.mp empty))⟩
  split
  · rename_i unproven
    obtain ⟨event, mem, invalid⟩ := any_eq_true.mp unproven
    exact .inr ⟨_, _, _, rfl, unchanged _ (.evidence mem (by simpa using invalid))⟩
  rename_i healthy nonempty evidence
  have valid : ∀ event ∈ events, serde.validEventEvidence event = true := by
    intro event mem
    rw [not_eq_true, any_eq_false] at evidence
    simpa using evidence event mem
  cases decided : pendingDecisions writer.wal.appliedEventIds writer.replay.sequence events with
  | error cause =>
    obtain ⟨rfl, exhausted⟩ := pendingDecisions_error decided
    have applied := length_filter_le (fun record => record.applied) writer.records
    have sequence := held.sequence
    refine .inr ⟨_, _, _, rfl, unchanged _ (.cursors ?_)⟩
    unfold DurableRealtimeWriter.sequence appliedRecords at sequence
    omega
  | ok decisions =>
    dsimp only
    have result := appendDecisions_result serde environment writer.wal root.wal decisions
    generalize writer.wal.appendDecisions serde environment root.wal decisions = appended at result
    obtain ⟨outcome, wal, directory⟩ := appended
    dsimp only at result
    cases result with
    | refused cause blocked | unprepared cause blocked =>
      exact .inr ⟨_, _, _, rfl, blocked.unpublished, fun _ => held.blocked decided blocked,
        DirectoryGrows.refl held.wal.sorted, fun _ => rfl, rfl, rfl, rfl, rfl⟩
    | stopped line created written stops ensured =>
      have grows := writeBatch_grows held.wal ensured (.stops created written) line
      rw [held.streamId, held.configRevision] at grows
      have incomplete : environment.write ≠ .completes := by
        rw [stops]
        exact fun never => nomatch never
      exact .inr ⟨_, _, _, rfl, (fun _ never => nomatch never),
        fun completes => absurd completes incomplete, grows,
        fun completes => absurd completes incomplete, rfl, rfl, rfl, rfl⟩
    | persisted healthyWal completes counted chained isLast isLine ensured =>
      obtain ⟨_, rfl⟩ := checkedAdd_eq_some_iff.mp counted
      rw [held.wal.walCursor] at chained isLine ensured ⊢
      rw [held.sequence] at decided
      obtain ⟨scan, scanned, sameRecords, sameEntries, _⟩ := held.wal.scanned
      have sameEvents := (held.wal.accepts scanned sameRecords sameEntries valid decided
        chained isLast 0 0).1
      have appended := appended_held environment.indexWrites held.wal
        (batchWritten held.wal valid decided chained isLast isLine ensured) rfl sameEvents
      have sound := appended.held.records
      rw [appended.records] at sound
      have published := publishPersisted_ofPublished writer.streamId held.positive sound
      have replay := held.replay
      unfold DurableRealtimeWriter.records at replay
      rw [← replay] at published
      dsimp only
      rw [published]
      refine .inl ⟨_, _, _, rfl,
        ⟨appended.held.withPoisoned _, held.streamId, held.configRevision, held.positive, ?_⟩,
        ?_, ?_, ?_, appended.index, rfl, rfl, rfl, rfl, Bool.or_false _, ?_, ?_⟩
      · change _ = ofPublished _ _ (publishedEvents writer.streamId _)
        rw [← appended.records]
        rfl
      · rw [map_map]
        change _ = writer.wal.records ++ List.map id _
        rw [map_id]
        exact appended.records
      · rw [map_map]
        exact sameEvents
      · rw [map_map, map_map]
        rfl
      · rw [Bool.or_false]
        exact appended.poisoned
      · change SegmentTarget.segmentId _ ≤ _
        rcases ensureSegment_cases held.wal ensured with ⟨_, _, _, rfl⟩ | ⟨_, rfl⟩
        · exact Nat.le_succ _
        · exact le_rfl

/-- A healthy writer whose writes complete takes every batch of proven events
while its counters last. -/
theorem applyBatch_succeeds
    (held : WriterHeld serde writer root)
    (healthy : writer.poisoned = false ∧ writer.wal.poisoned = false)
    (completes : environment.write = .completes) (filled : events ≠ [])
    (proven : ∀ event ∈ events, serde.validEventEvidence event = true)
    (cursors : writer.records.length + events.length < 2 ^ 64)
    (segments : writer.wal.currentSegmentId + 1 < 2 ^ 64) :
    ∃ outcomes after rootAfter,
      writer.applyBatch serde environment root events = (.ok outcomes, after, rootAfter) ∧
        BatchApplied serde writer after root rootAfter events outcomes := by
  rcases @applyBatch_cases serde environment writer root held events with
    applied | ⟨cause, after, rootAfter, _, failed⟩
  · exact applied
  · cases failed.blocked completes with
    | poisoned poisoned =>
      rcases poisoned with writerPoisoned | walPoisoned
      · rw [healthy.1] at writerPoisoned
        cases writerPoisoned
      · rw [healthy.2] at walPoisoned
        cases walPoisoned
    | empty empty => exact absurd empty filled
    | evidence mem invalid =>
      rw [proven _ mem] at invalid
      cases invalid
    | cursors exhausted => exact absurd exhausted (not_le.mpr cursors)
    | segments exhausted => exact absurd exhausted (not_le.mpr segments)

end MarketCow.Realtime
