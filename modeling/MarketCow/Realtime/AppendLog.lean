import MarketCow.Realtime.LogDirectory

/-!
# Opening and appending to the log

The log a process holds is the log its directory verifies to: opening
establishes this and every append that succeeds keeps it.
-/

namespace MarketCow.Realtime

open Library MarketCow.Core SequencedReplay List Option
open SegmentedRealtimeWal (batchOf openWal)
open PendingDecision (ofApplied ofDuplicate)

/-- A process holds the log of a directory. -/
structure WalHeld
    (serde : Serde) (wal : SegmentedRealtimeWal) (segments : List SegmentFile) : Prop where
  sorted : SortedSegments segments
  scanned : ∃ scan, Scanned serde (wal.streamId, wal.configRevision) segments scan ∧
    scan.log.records = wal.records ∧
    scan.log.sparseEntries = wal.sparseIndex.entries ∧
    scan.lastSegmentId = wal.currentSegmentId
  ids : wal.appliedEventIds = appliedIds wal.records
  index : wal.sparseIndex =
    sparseIndexOf serde (wal.streamId, wal.configRevision) wal.sparseIndex.entries
  path : wal.currentPath = segments.getLast?.map SegmentFile.name
  bytes : wal.currentBytes = (segments.getLast?.map fun file => file.bytes.length).getD 0

namespace WalHeld

variable {serde : Serde} {wal : SegmentedRealtimeWal} {segments : List SegmentFile}

section

variable (held : WalHeld serde wal segments)
include held

/-- The poison flag says nothing about the log. -/
theorem withPoisoned (poisoned : Bool) :
    WalHeld serde { wal with poisoned } segments :=
  ⟨held.sorted, held.scanned, held.ids, held.index, held.path, held.bytes⟩

theorem records : RecordsSound wal.records := by
  obtain ⟨scan, scanned, same, _⟩ := held.scanned
  exact same ▸ scanned.fits.sound.records

/-- The cursor of the log is the number of its records. -/
theorem walCursor : wal.walCursor = wal.records.length :=
  held.records.walCursor_last

end

end WalHeld

/-! ## Files -/

variable {segments : List SegmentFile} {file : SegmentFile}

section

variable (sorted : SortedSegments (segments ++ [file]))
include sorted

/-- The last file of a sorted directory is read by its name. -/
theorem read_last :
    WalDirectory.read ⟨segments ++ [file], cursorIndex⟩ file.name = some file.bytes := by
  unfold WalDirectory.read
  have absent : segments.find? (fun other => other.name == file.name) = none := by
    rw [find?_eq_none]
    intro other mem same
    have before := (pairwise_append.mp sorted).2.2 other mem file (by simp)
    rw [beq_iff_eq.mp same] at before
    exact lt_irrefl _ before
  rw [find?_append, absent, none_or]
  simp

/-- Appending to the last file of a sorted directory changes that file. -/
theorem append_last (bytes : Bytes) :
    (WalDirectory.append ⟨segments ++ [file], cursorIndex⟩ file.name bytes).segments =
      segments ++ [{ file with bytes := file.bytes ++ bytes }] := by
  unfold WalDirectory.append
  have kept : segments.map (fun other =>
      if other.name = file.name then { other with bytes := other.bytes ++ bytes } else other) =
      segments := by
    refine (map_congr_left ?_).trans (map_id segments)
    intro other mem
    have before := (pairwise_append.mp sorted).2.2 other mem file (by simp)
    rw [if_neg]
    · rfl
    · intro same
      rw [same] at before
      exact lt_irrefl _ before
  rw [map_append, kept, map_singleton, if_pos rfl]

theorem sorted_replaceLast (bytes : Bytes) :
    SortedSegments (segments ++ [{ file with bytes }]) := by
  obtain ⟨front, _, across⟩ := pairwise_append.mp sorted
  refine pairwise_append.mpr ⟨front, pairwise_singleton _ _, ?_⟩
  intro first mem second single
  rw [mem_singleton.mp single]
  exact across first mem file (by simp)

end

theorem sorted_create (sorted : SortedSegments segments)
    (newest : ∀ other ∈ segments, other.name.segmentId < file.name.segmentId) :
    SortedSegments (segments ++ [file]) := by
  refine pairwise_append.mpr ⟨sorted, pairwise_singleton _ _, ?_⟩
  intro first mem second single
  rw [mem_singleton.mp single]
  exact newest first mem

/-! ## Opening -/

variable {streamId configRevision : String} {maxSegmentBytes : Nat}

theorem validateConfig_ok_iff :
    validateConfig streamId configRevision maxSegmentBytes = .ok done ↔
      streamId.isEmpty = false ∧ configRevision.isEmpty = false ∧ 1024 ≤ maxSegmentBytes := by
  unfold validateConfig
  split
  · rename_i invalid
    constructor
    · intro never
      cases never
    · rintro ⟨stream, revision, large⟩
      simp [stream, revision, not_lt.mpr large] at invalid
  · rename_i valid
    simp only [or_eq_true, decide_eq_true_eq, not_or, not_eq_true, not_lt] at valid
    exact ⟨fun _ => ⟨valid.1.1, valid.1.2, valid.2⟩, fun _ => rfl⟩

variable {serde : Serde} {wal : SegmentedRealtimeWal} {indexWrites : Bool}

/-- Opening a sorted directory gives the log it verifies to. -/
theorem openWal_held {directory after : WalDirectory} (sorted : SortedSegments directory.segments)
    (opened : openWal serde indexWrites directory streamId configRevision
      maxSegmentBytes = .ok (wal, after)) :
    after.segments = directory.segments ∧ WalHeld serde wal directory.segments ∧
      wal.streamId = streamId ∧ wal.configRevision = configRevision ∧
      wal.maxSegmentBytes = maxSegmentBytes ∧ wal.poisoned = false := by
  unfold openWal at opened
  rw [bind_ok] at opened
  obtain ⟨_, _, opened⟩ := opened
  rw [bind_ok] at opened
  obtain ⟨verified, read, opened⟩ := opened
  obtain ⟨scan, scanned, rfl⟩ := (verifyWal_ok_iff sorted).mp read
  simp only [Except.ok.injEq, Prod.mk.injEq] at opened
  obtain ⟨rfl, rfl⟩ := opened
  refine ⟨installSparseIndex_segments .., ⟨sorted, ⟨scan, scanned, rfl, rfl, rfl⟩, rfl, rfl,
    ?_, ?_⟩, rfl, rfl, rfl, rfl⟩
  · exact getLast?_map
  · dsimp only
    rw [getLast?_map]
    cases split : directory.segments.getLast? with
    | none => rfl
    | some file =>
      obtain ⟨front, segments⟩ := getLast?_eq_some_iff.mp split
      obtain ⟨_, cursorIndex⟩ := directory
      subst segments
      rw [map_some, bind_some, read_last sorted]
      rfl

/-- A directory that verifies can be opened. -/
theorem exists_openWal {serde : Serde} {indexWrites : Bool} {directory : WalDirectory}
    {streamId configRevision : String} {maxSegmentBytes : Nat} {scan : DirectoryScan}
    (sorted : SortedSegments directory.segments)
    (valid : validateConfig streamId configRevision maxSegmentBytes = .ok ())
    (scanned : Scanned serde (streamId, configRevision) directory.segments scan) :
    ∃ opened, openWal serde indexWrites directory streamId configRevision
        maxSegmentBytes = .ok opened ∧
      opened.1.records = scan.log.records ∧
      opened.1.sparseIndex = sparseIndexOf serde (streamId, configRevision)
        scan.log.sparseEntries := by
  have verified := (verifyWal_ok_iff sorted).mpr ⟨scan, scanned, rfl⟩
  unfold openWal
  rw [valid, verified]
  exact ⟨_, rfl, rfl, rfl⟩

/-! ## The records of a batch -/

variable {recordedAt : Nat → DateTime} {decisions : List PendingDecision}
  {decision : PendingDecision}

/-- A decision the log refuses to persist. -/
theorem sealRecords_cons_ok_iff :
    sealRecords serde recordedAt firstWalCursor index previous (decision :: decisions) =
        .ok records ↔
      (decision.applied = decision.publicSequence.isSome ∧
        (decision.applied = true → decision.failClosedReason = none) ∧
        (decision.applied = false → decision.failClosedReason = some duplicateEvent)) ∧
      firstWalCursor + index < 2 ^ 64 ∧
      ∃ later,
        sealRecords serde recordedAt firstWalCursor (index + 1)
          (some (recordOf serde (recordedAt index) (firstWalCursor + index) previous
            decision).recordSha256) decisions = .ok later ∧
        records = recordOf serde (recordedAt index) (firstWalCursor + index) previous decision ::
          later := by
  rw [sealRecords]
  split
  · rename_i invalid
    constructor
    · intro never
      cases never
    · rintro ⟨⟨same, unfailed, reason⟩, _⟩
      rcases invalid with differs | ⟨applied, failed⟩ | ⟨notApplied, other⟩
      · exact absurd same differs
      · rw [unfailed applied] at failed
        cases failed
      · exact absurd (reason (not_eq_true _ ▸ notApplied)) other
  · rename_i valid
    simp only [not_or, not_and, not_not] at valid
    have fits : decision.applied = decision.publicSequence.isSome ∧
        (decision.applied = true → decision.failClosedReason = none) ∧
        (decision.applied = false → decision.failClosedReason = some duplicateEvent) := by
      refine ⟨valid.1, ?_, fun notApplied => valid.2.2 (by simp [notApplied])⟩
      intro applied
      simpa using valid.2.1 applied
    cases added : checkedAdd firstWalCursor index with
    | none =>
      constructor
      · intro never
        cases never
      · rintro ⟨_, bounded, _⟩
        rw [checkedAdd_eq_some_iff.mpr ⟨bounded, rfl⟩] at added
        cases added
    | some walCursor =>
      obtain ⟨bounded, rfl⟩ := checkedAdd_eq_some_iff.mp added
      rw [bind_ok]
      constructor
      · rintro ⟨later, chained, same⟩
        exact ⟨fits, bounded, later, chained, (ok.inj same).symm⟩
      · rintro ⟨_, _, later, chained, rfl⟩
        exact ⟨later, chained, rfl⟩

variable {events : List NormalizedProviderEvent}

/-- A batch is decided event by event. -/
theorem pendingDecisions_cons_ok_iff :
    pendingDecisions seen nextSequence (event :: events) = .ok decisions ↔
      (event.eventId ∈ seen ∧ ∃ later, pendingDecisions seen nextSequence events = .ok later ∧
        decisions = ofDuplicate event :: later) ∨
      (event.eventId ∉ seen ∧ nextSequence + 1 < 2 ^ 64 ∧
        ∃ later, pendingDecisions (seen.insert event.eventId) (nextSequence + 1) events =
            .ok later ∧
          decisions = ofApplied event (nextSequence + 1) :: later) := by
  rw [pendingDecisions]
  split
  · rename_i known
    rw [bind_ok]
    constructor
    · rintro ⟨later, decided, same⟩
      exact .inl ⟨known, later, decided, (ok.inj same).symm⟩
    · rintro (⟨_, later, decided, rfl⟩ | ⟨fresh, _⟩)
      · exact ⟨later, decided, rfl⟩
      · exact absurd known fresh
  · rename_i fresh
    cases counted : checkedAdd nextSequence 1 with
    | none =>
      constructor
      · intro never
        cases never
      · rintro (⟨known, _⟩ | ⟨_, bounded, _⟩)
        · exact absurd known fresh
        · rw [checkedAdd_eq_some_iff.mpr ⟨bounded, rfl⟩] at counted
          cases counted
    | some sequence =>
      obtain ⟨bounded, rfl⟩ := checkedAdd_eq_some_iff.mp counted
      rw [bind_ok]
      constructor
      · rintro ⟨later, decided, same⟩
        exact .inr ⟨fresh, bounded, later, decided, (ok.inj same).symm⟩
      · rintro (⟨known, _⟩ | ⟨_, _, later, decided, rfl⟩)
        · exact absurd known fresh
        · exact ⟨later, decided, rfl⟩

variable {scan : WalScan}

theorem recordOf_intact
    {recordedAt : DateTime} {walCursor : Nat} (position : scan.records.length + 1 = walCursor)
    (evidence : serde.validEventEvidence decision.event = true) :
    RecordIntact serde scan
      (recordOf serde recordedAt walCursor scan.previousRecordSha256 decision) :=
  ⟨rfl, position.symm, rfl, rfl, evidence⟩

/-- Decided and sealed records are the events of the batch, and verification
accepts them. -/
theorem verifyRecords_of_decisions
    {firstWalCursor : Nat} (evidence : ∀ event ∈ events, serde.validEventEvidence event = true)
    {records : List PersistedRealtimeEvent} {index : Nat}
    (decided : pendingDecisions scan.appliedEventIds scan.expectedPublicSequence events =
      .ok decisions)
    (chained : sealRecords serde recordedAt firstWalCursor index scan.previousRecordSha256
      decisions = .ok records)
    (position : scan.records.length + 1 = firstWalCursor + index) :
    records.map (fun record => record.event) = events ∧
      ∃ after, records.foldlM (verifyRecord serde) scan = .ok after := by
  induction events generalizing decisions records scan index with
  | nil =>
    cases decided
    cases chained
    exact ⟨rfl, scan, rfl⟩
  | cons event events ih =>
    have valid := evidence event (by simp)
    have laterEvidence : ∀ other ∈ events, serde.validEventEvidence other = true :=
      fun other mem => evidence other (mem_cons_of_mem _ mem)
    have longer : ∀ record : PersistedRealtimeEvent,
        (scan.records ++ [record]).length + 1 = firstWalCursor + (index + 1) := by
      intro record
      rw [length_append, length_singleton]
      omega
    rcases pendingDecisions_cons_ok_iff.mp decided with
      ⟨known, later, laterDecided, rfl⟩ | ⟨fresh, bounded, later, laterDecided, rfl⟩
    · obtain ⟨_, _, laterRecords, laterChained, rfl⟩ := sealRecords_cons_ok_iff.mp chained
      obtain ⟨record, isRecord⟩ : ∃ record, record = recordOf serde (recordedAt index)
          (firstWalCursor + index) scan.previousRecordSha256
          (ofDuplicate event) := ⟨_, rfl⟩
      rw [← isRecord] at laterChained ⊢
      have intact : RecordIntact serde scan record := isRecord ▸ recordOf_intact position valid
      have fits : DuplicateNext scan record := isRecord ▸ ⟨rfl, rfl, rfl, known⟩
      have decidedNext : pendingDecisions (scan.pushDuplicate record).appliedEventIds
          (scan.pushDuplicate record).expectedPublicSequence events = .ok later :=
        laterDecided
      obtain ⟨sameEvents, after, read⟩ := ih laterEvidence decidedNext laterChained (longer record)
      refine ⟨?_, after, foldlM_cons_ok.mpr
        ⟨_, verifyRecord_ok_iff.mpr ⟨intact, .inr ⟨fits, rfl⟩⟩, read⟩⟩
      rw [map_cons, sameEvents, isRecord]
      rfl
    · obtain ⟨_, _, laterRecords, laterChained, rfl⟩ := sealRecords_cons_ok_iff.mp chained
      obtain ⟨record, isRecord⟩ : ∃ record, record = recordOf serde (recordedAt index)
          (firstWalCursor + index) scan.previousRecordSha256
          (ofApplied event (scan.expectedPublicSequence + 1)) := ⟨_, rfl⟩
      rw [← isRecord] at laterChained ⊢
      have intact : RecordIntact serde scan record := isRecord ▸ recordOf_intact position valid
      have fits : AppliedNext scan record := isRecord ▸ ⟨rfl, bounded, rfl, rfl, fresh⟩
      have sameEvent : record.event = event := isRecord ▸ rfl
      have decidedNext : pendingDecisions (scan.pushApplied record).appliedEventIds
          (scan.pushApplied record).expectedPublicSequence events = .ok later := by
        unfold WalScan.pushApplied
        rw [sameEvent]
        exact laterDecided
      obtain ⟨sameEvents, after, read⟩ := ih laterEvidence decidedNext laterChained (longer record)
      refine ⟨?_, after, foldlM_cons_ok.mpr
        ⟨_, verifyRecord_ok_iff.mpr ⟨intact, .inl ⟨fits, rfl⟩⟩, read⟩⟩
      rw [map_cons, sameEvents, sameEvent]

/-! ## Appending a batch -/

/-- The first record after some sound records has the next cursor. -/
theorem RecordsSound.head_walCursor
    (sound : RecordsSound (old ++ records)) (nonempty : records ≠ []) :
    records.head?.map (fun record => record.walCursor) = some (old.length + 1) := by
  obtain ⟨record, rest, rfl⟩ := exists_cons_of_ne_nil nonempty
  have inside : old.length < (old ++ record :: rest).length := by
    rw [length_append, length_cons]
    omega
  have numbered := sound.walCursor_getElem inside
  rw [getElem_append_right le_rfl] at numbered
  simpa using numbered

/-- The line of a sealed batch is accepted. -/
theorem verifyBatch_of_decisions
    (evidence : ∀ event ∈ events, serde.validEventEvidence event = true)
    (sound : scan.Sound)
    (decided : pendingDecisions scan.appliedEventIds scan.expectedPublicSequence events =
      .ok decisions)
    (chained : sealRecords serde recordedAt (scan.records.length + 1) 0
      scan.previousRecordSha256 decisions = .ok records)
    (isLast : records.getLast? = some last)
    (segmentId byteOffset : Nat) :
    ∃ after, verifyBatch serde segmentId (scan, byteOffset)
        (serde.walBatchRecord.toVec (batchOf serde
          (scan.records.length + 1) last.walCursor records)) = .ok after ∧
      after.1.records = scan.records ++ records ∧
      after.1.sparseEntries = indexBatch scan.sparseEntries segmentId byteOffset
        scan.previousRecordSha256 (scan.records.length + 1) last.walCursor := by
  have nonempty : records ≠ [] := by
    rintro rfl
    cases isLast
  have indexedDecided : pendingDecisions
      (scan.indexed segmentId byteOffset (batchOf serde
        (scan.records.length + 1) last.walCursor records)).appliedEventIds
      (scan.indexed segmentId byteOffset (batchOf serde
        (scan.records.length + 1) last.walCursor records)).expectedPublicSequence events =
      .ok decisions := decided
  obtain ⟨_, after, read⟩ := verifyRecords_of_decisions evidence indexedDecided chained rfl
  obtain ⟨appended, indexKept, soundAfter⟩ := verifyRecords_extend read
  have recordsSound : RecordsSound (scan.records ++ records) := by
    have final := (soundAfter ⟨sound.records, sound.previous, sound.ids, sound.expected⟩).records
    rw [appended] at final
    exact final
  refine ⟨(after, byteOffset + ((serde.walBatchRecord.toVec (batchOf serde
      (scan.records.length + 1) last.walCursor records)).length + 1)), ?_, appended, indexKept⟩
  refine verifyBatch_ok_iff.mpr ⟨_, Codec.toVec_ne_nil _ _, Codec.fromSlice_toVec _ _,
    ⟨rfl, nonempty, rfl, recordsSound.head_walCursor nonempty, ?_, rfl⟩, read, rfl⟩
  change records.getLast?.map (fun record => record.walCursor) = some last.walCursor
  rw [isLast]
  rfl

/-- Inserting the ids of applied records one by one. -/
theorem foldl_insert_appliedIds (records old : List PersistedRealtimeEvent) :
    (records.filter fun record => record.applied).foldl
        (fun ids record => ids.insert record.event.eventId) (appliedIds old) =
      appliedIds (old ++ records) := by
  induction records generalizing old with
  | nil => rw [append_nil]; rfl
  | cons record records ih =>
    have regrouped : old ++ record :: records = (old ++ [record]) ++ records := by simp
    cases applied : record.applied with
    | true =>
      rw [filter_cons, if_pos applied, foldl_cons, ← appliedIds_applied applied old, ih, regrouped]
    | false =>
      rw [filter_cons, if_neg (by simp [applied]), regrouped, ← ih, appliedIds_duplicate applied]

/-- The header of the segment that follows a log. -/
def nextHeader (serde : Serde) (createdAt : DateTime) (wal : SegmentedRealtimeWal)
    (segments : List SegmentFile) (firstWalCursor : Nat) : SegmentHeader :=
  sealHeader serde
    { schemaVersion := realtimeWalSegmentVersion
      streamId := wal.streamId
      configRevision := wal.configRevision
      segmentId := wal.currentSegmentId + 1
      firstWalCursor
      previousSegmentSha256 := segments.getLast?.map fun file => serde.digest file.bytes
      createdAt }

/-- A batch goes to the last segment or to a new one. -/
theorem ensureSegment_cases (held : WalHeld serde wal directory.segments)
    (ensured : ensureSegment serde createdAt wal directory firstWalCursor recordBytes =
      .ok target) :
    (∃ front file, directory.segments = front ++ [file] ∧
      target = ⟨wal.currentSegmentId, file.name, none, file.bytes.length⟩) ∨
    (wal.currentSegmentId + 1 < 2 ^ 64 ∧
      target =
        ⟨wal.currentSegmentId + 1, ⟨wal.currentSegmentId + 1, firstWalCursor⟩,
          some (serde.segmentHeader.toVec
            (nextHeader serde createdAt wal directory.segments firstWalCursor)),
          (serde.segmentHeader.toVec
            (nextHeader serde createdAt wal directory.segments firstWalCursor)).length + 1⟩) := by
  have created : ∀ previous,
      (directory.segments.getLast?.map fun file => serde.digest file.bytes) = previous →
      ensureSegment.newSegment serde createdAt wal directory firstWalCursor previous = .ok target →
      wal.currentSegmentId + 1 < 2 ^ 64 ∧
        target =
          ⟨wal.currentSegmentId + 1, ⟨wal.currentSegmentId + 1, firstWalCursor⟩,
            some (serde.segmentHeader.toVec
              (nextHeader serde createdAt wal directory.segments firstWalCursor)),
            (serde.segmentHeader.toVec
              (nextHeader serde createdAt wal directory.segments firstWalCursor)).length + 1⟩ := by
    rintro _ rfl new
    unfold ensureSegment.newSegment at new
    cases added : checkedAdd wal.currentSegmentId 1 with
    | none =>
      rw [added] at new
      cases new
    | some segmentId =>
      obtain ⟨bounded, rfl⟩ := checkedAdd_eq_some_iff.mp added
      rw [added] at new
      dsimp only at new
      split at new
      · cases new
      · exact ⟨bounded, (ok.inj new).symm⟩
  have path := held.path
  have bytes := held.bytes
  unfold ensureSegment at ensured
  cases split : directory.segments.getLast? with
  | none =>
    rw [split] at path
    rw [path] at ensured
    exact .inr (created none (by rw [split]; rfl) ensured)
  | some file =>
    obtain ⟨front, segments⟩ := getLast?_eq_some_iff.mp split
    rw [split] at path bytes
    rw [path] at ensured
    dsimp only [map_some] at ensured
    split at ensured
    · refine .inl ⟨front, file, segments, ?_⟩
      rw [← ok.inj ensured, bytes]
      rfl
    · obtain ⟨_, cursorIndex⟩ := directory
      subst segments
      rw [read_last held.sorted] at ensured
      exact .inr (created _ (by rw [split]; rfl) ensured)

/-- The index after a batch is the index of the entries after the batch. -/
theorem appended_sparseIndex
    {serde : Serde} {indexWrites : Bool} {wal : SegmentedRealtimeWal} {segments : List SegmentFile}
    (held : WalHeld serde wal segments) (directory : WalDirectory) (target : SegmentTarget)
    (lineLength firstWalCursor lastWalCursor : Nat) (records : List PersistedRealtimeEvent) :
    (wal.appended serde indexWrites directory target lineLength firstWalCursor
        lastWalCursor records).1.sparseIndex =
      sparseIndexOf serde (wal.streamId, wal.configRevision)
        (indexBatch wal.sparseIndex.entries target.segmentId target.byteOffset
          (wal.records.getLast?.map fun record => record.recordSha256) firstWalCursor
          lastWalCursor) := by
  unfold SegmentedRealtimeWal.appended
  dsimp only
  by_cases changed :
      shouldIndexBatch wal.sparseIndex.entries target.segmentId firstWalCursor lastWalCursor = true
  · rw [if_pos changed]
    have scope := congrArg RealtimeSparseIndex.toSparseIndexIntegrity held.index
    unfold sparseIndexOf
    rw [scope]
    rfl
  · rw [if_neg changed]
    unfold indexBatch
    rw [if_neg changed]
    exact held.index

theorem appended_segments :
    (wal.appended serde indexWrites directory target lineLength firstWalCursor lastWalCursor
      records).2.segments = directory.segments := by
  unfold SegmentedRealtimeWal.appended
  dsimp only
  split
  · exact replaceSparseIndex_segments ..
  · rfl

/-- What a successful append leaves. -/
structure Appended
    (serde : Serde) (wal after : SegmentedRealtimeWal) (segments : List SegmentFile)
    (persisted : List PersistedRealtimeEvent) (events : List NormalizedProviderEvent) : Prop where
  held : WalHeld serde after segments
  records : after.records = wal.records ++ persisted
  events : persisted.map (fun record => record.event) = events
  index : ∃ added, after.sparseIndex.entries = wal.sparseIndex.entries ++ added ∧
    ∀ entry ∈ added, wal.records.length < entry.firstWalCursor
  streamId : after.streamId = wal.streamId
  configRevision : after.configRevision = wal.configRevision
  poisoned : after.poisoned = wal.poisoned

/-- A directory with one more batch, in the segment it was written to. -/
structure BatchWritten
    (serde : Serde) (wal : SegmentedRealtimeWal) (target : SegmentTarget) (line : Bytes)
    (records : List PersistedRealtimeEvent) (lastWalCursor : Nat)
    (segments : List SegmentFile) : Prop where
  sorted : SortedSegments segments
  scanned : ∃ scan, Scanned serde (wal.streamId, wal.configRevision) segments scan ∧
    scan.log.records = wal.records ++ records ∧
    scan.log.sparseEntries = indexBatch wal.sparseIndex.entries target.segmentId
      target.byteOffset (wal.records.getLast?.map fun record => record.recordSha256)
      (wal.records.length + 1) lastWalCursor ∧
    scan.lastSegmentId = target.segmentId
  last : ∃ file, segments.getLast? = some file ∧ file.name = target.name ∧
    file.bytes.length = target.byteOffset + (line.length + 1)

section Write

variable {serde : Serde} {createdAt : DateTime} {recordedAt : Nat → DateTime}
  {wal : SegmentedRealtimeWal} {events : List NormalizedProviderEvent}
  {decisions : List PendingDecision} {records : List PersistedRealtimeEvent}
  {last : PersistedRealtimeEvent}

/-- The line of the next batch is accepted after a held log. -/
theorem WalHeld.accepts (held : WalHeld serde wal segments) {scan : DirectoryScan}
    (scanned : Scanned serde (wal.streamId, wal.configRevision) segments scan)
    (sameRecords : scan.log.records = wal.records)
    (sameEntries : scan.log.sparseEntries = wal.sparseIndex.entries)
    (evidence : ∀ event ∈ events, serde.validEventEvidence event = true)
    (decided : pendingDecisions wal.appliedEventIds (appliedRecords wal.records).length events =
      .ok decisions)
    (chained : sealRecords serde recordedAt (wal.records.length + 1) 0
      (wal.records.getLast?.map fun record => record.recordSha256) decisions = .ok records)
    (isLast : records.getLast? = some last)
    (segmentId byteOffset : Nat) :
    records.map (fun record => record.event) = events ∧
      ∃ next, verifyBatch serde segmentId (scan.log, byteOffset)
          (serde.walBatchRecord.toVec (batchOf serde
            (wal.records.length + 1) last.walCursor records)) = .ok next ∧
        next.1.records = wal.records ++ records ∧
        next.1.sparseEntries = indexBatch wal.sparseIndex.entries segmentId byteOffset
          (wal.records.getLast?.map fun record => record.recordSha256)
          (wal.records.length + 1) last.walCursor := by
  have sound := scanned.fits.sound
  have seen : scan.log.appliedEventIds = wal.appliedEventIds := by
    rw [sound.ids, sameRecords, held.ids]
  have expected : scan.log.expectedPublicSequence = (appliedRecords wal.records).length := by
    rw [sound.expected, sameRecords]
  have previous : scan.log.previousRecordSha256 =
      wal.records.getLast?.map fun record => record.recordSha256 := by
    rw [sound.previous, sameRecords]
  rw [← seen, ← expected] at decided
  rw [← previous, ← sameRecords] at chained
  rw [← previous, ← sameRecords, ← sameEntries]
  exact ⟨(verifyRecords_of_decisions evidence decided chained rfl).1,
    verifyBatch_of_decisions evidence sound decided chained isLast segmentId byteOffset⟩

variable {directory : WalDirectory} {target : SegmentTarget} {line : Bytes} {recordBytes : Nat}

/-- The line of the next batch, written to the segment that was made sure of,
continues the log. -/
theorem batchWritten (held : WalHeld serde wal directory.segments)
    (evidence : ∀ event ∈ events, serde.validEventEvidence event = true)
    (decided : pendingDecisions wal.appliedEventIds (appliedRecords wal.records).length events =
      .ok decisions)
    (chained : sealRecords serde recordedAt (wal.records.length + 1) 0
      (wal.records.getLast?.map fun record => record.recordSha256) decisions = .ok records)
    (isLast : records.getLast? = some last)
    (isLine : line = serde.walBatchRecord.toVec (batchOf serde
      (wal.records.length + 1) last.walCursor records))
    (ensured : ensureSegment serde createdAt wal directory (wal.records.length + 1)
      recordBytes = .ok target) :
    BatchWritten serde wal target line records last.walCursor
      (writeBatch .completes directory target line).segments := by
  obtain ⟨scan, scanned, sameRecords, sameEntries, sameSegment⟩ := held.scanned
  have fits := scanned.fits
  have clean : Lines.newline ∉ line := isLine ▸ Codec.newline_notMem_toVec _ _
  rcases ensureSegment_cases held ensured with ⟨front, file, segments, rfl⟩ | ⟨bounded, rfl⟩
  · obtain ⟨_, next, accepted, appended, entries⟩ := held.accepts scanned sameRecords sameEntries
      evidence decided chained isLast scan.lastSegmentId file.bytes.length
    rw [← isLine] at accepted
    obtain ⟨_, cursorIndex⟩ := directory
    subst segments
    have written : (writeBatch .completes ⟨front ++ [file], cursorIndex⟩
        ⟨wal.currentSegmentId, file.name, none, file.bytes.length⟩ line).segments =
        front ++ [{ file with bytes := file.bytes ++ Lines.write [line] }] :=
      append_last held.sorted _
    rw [written]
    refine ⟨sorted_replaceLast held.sorted _,
      ⟨_, scanned.appendLine clean accepted, appended, ?_, sameSegment⟩,
      _, getLast?_concat, rfl, ?_⟩
    · rw [← sameSegment]
      exact entries
    · rw [Lines.write_cons, Lines.write_nil, length_append, length_append, length_singleton]
  · obtain ⟨header, isHeader⟩ : ∃ header, header =
        nextHeader serde createdAt wal directory.segments (wal.records.length + 1) := ⟨_, rfl⟩
    rw [← isHeader]
    have segmentId : header.segmentId = wal.currentSegmentId + 1 := isHeader ▸ rfl
    obtain ⟨_, next, accepted, appended, entries⟩ := held.accepts scanned sameRecords sameEntries
      evidence decided chained isLast header.segmentId
      ((serde.segmentHeader.toVec header).length + 1)
    rw [← isLine] at accepted
    have scope : scan.streamId.getD wal.streamId = wal.streamId ∧
        scan.configRevision.getD wal.configRevision = wal.configRevision := by
      cases files : directory.segments with
      | nil =>
        obtain ⟨noStream, noRevision⟩ := fits.unscoped files
        rw [noStream, noRevision]
        exact ⟨rfl, rfl⟩
      | cons file segments =>
        obtain ⟨stream, revision⟩ := fits.inScope (files ▸ cons_ne_nil _ _)
        rw [stream, revision]
        exact ⟨rfl, rfl⟩
    have headed : verifyHeader serde (some (wal.streamId, wal.configRevision)) scan
        ⟨wal.currentSegmentId + 1, wal.records.length + 1⟩ (serde.segmentHeader.toVec header) =
        .ok header := by
      refine verifyHeader_ok_iff.mpr ⟨Codec.fromSlice_toVec _ _, ?_⟩
      rw [isHeader]
      refine ⟨rfl, rfl, ?_, ?_, fits.chained.symm, rfl, scope.1, scope.2, ?_⟩
      · change wal.currentSegmentId + 1 = _
        rw [sameSegment, Nat.min_eq_left (by omega)]
      · change wal.records.length + 1 = _
        rw [sameRecords]
      · intro expected same
        rw [← some.inj same]
        exact ⟨rfl, rfl⟩
    have written : (writeBatch .completes directory
        ⟨wal.currentSegmentId + 1, ⟨wal.currentSegmentId + 1, wal.records.length + 1⟩,
          some (serde.segmentHeader.toVec header),
          (serde.segmentHeader.toVec header).length + 1⟩ line).segments =
        directory.segments ++ [⟨⟨wal.currentSegmentId + 1, wal.records.length + 1⟩,
          Lines.write [serde.segmentHeader.toVec header, line]⟩] := rfl
    rw [written]
    refine ⟨sorted_create held.sorted ?_,
      ⟨_, scanned.createSegment (Codec.newline_notMem_toVec _ _) clean headed accepted, appended,
        ?_, segmentId⟩,
      _, getLast?_concat, rfl, ?_⟩
    · intro other mem
      have bound := fits.newest other mem
      rw [sameSegment] at bound
      exact Nat.lt_succ_of_le bound
    · rw [← segmentId]
      exact entries
    · dsimp only
      rw [Lines.write_cons, Lines.write_cons, Lines.write_nil, length_append,
        length_cons, length_append, length_singleton]
      omega

/-- The log held after a batch was written. -/
theorem appended_held (indexWrites : Bool) (held : WalHeld serde wal directory.segments)
    (batch : BatchWritten serde wal target line records lastWalCursor written.segments)
    (isLength : line.length = lineLength)
    (sameEvents : records.map (fun record => record.event) = events) :
    Appended serde wal
      (wal.appended serde indexWrites written target lineLength (wal.records.length + 1)
        lastWalCursor records).1
      (wal.appended serde indexWrites written target lineLength (wal.records.length + 1)
        lastWalCursor records).2.segments records events := by
  obtain ⟨scan, scanned, appended, entries, segment⟩ := batch.scanned
  obtain ⟨file, isFile, named, sized⟩ := batch.last
  have index := @appended_sparseIndex serde indexWrites wal directory.segments held written
    target lineLength (wal.records.length + 1) lastWalCursor records
  obtain ⟨added, grown, placed, _⟩ := indexBatch_eq wal.sparseIndex.entries target.segmentId
    target.byteOffset (wal.records.getLast?.map fun record => record.recordSha256)
    (wal.records.length + 1) lastWalCursor
  rw [appended_segments]
  refine ⟨⟨batch.sorted, ⟨scan, scanned, appended, ?_, segment⟩, ?_, ?_, ?_, ?_⟩, rfl, sameEvents,
    ⟨added, ?_, ?_⟩, rfl, rfl, rfl⟩
  · rw [index]
    exact entries
  · change _ = appliedIds (wal.records ++ records)
    rw [← foldl_insert_appliedIds, ← held.ids]
    rfl
  · rw [index]
    rfl
  · rw [isFile, map_some, named]
    rfl
  · rw [isFile, map_some, getD_some, sized, isLength]
    rfl
  · rw [index]
    exact grown
  · intro entry mem
    rw [placed entry mem]
    exact Nat.lt_succ_self _

end Write

end MarketCow.Realtime
