import MarketCow.Realtime.VerifiedRecords

/-!
# A verified log directory

Verification reads batches, segments and directories by reading their parts in
order, so it can be continued after anything it has accepted. The sparse index
it builds points into the records it has read.
-/

namespace MarketCow.Realtime

open Library MarketCow.Core SequencedReplay List

/-! ## The records of a batch -/

variable {serde : Serde}

/-- Reading a record adds it to the records and leaves the index alone. -/
theorem verifyRecord_extends {scan next : WalScan} {record : PersistedRealtimeEvent}
    (accepted : verifyRecord serde scan record = .ok next) :
    next.records = scan.records ++ [record] ∧ next.sparseEntries = scan.sparseEntries := by
  obtain ⟨_, ⟨_, rfl⟩ | ⟨_, rfl⟩⟩ := verifyRecord_ok_iff.mp accepted
  · exact ⟨rfl, rfl⟩
  · exact ⟨rfl, rfl⟩

/-- Reading the records of a batch one after another. -/
theorem verifyRecords_extend {records : List PersistedRealtimeEvent} {scan next : WalScan}
    (accepted : records.foldlM (verifyRecord serde) scan = .ok next) :
    next.records = scan.records ++ records ∧ next.sparseEntries = scan.sparseEntries ∧
      (scan.Sound → next.Sound) := by
  induction records generalizing scan with
  | nil =>
    obtain rfl : scan = next := ok.inj accepted
    exact ⟨(append_nil _).symm, rfl, id⟩
  | cons record records ih =>
    obtain ⟨middle, first, later⟩ := foldlM_cons_ok.mp accepted
    obtain ⟨added, kept⟩ := verifyRecord_extends first
    obtain ⟨appended, indexKept, sound⟩ := ih later
    refine ⟨?_, indexKept.trans kept, fun start => sound (start.verifyRecord first)⟩
    rw [appended, added, append_assoc, singleton_append]

/-! ## Batches -/

/-- The batch is intact and starts where the log ends. -/
structure BatchIntact
    (serde : Serde) (scan : WalScan) (batch : WalBatchRecord) : Prop where
  version : batch.schemaVersion = realtimeWalBatchVersion
  nonempty : batch.records ≠ []
  first : batch.firstWalCursor = scan.records.length + 1
  head : batch.records.head?.map (fun record => record.walCursor) = some batch.firstWalCursor
  last : batch.records.getLast?.map (fun record => record.walCursor) = some batch.lastWalCursor
  sealed : batch = sealBatch serde batch.toBatchIntegrity

theorem sealedBatch_iff :
    batch = sealBatch serde batch.toBatchIntegrity ↔
      batch.batchSha256 = serde.digest (serde.batchIntegrity batch.toBatchIntegrity) ∧
        batch.crc32c = serde.crc32c (serde.batchIntegrity batch.toBatchIntegrity) := by
  cases batch
  simp only [sealBatch, WalBatchRecord.mk.injEq, true_and]

/-- The scan with the index entry of a batch that starts at an offset. -/
def WalScan.indexed
    (scan : WalScan) (segmentId byteOffset : Nat) (batch : WalBatchRecord) : WalScan :=
  { scan with
    sparseEntries := indexBatch scan.sparseEntries segmentId byteOffset
      scan.previousRecordSha256 batch.firstWalCursor batch.lastWalCursor }

variable {segmentId : Nat} {progress next : WalScan × Nat}

theorem verifyBatch_ok_iff :
    verifyBatch serde segmentId progress line = .ok next ↔
      ∃ batch, line ≠ [] ∧ serde.walBatchRecord.fromSlice line = some batch ∧
        BatchIntact serde progress.1 batch ∧
        batch.records.foldlM (verifyRecord serde)
          (progress.1.indexed segmentId progress.2 batch) = .ok next.1 ∧
        next.2 = progress.2 + (line.length + 1) := by
  obtain ⟨scan, byteOffset⟩ := progress
  unfold verifyBatch
  dsimp only
  split
  · rename_i empty
    constructor
    · intro never
      cases never
    · rintro ⟨_, nonempty, _⟩
      exact absurd (isEmpty_iff.mp empty) nonempty
  · rename_i nonempty
    rw [List.isEmpty_iff] at nonempty
    cases decoded : serde.walBatchRecord.fromSlice line with
    | none =>
      constructor
      · intro never
        cases never
      · rintro ⟨_, _, never, _⟩
        cases never
    | some batch =>
      dsimp only
      split
      · rename_i broken
        constructor
        · intro never
          cases never
        · rintro ⟨_, _, same, intact, _⟩
          cases same
          obtain ⟨hashed, checked⟩ := sealedBatch_iff.mp intact.sealed
          simp [intact.version, intact.nonempty, intact.head, intact.last,
            ← hashed, ← checked, intact.first] at broken
      · rename_i unbroken
        simp only [not_or, not_not] at unbroken
        obtain ⟨version, filled, first, head, last, hashed, checked⟩ := unbroken
        have intact : BatchIntact serde scan batch :=
          ⟨version, filled, first, head, last, sealedBatch_iff.mpr ⟨hashed, checked⟩⟩
        rw [bind_ok]
        constructor
        · rintro ⟨after, read, same⟩
          cases same
          exact ⟨batch, nonempty, rfl, intact, read, rfl⟩
        · rintro ⟨_, _, same, _, read, offset⟩
          cases same
          refine ⟨next.1, read, ?_⟩
          rw [← offset]

/-- The index points into the records: every entry starts at a record, and a
log with records has an entry. -/
structure WalScan.Indexed (scan : WalScan) : Prop where
  located : ∀ entry ∈ scan.sparseEntries, entry.firstWalCursor ≤ scan.records.length
  covered : scan.records ≠ [] → scan.sparseEntries ≠ []

theorem WalScan.indexed_empty : WalScan.empty.Indexed :=
  ⟨by simp [WalScan.empty], by simp [WalScan.empty]⟩

/-- A new entry is added at the end, for the batch it is made for. -/
theorem indexBatch_eq (entries : List SparseCursorEntry) (segmentId byteOffset : Nat)
    (previousRecordSha256 : Option String) (firstWalCursor lastWalCursor : Nat) :
    ∃ added, indexBatch entries segmentId byteOffset previousRecordSha256 firstWalCursor
        lastWalCursor = entries ++ added ∧
      (∀ entry ∈ added, entry.firstWalCursor = firstWalCursor) ∧
      (entries = [] → added ≠ []) := by
  unfold indexBatch
  split
  · exact ⟨_, rfl, by simp, by simp⟩
  · rename_i unindexed
    refine ⟨[], (append_nil _).symm, by simp, ?_⟩
    rintro rfl
    exact absurd rfl unindexed

/-- What reading batches does to the log: records and index grow at the end,
and new entries start after the old records. -/
structure LogGrows (before after : WalScan) : Prop where
  records : before.records <+: after.records
  index : ∃ added, after.sparseEntries = before.sparseEntries ++ added ∧
    ∀ entry ∈ added, before.records.length < entry.firstWalCursor
  sound : before.Sound → after.Sound
  indexed : before.Indexed → after.Indexed

namespace LogGrows

theorem refl (scan : WalScan) : LogGrows scan scan :=
  ⟨prefix_rfl, ⟨[], (append_nil _).symm, by simp⟩, id, id⟩

theorem trans (before : LogGrows first second) (after : LogGrows second third) :
    LogGrows first third := by
  obtain ⟨added, grown, placed⟩ := before.index
  obtain ⟨later, grownLater, placedLater⟩ := after.index
  refine ⟨before.records.trans after.records, ⟨added ++ later, ?_, ?_⟩,
    after.sound ∘ before.sound, after.indexed ∘ before.indexed⟩
  · rw [grownLater, grown, append_assoc]
  · intro entry mem
    rcases mem_append.mp mem with early | late
    · exact placed entry early
    · exact before.records.length_le.trans_lt (placedLater entry late)

end LogGrows

theorem verifyBatch_grows (accepted : verifyBatch serde segmentId progress line = .ok next) :
    LogGrows progress.1 next.1 := by
  obtain ⟨batch, _, _, intact, read, _⟩ := verifyBatch_ok_iff.mp accepted
  obtain ⟨appended, indexKept, sound⟩ := verifyRecords_extend read
  obtain ⟨added, grown, placed, covers⟩ := indexBatch_eq progress.1.sparseEntries segmentId
    progress.2 progress.1.previousRecordSha256 batch.firstWalCursor batch.lastWalCursor
  have entries : next.1.sparseEntries = progress.1.sparseEntries ++ added := indexKept.trans grown
  have records : next.1.records = progress.1.records ++ batch.records := appended
  have longer : progress.1.records.length < next.1.records.length := by
    rw [records, length_append]
    exact Nat.lt_add_of_pos_right (length_pos_iff.mpr intact.nonempty)
  refine ⟨⟨batch.records, records.symm⟩, ⟨added, entries, ?_⟩, ?_, ?_⟩
  · intro entry mem
    rw [placed entry mem, intact.first]
    exact Nat.lt_succ_self _
  · intro before
    exact sound ⟨before.records, before.previous, before.ids, before.expected⟩
  · intro before
    refine ⟨?_, ?_⟩
    · intro entry mem
      rw [entries] at mem
      rcases mem_append.mp mem with old | new
      · exact (before.located entry old).trans longer.le
      · rw [placed entry new, intact.first]
        exact longer
    · intro _ none
      rw [entries, append_eq_nil_iff] at none
      exact covers none.1 none.2

theorem verifyBatches_grow
    (accepted : lines.foldlM (verifyBatch serde segmentId) progress = .ok next) :
    LogGrows progress.1 next.1 ∧ next.2 = progress.2 + (Lines.write lines).length := by
  induction lines generalizing progress with
  | nil =>
    obtain rfl : progress = next := ok.inj accepted
    exact ⟨LogGrows.refl _, rfl⟩
  | cons line lines ih =>
    obtain ⟨middle, first, later⟩ := foldlM_cons_ok.mp accepted
    obtain ⟨grown, offset⟩ := ih later
    obtain ⟨_, _, _, _, _, firstOffset⟩ := verifyBatch_ok_iff.mp first
    refine ⟨(verifyBatch_grows first).trans grown, ?_⟩
    rw [offset, firstOffset, Lines.write_cons, length_append, length_cons]
    omega

/-! ## Segments -/

/-- A segment that is read ends in a newline: it is its header line and its
batch lines. -/
theorem segmentLines_ok_iff :
    segmentLines bytes = .ok lines ↔
      bytes = Lines.write (lines.1 :: lines.2) ∧
        ∀ line ∈ lines.1 :: lines.2, Lines.newline ∉ line := by
  constructor
  · intro read
    unfold segmentLines at read
    split at read
    · cases read
    · rename_i ends
      rw [not_not] at ends
      obtain ⟨written, rfl, clean⟩ := Lines.exists_write_of_getLast ends
      have pieces : Lines.split (Lines.write written) = written ++ [[]] := by
        have split := Lines.split_write clean []
        rwa [append_nil] at split
      rw [pieces] at read
      cases written with
      | nil => simp at ends
      | cons headerLine batches =>
        simp only [cons_append, getLast?_append, getLast?_singleton,
          Option.some_or, ne_eq, not_true_eq_false, if_false, dropLast_concat,
          Except.ok.injEq] at read
        subst read
        exact ⟨rfl, clean⟩
  · rintro ⟨rfl, clean⟩
    have pieces : Lines.split (Lines.write (lines.1 :: lines.2)) =
        (lines.1 :: lines.2) ++ [[]] := by
      have split := Lines.split_write clean []
      rwa [append_nil] at split
    unfold segmentLines
    rw [Lines.getLast?_write (cons_ne_nil _ _), if_neg (not_not.mpr rfl), pieces]
    simp

theorem verifySegment_ok_iff {scan next : DirectoryScan} :
    verifySegment serde expectedScope scan file = .ok next ↔
      ∃ headerLine lines header progress, file.bytes = Lines.write (headerLine :: lines) ∧
        (∀ line ∈ headerLine :: lines, Lines.newline ∉ line) ∧
        verifyHeader serde expectedScope scan file.name headerLine = .ok header ∧
        lines.foldlM (verifyBatch serde header.segmentId)
          (scan.log, headerLine.length + 1) = .ok progress ∧
        next =
          { log := progress.1
            previousSegmentSha256 := some (serde.digest file.bytes)
            streamId := some header.streamId
            configRevision := some header.configRevision
            lastSegmentId := header.segmentId } := by
  unfold verifySegment
  simp only [bind_ok, segmentLines_ok_iff, Except.ok.injEq]
  constructor
  · rintro ⟨⟨headerLine, lines⟩, ⟨written, clean⟩, header, headed, progress, read, rfl⟩
    exact ⟨headerLine, lines, header, progress, written, clean, headed, read, rfl⟩
  · rintro ⟨headerLine, lines, header, progress, written, clean, headed, read, rfl⟩
    exact ⟨(headerLine, lines), ⟨written, clean⟩, header, headed, progress, read, rfl⟩

/-- What an accepted header says. -/
structure HeaderFits
    (serde : Serde) (expectedScope : Option (String × String)) (scan : DirectoryScan)
    (name : SegmentFilename) (header : SegmentHeader) : Prop where
  version : header.schemaVersion = realtimeWalSegmentVersion
  sealed : header = sealHeader serde header.toHeaderIntegrity
  segment : header.segmentId = min (scan.lastSegmentId + 1) (2 ^ 64 - 1)
  cursor : header.firstWalCursor = scan.log.records.length + 1
  chained : header.previousSegmentSha256 = scan.previousSegmentSha256
  named : name = ⟨header.segmentId, header.firstWalCursor⟩
  sameStream : scan.streamId.getD header.streamId = header.streamId
  sameRevision : scan.configRevision.getD header.configRevision = header.configRevision
  expected : ∀ scope, expectedScope = some scope →
    header.streamId = scope.1 ∧ header.configRevision = scope.2

theorem sealedHeader_iff :
    header = sealHeader serde header.toHeaderIntegrity ↔
      serde.digest (serde.headerIntegrity header.toHeaderIntegrity) = header.headerSha256 := by
  cases header
  simp only [sealHeader, SegmentHeader.mk.injEq, true_and]
  exact eq_comm

theorem verifyHeader_ok_iff :
    verifyHeader serde expectedScope scan name line = .ok header ↔
      serde.segmentHeader.fromSlice line = some header ∧
        HeaderFits serde expectedScope scan name header := by
  unfold verifyHeader
  cases decoded : serde.segmentHeader.fromSlice line with
  | none =>
    constructor
    · intro never
      cases never
    · rintro ⟨never, _⟩
      cases never
  | some found =>
    dsimp only
    constructor
    · intro accepted
      split at accepted
      · cases accepted
      · rename_i unbroken
        split at accepted
        · cases accepted
        · rename_i sameScope
          split at accepted
          · cases accepted
          · rename_i expected
            cases accepted
            simp only [not_or, not_not] at unbroken sameScope
            obtain ⟨version, hashed, segment, cursor, chained, named⟩ := unbroken
            refine ⟨rfl, version, sealedHeader_iff.mpr hashed, segment, cursor, chained, named,
              sameScope.1, sameScope.2, ?_⟩
            rintro scope rfl
            simpa [any_some, not_or] using expected
    · rintro ⟨same, fits⟩
      cases same
      have unbroken := sealedHeader_iff.mp fits.sealed
      rw [if_neg, if_neg, if_neg]
      · cases expectedScope with
        | none => simp
        | some scope =>
          obtain ⟨sameStream, sameRevision⟩ := fits.expected scope rfl
          simp [sameStream, sameRevision]
      · simp [fits.sameStream, fits.sameRevision]
      · simp only [not_or, not_not]
        exact ⟨fits.version, unbroken, fits.segment, fits.cursor, fits.chained, fits.named⟩

end MarketCow.Realtime
