import MarketCow.Realtime.Restart

/-!
# The sparse index of a session

The index a writer keeps is the one its files are read back with. Its entries
are batches of the log in their order, with the first batch of every segment
among them, so that a search by cursor starts in the right segment, at a batch
that is not too late.
-/

namespace MarketCow.Realtime

open Library MarketCow.Core List
open SegmentedRealtimeWal (openWal)

/-! ## The batches on disk -/

/-- The batches of some lines that start at an offset, each described as an
entry of the index would describe it. -/
def batchLines (serde : Serde) (segmentId : Nat) : Nat → List Bytes → List SparseCursorEntry
  | _, [] => []
  | byteOffset, line :: lines =>
    ((serde.walBatchRecord.fromSlice line).map fun batch =>
      { firstWalCursor := batch.firstWalCursor
        lastWalCursor := batch.lastWalCursor
        segmentId
        byteOffset
        previousRecordSha256 := batch.records.head?.bind fun record =>
          record.previousRecordSha256 : SparseCursorEntry }).toList ++
      batchLines serde segmentId (byteOffset + (line.length + 1)) lines

def segmentBatches (serde : Serde) (file : SegmentFile) : List SparseCursorEntry :=
  match segmentLines file.bytes with
  | .error _ => []
  | .ok (headerLine, lines) =>
    batchLines serde file.name.segmentId (headerLine.length + 1) lines

/-- All batches of a directory, in the order of its segments. -/
def batchesOf (serde : Serde) (segments : List SegmentFile) : List SparseCursorEntry :=
  segments.flatMap (segmentBatches serde)

theorem segmentId_of_mem_batchLines (mem : batch ∈ batchLines serde segmentId byteOffset lines) :
    batch.segmentId = segmentId := by
  induction lines generalizing byteOffset with
  | nil => cases mem
  | cons line lines ih =>
    rw [batchLines, mem_append, Option.mem_toList, map_eq_some_iff] at mem
    rcases mem with ⟨_, _, rfl⟩ | later
    · rfl
    · exact ih later

/-- The batch holds the record of a cursor. -/
def SparseCursorEntry.Contains (batch : SparseCursorEntry) (cursor : Nat) : Prop :=
  batch.firstWalCursor ≤ cursor ∧ cursor ≤ batch.lastWalCursor

/-! ## The index and the batches -/

/-- One batch stands before another in the log. -/
structure BatchBefore (first second : SparseCursorEntry) : Prop where
  cursors : first.lastWalCursor < second.firstWalCursor
  segments : first.segmentId ≤ second.segmentId
  offsets : first.segmentId = second.segmentId → first.byteOffset < second.byteOffset

/-- The index of a log, beside the batches it was read from. -/
structure IndexFits (batches : List SparseCursorEntry) (log : WalScan) : Prop where
  kept : log.sparseEntries.Sublist batches
  ordered : batches.Pairwise BatchBefore
  filled : ∀ batch ∈ batches, 0 < batch.firstWalCursor ∧ batch.firstWalCursor ≤ batch.lastWalCursor
  within : ∀ batch ∈ batches, batch.lastWalCursor ≤ log.records.length
  covered : ∀ cursor, 0 < cursor → cursor ≤ log.records.length →
    ∃ batch ∈ batches, batch.Contains cursor
  indexed : ∀ batch ∈ batches, ∃ entry ∈ log.sparseEntries,
    entry.segmentId = batch.segmentId ∧ entry.firstWalCursor ≤ batch.firstWalCursor

/-- The batches end before an offset of a segment. -/
def EndBefore (batches : List SparseCursorEntry) (segmentId byteOffset : Nat) : Prop :=
  ∀ batch ∈ batches, batch.segmentId ≤ segmentId ∧
    (batch.segmentId = segmentId → batch.byteOffset < byteOffset)

variable {serde : Serde} {batches : List SparseCursorEntry}

theorem indexFits_empty : IndexFits [] .empty where
  kept := .refl []
  ordered := .nil
  filled := by simp
  within := by simp
  covered := by
    intro cursor positive bounded
    exact absurd (positive.trans_le bounded) (Nat.lt_irrefl 0)
  indexed := by simp

/-- Reading one batch. -/
theorem IndexFits.verifyBatch {segmentId : Nat} {progress next : WalScan × Nat} {line : Bytes}
    (fits : IndexFits batches progress.1) (before : EndBefore batches segmentId progress.2)
    (sound : progress.1.Sound)
    (accepted : Realtime.verifyBatch serde segmentId progress line = .ok next) :
    IndexFits (batches ++ batchLines serde segmentId progress.2 [line]) next.1 ∧
      EndBefore (batches ++ batchLines serde segmentId progress.2 [line]) segmentId next.2 := by
  have soundAfter := (verifyBatch_grows accepted).sound sound
  obtain ⟨batch, _, decoded, intact, read, offset⟩ := verifyBatch_ok_iff.mp accepted
  obtain ⟨appended, indexKept, _⟩ := verifyRecords_extend read
  have records : next.1.records = progress.1.records ++ batch.records := appended
  have length : next.1.records.length = progress.1.records.length + batch.records.length := by
    rw [records, length_append]
  have positive : 0 < batch.records.length := length_pos_iff.mpr intact.nonempty
  have first : batch.firstWalCursor = progress.1.records.length + 1 := intact.first
  have last : batch.lastWalCursor = next.1.records.length := by
    have counted := soundAfter.records.walCursor_last
    have lastRecord := intact.last
    cases isLast : batch.records.getLast? with
    | none => exact absurd (getLast?_eq_none_iff.mp isLast) intact.nonempty
    | some record =>
      rw [isLast, map_some, Option.some.injEq] at lastRecord
      rw [records, getLast?_append, isLast, Option.some_or, map_some,
        getD_some, lastRecord, ← records] at counted
      exact counted
  have previous : batch.records.head?.bind (fun record => record.previousRecordSha256) =
      progress.1.previousRecordSha256 := by
    obtain ⟨record, rest, split⟩ := exists_cons_of_ne_nil intact.nonempty
    rw [split] at read
    obtain ⟨_, verified, _⟩ := foldlM_cons_ok.mp read
    rw [split]
    exact (verifyRecord_ok_iff.mp verified).1.chained
  obtain ⟨added, isAdded⟩ : ∃ added : SparseCursorEntry, added =
      ⟨batch.firstWalCursor, batch.lastWalCursor, segmentId, progress.2,
        progress.1.previousRecordSha256⟩ := ⟨_, rfl⟩
  have line : batchLines serde segmentId progress.2 [line] = [added] := by
    rw [batchLines, batchLines, decoded, isAdded, ← previous]
    rfl
  have entries : next.1.sparseEntries =
      indexBatch progress.1.sparseEntries segmentId progress.2
        progress.1.previousRecordSha256 batch.firstWalCursor batch.lastWalCursor := indexKept
  have indexedOrNot : (next.1.sparseEntries = progress.1.sparseEntries ++ [added]) ∨
      (next.1.sparseEntries = progress.1.sparseEntries ∧
        ∃ entry ∈ progress.1.sparseEntries, entry.segmentId = segmentId) := by
    rw [entries, isAdded]
    unfold indexBatch
    split
    · exact .inl rfl
    · rename_i unindexed
      refine .inr ⟨rfl, ?_⟩
      unfold shouldIndexBatch at unindexed
      split at unindexed
      · exact absurd rfl unindexed
      · rename_i entry isLast
        refine ⟨entry, mem_of_getLast? isLast, ?_⟩
        simp only [or_eq_true, bne_iff_ne, not_or, not_not] at unindexed
        exact unindexed.1.1
  rw [line]
  have mem : ∀ other, other ∈ batches ++ [added] ↔ other ∈ batches ∨ other = added := by
    intro other
    rw [mem_append, mem_singleton]
  refine ⟨⟨?_, ?_, ?_, ?_, ?_, ?_⟩, ?_⟩
  · rcases indexedOrNot with grown | ⟨same, _⟩
    · rw [grown]
      exact fits.kept.append (.refl _)
    · rw [same]
      exact fits.kept.trans (sublist_append_left _ _)
  · refine pairwise_append.mpr ⟨fits.ordered, pairwise_singleton _ _, ?_⟩
    intro earlier isEarlier other isAddedToo
    rw [mem_singleton.mp isAddedToo, isAdded]
    have inside := fits.within earlier isEarlier
    exact ⟨by dsimp only; omega, (before earlier isEarlier).1, (before earlier isEarlier).2⟩
  · intro other isMember
    rcases (mem other).mp isMember with old | rfl
    · exact fits.filled other old
    · rw [isAdded]
      dsimp only
      omega
  · intro other isMember
    rcases (mem other).mp isMember with old | rfl
    · have inside := fits.within other old
      omega
    · rw [isAdded]
      exact last.le
  · intro cursor afterStart bounded
    by_cases old : cursor ≤ progress.1.records.length
    · obtain ⟨other, isMember, contains⟩ := fits.covered cursor afterStart old
      exact ⟨other, (mem other).mpr (.inl isMember), contains⟩
    · refine ⟨added, (mem added).mpr (.inr rfl), ?_⟩
      rw [isAdded]
      exact ⟨by dsimp only; omega, by dsimp only; omega⟩
  · intro other isMember
    rcases (mem other).mp isMember with old | rfl
    · obtain ⟨entry, present, sameSegment, early⟩ := fits.indexed other old
      refine ⟨entry, ?_, sameSegment, early⟩
      rcases indexedOrNot with grown | ⟨same, _⟩
      · rw [grown]
        exact mem_append_left _ present
      · rw [same]
        exact present
    · rcases indexedOrNot with grown | ⟨same, entry, present, sameSegment⟩
      · exact ⟨other, by rw [grown]; simp, rfl, le_rfl⟩
      · refine ⟨entry, by rw [same]; exact present, by rw [isAdded]; exact sameSegment, ?_⟩
        have known := fits.kept.subset present
        have wide := fits.filled entry known
        have inside := fits.within entry known
        rw [isAdded]
        dsimp only
        omega
  · intro other isMember
    rcases (mem other).mp isMember with old | rfl
    · refine ⟨(before other old).1, fun same => ?_⟩
      have earlier := (before other old).2 same
      omega
    · rw [isAdded]
      exact ⟨le_rfl, fun _ => by dsimp only; omega⟩

/-- Reading the batches of a segment. -/
theorem IndexFits.verifyBatches
    {segmentId : Nat} {progress next : WalScan × Nat} {lines : List Bytes}
    (fits : IndexFits batches progress.1) (before : EndBefore batches segmentId progress.2)
    (sound : progress.1.Sound)
    (accepted : lines.foldlM (Realtime.verifyBatch serde segmentId) progress = .ok next) :
    IndexFits (batches ++ batchLines serde segmentId progress.2 lines) next.1 := by
  induction lines generalizing progress batches with
  | nil =>
    obtain rfl : progress = next := ok.inj accepted
    simpa [batchLines] using fits
  | cons line lines ih =>
    obtain ⟨middle, first, later⟩ := foldlM_cons_ok.mp accepted
    obtain ⟨fitsMiddle, beforeMiddle⟩ := fits.verifyBatch before sound first
    have rest := ih fitsMiddle beforeMiddle ((verifyBatch_grows first).sound sound) later
    obtain ⟨_, _, _, _, _, offset⟩ := verifyBatch_ok_iff.mp first
    simpa [batchLines, offset] using rest

/-- Reading a sorted directory. -/
theorem Scanned.indexFits
    {scope : String × String} {segments : List SegmentFile} {scan : DirectoryScan}
    (sorted : SortedSegments segments) (scanned : Scanned serde scope segments scan) :
    IndexFits (batchesOf serde segments) scan.log ∧
      ∀ batch ∈ batchesOf serde segments, ∃ file ∈ segments,
        batch.segmentId = file.name.segmentId := by
  induction segments using List.reverseRecOn generalizing scan with
  | nil =>
    obtain rfl := scanned_nil_iff.mp scanned
    exact ⟨indexFits_empty, by simp [batchesOf]⟩
  | append_singleton segments file ih =>
    obtain ⟨before, read, verified⟩ := scanned_snoc_iff.mp scanned
    obtain ⟨front, _, newest⟩ := pairwise_append.mp sorted
    obtain ⟨fits, named⟩ := ih front read
    obtain ⟨headerLine, lines, header, progress, written, clean, headed, accepted, rfl⟩ :=
      verifySegment_ok_iff.mp verified
    obtain ⟨_, headerFits⟩ := verifyHeader_ok_iff.mp headed
    have segment : file.name.segmentId = header.segmentId := by rw [headerFits.named]
    have pieces : segmentBatches serde file =
        batchLines serde header.segmentId (headerLine.length + 1) lines := by
      have split : segmentLines file.bytes = .ok (headerLine, lines) :=
        segmentLines_ok_iff.mpr ⟨written, clean⟩
      unfold segmentBatches
      rw [split, segment]
    have whole : batchesOf serde (segments ++ [file]) =
        batchesOf serde segments ++
          batchLines serde header.segmentId (headerLine.length + 1) lines := by
      unfold batchesOf
      rw [flatMap_append, flatMap_singleton, pieces]
    have ends : EndBefore (batchesOf serde segments) header.segmentId (headerLine.length + 1) := by
      intro batch mem
      obtain ⟨other, isOther, same⟩ := named batch mem
      have earlier := newest other isOther file (by simp)
      rw [segment, ← same] at earlier
      exact ⟨earlier.le, fun equal => absurd equal earlier.ne⟩
    rw [whole]
    refine ⟨fits.verifyBatches ends read.fits.sound accepted, ?_⟩
    intro batch mem
    rcases mem_append.mp mem with old | new
    · obtain ⟨other, isOther, same⟩ := named batch old
      exact ⟨other, mem_append_left _ isOther, same⟩
    · refine ⟨file, by simp, ?_⟩
      rw [segment]
      exact segmentId_of_mem_batchLines new

/-! ## The index in use -/

/-- The index starts a search for any record of the log in the segment of the
record's batch, at the start of a batch that is not after it. -/
def LocatesBatches
    (index : RealtimeSparseIndex) (batches : List SparseCursorEntry) (walCursor : Nat) : Prop :=
  ∀ cursor, 1 ≤ cursor → cursor ≤ walCursor →
    (∃ batch ∈ batches, batch.Contains cursor) ∧
      ∃ entry ∈ batches, index.locate cursor = some entry ∧
        ∀ batch ∈ batches, batch.Contains cursor →
          entry.segmentId = batch.segmentId ∧ entry.firstWalCursor ≤ batch.firstWalCursor ∧
            entry.byteOffset ≤ batch.byteOffset

/-- The kept index is the one that is read back, it is valid, and it is usable. -/
structure IndexUsable
    (serde : Serde) (wal : SegmentedRealtimeWal) (directory : WalDirectory) : Prop where
  rebuilt : ∃ verified, verifyWal serde directory (some (wal.streamId, wal.configRevision)) =
    .ok verified ∧ verified.sparseIndex = wal.sparseIndex
  valid : sparseIndexIsValid serde wal.sparseIndex = true
  locates : LocatesBatches wal.sparseIndex (batchesOf serde directory.segments) wal.walCursor

section Usable

variable {log : WalScan} {scope : String × String}

section

variable (fits : IndexFits batches log)
include fits

/-- Two batches of a log are one, or one stands before the other. -/
theorem IndexFits.comparable
    (isFirst : first ∈ batches) (isSecond : second ∈ batches) :
    first = second ∨ BatchBefore first second ∨ BatchBefore second first := by
  by_cases same : first = second
  · exact .inl same
  · have symmetric : Std.Symm fun first second : SparseCursorEntry =>
        BatchBefore first second ∨ BatchBefore second first := ⟨fun _ _ => Or.symm⟩
    have ordered : batches.Pairwise fun first second =>
        BatchBefore first second ∨ BatchBefore second first := fits.ordered.imp .inl
    exact .inr (ordered.forall isFirst isSecond same)

/-- The entries up to a cursor come first. -/
theorem IndexFits.exists_split (cursor : Nat) :
    ∃ taken later, log.sparseEntries = taken ++ later ∧
      (∀ entry ∈ taken, entry.firstWalCursor ≤ cursor) ∧
      ∀ entry ∈ later, cursor < entry.firstWalCursor := by
  have ordered := fits.ordered.sublist fits.kept
  have filled : ∀ entry ∈ log.sparseEntries, entry.firstWalCursor ≤ entry.lastWalCursor :=
    fun entry mem => (fits.filled entry (fits.kept.subset mem)).2
  generalize log.sparseEntries = entries at ordered filled ⊢
  induction entries with
  | nil => exact ⟨[], [], rfl, by simp, by simp⟩
  | cons entry entries ih =>
    obtain ⟨before, rest⟩ := pairwise_cons.mp ordered
    by_cases early : entry.firstWalCursor ≤ cursor
    · obtain ⟨taken, later, rfl, allEarly, allLate⟩ :=
        ih rest fun other mem => filled other (mem_cons_of_mem _ mem)
      exact ⟨entry :: taken, later, rfl, by simpa [early] using allEarly, allLate⟩
    · refine ⟨[], entry :: entries, rfl, by simp, ?_⟩
      intro other mem
      rcases mem_cons.mp mem with rfl | after
      · omega
      · have wide := filled entry mem_cons_self
        have apart := (before other after).cursors
        omega

theorem IndexFits.locates :
    LocatesBatches (sparseIndexOf serde scope log.sparseEntries) batches log.records.length := by
  intro cursor positive bounded
  obtain ⟨taken, later, split, early, late⟩ := fits.exists_split cursor
  -- The first entry of a batch's segment is one of the entries up to the cursor.
  have opening : ∀ batch ∈ batches, batch.Contains cursor →
      ∃ entry ∈ taken, entry.segmentId = batch.segmentId := by
    intro batch isBatch contains
    obtain ⟨entry, present, sameSegment, first⟩ := fits.indexed batch isBatch
    rw [split] at present
    rcases mem_append.mp present with inTaken | inLater
    · exact ⟨entry, inTaken, sameSegment⟩
    · exact absurd (first.trans contains.1) (Nat.not_le.mpr (late entry inLater))
  obtain ⟨batch, isBatch, contains⟩ := fits.covered cursor positive bounded
  obtain ⟨opened, present, _⟩ := opening batch isBatch contains
  obtain ⟨front, entry, rfl⟩ : ∃ front entry, taken = front ++ [entry] :=
    ⟨_, _, (dropLast_append_getLast (ne_nil_of_mem present)).symm⟩
  have isEntry : entry ∈ batches := fits.kept.subset (by rw [split]; simp)
  have located : (sparseIndexOf serde scope log.sparseEntries).locate cursor = some entry := by
    rw [split, locate_sparseIndexOf early late, getLast?_concat]
  refine ⟨⟨batch, isBatch, contains⟩, entry, isEntry, located, ?_⟩
  intro other isOther otherContains
  obtain ⟨first, inTaken, sameSegment⟩ := opening other isOther otherContains
  have notLater : first.segmentId ≤ entry.segmentId := by
    have ordered := fits.ordered.sublist fits.kept
    rw [split] at ordered
    rcases mem_append.mp inTaken with inFront | isLast
    · exact ((pairwise_append.mp (pairwise_append.mp ordered).1).2.2 first inFront
        entry (by simp)).segments
    · rw [mem_singleton.mp isLast]
  rcases fits.comparable isEntry isOther with rfl | before | after
  · exact ⟨rfl, le_rfl, le_rfl⟩
  · have same : entry.segmentId = other.segmentId :=
      le_antisymm before.segments (sameSegment ▸ notLater)
    have wide := (fits.filled entry isEntry).2
    exact ⟨same, (wide.trans_lt before.cursors).le, (before.offsets same).le⟩
  · have beyond := early entry (by simp)
    have within := otherContains.2
    have apart := after.cursors
    omega

end

theorem all_entriesInOrder
    {entries : List SparseCursorEntry} (ordered : entries.Pairwise BatchBefore)
    (filled : ∀ entry ∈ entries, entry.firstWalCursor ≤ entry.lastWalCursor) :
    (entries.zip entries.tail).all (fun pair => entriesInOrder pair.1 pair.2) = true := by
  induction entries with
  | nil => rfl
  | cons entry entries ih =>
    obtain ⟨before, rest⟩ := pairwise_cons.mp ordered
    have later := ih rest fun other mem => filled other (mem_cons_of_mem _ mem)
    cases entries with
    | nil => rfl
    | cons next entries =>
      have apart := before next mem_cons_self
      have wide := filled entry mem_cons_self
      rw [tail_cons, zip_cons_cons, all_cons, and_eq_true]
      refine ⟨?_, later⟩
      unfold entriesInOrder
      simp only [and_eq_true, or_eq_true, decide_eq_true_eq, bne_iff_ne]
      refine ⟨⟨⟨wide.trans_lt apart.cursors, apart.cursors⟩, apart.segments⟩, ?_⟩
      by_cases same : entry.segmentId = next.segmentId
      · exact .inr (apart.offsets same)
      · exact .inl same

/-- The entries pass the checks of the index. -/
theorem IndexFits.valid (fits : IndexFits batches log) (stream : scope.1.isEmpty = false)
    (revision : scope.2.isEmpty = false) :
    sparseIndexIsValid serde (sparseIndexOf serde scope log.sparseEntries) = true := by
  have filled : ∀ entry ∈ log.sparseEntries,
      0 < entry.firstWalCursor ∧ entry.firstWalCursor ≤ entry.lastWalCursor :=
    fun entry mem => fits.filled entry (fits.kept.subset mem)
  have inOrder := all_entriesInOrder (fits.ordered.sublist fits.kept)
    fun entry mem => (filled entry mem).2
  have wide : log.sparseEntries.all (fun entry => decide (0 < entry.firstWalCursor) &&
      decide (entry.firstWalCursor ≤ entry.lastWalCursor)) = true := by
    rw [all_eq_true]
    intro entry mem
    simpa using filled entry mem
  unfold sparseIndexIsValid sparseIndexOf sealSparseIndex
  simp [stream, revision, inOrder, wide]

end Usable

/-! ## Sessions -/

/-- A log of a session: the one its writer holds, or one that its files are
opened as. -/
inductive Session.HoldsLog
    (serde : Serde) (streamId configRevision : String) :
    Session → SegmentedRealtimeWal → WalDirectory → Prop
  | running
      {root : StorageRoot}
      {writer : DurableRealtimeWriter} :
      Session.HoldsLog serde streamId configRevision (.running root writer) writer.wal root.wal
  | reopened
      {root : StorageRoot}
      {last : Option DurableRealtimeWriter}
      {indexWrites : Bool}
      {maxSegmentBytes : Nat}
      {wal : SegmentedRealtimeWal}
      {directory : WalDirectory} :
      openWal serde indexWrites root.wal streamId configRevision
        maxSegmentBytes = .ok (wal, directory) →
      Session.HoldsLog serde streamId configRevision (.closed root last) wal directory

section Sessions

variable {streamId configRevision : String}

theorem named_of_openWal
    (success : openWal serde indexWrites directory streamId configRevision
      maxSegmentBytes = .ok opened) :
    streamId.isEmpty = false ∧ configRevision.isEmpty = false := by
  unfold openWal at success
  obtain ⟨_, valid, _⟩ := bind_ok.mp success
  obtain ⟨stream, revision, _⟩ := validateConfig_ok_iff.mp valid
  exact ⟨stream, revision⟩

/-- A writer at work was opened with a stream and a revision. -/
def Session.Named (streamId configRevision : String) : Session → Prop
  | .closed _ _ => True
  | .running _ _ => streamId.isEmpty = false ∧ configRevision.isEmpty = false

theorem named_of_run (run : SessionRun serde streamId configRevision actions session) :
    session.Named streamId configRevision := by
  have preserved : ∀ before action after, Session.Named streamId configRevision before →
      SessionStep serde streamId configRevision before action after →
      Session.Named streamId configRevision after := by
    intro before action after named taken
    cases taken with
    | opened success =>
      unfold DurableRealtimeWriter.openWriter at success
      split at success
      · cases success
      · obtain ⟨_, openedWal, _⟩ := bind_ok.mp success
        exact named_of_openWal openedWal
    | applied | checkpointed => exact named
    | dropped => trivial
  exact Run.preserves preserved run trivial

theorem WalHeld.indexUsable
    (held : WalHeld serde wal directory.segments) (stream : wal.streamId.isEmpty = false)
    (revision : wal.configRevision.isEmpty = false) :
    IndexUsable serde wal directory := by
  obtain ⟨scan, scanned, sameRecords, sameEntries, _⟩ := held.scanned
  obtain ⟨fits, _⟩ := scanned.indexFits held.sorted
  have index : sparseIndexOf serde (wal.streamId, wal.configRevision) scan.log.sparseEntries =
      wal.sparseIndex := by
    rw [sameEntries]
    exact held.index.symm
  refine ⟨⟨_, (verifyWal_ok_iff held.sorted).mpr ⟨scan, scanned, rfl⟩, index⟩, ?_, ?_⟩
  · rw [← index]
    exact fits.valid stream revision
  · rw [← index, held.walCursor, ← sameRecords]
    exact fits.locates

/-- After any appends and reopenings the kept index is the rebuilt one, valid
and usable. -/
theorem sparse_index_usable
    {actions : List SessionAction} {session : Session} {wal : SegmentedRealtimeWal}
    {directory : WalDirectory} (run : SessionRun serde streamId configRevision actions session)
    (holds : session.HoldsLog serde streamId configRevision wal directory) :
    IndexUsable serde wal directory := by
  have named := named_of_run run
  have held := sessionHeld_of_run run
  cases holds with
  | running =>
    cases held with
    | running writer stream revision _ =>
      refine writer.wal.indexUsable ?_ ?_
      · rw [writer.streamId, stream]
        exact named.1
      · rw [writer.configRevision, revision]
        exact named.2
  | reopened opened =>
    cases held with
    | closed rooted =>
      obtain ⟨segments, walHeld, stream, revision, _⟩ := openWal_held rooted.sorted opened
      obtain ⟨isNamed, isRevised⟩ := named_of_openWal opened
      rw [← segments] at walHeld
      exact walHeld.indexUsable (stream ▸ isNamed) (revision ▸ isRevised)

theorem sparse_index_usable_sample :
    ∃ root last wal directory,
      SessionRun sampleSerde "longport" "revision-1"
        [.openWriter true 4096 2, .applyBatch sampleEnvironment [sampleStatus 0], .drop]
        (.closed root last) ∧
      openWal sampleSerde true root.wal "longport" "revision-1" 1024 =
        .ok (wal, directory) ∧
      IndexUsable sampleSerde wal directory := by
  have valid : validateConfig "longport" "revision-1" 1024 = .ok () := by decide
  have completes : sampleEnvironment.write = .completes := rfl
  obtain ⟨root, last, run, _⟩ :=
    @run_of_event sampleSerde "longport" "revision-1" true 4096 2 _ _ sampleConfig_valid
      (by decide) completes (sampleStatus_proven 0)
  cases sessionHeld_of_run run with
  | closed rooted =>
    obtain ⟨scan, scanned, _⟩ := rooted.scanned
    obtain ⟨⟨wal, directory⟩, opened, _⟩ :=
      @exists_openWal sampleSerde true root.wal _ _ _ scan rooted.sorted valid scanned
    exact ⟨root, last, wal, directory, run, opened, sparse_index_usable run (.reopened opened)⟩

end Sessions

end MarketCow.Realtime
