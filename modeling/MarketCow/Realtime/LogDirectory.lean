import MarketCow.Realtime.VerifiedLog

/-!
# Growing log directories

A directory that verifies still verifies after a batch line was added to its
last segment or a segment was added, and whatever is added, what was read
before is read again.
-/

namespace MarketCow.Realtime

open Library MarketCow.Core SequencedReplay List
open Lines (newline split split_write write)

/-- Segments are listed in increasing order of their ids. -/
def SortedSegments (segments : List SegmentFile) : Prop :=
  segments.Pairwise fun first second => first.name.segmentId < second.name.segmentId

theorem sortedSegments_eq (sorted : SortedSegments directory.segments) :
    sortedSegments directory = directory.segments := by
  apply mergeSort_of_pairwise
  apply sorted.imp
  intro first second before
  unfold SegmentFilename.sortsBefore
  rw [decide_eq_true before, Bool.true_or]

/-- Reading the segments of a directory of one stream. -/
def Scanned (serde : Serde) (scope : String × String) (segments : List SegmentFile)
    (scan : DirectoryScan) : Prop :=
  segments.foldlM (verifySegment serde (some scope)) DirectoryScan.empty = .ok scan

variable {serde : Serde} {scope : String × String}

theorem scanned_nil_iff : Scanned serde scope [] scan ↔ scan = .empty := by
  unfold Scanned
  rw [foldlM_nil]
  exact ⟨fun same => (ok.inj same).symm, fun same => same ▸ rfl⟩

variable {segments : List SegmentFile} {file : SegmentFile}

theorem scanned_snoc_iff :
    Scanned serde scope (segments ++ [file]) scan ↔
      ∃ before, Scanned serde scope segments before ∧
        verifySegment serde (some scope) before file = .ok scan := by
  unfold Scanned
  rw [foldlM_append_ok]
  constructor
  · rintro ⟨before, read, last⟩
    obtain ⟨after, verified, same⟩ := foldlM_cons_ok.mp last
    cases same
    exact ⟨before, read, verified⟩
  · rintro ⟨before, read, verified⟩
    exact ⟨before, read, foldlM_cons_ok.mpr ⟨scan, verified, rfl⟩⟩

theorem Scanned.unique
    (scanned : Scanned serde scope segments scan) (again : Scanned serde scope segments other) :
    scan = other :=
  ok.inj (scanned.symm.trans again)

/-- What is known after reading a directory. -/
structure ScanFits
    (serde : Serde) (scope : String × String) (segments : List SegmentFile)
    (scan : DirectoryScan) : Prop where
  sound : scan.log.Sound
  indexed : scan.log.Indexed
  bounded : scan.lastSegmentId ≤ 2 ^ 64 - 1
  newest : ∀ file ∈ segments, file.name.segmentId ≤ scan.lastSegmentId
  unscoped : segments = [] → scan.streamId = none ∧ scan.configRevision = none
  inScope : segments ≠ [] → scan.streamId = some scope.1 ∧ scan.configRevision = some scope.2
  chained : scan.previousSegmentSha256 = segments.getLast?.map fun file => serde.digest file.bytes
  lastNamed : ∀ file, segments.getLast? = some file → file.name.segmentId = scan.lastSegmentId

variable {scan : DirectoryScan}

theorem Scanned.fits (scanned : Scanned serde scope segments scan) :
    ScanFits serde scope segments scan := by
  induction segments using List.reverseRecOn generalizing scan with
  | nil =>
    obtain rfl := scanned_nil_iff.mp scanned
    exact ⟨WalScan.sound_empty, WalScan.indexed_empty, Nat.zero_le _, by simp,
      fun _ => ⟨rfl, rfl⟩, fun filled => absurd rfl filled, rfl, by simp⟩
  | append_singleton segments file ih =>
    obtain ⟨before, read, verified⟩ := scanned_snoc_iff.mp scanned
    have earlier := ih read
    obtain ⟨headerLine, lines, header, progress, _, _, headed, batches, rfl⟩ :=
      verifySegment_ok_iff.mp verified
    obtain ⟨_, headerFits⟩ := verifyHeader_ok_iff.mp headed
    obtain ⟨grows, _⟩ := verifyBatches_grow batches
    have expected := headerFits.expected scope rfl
    have segment := headerFits.segment
    have step : before.lastSegmentId ≤ header.segmentId := by
      have bound := earlier.bounded
      rw [segment]
      omega
    refine ⟨grows.sound earlier.sound, grows.indexed earlier.indexed, ?_, ?_, by simp, ?_, ?_, ?_⟩
    · change header.segmentId ≤ _
      rw [segment]
      exact Nat.min_le_right _ _
    · intro other mem
      rcases mem_append.mp mem with old | single
      · exact (earlier.newest other old).trans step
      · rw [mem_singleton.mp single, headerFits.named]
    · intro _
      exact ⟨congrArg some expected.1, congrArg some expected.2⟩
    · rw [getLast?_concat]
      rfl
    · intro last isLast
      rw [getLast?_concat, Option.some.injEq] at isLast
      rw [← isLast, headerFits.named]

theorem indexScope_of_fits (fits : ScanFits serde scope segments scan) :
    indexScope scan (some scope) = .ok scope := by
  unfold indexScope
  cases segments with
  | nil =>
    obtain ⟨noStream, noRevision⟩ := fits.unscoped rfl
    rw [noStream, noRevision]
  | cons file segments =>
    obtain ⟨stream, revision⟩ := fits.inScope (cons_ne_nil _ _)
    rw [stream, revision]

/-- Verification of a sorted directory reads its segments. -/
theorem verifyWal_ok_iff (sorted : SortedSegments directory.segments) :
    verifyWal serde directory (some scope) = .ok verified ↔
      ∃ scan, Scanned serde scope directory.segments scan ∧
        verified =
          { records := scan.log.records
            paths := directory.segments.map SegmentFile.name
            lastSegmentId := scan.lastSegmentId
            sparseIndex := sparseIndexOf serde scope scan.log.sparseEntries } := by
  unfold verifyWal
  rw [sortedSegments_eq sorted]
  simp only [bind_ok, Except.ok.injEq]
  constructor
  · rintro ⟨scan, scanned, found, located, rfl⟩
    rw [indexScope_of_fits (Scanned.fits scanned)] at located
    cases located
    exact ⟨scan, scanned, rfl⟩
  · rintro ⟨scan, scanned, rfl⟩
    exact ⟨scan, scanned, scope, indexScope_of_fits scanned.fits, rfl⟩

/-- What every record preserves holds of the log that was read. -/
theorem Scanned.invariant (invariant : WalScan → Prop)
    (indexed : ∀ log entries, invariant log → invariant { log with sparseEntries := entries })
    (recorded : ∀ log record next, invariant log → verifyRecord serde log record = .ok next →
      invariant next)
    (start : invariant .empty)
    (scanned : Scanned serde scope segments scan) :
    invariant scan.log := by
  refine Fallible.foldlM_invariant (fun scan : DirectoryScan => invariant scan.log) ?_ start scanned
  intro before file _ after held verified
  obtain ⟨headerLine, lines, header, progress, _, _, _, batches, rfl⟩ :=
    verifySegment_ok_iff.mp verified
  refine Fallible.foldlM_invariant (fun progress : WalScan × Nat => invariant progress.1) ?_ held
    batches
  intro first line _ second heldFirst accepted
  obtain ⟨batch, _, _, _, records, _⟩ := verifyBatch_ok_iff.mp accepted
  exact Fallible.foldlM_invariant invariant
    (fun log record _ next heldLog read => recorded log record next heldLog read)
    (indexed _ _ heldFirst) records

/-- Every event of a log is known after its first record, and a record of an
event that was recorded before takes no sequence. -/
structure WalScan.Repeats (scan : WalScan) : Prop where
  covered : ∀ record ∈ scan.records, record.event.eventId ∈ scan.appliedEventIds
  repeated : scan.records.Pairwise fun first second =>
    first.event.eventId = second.event.eventId →
      second.applied = false ∧ second.publicSequence = none

variable {record : PersistedRealtimeEvent}

theorem WalScan.Repeats.verifyRecord {scan next : WalScan}
    (repeats : scan.Repeats) (accepted : verifyRecord serde scan record = .ok next) :
    next.Repeats := by
  obtain ⟨_, ⟨fits, rfl⟩ | ⟨fits, rfl⟩⟩ := verifyRecord_ok_iff.mp accepted
  · refine ⟨?_, ?_⟩
    · intro other mem
      rcases mem_append.mp mem with old | new
      · exact Std.ExtTreeSet.mem_insert.mpr (.inr (repeats.covered other old))
      · rw [mem_singleton.mp new]
        exact Std.ExtTreeSet.mem_insert_self
    · refine pairwise_append.mpr ⟨repeats.repeated, pairwise_singleton _ _, ?_⟩
      intro first mem second single same
      rw [mem_singleton.mp single] at same
      exact absurd (same ▸ repeats.covered first mem) fits.fresh
  · refine ⟨?_, ?_⟩
    · intro other mem
      rcases mem_append.mp mem with old | new
      · exact repeats.covered other old
      · rw [mem_singleton.mp new]
        exact fits.seen
    · refine pairwise_append.mpr ⟨repeats.repeated, pairwise_singleton _ _, ?_⟩
      intro first _ second single _
      rw [mem_singleton.mp single]
      exact ⟨fits.notApplied, fits.unnumbered⟩

theorem Scanned.repeats (scanned : Scanned serde scope segments scan) :
    scan.log.Repeats := by
  refine scanned.invariant WalScan.Repeats (fun _ _ repeats => ⟨repeats.covered, repeats.repeated⟩)
    (fun _ _ _ repeats accepted => repeats.verifyRecord accepted) ⟨?_, .nil⟩
  intro record mem
  cases mem

/-- Every event of a log was applied once. -/
theorem Scanned.exists_applied
    (scanned : Scanned serde scope segments scan) (mem : record ∈ scan.log.records) :
    ∃ other ∈ scan.log.records, other.applied = true ∧
      other.event.eventId = record.event.eventId := by
  have covered := scanned.repeats.covered record mem
  rw [scanned.fits.sound.ids, mem_appliedIds] at covered
  obtain ⟨other, applied, same⟩ := mem_map.mp covered
  obtain ⟨inLog, isApplied⟩ := mem_filter.mp applied
  exact ⟨other, inLog, isApplied, same⟩

/-! ## Adding to a directory -/

variable {next : WalScan × Nat}

/-- A batch line at the end of the last segment is read after the segment. -/
theorem Scanned.appendLine
    (scanned : Scanned serde scope (segments ++ [file]) scan) (clean : newline ∉ line)
    (accepted : verifyBatch serde scan.lastSegmentId (scan.log, file.bytes.length) line =
      .ok next) :
    Scanned serde scope (segments ++ [{ file with bytes := file.bytes ++ write [line] }])
      { scan with
        log := next.1
        previousSegmentSha256 := some (serde.digest (file.bytes ++ write [line])) } := by
  obtain ⟨before, read, verified⟩ := scanned_snoc_iff.mp scanned
  obtain ⟨headerLine, lines, header, progress, written, allClean, headed, batches, rfl⟩ :=
    verifySegment_ok_iff.mp verified
  obtain ⟨_, offset⟩ := verifyBatches_grow batches
  have reached : progress = (progress.1, file.bytes.length) := by
    have size : file.bytes.length = headerLine.length + 1 + (write lines).length := by
      rw [written, Lines.write_cons, length_append, length_cons]
      omega
    rw [size, ← offset]
  refine scanned_snoc_iff.mpr ⟨before, read, verifySegment_ok_iff.mpr
    ⟨headerLine, lines ++ [line], header, next, ?_, ?_, headed, ?_, rfl⟩⟩
  · change file.bytes ++ write [line] = _
    rw [written, ← Lines.write_append]
    rfl
  · intro other mem
    rw [← cons_append] at mem
    rcases mem_append.mp mem with old | single
    · exact allClean other old
    · rw [mem_singleton.mp single]
      exact clean
  · refine foldlM_append_ok.mpr ⟨progress, batches, ?_⟩
    refine foldlM_cons_ok.mpr ⟨next, ?_, rfl⟩
    rw [reached]
    exact accepted

/-- A new segment with one batch line is read after the others. -/
theorem Scanned.createSegment
    (scanned : Scanned serde scope segments scan) (headerClean : newline ∉ headerLine)
    (clean : newline ∉ line)
    (headed : verifyHeader serde (some scope) scan name headerLine = .ok header)
    (accepted : verifyBatch serde header.segmentId (scan.log, headerLine.length + 1) line =
      .ok next) :
    Scanned serde scope (segments ++ [⟨name, write [headerLine, line]⟩])
      { log := next.1
        previousSegmentSha256 := some (serde.digest (write [headerLine, line]))
        streamId := some header.streamId
        configRevision := some header.configRevision
        lastSegmentId := header.segmentId } := by
  refine scanned_snoc_iff.mpr ⟨scan, scanned, verifySegment_ok_iff.mpr
    ⟨headerLine, [line], header, next, rfl, ?_, headed, ?_, rfl⟩⟩
  · intro other mem
    rcases mem_cons.mp mem with rfl | single
    · exact headerClean
    · rw [mem_singleton.mp single]
      exact clean
  · exact foldlM_cons_ok.mpr ⟨next, accepted, rfl⟩

/-- Whatever bytes follow the last segment, the log that was read before is
read again first. -/
theorem Scanned.grows_of_append
    {scan after : DirectoryScan} (scanned : Scanned serde scope (segments ++ [file]) scan)
    (again : Scanned serde scope (segments ++ [{ file with bytes := file.bytes ++ extra }]) after) :
    LogGrows scan.log after.log := by
  obtain ⟨before, read, verified⟩ := scanned_snoc_iff.mp scanned
  obtain ⟨other, readAgain, verifiedAgain⟩ := scanned_snoc_iff.mp again
  obtain rfl := read.unique readAgain
  obtain ⟨headerLine, lines, header, progress, written, clean, headed, batches, rfl⟩ :=
    verifySegment_ok_iff.mp verified
  obtain ⟨headerLine', lines', header', progress', written', clean', headed', batches', rfl⟩ :=
    verifySegment_ok_iff.mp verifiedAgain
  have pieces : (headerLine :: lines) ++ split extra = (headerLine' :: lines') ++ [[]] := by
    rw [← split_write clean extra, ← written]
    have whole := split_write clean' []
    rw [append_nil, ← written'] at whole
    exact whole
  rw [cons_append, cons_append, List.cons.injEq] at pieces
  obtain ⟨rfl, rest⟩ := pieces
  obtain rfl : header = header' := by
    rw [headed] at headed'
    exact ok.inj headed'
  obtain ⟨more, continued⟩ : lines <+: lines' := by
    have splitNonempty : split extra ≠ [] := by
      obtain ⟨front, last, rfl, frontClean, _⟩ := Lines.exists_write extra
      rw [split_write frontClean]
      intro none
      rw [append_eq_nil_iff] at none
      have single := @Lines.split_of_clean last ‹_›
      rw [single] at none
      cases none.2
    have shorter : lines.length ≤ lines'.length := by
      have lengths := congrArg List.length rest
      have positive := length_pos_iff.mpr splitNonempty
      rw [length_append, length_append, length_singleton] at lengths
      omega
    have left : lines <+: lines' ++ [[]] := ⟨_, rest⟩
    exact prefix_of_prefix_length_le left (prefix_append _ _) shorter
  rw [← continued] at batches'
  obtain ⟨middle, first, later⟩ := foldlM_append_ok.mp batches'
  rw [batches] at first
  cases first
  exact (verifyBatches_grow later).1

/-- Whatever a new segment holds, the log that was read before is read again
first. -/
theorem Scanned.grows_of_create
    {scan after : DirectoryScan} (scanned : Scanned serde scope segments scan)
    (again : Scanned serde scope (segments ++ [file]) after) :
    LogGrows scan.log after.log := by
  obtain ⟨before, read, verified⟩ := scanned_snoc_iff.mp again
  obtain rfl := scanned.unique read
  obtain ⟨_, _, _, _, _, _, _, batches, rfl⟩ := verifySegment_ok_iff.mp verified
  exact (verifyBatches_grow batches).1

end MarketCow.Realtime
