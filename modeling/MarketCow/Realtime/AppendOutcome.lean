import MarketCow.Realtime.AppendLog

/-!
# The outcomes of an append

An append refuses a batch, fails before or within its writes, or persists the
batch. Whatever it does, the log that was held stays readable or nothing is.
-/

namespace MarketCow.Realtime

open Library MarketCow.Core SequencedReplay List

/-! ## Batches that are not taken -/

/-- The flags of a decision agree. -/
structure PendingDecision.WellFormed (decision : PendingDecision) : Prop where
  sequenced : decision.applied = decision.publicSequence.isSome
  unfailed : decision.applied = true → decision.failClosedReason = none
  failed : decision.applied = false → decision.failClosedReason = some duplicateEvent

theorem PendingDecision.wellFormed_ofDuplicate (event : NormalizedProviderEvent) :
    (PendingDecision.ofDuplicate event).WellFormed :=
  ⟨rfl, (fun never => nomatch never), fun _ => rfl⟩

theorem PendingDecision.wellFormed_ofApplied (event : NormalizedProviderEvent) (sequence : Nat) :
    (PendingDecision.ofApplied event sequence).WellFormed :=
  ⟨rfl, fun _ => rfl, fun never => nomatch never⟩

variable {decisions : List PendingDecision} {events : List NormalizedProviderEvent}
  {nextSequence : Nat}

/-- Every event of a batch gets one decision. -/
theorem pendingDecisions_wellFormed
    (decided : pendingDecisions seen nextSequence events = .ok decisions) :
    decisions.length = events.length ∧ ∀ decision ∈ decisions, decision.WellFormed := by
  induction events generalizing seen nextSequence decisions with
  | nil =>
    cases decided
    exact ⟨rfl, by simp⟩
  | cons event events ih =>
    rcases pendingDecisions_cons_ok_iff.mp decided with
      ⟨_, later, rest, rfl⟩ | ⟨_, _, later, rest, rfl⟩
    · obtain ⟨size, wellFormed⟩ := ih rest
      refine ⟨by rw [length_cons, length_cons, size], ?_⟩
      intro decision mem
      rcases mem_cons.mp mem with rfl | mem
      · exact PendingDecision.wellFormed_ofDuplicate event
      · exact wellFormed decision mem
    · obtain ⟨size, wellFormed⟩ := ih rest
      refine ⟨by rw [length_cons, length_cons, size], ?_⟩
      intro decision mem
      rcases mem_cons.mp mem with rfl | mem
      · exact PendingDecision.wellFormed_ofApplied event _
      · exact wellFormed decision mem

variable {cause : DurabilityError}

/-- A batch is undecided only when the sequences run out. -/
theorem pendingDecisions_error (failed : pendingDecisions seen nextSequence events = .error cause) :
    cause = .cursorOverflow ∧ 2 ^ 64 ≤ nextSequence + events.length := by
  induction events generalizing seen nextSequence with
  | nil => cases failed
  | cons event events ih =>
    rw [length_cons]
    rw [pendingDecisions] at failed
    split at failed
    · rcases Fallible.bind_eq_error_iff.mp failed with later | ⟨_, _, never⟩
      · obtain ⟨overflow, exhausted⟩ := ih later
        exact ⟨overflow, by omega⟩
      · cases never
    · cases counted : checkedAdd nextSequence 1 with
      | none =>
        rw [counted] at failed
        exact ⟨(error.inj failed).symm, by
          have exhausted := checkedAdd_eq_none_iff.mp counted
          omega⟩
      | some sequence =>
        obtain ⟨_, rfl⟩ := checkedAdd_eq_some_iff.mp counted
        rw [counted] at failed
        rcases Fallible.bind_eq_error_iff.mp failed with later | ⟨_, _, never⟩
        · obtain ⟨overflow, exhausted⟩ := ih later
          exact ⟨overflow, by omega⟩
        · cases never

/-- Why a log takes no batch although its writes would complete. -/
inductive AppendBlocked
    (wal : SegmentedRealtimeWal) (directory : WalDirectory)
    (decisions : List PendingDecision) : DurabilityError → Prop
  | poisoned (poisoned : wal.poisoned = true) :
      AppendBlocked wal directory decisions .writerPoisoned
  | empty (empty : decisions = []) : AppendBlocked wal directory decisions .emptyBatch
  | invalid
      {decision : PendingDecision}
      (member : decision ∈ decisions)
      (malformed : ¬decision.WellFormed) :
      AppendBlocked wal directory decisions .invalidDecision
  | cursors (exhausted : 2 ^ 64 ≤ wal.walCursor + decisions.length) :
      AppendBlocked wal directory decisions .cursorOverflow
  | segments (exhausted : 2 ^ 64 ≤ wal.currentSegmentId + 1) :
      AppendBlocked wal directory decisions .cursorOverflow
  | unread
      {path : SegmentFilename}
      (current : wal.currentPath = some path)
      (missing : directory.read path = none) :
      AppendBlocked wal directory decisions .io
  | taken
      {firstWalCursor : Nat}
      (present : (directory.read ⟨wal.currentSegmentId + 1, firstWalCursor⟩).isSome = true) :
      AppendBlocked wal directory decisions .io

variable {wal : SegmentedRealtimeWal} {directory : WalDirectory}

theorem AppendBlocked.unpublished
    (blocked : AppendBlocked wal directory decisions cause) (reason : RealtimeError) :
    cause ≠ .publicationAfterPersistence reason := by
  cases blocked <;> exact fun never => nomatch never

variable {serde : Serde}

theorem sealRecords_error
    (failed : sealRecords serde recordedAt firstWalCursor index previous decisions = .error cause) :
    (cause = .invalidDecision ∧ ∃ decision ∈ decisions, ¬decision.WellFormed) ∨
      (cause = .cursorOverflow ∧ 2 ^ 64 < firstWalCursor + index + decisions.length) := by
  induction decisions generalizing index previous with
  | nil => cases failed
  | cons decision decisions ih =>
    rw [sealRecords] at failed
    split at failed
    · rename_i invalid
      refine .inl ⟨(error.inj failed).symm, decision, by simp, ?_⟩
      rintro ⟨sequenced, unfailed, reason⟩
      rcases invalid with differs | ⟨applied, failed⟩ | ⟨notApplied, other⟩
      · exact differs sequenced
      · rw [unfailed applied] at failed
        cases failed
      · exact other (reason (not_eq_true _ ▸ notApplied))
    · cases added : checkedAdd firstWalCursor index with
      | none =>
        rw [added] at failed
        have exhausted := checkedAdd_eq_none_iff.mp added
        exact .inr ⟨(error.inj failed).symm, by rw [length_cons]; omega⟩
      | some walCursor =>
        rw [added] at failed
        rcases Fallible.bind_eq_error_iff.mp failed with later | ⟨_, _, never⟩
        · rcases ih later with ⟨same, bad, mem, malformed⟩ | ⟨same, large⟩
          · exact .inl ⟨same, bad, mem_cons_of_mem _ mem, malformed⟩
          · exact .inr ⟨same, by rw [length_cons]; omega⟩
        · cases never

theorem ensureSegment_error
    (failed : ensureSegment serde createdAt wal directory firstWalCursor recordBytes = .error cause)
    (decisions : List PendingDecision) :
    AppendBlocked wal directory decisions cause := by
  have created : ∀ previous,
      ensureSegment.newSegment serde createdAt wal directory firstWalCursor previous =
        .error cause → AppendBlocked wal directory decisions cause := by
    intro previous new
    unfold ensureSegment.newSegment at new
    cases added : checkedAdd wal.currentSegmentId 1 with
    | none =>
      rw [added] at new
      obtain rfl := (error.inj new).symm
      exact .segments (checkedAdd_eq_none_iff.mp added)
    | some segmentId =>
      obtain ⟨_, rfl⟩ := checkedAdd_eq_some_iff.mp added
      rw [added] at new
      dsimp only at new
      split at new
      · rename_i present
        obtain rfl := (error.inj new).symm
        exact .taken present
      · cases new
  unfold ensureSegment at failed
  cases path : wal.currentPath with
  | none =>
    rw [path] at failed
    exact created none failed
  | some name =>
    rw [path] at failed
    dsimp only at failed
    split at failed
    · cases failed
    · cases read : directory.read name with
      | none =>
        rw [read] at failed
        obtain rfl := (error.inj failed).symm
        exact .unread path read
      | some bytes =>
        rw [read] at failed
        exact created _ failed

/-- The current segment of a held log can be read. -/
theorem WalHeld.read_current {path : SegmentFilename}
    (held : WalHeld serde wal directory.segments) (current : wal.currentPath = some path) :
    ∃ bytes, directory.read path = some bytes := by
  rw [held.path] at current
  obtain ⟨file, isLast, rfl⟩ := map_eq_some_iff.mp current
  obtain ⟨segments, cursorIndex⟩ := directory
  obtain ⟨front, rfl⟩ := getLast?_eq_some_iff.mp isLast
  exact ⟨file.bytes, read_last held.sorted⟩

/-- The next segment of a held log does not exist yet. -/
theorem WalHeld.read_next (held : WalHeld serde wal directory.segments) (firstWalCursor : Nat) :
    directory.read ⟨wal.currentSegmentId + 1, firstWalCursor⟩ = none := by
  obtain ⟨scan, scanned, _, _, sameSegment⟩ := held.scanned
  unfold WalDirectory.read
  rw [map_eq_none_iff, find?_eq_none]
  intro file mem same
  have bound := scanned.fits.newest file mem
  rw [beq_iff_eq.mp same, sameSegment] at bound
  exact Nat.not_succ_le_self _ bound

/-! ## Results -/

/-- What an append can do: refuse, fail before or within its writes, or
persist the batch. -/
inductive AppendResult
    (serde : Serde) (environment : AppendEnvironment) (wal : SegmentedRealtimeWal)
    (directory : WalDirectory) (decisions : List PendingDecision) :
    Except DurabilityError (List PersistedRealtimeEvent) →
      SegmentedRealtimeWal → WalDirectory → Prop
  | refused
      (cause : DurabilityError)
      (blocked : AppendBlocked wal directory decisions cause) :
      AppendResult serde environment wal directory decisions (.error cause) wal directory
  | unprepared
      (cause : DurabilityError)
      (blocked : AppendBlocked wal directory decisions cause) :
      AppendResult serde environment wal directory decisions (.error cause)
        { wal with poisoned := true } directory
  | stopped
      {firstWalCursor recordBytes : Nat}
      {target : SegmentTarget}
      (line : Bytes)
      (created : Bool)
      (written : Nat)
      (stops : environment.write = .stops created written)
      (ensured : ensureSegment serde environment.createdAt wal directory firstWalCursor
        recordBytes = .ok target) :
      AppendResult serde environment wal directory decisions (.error .io)
        { wal with poisoned := true } (writeBatch (.stops created written) directory target line)
  | persisted
      {firstWalCursor recordBytes : Nat}
      {records : List PersistedRealtimeEvent}
      {last : PersistedRealtimeEvent}
      {target : SegmentTarget}
      {line : Bytes}
      (healthy : wal.poisoned = false)
      (completes : environment.write = .completes)
      (counted : checkedAdd wal.walCursor 1 = some firstWalCursor)
      (chained : sealRecords serde environment.recordedAt firstWalCursor 0
        (wal.records.getLast?.map fun record => record.recordSha256) decisions = .ok records)
      (isLast : records.getLast? = some last)
      (isLine : line = serde.walBatchRecord.toVec (SegmentedRealtimeWal.batchOf serde
        firstWalCursor last.walCursor records))
      (ensured : ensureSegment serde environment.createdAt wal directory firstWalCursor
        recordBytes = .ok target) :
      AppendResult serde environment wal directory decisions (.ok records)
        (wal.appended serde environment.indexWrites
          (writeBatch .completes directory target line) target line.length firstWalCursor
          last.walCursor records).1
        (wal.appended serde environment.indexWrites
          (writeBatch .completes directory target line) target line.length firstWalCursor
          last.walCursor records).2

/-- Every append has one of the outcomes. -/
theorem appendDecisions_result
    (serde : Serde) (environment : AppendEnvironment) (wal : SegmentedRealtimeWal)
    (directory : WalDirectory) (decisions : List PendingDecision) :
    AppendResult serde environment wal directory decisions
      (wal.appendDecisions serde environment directory decisions).1
      (wal.appendDecisions serde environment directory decisions).2.1
      (wal.appendDecisions serde environment directory decisions).2.2 := by
  unfold SegmentedRealtimeWal.appendDecisions
  split
  · rename_i poisoned
    exact .refused _ (.poisoned poisoned)
  · rename_i healthy
    split
    · rename_i empty
      exact .refused _ (.empty (isEmpty_iff.mp empty))
    · rename_i filled
      have positive : 0 < decisions.length :=
        length_pos_iff.mpr fun empty => filled (by rw [empty]; rfl)
      cases counted : checkedAdd wal.walCursor 1 with
      | none =>
        have exhausted := checkedAdd_eq_none_iff.mp counted
        exact .refused _ (.cursors (by omega))
      | some firstWalCursor =>
        obtain ⟨_, rfl⟩ := checkedAdd_eq_some_iff.mp counted
        dsimp only
        cases chained : sealRecords serde environment.recordedAt (wal.walCursor + 1) 0
            (wal.records.getLast?.map fun record => record.recordSha256) decisions with
        | error cause =>
          refine .refused _ ?_
          rcases sealRecords_error chained with ⟨rfl, bad, mem, malformed⟩ | ⟨rfl, large⟩
          · exact .invalid mem malformed
          · exact .cursors (by omega)
        | ok records =>
          dsimp only
          cases isLast : records.getLast? with
          | none =>
            refine .refused _ (.empty ?_)
            rw [getLast?_eq_none_iff] at isLast
            subst isLast
            cases decisions with
            | nil => rfl
            | cons decision decisions =>
              obtain ⟨_, _, _, _, never⟩ := sealRecords_cons_ok_iff.mp chained
              cases never
          | some last =>
            dsimp only
            cases ensured : ensureSegment serde environment.createdAt wal directory
                (wal.walCursor + 1) ((serde.walBatchRecord.toVec
                  (SegmentedRealtimeWal.batchOf serde (wal.walCursor + 1) last.walCursor
                    records)).length + 1) with
            | error cause => exact .unprepared _ (ensureSegment_error ensured decisions)
            | ok target =>
              cases completes : environment.write with
              | stops created written => exact .stopped _ _ _ completes ensured
              | completes =>
                exact .persisted (not_eq_true _ ▸ healthy) completes counted
                  chained isLast rfl ensured

/-- A directory with more bytes than another: what verifies of the one is read
first when the other is read. -/
structure DirectoryGrows
    (serde : Serde) (scope : String × String) (before after : List SegmentFile) : Prop where
  sorted : SortedSegments after
  grows : ∀ scan later, Scanned serde scope before scan → Scanned serde scope after later →
    LogGrows scan.log later.log

theorem DirectoryGrows.refl (sorted : SortedSegments segments) :
    DirectoryGrows serde scope segments segments := by
  refine ⟨sorted, ?_⟩
  intro scan later scanned again
  rw [scanned.unique again]
  exact LogGrows.refl _

/-- Wherever the writes of a batch stop, the log before them stays readable or
nothing is. -/
theorem writeBatch_grows (held : WalHeld serde wal directory.segments)
    (ensured : ensureSegment serde createdAt wal directory firstWalCursor recordBytes = .ok target)
    (outcome : WriteOutcome)
    (line : Bytes) :
    DirectoryGrows serde (wal.streamId, wal.configRevision) directory.segments
      (writeBatch outcome directory target line).segments := by
  obtain ⟨scan, scanned, _, _, sameSegment⟩ := held.scanned
  rcases ensureSegment_cases held ensured with ⟨front, file, segments, rfl⟩ | ⟨_, rfl⟩
  · obtain ⟨_, cursorIndex⟩ := directory
    subst segments
    have appended : ∀ bytes, DirectoryGrows serde (wal.streamId, wal.configRevision)
        (front ++ [file])
        (WalDirectory.append ⟨front ++ [file], cursorIndex⟩ file.name bytes).segments := by
      intro bytes
      rw [append_last held.sorted]
      exact ⟨sorted_replaceLast held.sorted _, fun _ _ before after =>
        before.grows_of_append after⟩
    cases outcome with
    | completes | stops created written => exact appended _
  · have createdFile : ∀ bytes, DirectoryGrows serde (wal.streamId, wal.configRevision)
        directory.segments
        (directory.create ⟨⟨wal.currentSegmentId + 1, firstWalCursor⟩, bytes⟩).segments := by
      intro bytes
      refine ⟨sorted_create held.sorted ?_, fun _ _ before after => before.grows_of_create after⟩
      intro other mem
      have bound := scanned.fits.newest other mem
      rw [sameSegment] at bound
      exact Nat.lt_succ_of_le bound
    cases outcome with
    | completes => exact createdFile _
    | stops created written =>
      cases created with
      | true => exact createdFile _
      | false => exact DirectoryGrows.refl held.sorted

end MarketCow.Realtime
