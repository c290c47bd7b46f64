import MarketCow.Discovery.History

/-!
# The writer after a commit

The index of a finished transaction is sound, and so is the writer that a commit
leaves, however it ends.
-/

namespace MarketCow.Discovery

open Library List
open List (length)

/-! ## The log -/

/-- More bytes at the end of a log do not matter to the index. -/
theorem LogSound.append (sound : LogSound log index) (more : Bytes) :
    LogSound (log ++ more) index := by
  refine ⟨?_, sound.rows, sound.keys, sound.within, ?_, sound.last⟩
  · rw [length_append]
    exact sound.size.trans (Nat.le_add_right _ _)
  · intro cursor row there
    have inside := (sound.within cursor row there).trans sound.size
    rw [drop_append_of_le_length (by omega), take_append_of_le_length (by rw [length_drop]; omega)]
    exact sound.hash cursor row there

/-- The line at a place of a text of lines. -/
theorem take_drop_flatten
    {lines : List Bytes} {place : Nat} {line : Bytes} (there : lines[place]? = some line) :
    ((lines.flatten).drop ((lines.take place).map length).sum).take line.length = line := by
  induction lines generalizing place with
  | nil => simp at there
  | cons first lines ih =>
    cases place with
    | zero =>
      cases there
      simp
    | succ place =>
      rw [getElem?_cons_succ] at there
      rw [take_succ_cons, map_cons, sum_cons, flatten_cons, ← drop_drop, drop_left, ih there]

theorem length_flatten_eq (lines : List Bytes) :
    lines.flatten.length = (lines.map length).sum := length_flatten

/-! ## The end of the transaction -/

section Finish

variable {externals : Externals} {writer : Writer} {input : CommitInput} {session : Session}
  {recoveries : TreeMap String Json} {index : Index}

/-- The index of a finished transaction. -/
structure Finished
    (externals : Externals) (writer : Writer) (input : CommitInput)
    (recoveries : TreeMap String Json) (session : Session) (index : Index) : Prop where
  frame : index =
    { session.index with
      sourceTokenRecoveries :=
        storeRecoveries externals writer.recoveries recoveries session.index.sourceTokenRecoveries
      recentEvents := index.recentEvents
      marketStreams := index.marketStreams
      marketGroups := index.marketGroups
      marketNativeGroups := index.marketNativeGroups
      marketNativeStreams := index.marketNativeStreams
      metadata := index.metadata }
  metadata : index.metadata =
    { session.index.metadata.withHealth session.health with
      unresolvedGapCount := recoveries.size
      latestCursor := input.cursor + input.events.length
      eventLogSize := index.metadata.eventLogSize
      history := index.metadata.history }
  unbounded : writer.historyLimit = none →
    index.metadata.eventLogSize = session.offset ∧
      index.metadata.history = session.index.metadata.history ∧
      index.recentEvents = session.index.recentEvents
  bounded : ∀ limit, writer.historyLimit = some limit →
    index.metadata.eventLogSize = session.index.metadata.eventLogSize ∧
      ∃ history, session.index.metadata.history = some history ∧
        ∀ last, Recent history.historyFloorCursor last
            (history.recentEventBytes + (input.lines.map length).sum)
            session.index.recentEvents →
          ∃ next, index.metadata.history = some next ∧
            next.boundedHistoryBytes = history.boundedHistoryBytes ∧
            Recent next.historyFloorCursor last next.recentEventBytes index.recentEvents ∧
            history.historyFloorCursor ≤ next.historyFloorCursor

theorem historyFrame_of_boundHistory {limit added : Nat} {before after : Index}
    (bounded : boundHistory history limit added before = .ok after) :
    ∃ next, HistoryFrame next before after := by
  unfold boundHistory at bounded
  obtain ⟨⟨remaining, pruned⟩, _, done⟩ := bind_ok.mp bounded
  cases pruned with
  | none =>
    cases done
    exact ⟨{ history with recentEventBytes := remaining }, rfl⟩
  | some prunedThrough =>
    cases done
    exact ⟨{ history with
      recentEventBytes := remaining
      historyFloorCursor := prunedThrough }, rfl⟩

theorem finished_of_finishTransaction
    (done : finishTransaction externals writer input recoveries session = .ok index) :
    Finished externals writer input recoveries session index := by
  unfold finishTransaction at done
  obtain ⟨grouped, stored, done⟩ := bind_ok.mp done
  have frame := groupsFrame_of_foldlM stored
  have sameTable := congrArg Index.sourceTokenRecoveries frame
  have sameMetadata := congrArg Index.metadata frame
  have sameRecent := congrArg Index.recentEvents frame
  obtain ⟨last, mode, done⟩ := bind_ok.mp done
  cases done
  unfold storeBoundary at mode
  cases limit : writer.historyLimit with
  | none =>
    rw [limit] at mode
    cases mode
    refine ⟨?_, ?_, ?_, ?_⟩
    · dsimp only
      rw [frame]
    · dsimp only [Metadata.withHealth]
      rw [sameMetadata]
    · intro _
      dsimp only [Metadata.withHealth]
      rw [sameMetadata, sameRecent]
      exact ⟨rfl, rfl, rfl⟩
    · intro other never
      rw [limit] at never
      cases never
  | some bytes =>
    rw [limit] at mode
    obtain ⟨history, isHistory, bounded⟩ := bind_ok.mp mode
    have there := need_ok.mp isHistory
    rw [sameMetadata] at there
    obtain ⟨next, boundFrame⟩ := historyFrame_of_boundHistory bounded
    unfold HistoryFrame at boundFrame
    have boundMetadata := congrArg Index.metadata boundFrame
    refine ⟨?_, ?_, ?_, ?_⟩
    · dsimp only
      rw [boundFrame, frame]
    · dsimp only [Metadata.withHealth]
      rw [boundMetadata, sameMetadata]
    · intro never
      rw [limit] at never
      cases never
    · intro other _
      dsimp only [Metadata.withHealth]
      refine ⟨?_, history, there, ?_⟩
      · rw [boundMetadata, sameMetadata]
      · intro finish recent
        rw [← sameRecent] at recent
        obtain ⟨following, followingFrame, sameLimit, rest, above⟩ :=
          boundHistory_spec bounded recent
        have followingMetadata := congrArg Index.metadata followingFrame
        refine ⟨following, ?_, sameLimit, rest, above⟩
        rw [followingMetadata]

end Finish

/-! ## The committed writer -/

section Committed

variable {externals : Externals} {writer : Writer} {input : CommitInput} {session : Session}
  {recoveries : TreeMap String Json} {index : Index}

theorem CommitSound.length_eq (inputSound : CommitSound externals writer input) :
    input.lines.length = input.events.length := by
  obtain ⟨_, batch⟩ := inputSound.batch
  rw [batch.lines_eq, length_map]

theorem CommitSound.length_pos (inputSound : CommitSound externals writer input) :
    0 < input.events.length := by
  obtain ⟨_, batch⟩ := inputSound.batch
  exact length_pos_of_ne_nil batch.some_events

section

variable (inputSound : CommitSound externals writer input)
include inputSound

/-- The events of a stored batch are as the recoveries need them. -/
theorem eventBound_of_progress
    (progress : Progress externals writer input input.events.length session) :
    ∀ event ∈ input.events, EventBound writer.tokenMarkets event := by
  obtain ⟨after, batch⟩ := inputSound.batch
  intro event mem
  obtain ⟨place, there⟩ := getElem?_of_mem mem
  obtain ⟨inside, _⟩ := List.getElem?_eq_some_iff.mp there
  have eventSound := batch.event place event there
  refine ⟨?_, ?_⟩
  · obtain ⟨value, found⟩ := progress.cursors place event inside there
    have same := eventSound.cursor
    rw [found] at same
    have sum := (checkedAdd_eq_some_iff.mp same.symm).1
    exact ⟨value, found, by omega⟩
  · intro recovers
    refine ⟨eventSound.recovery recovers, ?_⟩
    cases terminal : input.terminal with
    | false => exact inputSound.bound terminal event mem
    | true =>
      rw [terminal] at eventSound
      have type := (eventSound.lifecycle rfl).1
      unfold isTokenRecovery at recovers
      rw [type] at recovers
      cases recovers

theorem Finished.latestCursor
    (finished : Finished externals writer input recoveries session index) :
    index.metadata.latestCursor = writer.cursor + input.events.length := by
  rw [finished.metadata, inputSound.cursor]

section

variable (progress : Progress externals writer input input.events.length session)
include progress

/-- The log of a commit is sound for its index. -/
theorem logSound_of_finished (finished : Finished externals writer input recoveries session index)
    (unbounded : writer.historyLimit = none) (before : LogSound writer.files.log writer.index) :
    LogSound session.log index ∧ session.log.length = index.metadata.eventLogSize := by
  have cursor := finished.latestCursor inputSound
  have offsets := congrArg Index.eventOffsets finished.frame
  have size := (finished.unbounded unbounded).1
  have log := progress.log
  have positive := inputSound.length_pos
  have count := inputSound.length_eq
  have notBounded : ¬writer.historyLimit.isSome = true := by
    rw [unbounded]
    exact Bool.false_ne_true
  have whole : input.lines.take input.events.length = input.lines := take_of_length_le (by omega)
  have offset := progress.offset unbounded
  unfold lineOffset at offset
  rw [whole] at log offset
  rw [if_neg notBounded] at log
  rw [offset] at size
  have oldSize : writer.index.metadata.eventLogSize ≤ writer.files.log.length := before.size
  have rowCases : ∀ (key : Nat) row, session.index.eventOffsets[key]? = some row →
      (key ≤ writer.cursor ∧ writer.index.eventOffsets[key]? = some row) ∨
        ∃ place line, key = writer.cursor + (place + 1) ∧ input.lines[place]? = some line ∧
          IsOffsetRow (lineOffset writer input place) line row := by
    intro key row there
    by_cases new : writer.cursor < key ∧ key ≤ writer.cursor + input.events.length
    · obtain ⟨place, rfl⟩ : ∃ place, key = writer.cursor + (place + 1) :=
        ⟨key - writer.cursor - 1, by omega⟩
      obtain ⟨line, lineThere⟩ : ∃ line, input.lines[place]? = some line :=
        ⟨_, getElem?_eq_getElem (by omega)⟩
      obtain ⟨other, otherThere, isRow⟩ :=
        progress.newOffsets unbounded place line (by omega) lineThere
      obtain rfl := some.inj (there.symm.trans otherThere)
      exact .inr ⟨place, line, rfl, lineThere, isRow⟩
    · rw [progress.oldOffsets key fun _ beyond => by omega] at there
      exact .inl ⟨(before.keys key row there).2, there⟩
  have lineFits : ∀ (place : Nat) line, input.lines[place]? = some line →
      ((input.lines.take place).map length).sum + line.length ≤
        (input.lines.map length).sum := by
    intro place line there
    have split : ((input.lines.take (place + 1) ++ input.lines.drop (place + 1)).map
        length).sum = (input.lines.map length).sum := by
      rw [take_append_drop]
    rw [map_append, sum_append, take_add_one, there, map_append,
      sum_append, Option.toList_some, map_singleton, sum_singleton] at split
    omega
  refine ⟨⟨?_, ?_, ?_, ?_, ?_, ?_⟩, ?_⟩
  · rw [log, size, length_append, length_flatten_eq]
  · intro key above below
    rw [offsets]
    rw [cursor] at below
    by_cases old : key ≤ writer.cursor
    · obtain ⟨row, there⟩ := before.rows key above old
      refine ⟨row, ?_⟩
      rw [progress.oldOffsets key fun _ beyond => by omega]
      exact there
    · obtain ⟨place, rfl⟩ : ∃ place, key = writer.cursor + (place + 1) :=
        ⟨key - writer.cursor - 1, by omega⟩
      obtain ⟨row, there, _⟩ := progress.newOffsets unbounded place input.lines[place] (by omega)
        (getElem?_eq_getElem (by omega))
      exact ⟨row, there⟩
  · intro key row there
    rw [offsets] at there
    rw [cursor]
    rcases rowCases key row there with ⟨_, old⟩ | ⟨place, line, rfl, lineThere, _⟩
    · have bounds := before.keys key row old
      have sameCursor : writer.index.metadata.latestCursor = writer.cursor := rfl
      omega
    · obtain ⟨inside, _⟩ := List.getElem?_eq_some_iff.mp lineThere
      omega
  · intro key row there
    rw [offsets] at there
    rw [size]
    rcases rowCases key row there with ⟨_, old⟩ | ⟨place, line, rfl, lineThere, isRow⟩
    · have inside := before.within key row old
      omega
    · have fits := lineFits place line lineThere
      rw [isRow.byteOffset, isRow.byteLength]
      unfold lineOffset
      omega
  · intro key row there
    rw [offsets] at there
    rw [log]
    rcases rowCases key row there with ⟨_, old⟩ | ⟨place, line, rfl, lineThere, isRow⟩
    · exact (before.append input.lines.flatten).hash key row old
    · rw [isRow.byteOffset, isRow.byteLength, isRow.lineSha256]
      unfold lineOffset
      rw [← drop_drop, drop_left, take_drop_flatten lineThere]
  · intro row there
    rw [offsets, cursor] at there
    rw [size]
    obtain ⟨last, same⟩ : ∃ last, input.events.length = last + 1 :=
      ⟨input.events.length - 1, by omega⟩
    rw [same] at there
    obtain ⟨other, otherThere, isRow⟩ := progress.newOffsets unbounded last input.lines[last]
      (by omega) (getElem?_eq_getElem (by omega))
    obtain rfl := some.inj (there.symm.trans otherThere)
    have lastThere : input.lines[last]? = some input.lines[last] := getElem?_eq_getElem (by omega)
    have step : lineOffset writer input (last + 1) =
        lineOffset writer input last + input.lines[last].length := lineOffset_succ lastThere
    rw [isRow.byteOffset, isRow.byteLength, ← step, ← same]
    unfold lineOffset
    rw [whole]
  · rw [log, size, length_append, length_flatten_eq]

/-- The stored events after those of a batch. -/
theorem recent_of_progress
    (isBounded : writer.historyLimit.isSome = true) (before : HistorySound history writer.index) :
    Recent history.historyFloorCursor (writer.cursor + input.events.length)
      (history.recentEventBytes + (input.lines.map length).sum)
      session.index.recentEvents := by
  have count := inputSound.length_eq
  have sameCursor : writer.index.metadata.latestCursor = writer.cursor := rfl
  have floor := before.floor
  have newRow : ∀ place, place < input.events.length →
      ∃ line, input.lines[place]? = some line ∧
        session.index.recentEvents[writer.cursor + (place + 1)]? = some (lineRow line) := by
    intro place inside
    have there : input.lines[place]? = some input.lines[place] := getElem?_eq_getElem (by omega)
    exact ⟨_, there, progress.newRecent isBounded place _ inside there⟩
  refine ⟨by omega, ?_, ?_, ?_⟩
  · intro cursor
    by_cases new : writer.cursor < cursor ∧ cursor ≤ writer.cursor + input.events.length
    · obtain ⟨place, rfl⟩ : ∃ place, cursor = writer.cursor + (place + 1) :=
        ⟨cursor - writer.cursor - 1, by omega⟩
      obtain ⟨line, _, there⟩ := newRow place (by omega)
      constructor
      · intro _
        omega
      · intro _
        exact ⟨_, there⟩
    · rw [progress.oldRecent cursor fun _ beyond => by omega, before.rows cursor]
      omega
  · intro cursor row there
    by_cases new : writer.cursor < cursor ∧ cursor ≤ writer.cursor + input.events.length
    · obtain ⟨place, rfl⟩ : ∃ place, cursor = writer.cursor + (place + 1) :=
        ⟨cursor - writer.cursor - 1, by omega⟩
      obtain ⟨line, _, stored⟩ := newRow place (by omega)
      obtain rfl := some.inj (there.symm.trans stored)
      rfl
    · rw [progress.oldRecent cursor fun _ beyond => by omega] at there
      exact before.hash cursor row there
  · rw [progress.bytes isBounded, before.bytes, take_of_length_le (by omega)]

end

/-- The events of a commit are stored soundly. -/
theorem eventsSound_of_finished (sound : WriterSound externals writer)
    (progress : Progress externals writer input input.events.length session)
    (finished : Finished externals writer input recoveries session index)
    (manifest : Option Manifest) (pending : Bool) :
    EventsSound { log := session.log, index := index, manifest := manifest, pending := pending } ∧
      writer.historyLimit = index.metadata.history.map HistoryMetadata.boundedHistoryBytes ∧
      (writer.historyLimit = none → session.log.length = index.metadata.eventLogSize) := by
  have events := sound.files.events
  have limit := sound.limit
  have cursor := finished.latestCursor inputSound
  have positive := inputSound.length_pos
  have sameMetadata : session.index.metadata = writer.index.metadata := by rw [progress.frame]
  unfold EventsSound at events ⊢
  dsimp only
  cases mode : writer.files.index.metadata.history with
  | none =>
    have unbounded : writer.historyLimit = none := by
      rw [limit]
      unfold Writer.index
      rw [mode]
      rfl
    rw [mode] at events
    dsimp only at events
    obtain ⟨_, sameHistory, _⟩ := finished.unbounded unbounded
    have noHistory : index.metadata.history = none := by
      rw [sameHistory, sameMetadata]
      exact mode
    obtain ⟨logSound, logEnd⟩ := logSound_of_finished inputSound progress finished unbounded events
    rw [noHistory, unbounded]
    exact ⟨logSound, rfl, fun _ => logEnd⟩
  | some history =>
    have isBounded : writer.historyLimit = some history.boundedHistoryBytes := by
      rw [limit]
      unfold Writer.index
      rw [mode]
      rfl
    rw [mode] at events
    dsimp only at events
    obtain ⟨_, before, isBefore, spec⟩ := finished.bounded _ isBounded
    rw [sameMetadata] at isBefore
    obtain rfl := some.inj (mode.symm.trans isBefore)
    have recent := recent_of_progress inputSound progress (by rw [isBounded]; rfl) events
    obtain ⟨next, isNext, sameLimit, after, _⟩ := spec _ recent
    rw [← cursor] at after
    rw [isNext, isBounded, map_some, sameLimit]
    refine ⟨⟨after.start, after.rows, after.hash, after.total, ?_⟩, rfl, nofun⟩
    intro start
    omega

end

/-- The writer after a committed transaction. -/
def committedWriter
    (writer : Writer) (session : Session) (index : Index) (recoveries : TreeMap String Json)
    (terminalMarkets : TreeSet String) : Writer :=
  { writer with
    files := { writer.files with log := session.log, index := index }
    recoveries := recoveries
    terminalMarkets := terminalMarkets
    health := session.health }

theorem sound_committedWriter
    (inputSound : CommitSound externals writer input) (sound : WriterSound externals writer)
    (progress : Progress externals writer input input.events.length session)
    (taken : nextRecoveries input.terminal input.events writer.recoveries = .ok recoveries)
    (finished : Finished externals writer input recoveries session index)
    (terminalMarkets : TreeSet String) :
    WriterSound externals (committedWriter writer session index recoveries terminalMarkets) := by
  have positive := inputSound.length_pos
  have count := inputSound.length_eq
  have cursor := finished.latestCursor inputSound
  have models : ModelsSound recoveries := ModelsSound.next sound.models sound.names
    (eventBound_of_progress inputSound progress) taken
  have beforeTable : session.index.sourceTokenRecoveries = writer.index.sourceTokenRecoveries := by
    rw [progress.frame]
  have table : TableOf externals index.sourceTokenRecoveries recoveries := by
    have same := congrArg Index.sourceTokenRecoveries finished.frame
    rw [same, beforeTable]
    exact tableOf_storeRecoveries sound.recoveries
  have gaps : index.unresolvedGaps = writer.index.unresolvedGaps := by
    rw [finished.frame, progress.frame]
  have books : index.books = session.index.books := by rw [finished.frame]
  have lifecycle : index.marketLifecycle = session.index.marketLifecycle := by rw [finished.frame]
  have schema : index.metadata.schemaVersion = writer.index.metadata.schemaVersion := by
    rw [finished.metadata, progress.frame]
    rfl
  obtain ⟨events, limit, _⟩ := eventsSound_of_finished inputSound sound progress finished
    writer.files.manifest writer.files.pending
  refine ⟨⟨⟨?_, ?_, ?_, ?_, ?_, ?_, ?_, ?_⟩, events⟩, sound.positive, limit, table, models, ?_, ?_,
    sound.names, ?_⟩
  · exact schema.trans sound.files.index.schema
  · exact gaps.trans sound.files.index.gaps
  · change index.metadata.latestCursor < 2 ^ 63
    rw [cursor]
    rcases progress.small with none | small
    · exact absurd none positive.ne'
    · exact small
  · change index.metadata.unresolvedGapCount = index.sourceTokenRecoveries.size
    rw [table.size, finished.metadata]
  · intro token row there
    have found := table token
    obtain ⟨model, present, rfl⟩ := map_eq_some_iff.mp (found.symm.trans there)
    exact ⟨model, rfl, models token model present⟩
  · intro market row there
    change index.marketLifecycle[market]? = some row at there
    rw [lifecycle] at there
    exact progress.lifecycle market row there
  · intro token row there
    change index.books[token]? = some row at there
    rw [books] at there
    exact (progress.book token row there).1
  · intro token row there
    change index.books[token]? = some row at there
    rw [books] at there
    exact sound.names token row.marketId (progress.book token row there).2
  · intro token
    change session.health[token]? = index.books[token]?.bind (healthOf externals)
    rw [books]
    exact progress.health token
  · intro token row there
    change index.books[token]? = some row at there
    rw [books] at there
    exact (progress.book token row there).2
  · -- The last line is one of the batch, whose lines fit together.
    intro unbounded row there
    change index.eventOffsets[index.metadata.latestCursor]? = some row at there
    have offsets : index.eventOffsets = session.index.eventOffsets := by rw [finished.frame]
    obtain ⟨last, same⟩ : ∃ last, input.events.length = last + 1 :=
      ⟨input.events.length - 1, by omega⟩
    rw [offsets, cursor, same] at there
    have lineThere : input.lines[last]? = some input.lines[last] := getElem?_eq_getElem (by omega)
    obtain ⟨other, otherThere, isRow⟩ := progress.newOffsets unbounded last _ (by omega) lineThere
    obtain rfl := some.inj (there.symm.trans otherThere)
    rw [isRow.byteLength]
    have mem : (input.lines[last]).length ∈ input.lines.map length :=
      mem_map_of_mem (getElem_mem _)
    exact (single_le_sum (fun _ _ => Nat.zero_le _) _ mem).trans inputSound.bytes

end Committed

end MarketCow.Discovery
