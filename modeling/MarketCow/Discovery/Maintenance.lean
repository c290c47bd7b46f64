import MarketCow.Discovery.Invariants

/-!
# Maintenance keeps the invariants

Moving the history into the index, retiring markets and opening the files leave a
sound writer too.
-/

namespace MarketCow.Discovery

open Library Option
open TreeMap (getElem?_empty getElem?_filterKeys getElem?_map sum_empty)

section Maintenance

variable {externals : Externals} {writer : Writer} {stop : Option Stop}

/-! ## Bounded history -/

variable (maximumBytes : Nat)

/-- A history that begins with the last event of the log. -/
theorem historySound_migrateIndex
    (sound : WriterSound externals writer) (moved : migrationTail writer = .ok tail) :
    ∃ history, (migrateIndex writer.index maximumBytes tail).metadata.history = some history ∧
      history.boundedHistoryBytes = maximumBytes ∧
      HistorySound history (migrateIndex writer.index maximumBytes tail) := by
  refine ⟨_, rfl, rfl, ?_⟩
  unfold migrationTail at moved
  by_cases start : writer.index.metadata.latestCursor = 0
  · rw [if_pos start] at moved
    obtain ⟨_, blank, same⟩ := bind_ok.mp moved
    cases same
    have facts := ensure_ok.mp blank
    simp only [and_eq_true, beq_iff_eq] at facts
    obtain ⟨⟨⟨size, noBooks⟩, _⟩, noRecoveries⟩ := facts
    unfold migrateIndex
    refine ⟨?_, ?_, ?_, ?_, ?_⟩
    · dsimp only
      omega
    · intro cursor
      dsimp only
      rw [getElem?_empty]
      constructor
      · rintro ⟨_, never⟩
        cases never
      · intro inside
        omega
    · intro cursor row there
      rw [getElem?_empty] at there
      cases there
    · exact sum_empty _
    · intro _
      refine ⟨size, noBooks, ?_⟩
      rw [isEmpty_of_table sound.recoveries]
      exact noRecoveries
  · rw [if_neg start] at moved
    obtain ⟨key, small, row, found, moved⟩ := bind₂_ok.mp moved
    obtain ⟨_, length, _, hash, moved⟩ := bind₂_ok.mp moved
    cases moved
    have sameLength := beq_iff_eq.mp (ensure_ok.mp length)
    have sameHash := beq_iff_eq.mp (ensure_ok.mp hash)
    unfold migrateIndex
    refine ⟨?_, ?_, ?_, ?_, ?_⟩
    · dsimp only
      omega
    · intro cursor
      dsimp only
      rw [TreeMap.getElem?_insert_eq, getElem?_empty]
      split
      · rename_i same
        constructor
        · intro _
          omega
        · intro _
          exact ⟨_, rfl⟩
      · rename_i ne
        constructor
        · rintro ⟨_, never⟩
          cases never
        · intro inside
          omega
    · intro cursor other there
      rw [TreeMap.getElem?_insert_eq, getElem?_empty] at there
      split at there
      · cases there
        exact sameHash
      · cases there
    · unfold recentBytes
      rw [TreeMap.sum_insert, TreeMap.erase_of_getElem?_eq_none getElem?_empty, sum_empty]
      exact sameLength
    · intro never
      exact absurd never start

theorem held_enableBoundedHistory (pages : DatabasePages) (held : writer.Held externals) :
    Outcome.Held externals (enableBoundedHistory pages stop maximumBytes writer) := by
  unfold enableBoundedHistory
  split
  · split
    · split
      · exact held
      · exact held
    · refine Outcome.held_attempt held ?_
      intro tail moved
      refine Outcome.held_attempt held ?_
      intro maximum computed
      rw [if_pos (maximumPages_lt computed)]
      split
      · exact held
      · have sound := held.sound
        obtain ⟨history, isHistory, bytes, historySound⟩ :=
          historySound_migrateIndex maximumBytes sound moved
        refine ⟨⟨⟨⟨sound.files.index.schema, sound.files.index.gaps, sound.files.index.cursor,
          sound.files.index.gapCount, sound.files.index.recovery, sound.files.index.lifecycle,
          sound.files.index.book, sound.files.index.names⟩, ?_⟩, sound.positive, ?_,
          sound.recoveries, sound.models, sound.health, sound.bound, sound.names, nofun⟩, ?_⟩
        · unfold EventsSound
          rw [isHistory]
          exact historySound
        · change some maximumBytes =
            (migrateIndex writer.index maximumBytes tail).metadata.history.map
              HistoryMetadata.boundedHistoryBytes
          rw [isHistory, map_some, bytes]
        · intro usable
          have clean := held.clean usable
          exact ⟨clean.usable, nofun, clean.noScratch⟩
  · exact held

/-! ## Retirement -/

variable {after : Nat} {before index : Index}

/-- What the retired markets change in the index. -/
theorem retireMarket_frame
    (retired : retireMarket externals tokenMarkets after before entry = .ok index) :
    index =
      { before with
        coldMarketCatalog := index.coldMarketCatalog
        coldMarketEvidence := index.coldMarketEvidence } := by
  unfold retireMarket at retired
  dsimp only at retired
  iterate 2 obtain ⟨_, _, retired⟩ := bind_ok.mp retired
  obtain ⟨retiredAfter, _, retired⟩ := bind_ok.mp retired
  split at retired
  · obtain ⟨_, _, retired⟩ := bind_ok.mp retired
    cases retired
    rfl
  · obtain ⟨_, _, retired⟩ := bind_ok.mp retired
    cases retired
    rfl

def ColdFrame (before after : Index) : Prop :=
  after =
    { before with
      coldMarketCatalog := after.coldMarketCatalog
      coldMarketEvidence := after.coldMarketEvidence }

theorem coldFrame_of_foldlM {records : List (String × Json)}
    (retired : records.foldlM (retireMarket externals tokenMarkets after) before = .ok index) :
    ColdFrame before index := by
  refine Fallible.foldlM_invariant (ColdFrame before) ?_
    (show ColdFrame before before from rfl) retired
  intro middle entry _ next kept step
  unfold ColdFrame at kept ⊢
  rw [retireMarket_frame step, kept]

variable {index : Index} {records : TreeMap String Json} {markets : TreeSet String}

/-- The index after a retirement. -/
theorem frame_of_retireTransaction
    (retired : retireTransaction externals after markets records writer = .ok index) :
    index =
      { writer.index with
        coldMarketCatalog := index.coldMarketCatalog
        coldMarketEvidence := index.coldMarketEvidence
        books := writer.index.books.filter fun token _ =>
          !(retiringTokens writer.tokenMarkets markets).contains token
        bookConfirmations := writer.index.bookConfirmations.filter fun token =>
          !(retiringTokens writer.tokenMarkets markets).contains token
        sourceTokenRecoveries := writer.index.sourceTokenRecoveries.filter fun token _ =>
          !(retiringTokens writer.tokenMarkets markets).contains token
        metadata :=
          { writer.index.metadata.withHealth (writer.health.filter fun token _ =>
              !(retiringTokens writer.tokenMarkets markets).contains token) with
            unresolvedGapCount := (writer.recoveries.filter fun token _ =>
              !(retiringTokens writer.tokenMarkets markets).contains token).size } } := by
  unfold retireTransaction at retired
  obtain ⟨middle, folded, retired⟩ := bind_ok.mp retired
  have frame := coldFrame_of_foldlM folded
  cases retired
  unfold ColdFrame at frame
  unfold releaseTokens
  rw [frame]

theorem TableOf.filterKeys (same : TableOf externals table models) (keep : String → Bool) :
    TableOf externals (table.filter fun token _ => keep token)
      (models.filter fun token _ => keep token) := by
  intro token
  rw [getElem?_filterKeys, getElem?_filterKeys]
  split
  · exact same token
  · rfl

theorem sound_retireMemory (sound : WriterSound externals writer)
    (retired : retireTransaction externals after markets records writer = .ok index) :
    WriterSound externals (retireMemory markets index writer) := by
  have frame := frame_of_retireTransaction retired
  generalize kept : (fun token =>
    !(retiringTokens writer.tokenMarkets markets).contains token) = keep at frame
  have keeps : ∀ token,
      (!(retiringTokens writer.tokenMarkets markets).contains token) = keep token :=
    fun token => congrFun kept token
  simp only [keeps] at frame
  have metadata := congrArg Index.metadata frame
  have books := congrArg Index.books frame
  have recoveries := congrArg Index.sourceTokenRecoveries frame
  have lifecycle := congrArg Index.marketLifecycle frame
  have gaps := congrArg Index.unresolvedGaps frame
  have recent := congrArg Index.recentEvents frame
  have offsets := congrArg Index.eventOffsets frame
  have table := TableOf.filterKeys sound.recoveries keep
  unfold retireMemory
  simp only [keeps]
  have bookKept : ∀ (token : String) row, index.books[token]? = some row →
      keep token = true ∧ writer.index.books[token]? = some row := by
    intro token row there
    rw [books] at there
    rw [getElem?_filterKeys] at there
    split at there
    · rename_i stays
      exact ⟨stays, there⟩
    · cases there
  refine ⟨⟨⟨?_, ?_, ?_, ?_, ?_, ?_, ?_, ?_⟩, ?_⟩, sound.positive, ?_, ?_, ?_, ?_, ?_, ?_, ?_⟩
  · dsimp only
    rw [metadata]
    exact sound.files.index.schema
  · dsimp only
    rw [gaps]
    exact sound.files.index.gaps
  · dsimp only
    rw [metadata]
    exact sound.files.index.cursor
  · dsimp only
    rw [metadata, recoveries]
    exact table.size.symm
  · intro token row there
    rw [recoveries] at there
    rw [getElem?_filterKeys] at there
    split at there
    · exact sound.files.index.recovery token row there
    · cases there
  · dsimp only
    rw [lifecycle]
    exact sound.files.index.lifecycle
  · intro token row there
    exact sound.files.index.book token row (bookKept token row there).2
  · intro token row there
    exact sound.files.index.names token row (bookKept token row there).2
  · have events := sound.files.events
    unfold EventsSound at events ⊢
    rw [metadata]
    dsimp only [Metadata.withHealth]
    unfold Writer.index
    cases mode : writer.files.index.metadata.history with
    | none =>
      rw [mode] at events
      refine ⟨?_, ?_, ?_, ?_, ?_, ?_⟩
      · rw [metadata]
        exact events.size
      · rw [metadata, offsets]
        exact events.rows
      · rw [metadata, offsets]
        exact events.keys
      · rw [metadata, offsets]
        exact events.within
      · rw [offsets]
        exact events.hash
      · rw [metadata, offsets]
        exact events.last
    | some history =>
      rw [mode] at events
      refine ⟨?_, ?_, ?_, ?_, ?_⟩
      · rw [metadata]
        exact events.floor
      · rw [metadata, recent]
        exact events.rows
      · rw [recent]
        exact events.hash
      · rw [recent]
        exact events.bytes
      · rw [metadata, books, recoveries]
        intro start
        obtain ⟨size, noBooks, noRecoveries⟩ := events.blank start
        refine ⟨size, ?_, ?_⟩
        · rw [isEmpty_iff_forall] at noBooks ⊢
          intro token
          rw [getElem?_filterKeys]
          split
          · exact noBooks token
          · rfl
        · rw [isEmpty_iff_forall] at noRecoveries ⊢
          intro token
          rw [getElem?_filterKeys]
          split
          · exact noRecoveries token
          · rfl
  · unfold Writer.index
    rw [metadata]
    exact sound.limit
  · intro token
    unfold Writer.index
    rw [recoveries]
    exact table token
  · intro token model there
    rw [getElem?_filterKeys] at there
    split at there
    · exact sound.models token model there
    · cases there
  · intro token
    unfold Writer.index
    rw [books]
    rw [getElem?_filterKeys, getElem?_filterKeys]
    split
    · exact sound.health token
    · rfl
  · intro token row there
    obtain ⟨stays, before⟩ := bookKept token row there
    rw [getElem?_filterKeys, if_pos stays]
    exact sound.bound token row before
  · intro token market there
    rw [getElem?_filterKeys] at there
    split at there
    · exact sound.names token market there
    · cases there
  · intro unbounded row there
    unfold Writer.cursor Writer.index at there
    rw [metadata, offsets] at there
    exact sound.tail unbounded row there

theorem held_retireCatalogMarkets
    (after : Nat) (markets : TreeSet String) (records : TreeMap String Json)
    (held : writer.Held externals) :
    Outcome.Held externals (retireCatalogMarkets externals stop after markets records writer) := by
  refine Outcome.held_attempt held ?_
  intro value checked
  refine Outcome.held_attempt held.poison ?_
  intro index retired
  have sound := sound_retireMemory (held.sound.poisoned true) retired
  have usable : writer.poisoned = false := by
    unfold checkRetirement at checked
    obtain ⟨_, boundary, _⟩ := bind_ok.mp checked
    have facts := ensure_ok.mp boundary
    rw [and_eq_true, not_eq_true'] at facts
    exact facts.1
  have logEnd : (retireMemory markets index { writer with poisoned := true }).historyLimit = none →
      (retireMemory markets index { writer with poisoned := true }).files.log.length =
        (retireMemory markets index { writer with poisoned := true }).index.metadata.eventLogSize := by
    intro unbounded
    have metadata := congrArg Index.metadata (frame_of_retireTransaction retired)
    have before := (held.clean usable).logEnd unbounded
    unfold retireMemory Writer.index
    rw [metadata]
    exact before
  have announced := announced_of_writeIndexManifest stop
    (retireMemory markets index { writer with poisoned := true })
  have ended := held_of_announced sound logEnd rfl announced
  cases stop with
  | none => exact ended
  | some place =>
    cases place with
    | lock | committing => exact held.poison
    | budget | writing kept | manifest scratch | renamed => exact ended

/-! ## Opening -/

variable {row : BookRow}

theorem marketId_of_healthOf (healthy : healthOf externals row = some summary) :
    summary.marketId = row.marketId := by
  unfold healthOf at healthy
  obtain ⟨book, _, read⟩ := bind_eq_some_iff.mp healthy
  cases result : BookHealth.fromBook externals row.marketId book with
  | error cause =>
    rw [result] at read
    cases read
  | ok value =>
    rw [result] at read
    obtain rfl : value = summary := some.inj read
    unfold BookHealth.fromBook at result
    iterate 2 obtain ⟨_, _, result⟩ := bind_ok.mp result
    cases result
    rfl

theorem exists_healthOf
    {token : String} (sound : IndexSound externals index) (there : index.books[token]? = some row) :
    ∃ summary, healthOf externals row = some summary := by
  obtain ⟨book, stored, healthy⟩ := sound.book token row there
  exact ⟨_, healthOf_row stored rfl (Fallible.eq_ok_get healthy)⟩

/-- The writer that opening makes is held. -/
theorem Opened.held {files : Files} {maximumBatchBytes : Nat} {models : TreeMap String Json}
    (sound : FilesSound externals files) (stored : Models externals files.index models)
    (openable : Openable externals maximumBatchBytes files models)
    (opened : Opened externals maximumBatchBytes files models writer) :
    writer.Held externals := by
  have filesSound := sound.reconcile stored writer.terminalMarkets false
  rw [← opened.written] at filesSound
  have written : writer.index = files.index.reconcile writer.terminalMarkets models := by
    unfold Writer.index
    rw [opened.written]
  have frame := reconcile_frame files.index models writer.terminalMarkets
  have books : writer.index.books = files.index.books := by rw [written, frame]
  have history : writer.index.metadata.history = files.index.metadata.history := by
    rw [written, frame]
  have size : writer.index.metadata.eventLogSize = files.index.metadata.eventLogSize := by
    rw [written, frame]
  have offsets : writer.index.eventOffsets = files.index.eventOffsets := by rw [written, frame]
  have cursor : writer.cursor = files.index.metadata.latestCursor := by
    unfold Writer.cursor
    rw [written, frame]
  have log : writer.files.log = files.log := by rw [opened.written]
  have noHistory : writer.historyLimit = none → files.index.metadata.history = none := by
    intro unbounded
    rw [opened.historyLimit] at unbounded
    exact map_eq_none_iff.mp unbounded
  obtain ⟨table, _⟩ := reconcile_table writer.terminalMarkets stored.table
    (sound.index.gapCount.trans stored.table.size)
  have owner : ∀ (token : String) market, writer.tokenMarkets[token]? = some market →
      ∃ row, writer.index.books[token]? = some row ∧ row.marketId = market := by
    intro token market there
    rw [opened.tokenMarkets, getElem?_map] at there
    obtain ⟨summary, found, rfl⟩ := map_eq_some_iff.mp there
    rw [opened.health token] at found
    obtain ⟨row, present, healthy⟩ := bind_eq_some_iff.mp found
    rw [books]
    exact ⟨row, present, (marketId_of_healthOf healthy).symm⟩
  refine ⟨⟨filesSound, ?_, ?_, ?_, ?_, ?_, ?_, ?_, ?_⟩, fun _ => ⟨opened.usable, ?_, ?_⟩⟩
  · rw [opened.budget]
    exact openable.positive
  · rw [opened.historyLimit, history]
  · intro token
    rw [written, opened.recoveries]
    exact table token
  · intro token model there
    rw [opened.recoveries] at there
    unfold liveRecoveries at there
    rw [getElem?_filterValues, filter_eq_some_iff] at there
    exact stored.sound token model there.1
  · intro token
    rw [books]
    exact opened.health token
  · intro token row there
    rw [books] at there
    obtain ⟨summary, healthy⟩ := exists_healthOf sound.index there
    rw [opened.tokenMarkets, getElem?_map, opened.health token, there,
      bind_some, healthy, map_some, marketId_of_healthOf healthy]
  · intro token market there
    obtain ⟨row, present, rfl⟩ := owner token market there
    exact filesSound.index.names token row present
  · intro unbounded row there
    rw [offsets, cursor] at there
    rw [opened.budget]
    exact (openable.logTail (noHistory unbounded)).2 row there
  · intro unbounded
    rw [log, size]
    exact (openable.logTail (noHistory unbounded)).1
  · rw [opened.written]

end Maintenance

end MarketCow.Discovery
