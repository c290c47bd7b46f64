import MarketCow.Discovery.Prepared

/-!
# Opening what a writer left

When the files of a writer that no commit interrupted are opened again, and which
parts of its state come back.
-/

namespace MarketCow.Discovery

open Library

/-! ## What comes back -/

/-- The number of markets with two complete books and the oldest receipt, as the
metadata counts them. -/
def Writer.healthCounts (writer : Writer) : Nat × Nat × Option Int :=
  (writer.health.size, completeMarketCount writer.health, oldestReceivedAt writer.health)

/-- A writer that holds what another one did. -/
structure SameState (before after : Writer) : Prop where
  cursor : after.cursor = before.cursor
  recoveries : after.recoveries = before.recoveries
  checkpoints : ∀ market epoch : String,
    marketCheckpoint market epoch after = marketCheckpoint market epoch before
  counts : after.healthCounts = before.healthCounts
  history : after.index.metadata.history = before.index.metadata.history
  bytes : ∀ history, after.index.metadata.history = some history →
    history.recentEventBytes = recentBytes after.index.recentEvents

section Reopening

variable (externals : Externals)

/-- The files can be opened with the same batch limit, and the state comes back. -/
def Reopens (writer : Writer) : Prop :=
  ∃ reopened,
    (openWriter externals writer.maximumBatchBytes writer.files).1 = .ok reopened ∧
      SameState writer reopened

/-- Every recovery of a writer is one that opening reads and keeps: no more than the
query loads, each within the limits of a stored recovery, and none of a closed
market. And a bounded history still holds the last event. -/
structure Restorable (writer : Writer) : Prop where
  few : writer.recoveries.size ≤ recoveryQueryLimit
  fits : ∀ (token : String) model, writer.recoveries[token]? = some model →
    Fits externals token model
  live : ∀ (token : String) model, writer.recoveries[token]? = some model →
    ∀ market, field model "market_id" = .string market → writer.index.isFenced market = false
  newest : ∀ history, writer.index.metadata.history = some history → writer.cursor ≠ 0 →
    history.historyFloorCursor < writer.cursor

variable {externals}

section Held

variable {writer : Writer}

theorem models_of_sound (sound : WriterSound externals writer) :
    Models externals writer.files.index writer.recoveries :=
  ⟨sound.recoveries, sound.models⟩

/-- A clean writer can be opened again when its recoveries can be read and its
history holds the last event. -/
theorem openable_iff (held : writer.Held externals) (usable : writer.poisoned = false) :
    Openable externals writer.maximumBatchBytes writer.files writer.recoveries ↔
      writer.recoveries.size ≤ recoveryQueryLimit ∧
        (∀ (token : String) model, writer.recoveries[token]? = some model →
          Fits externals token model) ∧
        ∀ history, writer.index.metadata.history = some history → writer.cursor ≠ 0 →
          history.historyFloorCursor < writer.cursor := by
  have sound := held.sound
  have clean := held.clean usable
  constructor
  · intro openable
    exact ⟨openable.few, openable.fits, openable.newest⟩
  · rintro ⟨few, fits, newest⟩
    refine ⟨sound.positive, few, fits, ?_, newest⟩
    intro noHistory
    have unbounded : writer.historyLimit = none := by
      rw [sound.limit]
      unfold Writer.index
      rw [noHistory]
      rfl
    exact ⟨clean.logEnd unbounded, sound.tail unbounded⟩

/-- The history of sound files accounts for its events. -/
theorem recentEventBytes_of_sound
    (sound : FilesSound externals files) (there : files.index.metadata.history = some history) :
    history.recentEventBytes = recentBytes files.index.recentEvents := by
  have events := sound.events
  unfold EventsSound at events
  rw [there] at events
  exact events.bytes.symm

/-- An opened writer holds what the one before it did, but for stale recoveries. -/
theorem sameState_iff (held : writer.Held externals) (usable : writer.poisoned = false)
    (opened : Opened externals writer.maximumBatchBytes writer.files writer.recoveries reopened) :
    SameState writer reopened ↔
      ∀ (token : String) model, writer.recoveries[token]? = some model →
        isStale reopened.terminalMarkets model = false := by
  have sound := held.sound
  have written : reopened.index =
      writer.index.reconcile reopened.terminalMarkets writer.recoveries := by
    unfold Writer.index
    rw [opened.written]
  have frame := reconcile_frame writer.index writer.recoveries reopened.terminalMarkets
  have history : reopened.index.metadata.history = writer.index.metadata.history := by
    rw [written, frame]
  have recent : reopened.index.recentEvents = writer.index.recentEvents := by rw [written, frame]
  have streams : reopened.index.marketStreams = writer.index.marketStreams := by rw [written, frame]
  have health : reopened.health = writer.health := by
    refine TreeMap.ext_getElem? fun token => ?_
    rw [opened.health token, sound.health token]
    rfl
  constructor
  · intro same
    have kept := same.recoveries
    rw [opened.recoveries] at kept
    intro token model there
    have found : (liveRecoveries reopened.terminalMarkets writer.recoveries)[token]? =
        some model := by
      rw [kept, there]
    unfold liveRecoveries at found
    rw [getElem?_filterValues, Option.filter_eq_some_iff, not_eq_true'] at found
    exact found.2
  · intro live
    refine ⟨?_, ?_, ?_, ?_, history, ?_⟩
    · unfold Writer.cursor
      rw [written, frame]
    · rw [opened.recoveries, liveRecoveries_eq_self live]
    · intro market epoch
      unfold marketCheckpoint
      rw [opened.usable, usable, streams]
    · unfold Writer.healthCounts
      rw [health]
    · intro found isFound
      rw [history] at isFound
      rw [recent]
      exact recentEventBytes_of_sound sound.files isFound

theorem isStale_eq_false_iff :
    isStale closed model = false ↔
      ∀ market, field model "market_id" = .string market → closed.contains market = false := by
  unfold isStale
  constructor
  · intro live market there
    rw [there] at live
    exact live
  · intro live
    split
    · rename_i market there
      exact live market there
    · rfl

/-- A held writer that is not poisoned comes back exactly when it is restorable. -/
theorem reopens_iff_of_held (held : writer.Held externals) (usable : writer.poisoned = false) :
    Reopens externals writer ↔ Restorable externals writer := by
  have stored := models_of_sound held.sound
  obtain ⟨opens, opened, _⟩ := openWriter_spec writer.maximumBatchBytes held.sound.files stored
  rw [openable_iff held usable] at opens
  constructor
  · rintro ⟨reopened, result, same⟩
    obtain ⟨few, fits, newest⟩ := opens.mp ⟨reopened, result⟩
    have facts := (opened reopened result).1
    have live := (sameState_iff held usable facts).mp same
    refine ⟨few, fits, ?_, newest⟩
    intro token model there market named
    exact (facts.closed market).symm.trans
      (isStale_eq_false_iff.mp (live token model there) market named)
  · intro restorable
    obtain ⟨reopened, result⟩ := opens.mpr ⟨restorable.few, restorable.fits, restorable.newest⟩
    have facts := (opened reopened result).1
    refine ⟨reopened, result, (sameState_iff held usable facts).mpr ?_⟩
    intro token model there
    apply isStale_eq_false_iff.mpr
    intro market named
    exact (facts.closed market).trans (restorable.live token model there market named)

end Held

/-- Every writer that a run reaches and no commit interrupted: opening its files
succeeds with the same state exactly when it is restorable. -/
theorem reopens_iff {files : Files} {happenings : List (Happening externals)} {writer : Writer}
    (fresh : Fresh externals files)
    (run : Run (lives externals) (.closed files) happenings (.opened writer))
    (usable : writer.poisoned = false) :
    Reopens externals writer ↔ Restorable externals writer :=
  reopens_iff_of_held (held_of_run fresh run) usable

end Reopening

/-! ## A recovery that is read back, and one that is not -/

/-- The start of a recovery for a condition. -/
def recoveryOf (conditionId : String) : StartedRecovery where
  marketId := "1"
  tokenId := "11"
  conditionId
  recoveryId := "attempt1"
  reason := "source_data_delayed"
  detectedAt := "2026-01-01T00:00:00Z"
  cursor := 1

/-- The values of the event that are printed. -/
def recoveryPrinted (conditionId : String) : List Json :=
  (recoveryOf conditionId).model :: (recoveryOf conditionId).draft.printed

/-- Externals that print the values of this event. -/
noncomputable def recoveryExternals (conditionId : String) : Externals :=
  printingExternals (recoveryPrinted conditionId) []

/-- Room for the line of the event. -/
noncomputable def recoveryBudget (conditionId : String) : Nat :=
  lineBudget (recoveryExternals conditionId) (recoveryOf conditionId)

theorem lengths_recoveryPrinted :
    ∀ conditionId ∈ ["", "0x1"],
      let lengths := (recoveryPrinted conditionId).map fun value =>
        (Json.print (.object (Json.fieldsOf value))).length
      lengths.Nodup ∧ ∀ length ∈ lengths, length < 65536 := by
  decide +kernel

/-- The line is the text of the event with the hashes of the texts. -/
theorem recoveryBudget_le (listed : conditionId ∈ ["", "0x1"]) :
    recoveryBudget conditionId ≤ 65536 := by
  obtain ⟨ne, short⟩ := lengths_recoveryPrinted conditionId listed
  let hash := fun value => sha256 (Json.print value)
  let draft := (recoveryOf conditionId).draft
  have hashes : ∀ value ∈ draft.printed, Json.object (Json.fieldsOf value) = value →
      (recoveryExternals conditionId).canonicalHash value = hash value := by
    intro value mem isObject
    exact congrArg sha256 (Json.toVec_printing ne (List.mem_cons_of_mem _ mem) isObject)
  have event : (recoveryOf conditionId).event (recoveryExternals conditionId) =
      draft.hashed hash := by
    refine draft.hashed_congr hash (hashes _ ?_ rfl) (hashes _ ?_ rfl) (hashes _ ?_ rfl)
    · exact List.mem_cons_self
    · exact List.mem_cons_of_mem _ List.mem_cons_self
    · exact List.mem_cons_of_mem _ (List.mem_cons_of_mem _ List.mem_cons_self)
  have mem : draft.hashed hash ∈ recoveryPrinted conditionId := by
    unfold recoveryPrinted EventDraft.printed
    exact List.getLast_mem (List.cons_ne_nil _ _)
  have printed : (recoveryExternals conditionId).json.toVec (draft.hashed hash) =
      Json.print (draft.hashed hash) := Json.toVec_printing ne mem rfl
  have length : (Json.print (draft.hashed hash)).length < 65536 :=
    short _ (List.mem_map.mpr ⟨_, mem, rfl⟩)
  unfold recoveryBudget lineBudget lineOf
  rw [event, printed, List.length_append, List.length_singleton]
  exact length

/-- A process prepares the generation and commits the event. -/
noncomputable def recoveryHappenings (conditionId : String) :
    List (Happening (recoveryExternals conditionId)) :=
  [.reopen (recoveryBudget conditionId), .perform (.bindCatalogTokens oneMarket) none,
    .perform (.enableBoundedHistory newPages (recoveryBudget conditionId)) none,
    .perform (.appendMarketBatch [(recoveryOf conditionId).event (recoveryExternals conditionId)])
      none]

/-- What the writer holds that committed the event. -/
structure HoldsRecovery (conditionId : String) (writer : Writer) : Prop where
  recoveries : writer.recoveries =
    (∅ : TreeMap String Json).insert "11" (recoveryOf conditionId).model
  usable : writer.poisoned = false
  cursor : writer.cursor = 1
  history : ∃ bytes, writer.index.metadata.history = some ⟨recoveryBudget conditionId, 0, bytes⟩
  lifecycle : writer.index.marketLifecycle = ∅

/-- The prepared writer commits the event. -/
theorem recovery_accepted (conditionId : String) :
    ∃ writer, appendMarketBatch (recoveryExternals conditionId) none
        [(recoveryOf conditionId).event (recoveryExternals conditionId)]
        (preparedWriter (recoveryBudget conditionId)) = (.ok (), writer) ∧
      HoldsRecovery conditionId writer := by
  let externals := recoveryExternals conditionId
  let budget := recoveryBudget conditionId
  let event := (recoveryOf conditionId).event externals
  have bound : oneMarket["11"]? = some "1" := by decide +kernel
  have single := @appendMarketBatch_started externals (preparedWriter budget)
    (recoveryOf conditionId) none rfl rfl (show 1 < 2 ^ 64 by decide) bound
    (show "attempt1" ≠ "" by decide) (show "source_data_delayed" ≠ "" by decide) le_rfl
  have checked : checkCommit externals (preparedWriter budget)
      (singleInput externals (preparedWriter budget) false event) none =
      .ok ((∅ : TreeMap String Json).insert "11" (recoveryOf conditionId).model) := rfl
  obtain ⟨session, events, metadata, lifecycle⟩ := @appendEvents_started externals
    (recoveryOf conditionId) 0 (startSession (preparedWriter budget)) rfl
    (show 1 < 2 ^ 63 by decide) rfl
  have before : session.index.metadata.history = some ⟨budget, 0, 0⟩ := by
    rw [metadata]
    rfl
  have fits : 0 + ([lineOf externals event].map List.length).sum ≤ budget := by
    rw [List.map_singleton, List.sum_singleton, Nat.zero_add]
    exact le_rfl
  obtain ⟨index, bytes, finish, latest, history, same⟩ := @finishTransaction_prepared budget
    externals (singleInput externals (preparedWriter budget) false event) session
    ((∅ : TreeMap String Json).insert "11" (recoveryOf conditionId).model) rfl fits before
  obtain ⟨writer, committed, recoveries, usable, isIndex⟩ :=
    commitEncoded_ok checked events finish rfl rfl rfl
  refine ⟨writer, single.trans committed, recoveries, usable, ?_, ⟨bytes, ?_⟩, ?_⟩
  · unfold Writer.cursor
    rw [isIndex, latest]
    rfl
  · rw [isIndex, history]
  · rw [isIndex, same, lifecycle]
    rfl

theorem recovery_run (conditionId : String) (listed : conditionId ∈ ["", "0x1"]) :
    ∃ writer, Run (lives (recoveryExternals conditionId)) (.closed emptyFiles)
        (recoveryHappenings conditionId) (.opened writer) ∧
      HoldsRecovery conditionId writer := by
  obtain ⟨writer, accepted, holds⟩ := recovery_accepted conditionId
  refine ⟨writer, ?_, holds⟩
  have prepared := run_prepared (recoveryExternals conditionId)
    (lineBudget_pos (recoveryExternals conditionId) (recoveryOf conditionId))
    (recoveryBudget_le listed)
  have commits : lives (recoveryExternals conditionId)
      (.opened (preparedWriter (recoveryBudget conditionId)))
      (.perform (.appendMarketBatch [(recoveryOf conditionId).event (recoveryExternals conditionId)])
        none) (.opened writer) := by
    change some (Life.opened (appendMarketBatch (recoveryExternals conditionId) none
      [(recoveryOf conditionId).event (recoveryExternals conditionId)]
      (preparedWriter (recoveryBudget conditionId))).2) = _
    rw [accepted]
  exact prepared.snoc commits

/-- An event without a condition is committed, and the files cannot be opened after. -/
theorem not_reopens_nameless :
    ∃ writer, Fresh (recoveryExternals "") emptyFiles ∧
      Run (lives (recoveryExternals "")) (.closed emptyFiles) (recoveryHappenings "")
        (.opened writer) ∧
      writer.poisoned = false ∧ ¬Reopens (recoveryExternals "") writer := by
  obtain ⟨writer, run, holds⟩ := recovery_run "" List.mem_cons_self
  refine ⟨writer, fresh_emptyFiles _, run, holds.usable, ?_⟩
  intro reopens
  have restorable :=
    (reopens_iff_of_held (held_of_run (fresh_emptyFiles _) run) holds.usable).mp reopens
  have there : writer.recoveries["11"]? = some (recoveryOf "").model := by
    rw [holds.recoveries, TreeMap.getElem?_insert_eq, if_pos rfl]
  exact (restorable.fits "11" _ there).condition rfl

/-- A generation with an event that opened a recovery can be opened again. -/
theorem reopens_appended :
    ∃ writer, Run (lives (recoveryExternals "0x1")) (.closed emptyFiles)
        (recoveryHappenings "0x1") (.opened writer) ∧
      writer.recoveries["11"]? = some (recoveryOf "0x1").model ∧
        Reopens (recoveryExternals "0x1") writer := by
  obtain ⟨writer, run, holds⟩ := recovery_run "0x1" (by decide)
  have only : ∀ (token : String) model, writer.recoveries[token]? = some model →
      token = "11" ∧ model = (recoveryOf "0x1").model := by
    intro token model there
    rw [holds.recoveries, TreeMap.getElem?_insert_eq] at there
    split at there
    · rename_i same
      exact ⟨same.symm, (Option.some.inj there).symm⟩
    · rw [getElem?_empty] at there
      cases there
  refine ⟨writer, run, ?_, (reopens_iff (fresh_emptyFiles _) run holds.usable).mpr ⟨?_, ?_, ?_, ?_⟩⟩
  · rw [holds.recoveries, TreeMap.getElem?_insert_eq, if_pos rfl]
  · rw [holds.recoveries]
    decide +kernel
  · intro token model there
    obtain ⟨rfl, rfl⟩ := only token model there
    have printed : (recoveryExternals "0x1").json.toVec (recoveryOf "0x1").model =
        Json.print (recoveryOf "0x1").model :=
      Json.toVec_printing (lengths_recoveryPrinted "0x1" (by decide)).1 List.mem_cons_self rfl
    refine ⟨?_, by decide +kernel, ?_, ?_⟩
    · rw [printed]
      decide +kernel
    · exact fun same => absurd (Json.string.inj same) (by decide)
    · intro text isText
      cases isText
      decide +kernel
  · intro token model there market named
    unfold Index.isFenced
    rw [holds.lifecycle]
    rfl
  · intro history isHistory _
    obtain ⟨bytes, bounded⟩ := holds.history
    obtain rfl := Option.some.inj (isHistory.symm.trans bounded)
    rw [holds.cursor]
    exact Nat.one_pos

/-! ## Events that are found -/

/-- Whatever processes came and went and wherever the storage stopped them, the events
of all cursors are found in the log, or in a bounded history those above its floor, and
what is found there is what its hash says. -/
theorem stored_events_exact
    (externals : Externals) (files left : Files) (happenings : List (Happening externals))
    (fresh : Fresh externals files)
    (run : Run (lives externals) (.closed files) happenings (.closed left)) :
    match left.index.metadata.history with
    | none => ∀ cursor : Nat,
        ((∃ row, left.index.eventOffsets[cursor]? = some row) ↔
          0 < cursor ∧ cursor ≤ left.index.metadata.latestCursor) ∧
        ∀ row, left.index.eventOffsets[cursor]? = some row →
          row.byteOffset + row.byteLength ≤ left.log.length ∧
            sha256 ((left.log.drop row.byteOffset).take row.byteLength) = row.lineSha256
    | some history =>
      recentBytes left.index.recentEvents = history.recentEventBytes ∧ ∀ cursor : Nat,
        ((∃ row, left.index.recentEvents[cursor]? = some row) ↔
          history.historyFloorCursor < cursor ∧ cursor ≤ left.index.metadata.latestCursor) ∧
        ∀ row, left.index.recentEvents[cursor]? = some row → sha256 row.payload = row.sha256 := by
  have sound : FilesSound externals left := held_of_run fresh run
  have events := sound.events
  unfold EventsSound at events
  cases kept : left.index.metadata.history with
  | none =>
    rw [kept] at events
    intro cursor
    refine ⟨⟨?_, fun ⟨above, below⟩ => events.rows cursor above below⟩, ?_⟩
    · rintro ⟨row, there⟩
      exact events.keys cursor row there
    · intro row there
      exact ⟨(events.within cursor row there).trans events.size, events.hash cursor row there⟩
  | some history =>
    rw [kept] at events
    exact ⟨events.bytes, fun cursor => ⟨events.rows cursor, events.hash cursor⟩⟩

/-- The event of a generation that was closed is found, with its hash. -/
theorem stored_events_exact_sample :
    ∃ left history row,
      Run (lives (recoveryExternals "0x1")) (.closed emptyFiles)
          (recoveryHappenings "0x1" ++ [.close]) (.closed left) ∧
        left.index.metadata.history = some history ∧
          recentBytes left.index.recentEvents = history.recentEventBytes ∧
            left.index.recentEvents[1]? = some row ∧ sha256 row.payload = row.sha256 := by
  obtain ⟨writer, run, holds⟩ := recovery_run "0x1" (by decide)
  obtain ⟨bytes, bounded⟩ := holds.history
  have closing : lives (recoveryExternals "0x1") (.opened writer) .close (.closed writer.files) :=
    rfl
  have closed := run.snoc closing
  have found := stored_events_exact (recoveryExternals "0x1") emptyFiles writer.files _
    (fresh_emptyFiles _) closed
  have history : writer.files.index.metadata.history = _ := bounded
  rw [history] at found
  obtain ⟨row, there⟩ := (found.2 1).1.mpr ⟨Nat.one_pos, holds.cursor.ge⟩
  exact ⟨writer.files, _, row, closed, history, found.1, there, (found.2 1).2 row there⟩

end MarketCow.Discovery
