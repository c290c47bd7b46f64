import MarketCow.Discovery.Retire
import MarketCow.Library.MapLoads

/-!
# What the files hold

The invariants of the stored index, of the log beside it and of a writer in
memory, and what opening the files reads back under them.
-/

namespace MarketCow.Discovery

open Library

/-! ## Recoveries -/

/-- A recovery that source events opened. -/
structure ModelSound (token : String) (model : Json) : Prop where
  isObject : model.asObject?.isSome = true
  some_token : token ≠ ""
  tokenId : field model "token_id" = .string token
  gapTokenId : field (field model "gap") "token_id" = .string token
  gapResolved : field (field model "gap") "resolved" = .bool false
  gapCode : field (field model "gap") "code" = .string "coverage_gap"
  gapDetectedAt : Json.isString (field (field model "gap") "detected_at") = true
  marketId : ∃ market, field model "market_id" = .string market ∧ market ≠ ""
  conditionId : ∃ condition, field model "condition_id" = .string condition
  recoveryId : ∃ recovery, field model "recovery_id" = .string recovery ∧ recovery ≠ ""
  snapshotCursor : field model "snapshot_cursor" = .null ∨
    ∃ cursor, (field model "snapshot_cursor").asU64? = some cursor ∧ 0 < cursor

/-- The limits of a stored recovery that no event is checked for. -/
structure Fits (externals : Externals) (token : String) (model : Json) : Prop where
  body : (externals.json.toVec model).length ≤ 65536
  token : token.utf8ByteSize ≤ 128
  condition : field model "condition_id" ≠ .string ""
  recovery : ∀ text, field model "recovery_id" = .string text → text.utf8ByteSize ≤ 128

theorem isNonemptyText_iff :
    isNonemptyText value = true ↔ ∃ text, value = .string text ∧ text ≠ "" := by
  cases value with
  | string text =>
    unfold isNonemptyText
    rw [not_eq_true', Bool.eq_false_iff, ne_eq, String.isEmpty_iff]
    constructor
    · intro nonempty
      exact ⟨text, rfl, nonempty⟩
    · rintro ⟨other, same, nonempty⟩
      obtain rfl := Json.string.inj same
      exact nonempty
  | _ =>
    constructor
    · intro never
      cases never
    · rintro ⟨_, never, _⟩
      cases never

theorem isShortText_iff :
    isShortText limit value = true ↔ ∃ text, value = .string text ∧ text.utf8ByteSize ≤ limit := by
  cases value with
  | string text =>
    unfold isShortText
    rw [decide_eq_true_iff]
    constructor
    · intro short
      exact ⟨text, rfl, short⟩
    · rintro ⟨other, same, short⟩
      obtain rfl := Json.string.inj same
      exact short
  | _ =>
    constructor
    · intro never
      cases never
    · rintro ⟨_, never, _⟩
      cases never

theorem isEmpty_eq_false_iff : (!text.isEmpty) = true ↔ text ≠ "" := by
  rw [not_eq_true', Bool.eq_false_iff, ne_eq, String.isEmpty_iff]

/-- The checks of a stored recovery ask for a sound one within the limits. -/
theorem isStoredRecovery_iff (body : (externals.json.toVec model).length ≤ 65536) :
    isStoredRecovery token model = true ↔ ModelSound token model ∧ Fits externals token model := by
  unfold isStoredRecovery
  simp only [and_eq_true, or_eq_true, decide_eq_true_iff, beq_iff_eq,
    isEmpty_eq_false_iff, isNonemptyText_iff, isShortText_iff]
  constructor
  · rintro ⟨⟨⟨⟨⟨⟨⟨⟨⟨⟨nonempty, shortToken⟩, tokenId⟩, gapToken⟩, gapResolved⟩, gapCode⟩,
      gapDetected⟩, market⟩, condition⟩, recovery, shortRecovery⟩, snapshot⟩
    have isObject : model.asObject?.isSome = true := by
      cases model with
      | object _ => rfl
      | _ => cases tokenId
    refine ⟨⟨isObject, nonempty, tokenId, gapToken, gapResolved, gapCode, gapDetected, market, ?_,
      recovery, ?_⟩, ⟨body, shortToken, ?_, ?_⟩⟩
    · obtain ⟨text, same, _⟩ := condition
      exact ⟨text, same⟩
    · rcases snapshot with absent | taken
      · exact .inl absent
      · cases there : (field model "snapshot_cursor").asU64? with
        | none =>
          rw [there] at taken
          cases taken
        | some cursor =>
          rw [there] at taken
          exact .inr ⟨cursor, rfl, of_decide_eq_true taken⟩
    · obtain ⟨text, same, someText⟩ := condition
      rw [same]
      intro blank
      exact someText (Json.string.inj blank)
    · intro text same
      obtain ⟨other, sameOther, short⟩ := shortRecovery
      obtain rfl := Json.string.inj (same.symm.trans sameOther)
      exact short
  · rintro ⟨sound, fits⟩
    refine ⟨⟨⟨⟨⟨⟨⟨⟨⟨⟨sound.some_token, fits.token⟩, sound.tokenId⟩, sound.gapTokenId⟩,
      sound.gapResolved⟩, sound.gapCode⟩, sound.gapDetectedAt⟩, sound.marketId⟩, ?_⟩,
      sound.recoveryId, ?_⟩, ?_⟩
    · obtain ⟨text, same⟩ := sound.conditionId
      refine ⟨text, same, ?_⟩
      rintro rfl
      exact fits.condition same
    · obtain ⟨text, same, _⟩ := sound.recoveryId
      exact ⟨text, same, fits.recovery text same⟩
    · rcases sound.snapshotCursor with absent | ⟨cursor, there, positive⟩
      · exact .inl absent
      · rw [there]
        exact .inr (decide_eq_true positive)

/-! ## Invariants of the files -/

/-- The health of a stored book. -/
def healthOf (externals : Externals) (row : BookRow) : Option BookHealth :=
  ((externals.json.fromSlice row.payload).bind fun book =>
    (BookHealth.fromBook externals row.marketId book).toOption)

/-- A log that the index describes up to its size, line by line. -/
structure LogSound (log : Bytes) (index : Index) : Prop where
  size : index.metadata.eventLogSize ≤ log.length
  rows : ∀ cursor, 0 < cursor → cursor ≤ index.metadata.latestCursor →
    ∃ row, index.eventOffsets[cursor]? = some row
  keys : ∀ (cursor : Nat) row, index.eventOffsets[cursor]? = some row →
    0 < cursor ∧ cursor ≤ index.metadata.latestCursor
  within : ∀ (cursor : Nat) row, index.eventOffsets[cursor]? = some row →
    row.byteOffset + row.byteLength ≤ index.metadata.eventLogSize
  hash : ∀ (cursor : Nat) row, index.eventOffsets[cursor]? = some row →
    sha256 ((log.drop row.byteOffset).take row.byteLength) = row.lineSha256
  last : ∀ row, index.eventOffsets[index.metadata.latestCursor]? = some row →
    row.byteOffset + row.byteLength = index.metadata.eventLogSize

/-- A bounded history without gaps that ends with the last event. -/
structure HistorySound (history : HistoryMetadata) (index : Index) : Prop where
  floor : history.historyFloorCursor ≤ index.metadata.latestCursor
  rows : ∀ cursor : Nat, (∃ row, index.recentEvents[cursor]? = some row) ↔
    history.historyFloorCursor < cursor ∧ cursor ≤ index.metadata.latestCursor
  hash : ∀ (cursor : Nat) row, index.recentEvents[cursor]? = some row →
    sha256 row.payload = row.sha256
  bytes : recentBytes index.recentEvents = history.recentEventBytes
  blank : index.metadata.latestCursor = 0 →
    index.metadata.eventLogSize = 0 ∧ index.books.isEmpty = true ∧
      index.sourceTokenRecoveries.isEmpty = true

structure IndexSound (externals : Externals) (index : Index) : Prop where
  schema : index.metadata.schemaVersion = stateIndexVersion
  gaps : index.unresolvedGaps = 0
  cursor : index.metadata.latestCursor < 2 ^ 63
  gapCount : index.metadata.unresolvedGapCount = index.sourceTokenRecoveries.size
  recovery : ∀ (token : String) row, index.sourceTokenRecoveries[token]? = some row →
    ∃ model, row = externals.row model ∧ ModelSound token model
  lifecycle : ∀ (market : String) row, index.marketLifecycle[market]? = some row →
    ∃ model, row.toStoredRow = externals.row model ∧ isTerminalState model = true
  book : ∀ (token : String) row, index.books[token]? = some row →
    ∃ book, row.toStoredRow = externals.row book ∧
      (BookHealth.fromBook externals row.marketId book).toOption.isSome = true
  names : ∀ (token : String) row, index.books[token]? = some row → token ≠ "" ∧ row.marketId ≠ ""

/-- What the index says about the events that are stored. -/
def EventsSound (files : Files) : Prop :=
  match files.index.metadata.history with
  | none => LogSound files.log files.index
  | some history => HistorySound history files.index

structure FilesSound (externals : Externals) (files : Files) : Prop where
  index : IndexSound externals files.index
  events : EventsSound files

/-! ## The memory of a writer -/

/-- The memory of a writer is that of its files. What an interrupted commit left in
the log makes no difference. -/
structure WriterSound (externals : Externals) (writer : Writer) : Prop where
  files : FilesSound externals writer.files
  positive : 0 < writer.maximumBatchBytes
  limit : writer.historyLimit = writer.index.metadata.history.map HistoryMetadata.boundedHistoryBytes
  recoveries : ∀ token : String,
    writer.index.sourceTokenRecoveries[token]? = writer.recoveries[token]?.map externals.row
  models : ∀ (token : String) model, writer.recoveries[token]? = some model → ModelSound token model
  health : ∀ token : String,
    writer.health[token]? = writer.index.books[token]?.bind (healthOf externals)
  bound : ∀ (token : String) row, writer.index.books[token]? = some row →
    writer.tokenMarkets[token]? = some row.marketId
  names : ∀ (token : String) market, writer.tokenMarkets[token]? = some market →
    token ≠ "" ∧ market ≠ ""
  tail : writer.historyLimit = none → ∀ row,
    writer.index.eventOffsets[writer.cursor]? = some row → row.byteLength ≤ writer.maximumBatchBytes

/-- A writer that no commit interrupted: its log ends where the index says, and no
scratch manifest is there. -/
structure Writer.Clean (writer : Writer) : Prop where
  usable : writer.poisoned = false
  logEnd : writer.historyLimit = none → writer.files.log.length = writer.index.metadata.eventLogSize
  noScratch : writer.files.pending = false

end MarketCow.Discovery
