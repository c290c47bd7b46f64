import MarketCow.Discovery.Accepted
import MarketCow.Library.JsonCodec

/-!
# A prepared generation

A generation without books, and the run that opens it, binds tokens and moves its
history into the index.
-/

namespace MarketCow.Discovery

open Library

/-! ## Externals that print -/

/-- Externals that print some objects and read some times. -/
noncomputable def printingExternals (known : List Json) (times : List (String × Int)) :
    Externals where
  json := Json.printing known
  parseTime text := times.lookup text
  fromSlice_line := Codec.lenient_line _

/-- The values of a draft that the printer has to print, with the hashes of their
texts. -/
def EventDraft.printed (draft : EventDraft) : List Json :=
  let hash := fun value => sha256 (Json.print value)
  [draft.payload, draft.raw, draft.anonymous hash, draft.hashed hash]

/-! ## The empty generation -/

/-- A generation without books. -/
def emptyFiles : Files where
  log := []
  index :=
    { metadata :=
        { schemaVersion := stateIndexVersion
          catalogRevision := "catalog-test"
          activeRecoveryId := "recovery-test"
          unresolvedGapCount := 0
          eventLogSize := 0
          latestCursor := 0
          bookTokenCount := 0
          bookCompleteMarketCount := 0
          oldestBookReceivedAt := none
          history := none }
      unresolvedGaps := 0
      eventOffsets := ∅
      recentEvents := ∅
      books := ∅
      bookConfirmations := ∅
      sourceTokenRecoveries := ∅
      marketLifecycle := ∅
      coldMarketCatalog := []
      coldMarketEvidence := []
      marketStreams := ∅
      marketGroups := []
      marketNativeGroups := []
      marketNativeStreams := ∅ }
  manifest := none
  pending := false

section Prepared

variable (externals : Externals)

theorem fresh_emptyFiles : Fresh externals emptyFiles := by
  refine ⟨rfl, rfl, rfl, rfl, rfl, rfl, rfl, rfl, rfl, rfl, ?_, ?_, ?_, rfl, rfl, rfl, rfl, rfl,
    rfl⟩
  · intro market row there
    unfold emptyFiles at there
    rw [getElem?_empty] at there
    cases there
  · intro token row there
    unfold emptyFiles at there
    rw [getElem?_empty] at there
    cases there
  · intro token row there
    unfold emptyFiles at there
    rw [getElem?_empty] at there
    cases there

/-- The writer of the empty generation. -/
def emptyWriter (limit : Nat) : Writer where
  files := emptyFiles
  recoveries := ∅
  terminalMarkets := ∅
  maximumBatchBytes := limit
  poisoned := false
  historyLimit := none
  health := ∅
  tokenMarkets := ∅

variable {limit : Nat}

theorem openWriter_empty (positive : 0 < limit) :
    openWriter externals limit emptyFiles = (.ok (emptyWriter limit), emptyFiles) := by
  cases limit with
  | zero => cases positive
  | succ limit => rfl

theorem enableBoundedHistory_ok
    (moved : migrationTail writer = .ok tail) (fits : writer.maximumBatchBytes ≤ limit)
    (unbounded : writer.historyLimit = none) (computed : maximumPages pages limit = .ok maximum) :
    enableBoundedHistory pages none limit writer =
      (.ok (),
        { writer with
          files := { writer.files with index := migrateIndex writer.index limit tail }
          historyLimit := some limit }) := by
  unfold enableBoundedHistory Writer.attempt
  rw [if_pos fits, unbounded, moved, computed]
  dsimp only
  rw [if_pos (maximumPages_lt computed)]
  rfl

end Prepared

/-! ## One market -/

def oneMarket : TreeMap String String :=
  (∅ : TreeMap String String).insert "11" "1" |>.insert "12" "1"

/-- The writer that has the tokens of the market and moved its history into the index. -/
def preparedWriter (limit : Nat) : Writer :=
  { emptyWriter limit with
    files := { emptyFiles with index := migrateIndex emptyFiles.index limit none }
    historyLimit := some limit
    tokenMarkets := oneMarket }

/-- The pages of the new database. -/
def newPages : DatabasePages where
  size := 4096
  count := 32
  leastSize := by decide
  countWord := by decide

/-- A run that opens the empty generation, binds the tokens and moves the history into the
index. -/
theorem run_prepared (externals : Externals) (positive : 0 < limit) (small : limit ≤ 65536) :
    Run (lives externals) (.closed emptyFiles)
      [.reopen limit, .perform (.bindCatalogTokens oneMarket) none,
        .perform (.enableBoundedHistory newPages limit) none] (.opened (preparedWriter limit)) := by
  have opening : lives externals (.closed emptyFiles) (.reopen limit)
      (.opened (emptyWriter limit)) := by
    unfold lives Life.after
    dsimp only
    rw [openWriter_empty externals positive]
  have binding : lives externals (.opened (emptyWriter limit))
      (.perform (.bindCatalogTokens oneMarket) none)
      (.opened { emptyWriter limit with tokenMarkets := oneMarket }) := rfl
  have few : limit * 4 / 4096 ≤ 64 := by omega
  have computed : maximumPages newPages limit = .ok (32 + (limit * 4 / 4096 + 1024)) :=
    bind_ok.mpr ⟨(), ensure_ok.mpr (decide_eq_true (by omega)),
      need_ok.mpr (checkedAdd_eq_some_iff.mpr ⟨rfl, by omega⟩)⟩
  have moved : enableBoundedHistory newPages none limit
      { emptyWriter limit with tokenMarkets := oneMarket } = (.ok (), preparedWriter limit) :=
    enableBoundedHistory_ok rfl (le_refl limit) rfl computed
  have moving : lives externals (.opened { emptyWriter limit with tokenMarkets := oneMarket })
      (.perform (.enableBoundedHistory newPages limit) none) (.opened (preparedWriter limit)) := by
    change some (Life.opened (enableBoundedHistory newPages none limit
      { emptyWriter limit with tokenMarkets := oneMarket }).2) = _
    rw [moved]
  exact Run.cons opening (Run.cons binding (Run.single moving))

/-- The budget of a batch that holds just this line. -/
noncomputable def lineBudget (externals : Externals) (started : StartedRecovery) : Nat :=
  (lineOf externals (started.event externals)).length

theorem lineBudget_pos (externals : Externals) (started : StartedRecovery) :
    0 < lineBudget externals started := by
  unfold lineBudget lineOf
  rw [List.length_append, List.length_singleton]
  exact Nat.succ_pos _

/-- A batch that fits in the history lets nothing fail after its events. -/
theorem finishTransaction_prepared
    {limit : Nat} {externals : Externals} {input : CommitInput} {session : Session}
    (recoveries : TreeMap String Json) (noGroups : input.marketGroups = [])
    (fits : 0 + (input.lines.map List.length).sum ≤ limit)
    (history : session.index.metadata.history = some ⟨limit, 0, 0⟩) :
    ∃ index bytes, finishTransaction externals (preparedWriter limit) input recoveries session =
        .ok index ∧
      index.metadata.latestCursor = input.cursor + input.events.length ∧
      index.metadata.history = some ⟨limit, 0, bytes⟩ ∧
      index.marketLifecycle = session.index.marketLifecycle := by
  have kept (index : Index) : boundHistory ⟨limit, 0, 0⟩ limit
      (input.lines.map List.length).sum index =
        .ok { index with
          metadata :=
            { index.metadata with
              history := some ⟨limit, 0, 0 + (input.lines.map List.length).sum⟩ } } := by
    unfold boundHistory evict
    rw [if_pos fits]
    rfl
  unfold finishTransaction storeBoundary
  rw [noGroups]
  have done := kept
    { session.index with
      sourceTokenRecoveries :=
        storeRecoveries externals ∅ recoveries session.index.sourceTokenRecoveries
      metadata :=
        { session.index.metadata with
          unresolvedGapCount := recoveries.size
          latestCursor := input.cursor + input.events.length } }
  exact ⟨_, _, bind_ok.mpr ⟨session.index, rfl, bind_ok.mpr
    ⟨_, bind_ok.mpr ⟨_, need_ok.mpr history, done⟩, rfl⟩⟩, rfl, rfl, rfl⟩

end MarketCow.Discovery
