import MarketCow.Discovery.Maintenance
import MarketCow.Library.Transition

/-!
# Lives of a writer

A directory is opened by a process, changed by the operations of its writer and
left behind when the process stops; then it is opened again. Every state in such a
run keeps the invariants.
-/

namespace MarketCow.Discovery

open Library

/-! ## Operations -/

/-- An operation of the writer, with its arguments. -/
inductive Operation (externals : Externals)
  | appendMarketBatch (events : List Json)
  | appendTerminal (event : Json)
  | appendValidated (batch : ValidatedSourceBatch externals)
  | appendValidatedGroup
      (batches : List (ValidatedSourceBatch externals × TreeMap Nat Json))
  | appendNativeMarketGroup
      (batch : ValidatedSourceBatch externals)
      (books : TreeMap Nat Json)
  | bindCatalogTokens (bindings : TreeMap String String)
  | enableBoundedHistory (pages : DatabasePages) (maximumBytes : Nat)
  | retireCatalogMarkets
      (after : Nat)
      (markets : TreeSet String)
      (coldRecords : TreeMap String Json)

section Lives

variable (externals : Externals)

/-- What an operation returns and leaves when the storage stops where it says. -/
def Operation.perform
    (operation : Operation externals) (stop : Option Stop) (writer : Writer) : Outcome :=
  match operation with
  | .appendMarketBatch events => Discovery.appendMarketBatch externals stop events writer
  | .appendTerminal event => Discovery.appendTerminal externals stop event writer
  | .appendValidated batch => Discovery.appendValidated externals stop batch writer
  | .appendValidatedGroup batches =>
    appendValidatedGroupWithBooks externals stop batches writer
  | .appendNativeMarketGroup batch books =>
    appendNativeMarketGroupWithBooks externals stop batch.val books writer
  | .bindCatalogTokens bindings => Discovery.bindCatalogTokens bindings writer
  | .enableBoundedHistory pages maximumBytes =>
    Discovery.enableBoundedHistory pages stop maximumBytes writer
  | .retireCatalogMarkets after markets coldRecords =>
    Discovery.retireCatalogMarkets externals stop after markets coldRecords writer

/-! ## States -/

/-- A directory, in use by a writer or not. -/
inductive Life
  | opened (writer : Writer)
  | closed (files : Files)

/-- A step: an operation, the end of the process, or the start of the next one. -/
inductive Happening (externals : Externals)
  | perform (operation : Operation externals) (stop : Option Stop)
  | close
  | reopen (maximumBatchBytes : Nat)

/-- What a step makes of a state. -/
def Life.after (life : Life) (happening : Happening externals) : Option Life :=
  match life, happening with
  | .opened writer, .perform operation stop =>
    some (.opened (operation.perform externals stop writer).2)
  | .opened writer, .close => some (.closed writer.files)
  | .closed files, .reopen maximumBatchBytes =>
    match openWriter externals maximumBatchBytes files with
    | (.ok writer, _) => some (.opened writer)
    | (.error _, left) => some (.closed left)
  | _, _ => none

def lives (before : Life) (happening : Happening externals) (after : Life) : Prop :=
  before.after externals happening = some after

/-- A prepared generation that no writer has used. -/
structure Fresh (files : Files) : Prop where
  log : files.log = []
  schema : files.index.metadata.schemaVersion = stateIndexVersion
  cursor : files.index.metadata.latestCursor = 0
  size : files.index.metadata.eventLogSize = 0
  history : files.index.metadata.history = none
  gapCount : files.index.metadata.unresolvedGapCount = 0
  gaps : files.index.unresolvedGaps = 0
  offsets : files.index.eventOffsets = ∅
  recent : files.index.recentEvents = ∅
  recoveries : files.index.sourceTokenRecoveries = ∅
  lifecycle : ∀ (market : String) row, files.index.marketLifecycle[market]? = some row →
    ∃ model, row.toStoredRow = externals.row model ∧ isTerminalState model = true
  book : ∀ (token : String) row, files.index.books[token]? = some row →
    ∃ book, row.toStoredRow = externals.row book ∧
      (BookHealth.fromBook externals row.marketId book).toOption.isSome = true
  names : ∀ (token : String) row, files.index.books[token]? = some row →
    token ≠ "" ∧ row.marketId ≠ ""
  catalog : files.index.coldMarketCatalog = []
  evidence : files.index.coldMarketEvidence = []
  streams : files.index.marketStreams = ∅
  groups : files.index.marketGroups = []
  nativeGroups : files.index.marketNativeGroups = []
  nativeStreams : files.index.marketNativeStreams = ∅

/-! ## Invariants -/

variable {externals}

theorem Fresh.sound (fresh : Fresh externals files) :
    FilesSound externals files := by
  refine ⟨⟨fresh.schema, fresh.gaps, ?_, ?_, ?_, fresh.lifecycle, fresh.book, fresh.names⟩, ?_⟩
  · rw [fresh.cursor]
    exact Nat.two_pow_pos 63
  · rw [fresh.gapCount, fresh.recoveries]
    rfl
  · intro token row there
    rw [fresh.recoveries, getElem?_empty] at there
    cases there
  · unfold EventsSound
    rw [fresh.history]
    refine ⟨?_, ?_, ?_, ?_, ?_, ?_⟩
    · rw [fresh.size]
      exact Nat.zero_le _
    · intro cursor above below
      rw [fresh.cursor] at below
      omega
    · intro cursor row there
      rw [fresh.offsets, getElem?_empty] at there
      cases there
    · intro cursor row there
      rw [fresh.offsets, getElem?_empty] at there
      cases there
    · intro cursor row there
      rw [fresh.offsets, getElem?_empty] at there
      cases there
    · intro row there
      rw [fresh.offsets, getElem?_empty] at there
      cases there

/-- A directory that keeps the invariants. -/
def Life.Held (externals : Externals) (life : Life) : Prop :=
  match life with
  | .opened writer => writer.Held externals
  | .closed files => FilesSound externals files

theorem Operation.held
    (operation : Operation externals) (stop : Option Stop) (held : writer.Held externals) :
    Outcome.Held externals (operation.perform externals stop writer) := by
  cases operation with
  | appendMarketBatch events => exact held_appendSourceEvents events false held
  | appendTerminal event => exact held_appendSourceEvents [event] true held
  | appendValidated batch => exact held_appendValidatedWithBooks batch.property held
  | appendValidatedGroup batches => exact held_appendValidatedGroupWithBooks batches held
  | appendNativeMarketGroup batch books =>
    exact held_appendNativeMarketGroupWithBooks batch.property held
  | bindCatalogTokens bindings => exact held_bindCatalogTokens bindings held
  | enableBoundedHistory pages maximumBytes =>
    exact held_enableBoundedHistory maximumBytes pages held
  | retireCatalogMarkets after markets coldRecords =>
    exact held_retireCatalogMarkets after markets coldRecords held

/-- One step keeps the invariants. -/
theorem Life.Held.step {before after : Life} {happening : Happening externals}
    (held : before.Held externals) (taken : lives externals before happening after) :
    after.Held externals := by
  unfold lives Life.after at taken
  cases before with
  | opened writer =>
    cases happening with
    | perform operation stop =>
      cases taken
      exact operation.held stop held
    | close =>
      cases taken
      exact held.sound.files
    | reopen maximumBatchBytes => cases taken
  | closed files =>
    cases happening with
    | perform operation stop | close => cases taken
    | reopen maximumBatchBytes =>
      have sound : FilesSound externals files := held
      obtain ⟨models, stored⟩ := exists_models sound.index
      obtain ⟨iff, opens, left⟩ := openWriter_spec maximumBatchBytes sound stored
      dsimp only at taken
      generalize outcome : openWriter externals maximumBatchBytes files = result at *
      obtain ⟨made, remaining⟩ := result
      cases made with
      | error cause =>
        cases taken
        exact left
      | ok writer =>
        cases taken
        exact (opens writer rfl).1.held sound stored (iff.mp ⟨writer, rfl⟩)

/-- Every state of a run keeps the invariants. -/
theorem held_of_run
    (fresh : Fresh externals files) (run : Run (lives externals) (.closed files) happenings life) :
    life.Held externals := by
  have preserved : ∀ (before : Life) (happening : Happening externals) (after : Life),
      before.Held externals → lives externals before happening after → after.Held externals :=
    fun _ _ _ held taken => held.step taken
  exact run.preserves preserved fresh.sound

end Lives

end MarketCow.Discovery
