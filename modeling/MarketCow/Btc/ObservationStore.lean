import MarketCow.Btc.TradeStore

/-!
# The store of observations

Observations by the ids that the database gives them, one after another and never
again. A batch adds what it brings new and leaves every stored observation alone.
-/

namespace MarketCow.Btc

open Library
open Live (Codec ensure need)
open Sdk (Observation)

/-- A stored observation. Its identity is its source, generation, sequence and row. -/
structure ObservationRow where
  observationId : Nat
  source : Int
  sourceGeneration : String
  sourceSequence : Nat
  rowIndex : Nat
  sourceTimeMs : Int
  price : String
  receivedAtNs : Option Int
  evidenceId : String
  deriving DecidableEq

/-- The observations by id. -/
abbrev ObservationTable := Table ObservationRow.observationId

/-- The database, with the last id that it gave. -/
structure ObservationStore where
  rows : ObservationTable
  lastId : Nat
  evidence : List EvidenceRow
  positive : ∀ row ∈ rows.rows, 0 < row.observationId
  given : ∀ row ∈ rows.rows, row.observationId ≤ lastId

/-- No observations; the first gets id 1. -/
def ObservationStore.empty : ObservationStore where
  rows := Table.empty
  lastId := 0
  evidence := []
  positive := by simp [Table.empty]
  given := by simp [Table.empty]

/-- Add a row under the next id. -/
def ObservationStore.add (store : ObservationStore) (row : ObservationRow) : ObservationStore where
  rows := store.rows.put { row with observationId := store.lastId + 1 }
  lastId := store.lastId + 1
  evidence := store.evidence
  positive other member := by
    rcases Table.mem_put.mp member with rfl | ⟨there, _⟩
    · exact Nat.succ_pos _
    · exact store.positive other there
  given other member := by
    rcases Table.mem_put.mp member with rfl | ⟨there, _⟩
    · exact le_rfl
    · exact (store.given other there).trans (Nat.le_succ _)

/-! ## Writing a batch -/

/-- How far the insertion of a batch has come; its evidence is stored with the first new row. -/
structure ObservationInsertion where
  store : ObservationStore
  evidenceId : Option String
  inserted : Nat

/-- The evidence row of the batch. -/
def ObservationInsertion.refer (fresh : String) (input : EvidenceInput)
    (insertion : ObservationInsertion) : Except String (String × ObservationInsertion) :=
  match insertion.evidenceId with
  | some known => .ok (known, insertion)
  | none => do
    ensure (!input.raw.isEmpty && decide (input.raw.length ≤ 1024 * 1024))
      "evidence byte capacity"
    ensure (!input.acquisition.isEmpty && !input.upstreamUrl.isEmpty) "evidence provenance"
    .ok (fresh, { insertion with
      store := { insertion.store with evidence := insertion.store.evidence ++ [⟨fresh, input⟩] }
      evidenceId := some fresh })

/-- The stored row with the identity that the supplier gave. -/
def ObservationStore.identified (store : ObservationStore) (source : Int) (generation : String)
    (sequence rowIndex : Nat) : Option ObservationRow :=
  store.rows.rows.find? fun row => decide (row.source = source) &&
    row.sourceGeneration == generation && decide (row.sourceSequence = sequence) &&
    decide (row.rowIndex = rowIndex)

/-- A row of a known identity repeats its time and its price. -/
def checkObservation (codec : Codec) (prior : ObservationRow) (row : Observation) :
    Except String Unit := do
  ensure (decide (prior.sourceTimeMs = row.sourceTimeMs)) "observation identity conflict"
  let priorPrice ← positiveDecimal codec prior.price
  let price ← positiveDecimal codec row.price
  ensure (decide (priorPrice = price)) "observation identity conflict"

/-- A new observation, unless the database has no more ids. -/
def ObservationInsertion.add
    (fresh : String) (input : EvidenceInput) (insertion : ObservationInsertion)
    (row : ObservationRow) : Except String ObservationInsertion := do
  let (known, insertion) ← insertion.refer fresh input
  ensure (decide (insertion.store.lastId + 1 < 2 ^ 63)) "database or disk is full"
  .ok { insertion with
    store := insertion.store.add { row with evidenceId := known }
    inserted := insertion.inserted + 1 }

/-- Store a row of a new identity under the next id; a repeated row changes nothing. -/
def insertObservation
    (codec : Codec) (fresh : String) (input : EvidenceInput) (source : Int) (generation : String)
    (insertion : ObservationInsertion)
    (row : Observation) : Except String ObservationInsertion := do
  ensure (decide (0 < row.sourceTimeMs) &&
    row.sourceSequence.any (fun sequence => decide (0 < sequence)) && row.rowIndex.isSome)
    "observation identity/time"
  let _ ← positiveDecimal codec row.price
  let sequence ← need row.sourceSequence "sequence missing"
  let sequence ← rowNumber sequence "out of range integral type conversion attempted"
  let rowIndex ← need row.rowIndex "observation identity/time"
  match insertion.store.identified source generation sequence rowIndex with
  | some prior => do
    checkObservation codec prior row
    .ok insertion
  | none =>
    insertion.add fresh input
      { observationId := 0
        source
        sourceGeneration := generation
        sourceSequence := sequence
        rowIndex
        sourceTimeMs := row.sourceTimeMs
        price := row.price
        receivedAtNs := row.receivedAtNs
        evidenceId := "" }

/-- Write a batch of one source; nothing stays of a batch that fails. -/
def insertObservations
    (codec : Codec) (fresh : String) (source : Sdk.Source) (generation : String)
    (rows : List Observation) (input : EvidenceInput)
    (store : ObservationStore) : Except String (Nat × ObservationStore) := do
  ensure ((decide (source = .chainlinkBtcUsd) || decide (source = .chainlinkBtcUsdTwap60)) &&
    !generation.isEmpty && !rows.isEmpty && decide (rows.length ≤ 4096))
    "observation batch identity/capacity"
  let finished ← rows.foldlM
    (insertObservation codec fresh input source.number generation) ⟨store, none, 0⟩
  .ok (finished.inserted, finished.store)

/-! ## What a batch does -/

/-- Every row is kept, and a new row has an id above all ids of before. -/
structure Grows (before after : ObservationStore) : Prop where
  kept : ∀ row ∈ before.rows.rows, row ∈ after.rows.rows
  fresh : ∀ row ∈ after.rows.rows, row ∈ before.rows.rows ∨ before.lastId < row.observationId
  lastId : before.lastId ≤ after.lastId

section Growth

variable {before middle after store : ObservationStore}

theorem Grows.refl (store : ObservationStore) : Grows store store where
  kept _ member := member
  fresh _ member := .inl member
  lastId := le_rfl

theorem Grows.trans (first : Grows before middle) (second : Grows middle after) :
    Grows before after where
  kept row member := second.kept row (first.kept row member)
  fresh row member := by
    rcases second.fresh row member with there | above
    · exact first.fresh row there
    · exact .inr (first.lastId.trans_lt above)
  lastId := first.lastId.trans second.lastId

/-- Below the last id of before, nothing changes. -/
theorem Grows.mem_iff (grows : Grows before after) (within : row.observationId ≤ before.lastId) :
    row ∈ after.rows.rows ↔ row ∈ before.rows.rows := by
  constructor
  · intro mem
    rcases grows.fresh row mem with there | above
    · exact there
    · exact absurd within above.not_ge
  · exact grows.kept row

/-- A new observation comes after all others. -/
theorem grows_add (store : ObservationStore) (row : ObservationRow) :
    Grows store (store.add row) where
  kept other member := by
    refine Table.mem_put.mpr (.inr ⟨member, ?_⟩)
    have bound := store.given other member
    dsimp only
    omega
  fresh other member := by
    rcases Table.mem_put.mp member with rfl | ⟨there, _⟩
    · exact .inr (Nat.lt_succ_self _)
    · exact .inl there
  lastId := Nat.le_succ _

variable {codec : Codec} {fresh generation : String} {input : EvidenceInput} {source : Int}
  {insertion finished : ObservationInsertion}

theorem rows_of_refer (referred : insertion.refer fresh input = .ok (known, finished)) :
    finished.store.rows = insertion.store.rows ∧
      finished.store.lastId = insertion.store.lastId := by
  unfold ObservationInsertion.refer at referred
  split at referred
  · obtain ⟨_, rfl⟩ := Prod.mk.inj (ok.inj referred)
    exact ⟨rfl, rfl⟩
  · obtain ⟨_, _, _, _, referred⟩ := bind₂_ok.mp referred
    obtain ⟨_, rfl⟩ := Prod.mk.inj (ok.inj referred)
    exact ⟨rfl, rfl⟩

theorem grows_of_insertObservation
    (inserted : insertObservation codec fresh input source generation insertion row =
      .ok finished) :
    Grows insertion.store finished.store := by
  iterate 2 obtain ⟨_, _, inserted⟩ := bind_ok.mp inserted
  obtain ⟨sequence, _, number, _, rowIndex, _, inserted⟩ := bind₃_ok.mp inserted
  split at inserted
  · obtain ⟨_, _, inserted⟩ := bind_ok.mp inserted
    cases inserted
    exact Grows.refl _
  · obtain ⟨⟨known, referred⟩, refers, inserted⟩ := bind_ok.mp inserted
    obtain ⟨rows, lastId⟩ := rows_of_refer refers
    obtain ⟨_, _, inserted⟩ := bind_ok.mp inserted
    cases inserted
    have same : Grows insertion.store referred.store := by
      refine ⟨?_, ?_, lastId.ge⟩
      · intro row mem
        rw [rows]
        exact mem
      · intro row mem
        rw [rows] at mem
        exact .inl mem
    exact same.trans (grows_add _ _)

/-- A batch of observations. -/
structure ObservationBatch where
  fresh : String
  source : Sdk.Source
  generation : String
  rows : List Observation
  input : EvidenceInput

/-- The store after a batch was tried. -/
def ObservationStore.write
    (codec : Codec) (store : ObservationStore) (batch : ObservationBatch) : ObservationStore :=
  match insertObservations codec batch.fresh batch.source batch.generation batch.rows batch.input
      store with
  | .ok (_, after) => after
  | .error _ => store

/-- A batch only adds rows. -/
theorem grows_write (store : ObservationStore) (batch : ObservationBatch) :
    Grows store (store.write codec batch) := by
  unfold ObservationStore.write
  split
  · rename_i number after written
    obtain ⟨_, _, finished, folded, written⟩ := bind₂_ok.mp written
    obtain ⟨_, same⟩ := Prod.mk.inj (ok.inj written)
    rw [← same]
    refine Fallible.foldlM_invariant (fun insertion => Grows store insertion.store) ?_
      (Grows.refl store) folded
    intro before row _ after reached inserted
    exact reached.trans (grows_of_insertObservation inserted)
  · exact Grows.refl store

/-- Batches one after another only add. -/
theorem grows_writes (store : ObservationStore) (batches : List ObservationBatch) :
    Grows store (batches.foldl (ObservationStore.write codec) store) := by
  induction batches generalizing store with
  | nil => exact Grows.refl store
  | cons batch batches ih => exact (grows_write store batch).trans (ih _)

end Growth

end MarketCow.Btc
