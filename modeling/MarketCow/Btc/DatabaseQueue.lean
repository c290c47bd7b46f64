import MarketCow.Btc.TradeStore

/-!
# The queue in front of the database

Frames with trades wait on a queue. One task takes what waits in batches and
writes each record in a transaction of its own. The first record that the
database refuses ends its batch, and those behind it are lost.
-/

namespace MarketCow.Btc

open Library List
open Live (Codec)
open Sdk (Trade)

/-! ## Records -/

/-- A frame and its trades, and what its buffers occupy. -/
structure Archive where
  epoch : String
  tradeId : Option Nat
  receivedAt : String
  raw : List UInt8
  trades : List Trade
  ownedBytes : Nat

/-- A record on the queue, which has trades. It will refer to its evidence by a
fresh id, and the database may have a fault of its own for it. -/
structure Queued where
  record : Archive
  fresh : String
  fault : Option String
  traded : record.trades ≠ []

/-- What the health report says of the database. -/
structure DatabaseStatus where
  state : String
  droppedRecords : Nat
  lastSuccessTradeId : Option Nat
  lastSuccessSourceTimeMs : Option Int
  lastAttemptTradeId : Option Nat
  failedBatchRecords : Option Nat

/-! ## Batches -/

/-- What joins a batch of so many records and bytes, and what goes on waiting. -/
def gather : Nat → Nat → List Queued → List Queued × List Queued
  | _, _, [] => ([], [])
  | count, bytes, next :: waiting =>
    if count < 64 ∧ bytes < 256 * 1024 then
      let (batch, left) := gather (count + 1) (bytes + next.record.ownedBytes) waiting
      (next :: batch, left)
    else ([], next :: waiting)

/-- Whatever is gathered would be gathered again when nothing else waits. -/
theorem gather_gathered {count bytes : Nat} :
    gather count bytes (gather count bytes waiting).1 = ((gather count bytes waiting).1, []) := by
  induction waiting generalizing count bytes with
  | nil => simp [gather]
  | cons next waiting ih =>
    by_cases room : count < 64 ∧ bytes < 256 * 1024
    · simp only [gather, if_pos room]
      rw [ih]
    · simp only [gather, if_neg room]

/-- The record that wakes the task and those that follow it at once. Should the
database be closed, `opens` tells whether it can be opened. -/
structure DatabaseBatch where
  first : Queued
  more : List Queued
  opens : Bool
  gathered : gather 1 first.record.ownedBytes more = (more, [])

/-- The records of a batch in the order they were queued. -/
def DatabaseBatch.records (batch : DatabaseBatch) : List Queued :=
  batch.first :: batch.more

/-- The batch of a record and of those that the task finds behind it. -/
def DatabaseBatch.collect
    (first : Queued) (found : List Queued) (opens : Bool) : DatabaseBatch where
  first := first
  more := (gather 1 first.record.ownedBytes found).1
  opens := opens
  gathered := gather_gathered

/-! ## Writing -/

/-- Where a record comes from: a frame of the stream or the list of recent trades. -/
def evidenceInput (nanoseconds : String → Option Int) (record : Archive) : EvidenceInput where
  raw := record.raw
  acquisition := if record.tradeId.isSome then "ws_archive" else "official_recent_trades"
  upstreamUrl :=
    if record.tradeId.isSome then "wss://data-stream.binance.vision/ws/btcusdt@trade"
    else "https://data-api.binance.vision/api/v3/trades?symbol=BTCUSDT&limit=1000"
  receivedAtNs := nanoseconds record.receivedAt
  sourceGeneration := some record.epoch
  contentType := "application/json"

/-- One record and its transaction. -/
def storeRecord (codec : Codec) (nanoseconds : String → Option Int) (store : Store)
    (queued : Queued) : Except String Store :=
  if queued.record.trades.isEmpty then .ok store
  else
    match queued.fault with
    | some fault => .error fault
    | none => do
      let written ← insertTrades codec queued.fresh queued.record.trades
        (evidenceInput nanoseconds queued.record) store
      .ok written.2

/-- The records one after another, until one is refused. -/
def insertRecords
    (codec : Codec) (nanoseconds : String → Option Int) :
    Store → List Queued → Store × Except String Unit
  | store, [] => (store, .ok ())
  | store, queued :: records =>
    match storeRecord codec nanoseconds store queued with
    | .ok after => insertRecords codec nanoseconds after records
    | .error cause => (store, .error cause)

/-- The writer of the database. -/
structure DatabaseTask where
  connected : Bool
  store : Store
  status : DatabaseStatus

/-- The database is open when the batch is written. -/
def DatabaseTask.reaches (task : DatabaseTask) (batch : DatabaseBatch) : Bool :=
  task.connected || batch.opens

/-- Insert the records of a batch; the first that is refused ends the batch. -/
def DatabaseTask.write (codec : Codec) (nanoseconds : String → Option Int) (task : DatabaseTask)
    (batch : DatabaseBatch) : DatabaseTask :=
  let last := (batch.records.getLastD batch.first).record
  let (store, result) :=
    if task.reaches batch then insertRecords codec nanoseconds task.store batch.records
    else (task.store, .error "database_open_failed")
  match result with
  | .ok () =>
    { connected := true
      store
      status :=
        { task.status with
          state := "writing"
          lastSuccessTradeId := last.trades.getLast?.map Trade.tradeId
          lastSuccessSourceTimeMs := last.trades.getLast?.map Trade.tradeTimeMs } }
  | .error _ =>
    { connected := false
      store
      status :=
        { task.status with
          state := "failed_retrying"
          lastAttemptTradeId := last.tradeId
          failedBatchRecords := some batch.records.length } }

/-! ## One record at a time -/

/-- What becomes of the records when each stands for itself: the store, and how
many were refused. -/
structure Alone where
  connected : Bool
  store : Store
  lost : Nat

/-- Insert a record, or count it as lost. -/
def Alone.put
    (codec : Codec) (nanoseconds : String → Option Int) (alone : Alone) (queued : Queued) : Alone :=
  match storeRecord codec nanoseconds alone.store queued with
  | .ok store => { alone with store }
  | .error _ => { alone with lost := alone.lost + 1 }

/-- Insert each record of a batch for itself. -/
def Alone.write (codec : Codec) (nanoseconds : String → Option Int) (alone : Alone)
    (batch : DatabaseBatch) : Alone :=
  if alone.connected || batch.opens then
    batch.records.foldl (Alone.put codec nanoseconds) { alone with connected := true }
  else { alone with lost := alone.lost + batch.records.length }

/-- The batches leave the store as the records one at a time would, and every
record that is lost is counted. -/
def LosesNoNeighbour (codec : Codec) (nanoseconds : String → Option Int) (task : DatabaseTask)
    (batches : List DatabaseBatch) : Prop :=
  (batches.foldl (DatabaseTask.write codec nanoseconds) task).store =
      (batches.foldl (Alone.write codec nanoseconds) ⟨task.connected, task.store, 0⟩).store ∧
    (batches.foldl (DatabaseTask.write codec nanoseconds) task).status.droppedRecords =
      task.status.droppedRecords +
        (batches.foldl (Alone.write codec nanoseconds) ⟨task.connected, task.store, 0⟩).lost

/-- The database can be opened, and takes every record in its turn. -/
def TakesAll (codec : Codec) (nanoseconds : String → Option Int) (task : DatabaseTask)
    (batches : List DatabaseBatch) : Prop :=
  (∀ batch ∈ batches.head?, task.reaches batch = true) ∧
    ∃ after, (batches.flatMap DatabaseBatch.records).foldlM (storeRecord codec nanoseconds)
      task.store = .ok after

section Writing

variable {codec : Codec} {nanoseconds : String → Option Int} {task : DatabaseTask}
  {batch : DatabaseBatch} {batches : List DatabaseBatch} {alone : Alone} {store after : Store}
  {records : List Queued}

/-- No batch counts a record as lost. -/
theorem droppedRecords_write :
    (task.write codec nanoseconds batch).status.droppedRecords = task.status.droppedRecords := by
  unfold DatabaseTask.write
  dsimp only
  split <;> rfl

/-- No batch counts a record as dropped. -/
theorem droppedRecords_writes :
    (batches.foldl (DatabaseTask.write codec nanoseconds) task).status.droppedRecords =
      task.status.droppedRecords := by
  induction batches generalizing task with
  | nil => rfl
  | cons batch batches ih => rw [foldl_cons, ih, droppedRecords_write]

/-- Records that are all taken are inserted as one batch. -/
theorem insertRecords_of_foldlM
    (taken : records.foldlM (storeRecord codec nanoseconds) store = .ok after) :
    insertRecords codec nanoseconds store records = (after, .ok ()) := by
  induction records generalizing store with
  | nil =>
    cases taken
    rfl
  | cons queued records ih =>
    obtain ⟨middle, now, later⟩ := foldlM_cons_ok.mp taken
    unfold insertRecords
    rw [now]
    exact ih later

/-- A batch whose records are all taken is stored. -/
theorem write_of_foldlM (reached : task.reaches batch = true)
    (taken : batch.records.foldlM (storeRecord codec nanoseconds) task.store = .ok after) :
    (task.write codec nanoseconds batch).connected = true ∧
      (task.write codec nanoseconds batch).store = after := by
  unfold DatabaseTask.write
  rw [if_pos reached, insertRecords_of_foldlM taken]
  exact ⟨rfl, rfl⟩

/-- Losses are never taken back, and there are none exactly when every record is
taken. -/
theorem lost_puts :
    alone.lost ≤ (records.foldl (Alone.put codec nanoseconds) alone).lost ∧
      ((records.foldl (Alone.put codec nanoseconds) alone).lost = alone.lost →
        records.foldlM (storeRecord codec nanoseconds) alone.store =
          .ok (records.foldl (Alone.put codec nanoseconds) alone).store) := by
  induction records generalizing alone with
  | nil => exact ⟨le_rfl, fun _ => rfl⟩
  | cons queued records ih =>
    obtain ⟨grows, taken⟩ := @ih (alone.put codec nanoseconds queued)
    rw [foldl_cons, foldlM_cons]
    cases stored : storeRecord codec nanoseconds alone.store queued with
    | ok after =>
      have next : alone.put codec nanoseconds queued = { alone with store := after } := by
        unfold Alone.put
        rw [stored]
      rw [next] at grows taken ⊢
      exact ⟨grows, taken⟩
    | error cause =>
      have next : alone.put codec nanoseconds queued = { alone with lost := alone.lost + 1 } := by
        unfold Alone.put
        rw [stored]
      rw [next] at grows ⊢
      dsimp only at grows
      constructor
      · omega
      · intro same
        omega

/-- Records that are all taken are lost nowhere. -/
theorem puts_of_foldlM
    (taken : records.foldlM (storeRecord codec nanoseconds) alone.store = .ok after) :
    records.foldl (Alone.put codec nanoseconds) alone = { alone with store := after } := by
  induction records generalizing alone with
  | nil =>
    cases taken
    rfl
  | cons queued records ih =>
    obtain ⟨middle, now, later⟩ := foldlM_cons_ok.mp taken
    have next : alone.put codec nanoseconds queued = { alone with store := middle } := by
      unfold Alone.put
      rw [now]
    rw [foldl_cons, next]
    exact @ih { alone with store := middle } later

theorem lost_write : alone.lost ≤ (alone.write codec nanoseconds batch).lost := by
  unfold Alone.write
  split
  · exact (@lost_puts codec nanoseconds { alone with connected := true } batch.records).1
  · exact Nat.le_add_right _ _

theorem lost_writes : alone.lost ≤ (batches.foldl (Alone.write codec nanoseconds) alone).lost := by
  induction batches generalizing alone with
  | nil => exact le_rfl
  | cons batch batches ih =>
    rw [foldl_cons]
    exact lost_write.trans ih

/-- A batch of which nothing is lost was reached and taken. -/
theorem taken_of_lost (lossless : (alone.write codec nanoseconds batch).lost = alone.lost) :
    (alone.connected || batch.opens) = true ∧
      ∃ after, batch.records.foldlM (storeRecord codec nanoseconds) alone.store = .ok after ∧
        alone.write codec nanoseconds batch = { alone with connected := true, store := after } := by
  unfold Alone.write at lossless ⊢
  split
  · rename_i reached
    rw [if_pos reached] at lossless
    have taken := (@lost_puts codec nanoseconds { alone with connected := true }
      batch.records).2 lossless
    exact ⟨reached, _, taken, puts_of_foldlM taken⟩
  · rename_i closed
    rw [if_neg closed] at lossless
    unfold DatabaseBatch.records at lossless
    dsimp only [length_cons] at lossless
    omega

/-- When nothing is lost, the database is open and every record is taken. -/
theorem taken_of_losses
    (lossless : (batches.foldl (Alone.write codec nanoseconds) alone).lost = alone.lost) :
    (∀ batch ∈ batches.head?, (alone.connected || batch.opens) = true) ∧
      ∃ after, (batches.flatMap DatabaseBatch.records).foldlM (storeRecord codec nanoseconds)
        alone.store = .ok after := by
  induction batches generalizing alone with
  | nil => exact ⟨by simp, _, rfl⟩
  | cons batch batches ih =>
    rw [foldl_cons] at lossless
    have early := @lost_write codec nanoseconds batch alone
    have late := @lost_writes codec nanoseconds batches (alone.write codec nanoseconds batch)
    obtain ⟨reached, after, taken, next⟩ := @taken_of_lost codec nanoseconds batch alone (by omega)
    rw [next] at lossless
    obtain ⟨_, final, rest⟩ := ih lossless
    refine ⟨by simpa using reached, final, ?_⟩
    rw [flatMap_cons]
    exact foldlM_append_ok.mpr ⟨after, taken, rest⟩

/-- When every record is taken, the task and the records alone agree. -/
theorem writes_of_foldlM (reached : ∀ batch ∈ batches.head?, task.reaches batch = true)
    (taken : (batches.flatMap DatabaseBatch.records).foldlM (storeRecord codec nanoseconds)
      task.store = .ok after)
    (lost : Nat) :
    (batches.foldl (DatabaseTask.write codec nanoseconds) task).store = after ∧
      (batches.foldl (Alone.write codec nanoseconds) ⟨task.connected, task.store, lost⟩).store =
        after ∧
      (batches.foldl (Alone.write codec nanoseconds) ⟨task.connected, task.store, lost⟩).lost =
        lost := by
  induction batches generalizing task with
  | nil =>
    cases taken
    exact ⟨rfl, rfl, rfl⟩
  | cons batch batches ih =>
    have now := reached batch (by simp)
    rw [flatMap_cons] at taken
    obtain ⟨middle, first, rest⟩ := foldlM_append_ok.mp taken
    obtain ⟨connected, stored⟩ := write_of_foldlM now first
    have single : Alone.write codec nanoseconds ⟨task.connected, task.store, lost⟩ batch =
        ⟨(task.write codec nanoseconds batch).connected,
          (task.write codec nanoseconds batch).store, lost⟩ := by
      unfold Alone.write
      rw [connected, stored]
      unfold DatabaseTask.reaches at now
      rw [if_pos now]
      exact @puts_of_foldlM codec nanoseconds ⟨true, task.store, lost⟩ middle batch.records first
    rw [foldl_cons, foldl_cons, single]
    apply ih
    · intro next _
      unfold DatabaseTask.reaches
      rw [connected, Bool.true_or]
    · rw [stored]
      exact rest

/-- A batch is taken whole, or up to the first record that is refused. -/
theorem insertRecords_cases (records : List Queued) (store : Store) :
    (∃ after, records.foldlM (storeRecord codec nanoseconds) store = .ok after) ∨
      ∃ taken refused behind middle cause, records = taken ++ refused :: behind ∧
        taken.foldlM (storeRecord codec nanoseconds) store = .ok middle ∧
          storeRecord codec nanoseconds middle refused = .error cause := by
  induction records generalizing store with
  | nil => exact .inl ⟨store, rfl⟩
  | cons queued records ih =>
    cases stored : storeRecord codec nanoseconds store queued with
    | error cause => exact .inr ⟨[], queued, records, store, cause, rfl, rfl, stored⟩
    | ok after =>
      rcases ih after with ⟨final, rest⟩ | ⟨taken, refused, behind, middle, cause, split, rest, no⟩
      · exact .inl ⟨final, foldlM_cons_ok.mpr ⟨after, stored, rest⟩⟩
      · exact .inr ⟨queued :: taken, refused, behind, middle, cause, by rw [split]; rfl,
          foldlM_cons_ok.mpr ⟨after, stored, rest⟩, no⟩

variable {taken behind : List Queued} {refused : Queued} {middle : Store} {cause : String}

/-- The first record that is refused takes those behind it along. Alone they
would go on from the store that it leaves. -/
theorem store_of_refused
    (reached : task.reaches batch = true) (split : batch.records = taken ++ refused :: behind)
    (stored : taken.foldlM (storeRecord codec nanoseconds) task.store = .ok middle)
    (rejected : storeRecord codec nanoseconds middle refused = .error cause) :
    (task.write codec nanoseconds batch).store = middle ∧
      (Alone.write codec nanoseconds ⟨task.connected, task.store, 0⟩ batch).store =
        (behind.foldl (Alone.put codec nanoseconds) ⟨true, middle, 1⟩).store := by
  have stops : insertRecords codec nanoseconds task.store batch.records =
      (middle, .error cause) := by
    rw [split]
    clear split reached
    generalize task.store = store at stored
    induction taken generalizing store with
    | nil =>
      cases stored
      rw [nil_append]
      unfold insertRecords
      rw [rejected]
    | cons queued taken ih =>
      obtain ⟨next, now, later⟩ := foldlM_cons_ok.mp stored
      rw [cons_append]
      unfold insertRecords
      rw [now]
      exact ih next later
  constructor
  · unfold DatabaseTask.write
    rw [if_pos reached, stops]
  · unfold Alone.write
    unfold DatabaseTask.reaches at reached
    rw [if_pos reached, split, foldl_append, foldl_cons,
      @puts_of_foldlM codec nanoseconds ⟨true, task.store, 0⟩ middle taken stored]
    unfold Alone.put
    rw [rejected]

/-- A batch leaves the store that its records alone would leave exactly when
those behind its first refused one would add nothing. -/
theorem keepsNeighbours_iff (reached : task.reaches batch = true) :
    (task.write codec nanoseconds batch).store =
        (Alone.write codec nanoseconds ⟨task.connected, task.store, 0⟩ batch).store ↔
      ∀ taken refused behind middle cause, batch.records = taken ++ refused :: behind →
        taken.foldlM (storeRecord codec nanoseconds) task.store = .ok middle →
          storeRecord codec nanoseconds middle refused = .error cause →
            (behind.foldl (Alone.put codec nanoseconds) ⟨true, middle, 1⟩).store = middle := by
  constructor
  · intro same taken refused behind middle cause split stored rejected
    obtain ⟨kept, alone⟩ := store_of_refused reached split stored rejected
    rw [← alone, ← same, kept]
  · intro nothing
    rcases @insertRecords_cases codec nanoseconds batch.records task.store with
      ⟨after, whole⟩ | ⟨taken, refused, behind, middle, cause, split, stored, rejected⟩
    · have single := @writes_of_foldlM codec nanoseconds task [batch] after
        (by simpa using reached) (by simpa using whole) 0
      exact single.1.trans single.2.1.symm
    · obtain ⟨kept, alone⟩ := store_of_refused reached split stored rejected
      rw [kept, alone, nothing taken refused behind middle cause split stored rejected]

/-- However the records are put into batches, none is lost and uncounted exactly
when the database takes them all. -/
theorem losesNoNeighbour_iff
    (codec : Codec) (nanoseconds : String → Option Int) (task : DatabaseTask)
    (batches : List DatabaseBatch) :
    LosesNoNeighbour codec nanoseconds task batches ↔ TakesAll codec nanoseconds task batches := by
  constructor
  · rintro ⟨_, counted⟩
    rw [droppedRecords_writes] at counted
    have lossless : (batches.foldl (Alone.write codec nanoseconds)
        ⟨task.connected, task.store, 0⟩).lost = 0 := by
      omega
    exact taken_of_losses lossless
  · rintro ⟨reached, after, taken⟩
    obtain ⟨stored, single, lossless⟩ := writes_of_foldlM reached taken 0
    constructor
    · rw [stored, single]
    · rw [droppedRecords_writes, lossless]
      exact (Nat.add_zero _).symm

end Writing

/-! ## A trade with another price -/

section Sample

/-- Reads two prices. -/
def pricedCodec : Codec where
  parse := fun text => if text = "1" then some 1 else if text = "2" then some 2 else none
  parseExact := fun _ => none
  text := fun _ => ""
  rfc3339 := fun _ => none

/-- A frame with one trade. -/
def queuedTrade (tradeId : Nat) (price : String) : Queued where
  record :=
    { epoch := "epoch"
      tradeId := some tradeId
      receivedAt := ""
      raw := [0]
      trades := [⟨tradeId, 1, some 1, price, "1", some true, none, none⟩]
      ownedBytes := 400 }
  fresh := "evidence"
  fault := none
  traded := cons_ne_nil _ _

/-- An open database without rows. -/
def idleTask : DatabaseTask where
  connected := true
  store := ⟨⟨[], by decide⟩, [], []⟩
  status := ⟨"writing", 0, none, none, none, none⟩

/-- Trade 5, trade 5 with another price, and trade 6. -/
def conflictBatch : DatabaseBatch :=
  .collect (queuedTrade 5 "1") [queuedTrade 5 "2", queuedTrade 6 "1"] true

/-- The refused record takes the one behind it along, and nothing is counted. -/
theorem neighbour_lost :
    ¬LosesNoNeighbour pricedCodec (fun _ => none) idleTask [conflictBatch] ∧
      (idleTask.write pricedCodec (fun _ => none) conflictBatch).store.trades.rows.map
        Trade.tradeId = [5] ∧
      (Alone.write pricedCodec (fun _ => none) ⟨true, idleTask.store, 0⟩
        conflictBatch).store.trades.rows.map Trade.tradeId = [5, 6] ∧
      (idleTask.write pricedCodec (fun _ => none) conflictBatch).status.droppedRecords = 0 := by
  refine ⟨?_, by decide +kernel, by decide +kernel, by decide +kernel⟩
  rintro ⟨_, counted⟩
  revert counted
  decide +kernel

end Sample

end MarketCow.Btc
