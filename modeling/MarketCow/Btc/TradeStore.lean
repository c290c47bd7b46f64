import MarketCow.Library.Table
import MarketCow.Sdk.PriceState

/-!
# The store of trades

Trades by their ids, and a log of repairs: a batch that changes a stored trade,
or that brings a trade below the highest one stored before it, records the id.
-/

namespace MarketCow.Btc

open Library List
open MarketCow.Core (Decimal)
open Live (Codec ensure need ensure_ok)
open Sdk (Trade)

/-- The trades by id. -/
abbrev TradeTable := Table Trade.tradeId

/-- A raw text, and where and when it was received. -/
structure EvidenceInput where
  raw : List UInt8
  acquisition : String
  upstreamUrl : String
  receivedAtNs : Option Int
  sourceGeneration : Option String
  contentType : String

/-- A stored raw text. -/
structure EvidenceRow where
  evidenceId : String
  input : EvidenceInput

/-- The database. The revision of a repair is its place in the log, from one on:
rows of the log are never deleted. -/
structure Store where
  trades : TradeTable
  repairs : List Nat
  evidence : List EvidenceRow

/-- A number of the database, which has 64 bits and a sign. -/
def rowNumber (value : Nat) (message : String) : Except String Nat :=
  if value < 2 ^ 63 then .ok value else .error message

theorem rowNumber_ok : rowNumber value message = .ok result ↔ value < 2 ^ 63 ∧ result = value := by
  unfold rowNumber
  split
  · rename_i small
    rw [Except.ok.injEq, eq_comm]
    exact (and_iff_right small).symm
  · rename_i large
    constructor
    · intro never
      cases never
    · rintro ⟨small, _⟩
      exact absurd small large

/-! ## Checks -/

/-- A positive number without exponent or sign. -/
def positiveDecimal (codec : Codec) (text : String) : Except String Decimal := do
  ensure (!text.isEmpty && text.utf8ByteSize ≤ 96 && !text.toList.any fun character =>
    character == 'e' || character == 'E' || character == '+') "decimal syntax"
  let value ← need (codec.parse text) "decimal parse"
  ensure (0 < value) "decimal range"
  .ok value

/-- A trade has an id, a time, a side, a price and a quantity. -/
def validateTrade (codec : Codec) (row : Trade) : Except String Unit := do
  ensure (decide (0 < row.tradeId) && decide (0 < row.tradeTimeMs) &&
    row.eventTimeMs.all (fun time => decide (0 < time)) && row.buyerIsMaker.isSome)
    "trade identity/time"
  let _ ← positiveDecimal codec row.price
  let _ ← positiveDecimal codec row.quantity
  .ok ()

theorem tradeId_pos_of_validateTrade (valid : validateTrade codec row = .ok value) :
    0 < row.tradeId := by
  obtain ⟨_, identified, _⟩ := bind_ok.mp valid
  have holds := ensure_ok.mp identified
  simp only [and_eq_true, decide_eq_true_eq] at holds
  exact holds.1.1.1

/-- A row again has the time, the side and the amounts of the stored one. -/
def checkIdentity (codec : Codec) (prior row : Trade) : Except String Unit := do
  ensure (decide (prior.tradeTimeMs = row.tradeTimeMs) &&
    (prior.eventTimeMs.isNone || row.eventTimeMs.isNone ||
      decide (prior.eventTimeMs = row.eventTimeMs))) "trade identity conflict"
  let priorPrice ← positiveDecimal codec prior.price
  let price ← positiveDecimal codec row.price
  ensure (decide (priorPrice = price)) "trade identity conflict"
  let priorQuantity ← positiveDecimal codec prior.quantity
  let quantity ← positiveDecimal codec row.quantity
  ensure (decide (priorQuantity = quantity) && decide (prior.buyerIsMaker = row.buyerIsMaker))
    "trade identity conflict"

/-! ## Writing a batch -/

/-- A batch that is being written: the evidence row is added once, when a row
first refers to it. -/
structure Insertion where
  store : Store
  evidenceId : Option String
  inserted : Nat

/-- Store a raw text of at most a mebibyte whose origin is known. -/
def evidence (fresh : String) (input : EvidenceInput) (store : Store) : Except String Store := do
  ensure (!input.raw.isEmpty && decide (input.raw.length ≤ 1024 * 1024)) "evidence byte capacity"
  ensure (!input.acquisition.isEmpty && !input.upstreamUrl.isEmpty) "evidence provenance"
  .ok { store with evidence := store.evidence ++ [⟨fresh, input⟩] }

/-- The evidence row of the batch. -/
def Insertion.refer (fresh : String) (input : EvidenceInput)
    (insertion : Insertion) : Except String (String × Insertion) :=
  match insertion.evidenceId with
  | some known => .ok (known, insertion)
  | none => do
    let store ← evidence fresh input insertion.store
    .ok (fresh, { insertion with store, evidenceId := some fresh })

/-- A stored trade with the event time of a later row. -/
def enriched (prior row : Trade) (known : String) (index : Nat) : Trade :=
  { prior with
    eventTimeMs := row.eventTimeMs
    price := row.price
    quantity := row.quantity
    receivedAtNs := row.receivedAtNs
    evidence := some ⟨known, some index⟩ }

/-- A stored trade that lacks its event time gets the one of a later row. -/
def Insertion.enrich
    (fresh : String) (input : EvidenceInput) (insertion : Insertion) (prior row : Trade)
    (index : Nat) : Except String Insertion :=
  if prior.eventTimeMs.isNone && row.eventTimeMs.isSome then do
    let (known, insertion) ← insertion.refer fresh input
    .ok { insertion with
      store := { insertion.store with
        trades := insertion.store.trades.put (enriched prior row known index)
        repairs := insertion.store.repairs ++ [prior.tradeId] } }
  else .ok insertion

/-- A new trade; one that is not above the highest of before is a repair. -/
def Insertion.add
    (fresh : String) (input : EvidenceInput) (high : Option Nat) (insertion : Insertion)
    (row : Trade) (index : Nat) : Except String Insertion := do
  let (known, insertion) ← insertion.refer fresh input
  let _ ← need row.buyerIsMaker "maker missing"
  .ok { insertion with
    store := { insertion.store with
      trades := insertion.store.trades.put { row with evidence := some ⟨known, some index⟩ }
      repairs :=
        if high.any fun before => decide (row.tradeId ≤ before) then
          insertion.store.repairs ++ [row.tradeId]
        else insertion.store.repairs }
    inserted := insertion.inserted + 1 }

/-- A known trade is checked and enriched, a new one added. -/
def insertRow
    (codec : Codec) (fresh : String) (input : EvidenceInput) (high : Option Nat)
    (insertion : Insertion) (numbered : Trade × Nat) : Except String Insertion := do
  let number ← rowNumber numbered.1.tradeId "trade ID database range"
  match insertion.store.trades.find number with
  | some prior => do
    checkIdentity codec prior numbered.1
    insertion.enrich fresh input prior numbered.1 numbered.2
  | none => insertion.add fresh input high numbered.1 numbered.2

/-- The highest id of a table. -/
def highest (trades : TradeTable) : Option Nat :=
  (trades.last fun _ => true).map Trade.tradeId

/-- Write a batch, with the id of its evidence row; nothing stays of a batch
that fails. -/
def insertTrades
    (codec : Codec) (fresh : String) (rows : List Trade) (input : EvidenceInput)
    (store : Store) : Except String (Nat × Store) := do
  ensure (!rows.isEmpty && decide (rows.length ≤ 1000)) "trade batch capacity"
  rows.forM (validateTrade codec)
  let finished ← rows.zipIdx.foldlM (insertRow codec fresh input (highest store.trades))
    ⟨store, none, 0⟩
  .ok (finished.inserted, finished.store)

/-! ## Revisions -/

/-- The last revision of a repair between two ids. -/
def lastRevision (repairs : List Nat) (first through : Nat) : Nat :=
  match ((repairs.zipIdx 1).filter fun repair =>
      decide (first ≤ repair.1) && decide (repair.1 ≤ through)).getLast? with
  | some repair => repair.2
  | none => 0

/-- One more than the last repair that touched the range. -/
def revision (repairs : List Nat) (first through : Nat) : Except String Nat := do
  let first ← rowNumber first "out of range integral type conversion attempted"
  let through ← rowNumber through "out of range integral type conversion attempted"
  ensure (decide (0 < lastRevision repairs first through + 1)) "invalid database revision"
  .ok (lastRevision repairs first through + 1)

section Revisions

variable {repairs more : List Nat} {first through : Nat}

theorem revision_ok_iff :
    revision repairs first through = .ok value ↔
      first < 2 ^ 63 ∧ through < 2 ^ 63 ∧ value = lastRevision repairs first through + 1 := by
  unfold revision
  rw [bind_ok]
  constructor
  · rintro ⟨front, one, rest⟩
    obtain ⟨small, same⟩ := rowNumber_ok.mp one
    subst front
    obtain ⟨back, two, rest⟩ := bind_ok.mp rest
    obtain ⟨below, same⟩ := rowNumber_ok.mp two
    subst back
    obtain ⟨_, _, rest⟩ := bind_ok.mp rest
    exact ⟨small, below, (ok.inj rest).symm⟩
  · rintro ⟨small, below, rfl⟩
    refine ⟨first, rowNumber_ok.mpr ⟨small, rfl⟩, bind_ok.mpr
      ⟨through, rowNumber_ok.mpr ⟨below, rfl⟩, ?_⟩⟩
    exact bind_ok.mpr ⟨(), ensure_ok.mpr (by simp), rfl⟩

theorem lastRevision_le : lastRevision repairs first through ≤ repairs.length := by
  unfold lastRevision
  split
  · rename_i repair found
    have mem := (mem_filter.mp (mem_of_getLast? found)).1
    have bound := snd_lt_of_mem_zipIdx mem
    omega
  · exact Nat.zero_le _

/-- Repairs elsewhere leave the revision of a range as it is. -/
theorem lastRevision_append_of_outside
    (outside : ∀ number ∈ more, ¬(first ≤ number ∧ number ≤ through)) :
    lastRevision (repairs ++ more) first through = lastRevision repairs first through := by
  unfold lastRevision
  have none : ((more.zipIdx (1 + repairs.length)).filter fun repair =>
      decide (first ≤ repair.1) && decide (repair.1 ≤ through)) = [] := by
    rw [filter_eq_nil_iff]
    rintro ⟨number, place⟩ mem within
    simp only [and_eq_true, decide_eq_true_eq] at within
    exact outside number (fst_mem_of_mem_zipIdx mem) within
  rw [zipIdx_append, filter_append, none, append_nil]

/-- A repair in a range gives the range a new revision. -/
theorem lt_lastRevision_append
    {number : Nat} (mem : number ∈ more) (above : first ≤ number) (below : number ≤ through) :
    lastRevision repairs first through < lastRevision (repairs ++ more) first through := by
  have bound := @lastRevision_le repairs first through
  have later : ∀ repair ∈ more.zipIdx (1 + repairs.length), repairs.length < repair.2 := by
    rintro ⟨other, place⟩ there
    have start := le_snd_of_mem_zipIdx there
    omega
  obtain ⟨place, there⟩ : ∃ place, (number, place) ∈ more.zipIdx (1 + repairs.length) := by
    have listed : number ∈ (more.zipIdx (1 + repairs.length)).map Prod.fst := by
      rw [zipIdx_map_fst]
      exact mem
    obtain ⟨⟨_, place⟩, there, rfl⟩ := mem_map.mp listed
    exact ⟨place, there⟩
  have accepted : (number, place) ∈ (more.zipIdx (1 + repairs.length)).filter fun repair =>
      decide (first ≤ repair.1) && decide (repair.1 ≤ through) := by
    refine mem_filter.mpr ⟨there, ?_⟩
    simp [above, below]
  refine lt_of_le_of_lt bound ?_
  unfold lastRevision
  rw [zipIdx_append, filter_append, getLast?_append_of_ne_nil _ (ne_nil_of_mem accepted)]
  obtain ⟨repair, found⟩ := getLast?_isSome.mpr (ne_nil_of_mem accepted) |> isSome_iff_exists.mp
  rw [found]
  exact later repair (mem_filter.mp (mem_of_getLast? found)).1

end Revisions

end MarketCow.Btc
