import MarketCow.Btc.TradeBatches

/-!
# What two writers make of the records of trades

A live writer and a migration of an older database write batches of records into
one store. Stored are, for every trade, the facts that its records agree on and
the event time that one of them tells; the order of the batches, their bounds,
repetitions and crashes do not show.
-/

namespace MarketCow.Btc

open Library List
open Option (map_some some.inj)
open MarketCow.Core (Decimal)
open Live (Codec ensure need ensure_ok need_ok)
open Sdk (EvidenceReference Trade)
open Table (eq_of_key_eq find_eq_some_iff mem_put)
open Prod (fst mk.inj)

/-! ## Records of one trade -/

/-- What every record of a trade tells. -/
def facts (codec : Codec) (row : Trade) : Int × Option Decimal × Option Decimal × Option Bool :=
  (row.tradeTimeMs, codec.parse row.price, codec.parse row.quantity, row.buyerIsMaker)

/-- Two records of a trade do not contradict each other. -/
structure Agree (codec : Codec) (first second : Trade) : Prop where
  facts : facts codec first = facts codec second
  event : ∀ early late, first.eventTimeMs = some early → second.eventTimeMs = some late →
    early = late

/-- Records with the same id agree. -/
def Consistent (codec : Codec) (records : Set Trade) : Prop :=
  ∀ first ∈ records, ∀ second ∈ records, first.tradeId = second.tradeId → Agree codec first second

theorem Consistent.mono
    {some all : Set Trade} (consistent : Consistent codec all) (subset : some ⊆ all) :
    Consistent codec some :=
  fun first one second two => consistent first (subset one) second (subset two)

/-- A record that the database takes. -/
structure Acceptable (codec : Codec) (row : Trade) : Prop where
  valid : validateTrade codec row = .ok ()
  number : row.tradeId < 2 ^ 63

/-- A body that is stored as evidence. -/
structure Sourced (input : EvidenceInput) : Prop where
  body : (!input.raw.isEmpty && decide (input.raw.length ≤ 1024 * 1024)) = true
  provenance : (!input.acquisition.isEmpty && !input.upstreamUrl.isEmpty) = true

/-- A stored row has the facts of a record, and its event time when it tells one. -/
structure Tells (codec : Codec) (row record : Trade) : Prop where
  number : row.tradeId = record.tradeId
  facts : Btc.facts codec row = Btc.facts codec record
  event : ∀ time, record.eventTimeMs = some time → row.eventTimeMs = some time

/-- The table tells every record, and nothing that no record tells. -/
structure Merged (codec : Codec) (records : Set Trade) (table : TradeTable) : Prop where
  priced : ∀ row ∈ table.rows, Acceptable codec row
  told : ∀ record ∈ records, ∃ row ∈ table.rows, Tells codec row record
  backed : ∀ row ∈ table.rows, ∃ record ∈ records, Tells codec row record
  timed : ∀ row ∈ table.rows, ∀ time, row.eventTimeMs = some time →
    ∃ record ∈ records, record.tradeId = row.tradeId ∧ record.eventTimeMs = some time

/-- What is known of a trade: its facts and its event time. -/
def economics (codec : Codec) (table : TradeTable) (number : Nat) :
    Option ((Int × Option Decimal × Option Decimal × Option Bool) × Option Int) :=
  (table.find number).map fun row => (facts codec row, row.eventTimeMs)

section Tables

variable {codec : Codec} {records : Set Trade} {table other : TradeTable}

theorem Tells.refl (row : Trade) : Tells codec row row where
  number := rfl
  facts := rfl
  event _ timed := timed

section

variable (merged : Merged codec records table) (again : Merged codec records other)
include merged again

/-- A table that tells the same records has the row, its facts and its time. -/
theorem Merged.find
    (found : table.find number = some row) :
    ∃ found, other.find number = some found ∧ Btc.facts codec found = Btc.facts codec row ∧
      ∀ time, row.eventTimeMs = some time → found.eventTimeMs = some time := by
  obtain ⟨mem, rfl⟩ := find_eq_some_iff.mp found
  obtain ⟨record, listed, tells⟩ := merged.backed row mem
  obtain ⟨found, there, same⟩ := again.told record listed
  refine ⟨found, find_eq_some_iff.mpr ⟨there, same.number.trans tells.number.symm⟩,
    same.facts.trans tells.facts.symm, ?_⟩
  intro time timed
  obtain ⟨witness, known, number, event⟩ := merged.timed row mem time timed
  obtain ⟨another, present, equal⟩ := again.told witness known
  have one := eq_of_key_eq there present
    (same.number.trans (tells.number.symm.trans (number.symm.trans equal.number.symm)))
  rw [one]
  exact equal.event time event

/-- Two tables that tell the same records know the same. -/
theorem Merged.economics_eq :
    economics codec table = economics codec other := by
  funext number
  unfold economics
  cases found : table.find number with
  | none =>
    cases there : other.find number with
    | none => rfl
    | some row =>
      obtain ⟨_, never, _⟩ := again.find merged there
      rw [found] at never
      cases never
  | some row =>
    obtain ⟨same, there, equal, forward⟩ := merged.find again found
    obtain ⟨_, present, _, backward⟩ := again.find merged there
    obtain rfl := some.inj (found.symm.trans present)
    have times : same.eventTimeMs = row.eventTimeMs :=
      Option.ext fun time => ⟨backward time, forward time⟩
    rw [there, map_some, map_some, equal, times]

end

theorem merged_empty : Merged codec ∅ Table.empty where
  priced _ impossible := absurd impossible not_mem_nil
  told _ impossible := absurd impossible (Set.notMem_empty _)
  backed _ impossible := absurd impossible not_mem_nil
  timed _ impossible := absurd impossible not_mem_nil

variable {row stored : Trade}

/-- A record that is told already adds nothing. -/
theorem Merged.keep
    (merged : Merged codec records table) (told : ∃ found ∈ table.rows, Tells codec found row) :
    Merged codec (insert row records) table where
  priced := merged.priced
  told record listed := by
    rcases Set.mem_insert_iff.mp listed with rfl | listed
    · exact told
    · exact merged.told record listed
  backed found member := by
    obtain ⟨record, listed, tells⟩ := merged.backed found member
    exact ⟨record, Set.mem_insert_of_mem _ listed, tells⟩
  timed found member time timed := by
    obtain ⟨record, listed, event⟩ := merged.timed found member time timed
    exact ⟨record, Set.mem_insert_of_mem _ listed, event⟩

/-- A row that tells the new record and all the others of its trade. -/
theorem Merged.put (merged : Merged codec records table) (acceptable : Acceptable codec stored)
    (tells : Tells codec stored row) (event : stored.eventTimeMs = row.eventTimeMs)
    (older : ∀ record ∈ records, record.tradeId = row.tradeId → Tells codec stored record) :
    Merged codec (insert row records) (table.put stored) where
  priced found member := by
    rcases mem_put.mp member with rfl | ⟨member, _⟩
    · exact acceptable
    · exact merged.priced found member
  told record listed := by
    rcases Set.mem_insert_iff.mp listed with rfl | listed
    · exact ⟨stored, mem_put.mpr (.inl rfl), tells⟩
    · by_cases same : record.tradeId = row.tradeId
      · exact ⟨stored, mem_put.mpr (.inl rfl), older record listed same⟩
      · obtain ⟨found, member, known⟩ := merged.told record listed
        refine ⟨found, mem_put.mpr (.inr ⟨member, ?_⟩), known⟩
        rw [known.number, tells.number]
        exact same
  backed found member := by
    rcases mem_put.mp member with rfl | ⟨member, _⟩
    · exact ⟨row, Set.mem_insert _ _, tells⟩
    · obtain ⟨record, listed, known⟩ := merged.backed found member
      exact ⟨record, Set.mem_insert_of_mem _ listed, known⟩
  timed found member time timed := by
    rcases mem_put.mp member with rfl | ⟨member, _⟩
    · exact ⟨row, Set.mem_insert _ _, tells.number.symm, event ▸ timed⟩
    · obtain ⟨record, listed, known⟩ := merged.timed found member time timed
      exact ⟨record, Set.mem_insert_of_mem _ listed, known⟩

end Tables

/-! ## One row -/

section Rows

variable {codec : Codec} {fresh : String} {input : EvidenceInput} {high : Option Nat}
  {insertion finished : Insertion} {prior row : Trade} {index : Nat}

theorem parse_of_positiveDecimal (read : positiveDecimal codec text = .ok value) :
    codec.parse text = some value := by
  obtain ⟨_, _, parsed, present, _, _, read⟩ := bind₃_ok.mp read
  cases read
  exact need_ok.mp present

/-- The amounts of an acceptable record can be read. -/
theorem Acceptable.amounts (acceptable : Acceptable codec row) :
    (∃ price, positiveDecimal codec row.price = .ok price) ∧
      (∃ quantity, positiveDecimal codec row.quantity = .ok quantity) ∧
        ∃ maker, row.buyerIsMaker = some maker := by
  obtain ⟨_, identified, valid⟩ := bind_ok.mp acceptable.valid
  obtain ⟨price, priced, quantity, counted, _⟩ := bind₂_ok.mp valid
  have holds := ensure_ok.mp identified
  simp only [and_eq_true] at holds
  exact ⟨⟨price, priced⟩, ⟨quantity, counted⟩, isSome_iff_exists.mp holds.2⟩

theorem agree_of_checkIdentity (same : checkIdentity codec prior row = .ok ()) :
    Agree codec prior row := by
  obtain ⟨_, timed, priorPrice, before, price, after, same⟩ := bind₃_ok.mp same
  obtain ⟨_, priced, priorQuantity, earlier, quantity, later, same⟩ := bind₃_ok.mp same
  have times := ensure_ok.mp timed
  have prices := ensure_ok.mp priced
  have sides := ensure_ok.mp same
  simp only [and_eq_true, or_eq_true, decide_eq_true_eq, isNone_iff_eq_none] at times prices sides
  constructor
  · unfold facts
    rw [times.1, parse_of_positiveDecimal before, parse_of_positiveDecimal after, prices,
      parse_of_positiveDecimal earlier, parse_of_positiveDecimal later, sides.1, sides.2]
  · intro early late first second
    rcases times.2 with (absent | absent) | equal
    · rw [absent] at first
      cases first
    · rw [absent] at second
      cases second
    · rw [first, second] at equal
      exact some.inj equal

theorem checkIdentity_of_agree (known : Acceptable codec prior) (acceptable : Acceptable codec row)
    (agree : Agree codec prior row) :
    checkIdentity codec prior row = .ok () := by
  obtain ⟨⟨priorPrice, before⟩, ⟨priorQuantity, earlier⟩, _⟩ := known.amounts
  obtain ⟨⟨price, after⟩, ⟨quantity, later⟩, _⟩ := acceptable.amounts
  have equal := agree.facts
  unfold facts at equal
  rw [parse_of_positiveDecimal before, parse_of_positiveDecimal after,
    parse_of_positiveDecimal earlier, parse_of_positiveDecimal later] at equal
  obtain ⟨times, equal⟩ := mk.inj equal
  obtain ⟨prices, equal⟩ := mk.inj equal
  obtain ⟨quantities, sides⟩ := mk.inj equal
  cases prices
  cases quantities
  have timed : (decide (prior.tradeTimeMs = row.tradeTimeMs) &&
      (prior.eventTimeMs.isNone || row.eventTimeMs.isNone ||
        decide (prior.eventTimeMs = row.eventTimeMs))) = true := by
    rw [times, decide_eq_true rfl, Bool.true_and]
    cases first : prior.eventTimeMs with
    | none => rfl
    | some early =>
      cases second : row.eventTimeMs with
      | none => rfl
      | some late => simp [agree.event early late first second]
  unfold checkIdentity
  refine bind_ok.mpr ⟨(), ensure_ok.mpr timed, ?_⟩
  refine bind_ok.mpr ⟨_, before, bind_ok.mpr ⟨_, after, ?_⟩⟩
  refine bind_ok.mpr ⟨(), ensure_ok.mpr (decide_eq_true rfl), ?_⟩
  refine bind_ok.mpr ⟨_, earlier, bind_ok.mpr ⟨_, later, ?_⟩⟩
  exact ensure_ok.mpr (by rw [sides]; simp)

/-- What a row that is taken does to the trades. -/
inductive Written (codec : Codec) (row : Trade) (before after : TradeTable) : Prop
  | known (prior : Trade) :
      prior ∈ before.rows →
      Tells codec prior row →
      after = before →
      Written codec row before after
  | put (evidence : Option EvidenceReference) :
      (∀ prior ∈ before.rows, prior.tradeId = row.tradeId →
        Agree codec prior row ∧ prior.eventTimeMs = none) →
      after = before.put { row with evidence } →
      Written codec row before after

theorem written_of_enrich
    (mem : prior ∈ insertion.store.trades.rows) (same : prior.tradeId = row.tradeId)
    (agree : Agree codec prior row)
    (enriched : insertion.enrich fresh input prior row index = .ok finished) :
    Written codec row insertion.store.trades finished.store.trades := by
  unfold Insertion.enrich at enriched
  split at enriched
  · rename_i timed
    obtain ⟨⟨known, middle⟩, referred, enriched⟩ := bind_ok.mp enriched
    obtain ⟨trades, _⟩ := frame_of_refer referred
    cases enriched
    rw [and_eq_true, isNone_iff_eq_none] at timed
    refine .put (some ⟨known, some index⟩) ?_ ?_
    · intro other there equal
      rw [eq_of_key_eq there mem (equal.trans same.symm)]
      exact ⟨agree, timed.1⟩
    · have stored : Btc.enriched prior row known index =
          { row with evidence := some ⟨known, some index⟩ } := by
        obtain ⟨times, rest⟩ := mk.inj agree.facts
        obtain ⟨_, rest⟩ := mk.inj rest
        obtain ⟨_, sides⟩ := mk.inj rest
        unfold Btc.enriched
        rw [same, times, sides]
      rw [stored, trades]
  · rename_i untimed
    cases enriched
    refine .known prior mem ⟨same, agree.facts, ?_⟩ rfl
    intro time event
    cases known : prior.eventTimeMs with
    | none =>
      rw [known, event] at untimed
      exact absurd rfl untimed
    | some early => rw [agree.event early time known event]

theorem written_of_insertRow
    (inserted : insertRow codec fresh input high insertion numbered = .ok finished) :
    numbered.1.tradeId < 2 ^ 63 ∧
      Written codec numbered.1 insertion.store.trades finished.store.trades := by
  obtain ⟨number, counted, inserted⟩ := bind_ok.mp inserted
  obtain ⟨small, equal⟩ := rowNumber_ok.mp counted
  subst number
  refine ⟨small, ?_⟩
  split at inserted
  · rename_i prior present
    obtain ⟨mem, same⟩ := find_eq_some_iff.mp present
    obtain ⟨_, checked, inserted⟩ := bind_ok.mp inserted
    exact written_of_enrich mem same (agree_of_checkIdentity checked) inserted
  · rename_i absent
    obtain ⟨⟨known, middle⟩, referred, inserted⟩ := bind_ok.mp inserted
    obtain ⟨trades, _⟩ := frame_of_refer referred
    obtain ⟨_, _, inserted⟩ := bind_ok.mp inserted
    cases inserted
    refine .put (some ⟨known, some numbered.2⟩) ?_ ?_
    · intro prior there same
      exact absurd same (Table.find_eq_none_iff.mp absent prior there)
    · rw [trades]

variable {records : Set Trade} {before after : TradeTable} {record : Trade}

theorem Merged.write (merged : Merged codec records before) (acceptable : Acceptable codec row)
    (written : Written codec row before after) :
    Merged codec (insert row records) after := by
  cases written with
  | known prior mem tells same =>
    rw [same]
    exact merged.keep ⟨prior, mem, tells⟩
  | put evidence prior same =>
    rw [same]
    refine merged.put ⟨acceptable.valid, acceptable.number⟩ ⟨rfl, rfl, fun _ timed => timed⟩
      rfl ?_
    intro record listed number
    obtain ⟨found, mem, tells⟩ := merged.told record listed
    obtain ⟨agree, untimed⟩ := prior found mem (tells.number.trans number)
    refine ⟨number.symm, agree.facts.symm.trans tells.facts, ?_⟩
    intro time timed
    rw [tells.event time timed] at untimed
    cases untimed

section

variable (written : Written codec row before after)
include written

/-- What was told stays told. -/
theorem Written.told
    (told : ∃ found ∈ before.rows, Tells codec found record) :
    ∃ found ∈ after.rows, Tells codec found record := by
  cases written with
  | known _ _ _ same =>
    rw [same]
    exact told
  | put evidence prior same =>
    obtain ⟨found, mem, tells⟩ := told
    rw [same]
    by_cases number : found.tradeId = row.tradeId
    · obtain ⟨agree, untimed⟩ := prior found mem number
      refine ⟨_, mem_put.mpr (.inl rfl), number.symm.trans tells.number,
        agree.facts.symm.trans tells.facts, ?_⟩
      intro time timed
      rw [tells.event time timed] at untimed
      cases untimed
    · exact ⟨found, mem_put.mpr (.inr ⟨mem, number⟩), tells⟩

/-- The row that was taken is told. -/
theorem Written.tells :
    ∃ found ∈ after.rows, Tells codec found row := by
  cases written with
  | known prior mem tells same =>
    rw [same]
    exact ⟨prior, mem, tells⟩
  | put evidence _ same =>
    rw [same]
    exact ⟨_, mem_put.mpr (.inl rfl), rfl, rfl, fun _ timed => timed⟩

/-- A row is only taken when it agrees with what is told. -/
theorem Written.agree
    (told : ∃ found ∈ before.rows, Tells codec found record)
    (number : record.tradeId = row.tradeId) :
    Agree codec record row := by
  obtain ⟨found, mem, tells⟩ := told
  have same := tells.number.trans number
  cases written with
  | known prior there known _ =>
    rw [eq_of_key_eq there mem (known.number.trans same.symm)] at known
    refine ⟨tells.facts.symm.trans known.facts, ?_⟩
    intro early late first second
    exact some.inj ((tells.event early first).symm.trans (known.event late second))
  | put evidence prior _ =>
    obtain ⟨agree, untimed⟩ := prior found mem same
    refine ⟨tells.facts.symm.trans agree.facts, ?_⟩
    intro early late first second
    rw [tells.event early first] at untimed
    cases untimed

end

theorem exists_refer (sourced : Sourced input) :
    ∃ known middle, insertion.refer fresh input = .ok (known, middle) := by
  unfold Insertion.refer
  split
  · exact ⟨_, _, rfl⟩
  · have written : evidence fresh input insertion.store =
        .ok { insertion.store with evidence := insertion.store.evidence ++ [⟨fresh, input⟩] } :=
      bind_ok.mpr ⟨(), ensure_ok.mpr sourced.body,
        bind_ok.mpr ⟨(), ensure_ok.mpr sourced.provenance, rfl⟩⟩
    rw [written]
    exact ⟨_, _, rfl⟩

/-- A record that agrees with what was written before is taken. -/
theorem exists_insertRow
    (sourced : Sourced input) (merged : Merged codec records insertion.store.trades)
    (acceptable : Acceptable codec row)
    (agree : ∀ record ∈ records, record.tradeId = row.tradeId → Agree codec record row) :
    ∃ finished, insertRow codec fresh input high insertion (row, index) = .ok finished := by
  obtain ⟨known, middle, referred⟩ := @exists_refer fresh input insertion sourced
  unfold insertRow
  cases present : insertion.store.trades.find row.tradeId with
  | none =>
    obtain ⟨_, _, maker, sided⟩ := acceptable.amounts
    have entered : ∃ finished, insertion.add fresh input high row index = .ok finished := by
      unfold Insertion.add
      rw [referred, sided]
      exact ⟨_, rfl⟩
    obtain ⟨finished, added⟩ := entered
    refine ⟨finished, bind_ok.mpr ⟨_, rowNumber_ok.mpr ⟨acceptable.number, rfl⟩, ?_⟩⟩
    rw [present]
    exact added
  | some prior =>
    obtain ⟨mem, same⟩ := find_eq_some_iff.mp present
    obtain ⟨record, listed, tells⟩ := merged.backed prior mem
    have agrees : Agree codec prior row := by
      refine ⟨tells.facts.trans (agree record listed (tells.number.symm.trans same)).facts, ?_⟩
      intro early late first second
      obtain ⟨other, there, number, event⟩ := merged.timed prior mem early first
      exact (agree other there (number.trans same)).event early late event second
    have entered : ∃ finished, insertion.enrich fresh input prior row index = .ok finished := by
      unfold Insertion.enrich
      split
      · rw [referred]
        exact ⟨_, rfl⟩
      · exact ⟨_, rfl⟩
    obtain ⟨finished, enriched⟩ := entered
    refine ⟨finished, bind_ok.mpr ⟨_, rowNumber_ok.mpr ⟨acceptable.number, rfl⟩, ?_⟩⟩
    rw [present]
    exact bind_ok.mpr
      ⟨(), checkIdentity_of_agree (merged.priced prior mem) acceptable agrees, enriched⟩

end Rows

/-! ## One batch -/

/-- A batch that nothing but the stored trades can refuse. -/
structure Formed (codec : Codec) (batch : Batch) : Prop where
  size : (!batch.rows.isEmpty && decide (batch.rows.length ≤ 1000)) = true
  acceptable : ∀ row ∈ batch.rows, Acceptable codec row
  sourced : Sourced batch.input

section Batches

variable {codec : Codec} {fresh : String} {input : EvidenceInput} {high : Option Nat}
  {insertion finished : Insertion} {numbered : List (Trade × Nat)} {records : Set Trade}
  {rows : List Trade} {store after : Store} {inserted : Nat}

theorem forM_validateTrade_iff :
    rows.forM (validateTrade codec) = .ok () ↔ ∀ row ∈ rows, validateTrade codec row = .ok () := by
  induction rows with
  | nil => simp [forM_eq_forM, forM_nil, pure, Except.pure]
  | cons first rows ih =>
    rw [forM_eq_forM, forM_cons, ← forM_eq_forM, bind_ok, forall_mem_cons, ← ih]
    constructor
    · rintro ⟨⟨⟩, now, later⟩
      exact ⟨now, later⟩
    · rintro ⟨now, later⟩
      exact ⟨(), now, later⟩

theorem Merged.foldlM (merged : Merged codec records insertion.store.trades)
    (acceptable : ∀ place ∈ numbered, Acceptable codec place.1)
    (folded : numbered.foldlM (insertRow codec fresh input high) insertion = .ok finished) :
    Merged codec (records ∪ {row | row ∈ numbered.map fst}) finished.store.trades := by
  induction numbered generalizing insertion records with
  | nil =>
    cases folded
    simpa using merged
  | cons first numbered ih =>
    obtain ⟨middle, now, later⟩ := foldlM_cons_ok.mp folded
    obtain ⟨accepted, acceptable⟩ := forall_mem_cons.mp acceptable
    have rest := ih (merged.write accepted (written_of_insertRow now).2) acceptable later
    have same : insert first.1 records ∪ {row | row ∈ numbered.map fst} =
        records ∪ {row | row ∈ (first :: numbered).map fst} := by
      ext row
      simp only [Set.mem_union, Set.mem_insert_iff, Set.mem_ofPred_eq, map_cons, mem_cons]
      tauto
    rwa [same] at rest

/-- Records that agree among themselves and with the stored ones are taken. -/
theorem exists_foldlM
    (sourced : Sourced input) (merged : Merged codec records insertion.store.trades)
    (acceptable : ∀ place ∈ numbered, Acceptable codec place.1)
    (consistent : Consistent codec (records ∪ {row | row ∈ numbered.map fst})) :
    ∃ finished, numbered.foldlM (insertRow codec fresh input high) insertion = .ok finished := by
  induction numbered generalizing insertion records with
  | nil => exact ⟨insertion, rfl⟩
  | cons first numbered ih =>
    obtain ⟨accepted, acceptable⟩ := forall_mem_cons.mp acceptable
    have agree : ∀ record ∈ records, record.tradeId = first.1.tradeId →
        Agree codec record first.1 := fun record listed =>
      consistent record (.inl listed) first.1 (.inr (by simp))
    obtain ⟨middle, now⟩ := @exists_insertRow codec fresh input high insertion first.1 first.2
      records sourced merged accepted agree
    have known := merged.write accepted (written_of_insertRow now).2
    obtain ⟨finished, later⟩ := ih known acceptable (by
      refine consistent.mono ?_
      intro row listed
      simp only [Set.mem_union, Set.mem_insert_iff, Set.mem_ofPred_eq, map_cons,
        mem_cons] at listed ⊢
      tauto)
    exact ⟨finished, foldlM_cons_ok.mpr ⟨middle, now, later⟩⟩

/-- A batch that is taken contradicts neither the stored trades nor itself. -/
theorem agree_of_foldlM
    (folded : numbered.foldlM (insertRow codec fresh input high) insertion = .ok finished) :
    (∀ place ∈ numbered, place.1.tradeId < 2 ^ 63) ∧
      (∀ record, (∃ found ∈ insertion.store.trades.rows, Tells codec found record) →
        ∀ row ∈ numbered.map fst, record.tradeId = row.tradeId → Agree codec record row) ∧
      (numbered.map fst).Pairwise fun early late =>
        early.tradeId = late.tradeId → Agree codec early late := by
  induction numbered generalizing insertion with
  | nil => simp
  | cons first numbered ih =>
    obtain ⟨middle, now, later⟩ := foldlM_cons_ok.mp folded
    obtain ⟨small, written⟩ := written_of_insertRow now
    obtain ⟨numbers, known, among⟩ := ih later
    refine ⟨forall_mem_cons.mpr ⟨small, numbers⟩, ?_, ?_⟩
    · intro record told row mem
      rcases mem_cons.mp mem with rfl | mem
      · exact written.agree told
      · exact known record (written.told told) row mem
    · exact pairwise_cons.mpr ⟨known first.1 written.tells, among⟩

/-- What a batch that was written tells. -/
theorem insertTrades_spec
    (ran : insertTrades codec fresh rows input store = .ok (inserted, after)) :
    (∀ row ∈ rows, Acceptable codec row) ∧
      (∀ prior ∈ store.trades.rows, ∀ row ∈ rows, prior.tradeId = row.tradeId →
        Agree codec prior row) ∧
      (rows.Pairwise fun early late => early.tradeId = late.tradeId → Agree codec early late) ∧
      ∀ records, Merged codec records store.trades →
        Merged codec (records ∪ {row | row ∈ rows}) after.trades := by
  obtain ⟨_, _, _, valid, finished, folded, ran⟩ := bind₃_ok.mp ran
  obtain ⟨_, rfl⟩ := mk.inj (ok.inj ran)
  have listed : rows.zipIdx.map fst = rows := zipIdx_map_fst 0 rows
  obtain ⟨numbers, known, among⟩ := agree_of_foldlM folded
  have acceptable : ∀ row ∈ rows, Acceptable codec row := by
    intro row mem
    rw [← listed] at mem
    obtain ⟨place, there, rfl⟩ := mem_map.mp mem
    exact ⟨forM_validateTrade_iff.mp valid _ (fst_mem_of_mem_zipIdx there), numbers place there⟩
  rw [listed] at known among
  refine ⟨acceptable, ?_, among, ?_⟩
  · intro prior mem
    exact known prior ⟨prior, mem, Tells.refl prior⟩
  · intro records merged
    have initial : Merged codec records (Insertion.mk store none 0).store.trades := merged
    have told := initial.foldlM
      (fun place there => acceptable _ (fst_mem_of_mem_zipIdx there)) folded
    rwa [listed] at told

/-- A formed batch of records that agree with the stored ones is written. -/
theorem exists_insertTrades
    (formed : Formed codec batch) (merged : Merged codec records store.trades)
    (consistent : Consistent codec (records ∪ {row | row ∈ batch.rows})) :
    ∃ written, insertTrades codec batch.fresh batch.rows batch.input store = .ok written := by
  have listed : batch.rows.zipIdx.map fst = batch.rows := zipIdx_map_fst 0 batch.rows
  have acceptable : ∀ place ∈ batch.rows.zipIdx, Acceptable codec place.1 := fun place there =>
    formed.acceptable _ (fst_mem_of_mem_zipIdx there)
  rw [← listed] at consistent
  obtain ⟨finished, folded⟩ := @exists_foldlM codec batch.fresh batch.input
    (highest store.trades) ⟨store, none, 0⟩ _ _ formed.sourced merged acceptable consistent
  have valid := forM_validateTrade_iff.mpr fun row mem => (formed.acceptable row mem).valid
  exact ⟨_, bind_ok.mpr ⟨(), ensure_ok.mpr formed.size,
    bind_ok.mpr ⟨(), valid, bind_ok.mpr ⟨finished, folded, rfl⟩⟩⟩⟩

end Batches

/-! ## Two writers -/

/-- Evidence of the older database: what its body is read as, and the body. -/
structure LegacyEvidence where
  rows : Except String (List Trade)
  input : EvidenceInput

/-- The process of a migration: the keys it has yet to look at, and the key whose
rows it has written and not checked off. -/
structure Migration where
  remaining : List String
  written : Option String

/-- One database with its two writers. -/
structure Writers where
  store : Store
  imported : List String
  migration : Option Migration

/-- The stream writes, or the migration starts, visits its next key, records it, or stops. -/
inductive WriterStep where
  | live (batch : Batch)
  | start (keys : List String)
  | visit (fresh : String)
  | checkpoint
  | stop

/-- Write the evidence of a key, unless it is checked off. -/
def importEvidence
    (codec : Codec) (source : String → Option LegacyEvidence) (fresh key : String)
    (writers : Writers) : Except String (Option Store) := do
  let evidence ← need (source key) "Query returned no rows"
  ensure (!evidence.input.raw.isEmpty && decide (evidence.input.raw.length ≤ 1024 * 1024))
    "migration_evidence_capacity"
  if writers.imported.contains key then .ok none
  else do
    let rows ← evidence.rows
    let (_, store) ← insertTrades codec fresh rows evidence.input writers.store
    .ok (some store)

/-- What a writer leaves; a step out of its turn is not taken. -/
def Writers.step
    (codec : Codec) (source : String → Option LegacyEvidence)
    (writers : Writers) : WriterStep → Option Writers
  | .live batch => some { writers with store := writers.store.write codec batch }
  | .start keys =>
    if writers.migration.isNone then some { writers with migration := some ⟨keys, none⟩ }
    else none
  | .visit fresh =>
    match writers.migration with
    | some ⟨key :: rest, none⟩ =>
      match importEvidence codec source fresh key writers with
      | .ok (some store) => some { writers with store, migration := some ⟨rest, some key⟩ }
      | .ok none => some { writers with migration := some ⟨rest, none⟩ }
      | .error _ => some { writers with migration := none }
    | _ => none
  | .checkpoint =>
    match writers.migration with
    | some ⟨rest, some key⟩ =>
      some { writers with
        imported := if writers.imported.contains key then writers.imported
          else writers.imported ++ [key]
        migration := some ⟨rest, none⟩ }
    | _ => none
  -- The end of the process, its deadline, or a crash between any two commits.
  | .stop => some { writers with migration := none }

/-- An empty store, and no migration. -/
def Writers.new : Writers := ⟨⟨Table.empty, [], []⟩, [], none⟩

/-- The records of the live writer. -/
def liveRecords (labels : List WriterStep) : Set Trade :=
  {row | ∃ batch, .live batch ∈ labels ∧ row ∈ batch.rows}

/-- The records of some keys of the older database. -/
def legacyRecords (source : String → Option LegacyEvidence) (keys : Set String) : Set Trade :=
  {row | ∃ key ∈ keys, ∃ evidence rows,
    source key = some evidence ∧ evidence.rows = .ok rows ∧ row ∈ rows}

/-- All records that the two writers are given. -/
def allRecords (source : String → Option LegacyEvidence) (labels : List WriterStep) : Set Trade :=
  liveRecords labels ∪ legacyRecords source Set.univ

/-- The migration has checked off the whole older database. -/
def Writers.Complete (source : String → Option LegacyEvidence) (writers : Writers) : Prop :=
  ∀ key, (source key).isSome → key ∈ writers.imported

/-- The live batches are formed. -/
def LiveFormed (codec : Codec) (labels : List WriterStep) : Prop :=
  ∀ batch, .live batch ∈ labels → Formed codec batch

/-- The store tells the live records and those of some keys; among them are the
keys that are checked off and the one that is about to be. -/
structure Progress
    (codec : Codec) (source : String → Option LegacyEvidence) (labels : List WriterStep)
    (keys : Set String) (writers : Writers) : Prop where
  merged : Merged codec (liveRecords labels ∪ legacyRecords source keys) writers.store.trades
  imported : ∀ key ∈ writers.imported, key ∈ keys
  written : ∀ rest key, writers.migration = some ⟨rest, some key⟩ → key ∈ keys

section Runs

variable {codec : Codec} {source : String → Option LegacyEvidence} {labels : List WriterStep}
  {keys : Set String} {writers next : Writers} {label : WriterStep}

theorem liveRecords_live :
    liveRecords (labels ++ [.live batch]) = liveRecords labels ∪ {row | row ∈ batch.rows} := by
  ext row
  simp only [liveRecords, Set.mem_ofPred_eq, Set.mem_union, mem_append, mem_singleton,
    WriterStep.live.injEq]
  constructor
  · rintro ⟨other, early | rfl, mem⟩
    · exact .inl ⟨other, early, mem⟩
    · exact .inr mem
  · rintro (⟨other, early, mem⟩ | mem)
    · exact ⟨other, .inl early, mem⟩
    · exact ⟨batch, .inr rfl, mem⟩

theorem liveRecords_other (other : ∀ batch, label ≠ .live batch) :
    liveRecords (labels ++ [label]) = liveRecords labels := by
  ext row
  simp only [liveRecords, Set.mem_ofPred_eq, mem_append, mem_singleton]
  constructor
  · rintro ⟨batch, early | same, mem⟩
    · exact ⟨batch, early, mem⟩
    · exact absurd same.symm (other batch)
  · rintro ⟨batch, early, mem⟩
    exact ⟨batch, .inl early, mem⟩

theorem legacyRecords_insert {key : String} {evidence : LegacyEvidence} {rows : List Trade}
    (present : source key = some evidence) (read : evidence.rows = .ok rows) :
    legacyRecords source (insert key keys) = legacyRecords source keys ∪ {row | row ∈ rows} := by
  ext row
  simp only [legacyRecords, Set.mem_ofPred_eq, Set.mem_union, Set.mem_insert_iff]
  constructor
  · rintro ⟨other, rfl | early, found, listed, there, told, mem⟩
    · obtain rfl := some.inj (present.symm.trans there)
      obtain rfl := ok.inj (read.symm.trans told)
      exact .inr mem
    · exact .inl ⟨other, early, found, listed, there, told, mem⟩
  · rintro (⟨other, early, rest⟩ | mem)
    · exact ⟨other, .inr early, rest⟩
    · exact ⟨key, .inl rfl, evidence, rows, present, read, mem⟩

theorem legacyRecords_mono {all : Set String} (subset : keys ⊆ all) :
    legacyRecords source keys ⊆ legacyRecords source all := by
  rintro row ⟨key, mem, rest⟩
  exact ⟨key, subset mem, rest⟩

/-- Steps that leave the store alone and check nothing else off. -/
theorem Progress.frame
    (progress : Progress codec source labels keys writers) (other : ∀ batch, label ≠ .live batch)
    (store : next.store = writers.store) (imported : ∀ key ∈ next.imported, key ∈ keys)
    (written : ∀ rest key, next.migration = some ⟨rest, some key⟩ → key ∈ keys) :
    Progress codec source (labels ++ [label]) keys next where
  merged := by
    rw [liveRecords_other other, store]
    exact progress.merged
  imported := imported
  written := written

theorem Progress.live
    (progress : Progress codec source labels keys writers) (formed : Formed codec batch)
    (consistent : Consistent codec (allRecords source (labels ++ [.live batch]))) :
    Progress codec source (labels ++ [.live batch]) keys
      { writers with store := writers.store.write codec batch } where
  merged := by
    have same : liveRecords (labels ++ [.live batch]) ∪ legacyRecords source keys =
        (liveRecords labels ∪ legacyRecords source keys) ∪ {row | row ∈ batch.rows} := by
      rw [liveRecords_live, Set.union_right_comm]
    have within := consistent.mono
      (Set.union_subset_union_right _ (legacyRecords_mono (Set.subset_univ keys)))
    rw [same] at within ⊢
    obtain ⟨⟨inserted, after⟩, ran⟩ := exists_insertTrades formed progress.merged within
    have told := (insertTrades_spec ran).2.2.2 _ progress.merged
    unfold Store.write
    rw [ran]
    exact told
  imported := progress.imported
  written := progress.written

theorem importEvidence_eq_some
    (ran : importEvidence codec source fresh key writers = .ok (some store)) :
    ∃ evidence rows inserted, source key = some evidence ∧ evidence.rows = .ok rows ∧
      insertTrades codec fresh rows evidence.input writers.store = .ok (inserted, store) := by
  obtain ⟨evidence, present, _, _, ran⟩ := bind₂_ok.mp ran
  split at ran
  · cases ran
  · obtain ⟨rows, read, ⟨inserted, after⟩, wrote, ran⟩ := bind₂_ok.mp ran
    obtain rfl := some.inj (ok.inj ran)
    exact ⟨evidence, rows, inserted, need_ok.mp present, read, wrote⟩

theorem Progress.step (progress : Progress codec source labels keys writers)
    (formed : LiveFormed codec (labels ++ [label]))
    (consistent : Consistent codec (allRecords source (labels ++ [label])))
    (taken : writers.step codec source label = some next) :
    ∃ keys, Progress codec source (labels ++ [label]) keys next := by
  cases label with
  | live batch =>
    cases taken
    exact ⟨keys, progress.live (formed batch (by simp)) consistent⟩
  | start starting =>
    dsimp only [Writers.step] at taken
    split at taken
    · cases taken
      exact ⟨keys, progress.frame (by simp) rfl progress.imported (by simp)⟩
    · cases taken
  | visit fresh =>
    dsimp only [Writers.step] at taken
    split at taken
    · rename_i key rest _
      split at taken
      · rename_i store ran
        cases taken
        obtain ⟨evidence, rows, inserted, present, read, wrote⟩ := importEvidence_eq_some ran
        refine ⟨insert key keys, ?_, ?_, ?_⟩
        · rw [liveRecords_other (by simp), legacyRecords_insert present read, ← Set.union_assoc]
          exact (insertTrades_spec wrote).2.2.2 _ progress.merged
        · exact fun other mem => Set.mem_insert_of_mem _ (progress.imported other mem)
        · rintro _ _ ⟨⟩
          exact Set.mem_insert _ _
      · cases taken
        exact ⟨keys, progress.frame (by simp) rfl progress.imported (by simp)⟩
      · cases taken
        exact ⟨keys, progress.frame (by simp) rfl progress.imported (by simp)⟩
    · cases taken
  | checkpoint =>
    dsimp only [Writers.step] at taken
    split at taken
    · rename_i rest key running
      cases taken
      refine ⟨keys, progress.frame (by simp) rfl ?_ (by simp)⟩
      intro other mem
      split at mem
      · exact progress.imported other mem
      · rcases mem_append.mp mem with early | now
        · exact progress.imported other early
        · rw [mem_singleton.mp now]
          exact progress.written rest key running
    · cases taken
  | stop =>
    cases taken
    exact ⟨keys, progress.frame (by simp) rfl progress.imported (by simp)⟩

theorem progress_new : Progress codec source [] ∅ Writers.new where
  merged := by
    have none : liveRecords [] ∪ legacyRecords source ∅ = ∅ := by
      ext row
      simp [liveRecords, legacyRecords]
    rw [none]
    exact merged_empty
  imported _ impossible := absurd impossible not_mem_nil
  written _ _ impossible := by cases impossible

section

variable (run : Run (fun before label after => before.step codec source label = some after)
      Writers.new labels writers)
include run

section

variable (formed : LiveFormed codec labels)
  (consistent : Consistent codec (allRecords source labels))
include formed consistent

theorem progress_of_run :
    ∃ keys, Progress codec source labels keys writers := by
  induction run with
  | nil => exact ⟨∅, progress_new⟩
  | snoc _ taken ih =>
    obtain ⟨keys, progress⟩ := ih (fun batch early =>
      formed batch (mem_append_left _ early)) (consistent.mono (by
      refine Set.union_subset_union_left _ ?_
      rintro row ⟨batch, early, mem⟩
      exact ⟨batch, mem_append_left _ early, mem⟩))
    exact progress.step formed consistent taken

/-- When everything is checked off, the store tells all records. -/
theorem merged_of_run
    (complete : writers.Complete source) :
    Merged codec (allRecords source labels) writers.store.trades := by
  obtain ⟨keys, progress⟩ := progress_of_run run formed consistent
  have same : legacyRecords source keys = legacyRecords source Set.univ := by
    refine Set.Subset.antisymm (legacyRecords_mono (Set.subset_univ keys)) ?_
    rintro row ⟨key, _, evidence, rows, present, rest⟩
    have done := complete key (by rw [present]; rfl)
    exact ⟨key, progress.imported key done, evidence, rows, present, rest⟩
  unfold allRecords
  rw [← same]
  exact progress.merged

end

end

/-- Every step of a writer logs the rows it changes, and the ones it adds below
the highest id of before. -/
theorem follows_of_step (taken : writers.step codec source label = some next) :
    ∃ more, Follows ((highest writers.store.trades).getD 0) more writers.store next.store := by
  have quiet : next.store = writers.store → ∃ more,
      Follows ((highest writers.store.trades).getD 0) more writers.store next.store := by
    intro same
    rw [same]
    exact ⟨[], Follows.refl _ _⟩
  cases label with
  | live batch =>
    cases taken
    exact follows_of_write (le_refl _)
  | visit fresh =>
    dsimp only [Writers.step] at taken
    split at taken
    · split at taken
      · rename_i store ran
        cases taken
        obtain ⟨evidence, rows, inserted, _, _, wrote⟩ := importEvidence_eq_some ran
        have written : ∃ more, Follows ((highest writers.store.trades).getD 0) more writers.store
            (writers.store.write codec ⟨fresh, rows, evidence.input⟩) := follows_of_write (le_refl _)
        unfold Store.write at written
        rwa [wrote] at written
      · exact quiet (by rw [← some.inj taken])
      · exact quiet (by rw [← some.inj taken])
    · cases taken
  | start | checkpoint =>
    dsimp only [Writers.step] at taken
    split at taken
    · exact quiet (by rw [← some.inj taken])
    · cases taken
  | stop => exact quiet (by rw [← some.inj taken])

end Runs

/-- A record of a batch is no record of a trade, or contradicts another one of the
batch or a stored one. -/
def Refused (codec : Codec) (store : Store) (batch : Batch) : Prop :=
  (∃ row ∈ batch.rows, ¬Acceptable codec row) ∨
    (∃ prior ∈ store.trades.rows, ∃ row ∈ batch.rows,
      prior.tradeId = row.tradeId ∧ ¬Agree codec prior row) ∨
    ∃ first ∈ batch.rows, ∃ second ∈ batch.rows,
      first.tradeId = second.tradeId ∧ ¬Agree codec first second

theorem Agree.symm (agree : Agree codec first second) :
    Agree codec second first where
  facts := agree.facts.symm
  event early late one two := (agree.event late early two one).symm

theorem Agree.refl (codec : Codec) (row : Trade) : Agree codec row row where
  facts := rfl
  event _ _ one two := some.inj (one.symm.trans two)

/-- Nothing stays of a batch that is refused. -/
theorem write_of_refused (refused : Refused codec store batch) :
    (∃ message, insertTrades codec batch.fresh batch.rows batch.input store = .error message) ∧
      store.write codec batch = store := by
  cases ran : insertTrades codec batch.fresh batch.rows batch.input store with
  | error message =>
    refine ⟨⟨message, rfl⟩, ?_⟩
    unfold Store.write
    rw [ran]
  | ok written =>
    obtain ⟨acceptable, known, among, _⟩ := insertTrades_spec ran
    rcases refused with ⟨row, mem, unfit⟩ | ⟨prior, there, row, mem, same, differ⟩ |
      ⟨first, one, second, two, same, differ⟩
    · exact absurd (acceptable row mem) unfit
    · exact absurd (known prior there row mem same) differ
    · have symmetric : Std.Symm fun first second : Trade =>
          first.tradeId = second.tradeId → Agree codec first second :=
        ⟨fun _ _ agree same => (agree same.symm).symm⟩
      have agree := among.forall_of_forall (fun row _ _ => Agree.refl codec row) one two same
      exact absurd agree differ

/-- Two runs of the writers that are given the same records, which agree among
themselves, end with the same trades however they order, batch, repeat and replay
them. A batch with a record that is invalid or contradicts another is undone. What
a step changes, or adds below the highest id, it logs. -/
theorem trades_converge (codec : Codec) :
    (∀ source labels writers source' labels' writers',
      Run (fun before label after => before.step codec source label = some after)
        Writers.new labels writers →
      Run (fun before label after => before.step codec source' label = some after)
        Writers.new labels' writers' →
      LiveFormed codec labels → LiveFormed codec labels' →
      writers.Complete source → writers'.Complete source' →
      Consistent codec (allRecords source labels) →
      allRecords source labels = allRecords source' labels' →
      Merged codec (allRecords source labels) writers.store.trades ∧
        economics codec writers.store.trades = economics codec writers'.store.trades) ∧
    (∀ store batch, Refused codec store batch →
      (∃ message, insertTrades codec batch.fresh batch.rows batch.input store = .error message) ∧
        store.write codec batch = store) ∧
    (∀ source (writers : Writers) label next, writers.step codec source label = some next →
      ∃ more, Follows ((highest writers.store.trades).getD 0) more writers.store next.store) := by
  refine ⟨?_, fun _ _ => write_of_refused, fun _ _ _ _ => follows_of_step⟩
  intro source labels writers source' labels' writers' run again formed following complete
    finished consistent same
  have merged := merged_of_run run formed consistent complete
  refine ⟨merged, merged.economics_eq ?_⟩
  rw [same] at consistent ⊢
  exact merged_of_run again following consistent finished

/-! ## A crash between a commit and its checkpoint -/

section Sample

/-- Reads one price, written in two ways. -/
def mergedCodec : Codec where
  parse := fun text => if text = "1" ∨ text = "1.0" then some 1 else none
  parseExact := fun _ => none
  text := fun _ => ""
  rfc3339 := fun _ => none

/-- A raw text by its way of acquisition. -/
def mergedInput (acquisition : String) : EvidenceInput :=
  ⟨[0], acquisition, "url", none, none, "application/json"⟩

/-- The trade as the stream brings it. -/
def streamedTrade : Trade := ⟨5, 1, some 1, "1", "1", some true, none, none⟩

/-- The same trade without its event time, and the next one. -/
def recentTrades : List Trade :=
  [⟨5, 1, none, "1.0", "1", some true, none, none⟩, ⟨6, 2, none, "1", "1", some false, none, none⟩]

/-- One key, with the trade as the list of recent trades has it. -/
def legacySource (key : String) : Option LegacyEvidence :=
  if key = "recent" then some ⟨.ok recentTrades, mergedInput "official_recent_trades"⟩ else none

/-- The batch of the stream. -/
def streamedBatch : Batch := ⟨"live", [streamedTrade], mergedInput "ws_trade"⟩

/-- The migration crashes before its checkpoint and starts again. -/
def resumedLabels : List WriterStep :=
  [.start ["recent"], .visit "first", .stop, .live streamedBatch, .start ["recent"],
    .visit "second", .checkpoint]

/-- The stream writes before the migration and again after it. -/
def streamedFirst : List WriterStep :=
  [.live streamedBatch, .start ["recent"], .visit "first", .checkpoint, .live streamedBatch]

variable {labels : List WriterStep}

section

variable (live : ∀ batch, .live batch ∈ labels ↔ batch = streamedBatch)
include live

theorem liveRecords_of_live :
    liveRecords labels = {streamedTrade} := by
  ext row
  simp [liveRecords, live, streamedBatch]

theorem liveFormed_of_live :
    LiveFormed mergedCodec labels := by
  intro batch mem
  rw [(live batch).mp mem]
  refine ⟨by decide, ?_, ⟨by decide, by decide⟩⟩
  intro row mem
  rw [mem_singleton.mp mem]
  exact ⟨by decide +kernel, by decide⟩

end

theorem complete_legacySource {writers : Writers} (imported : writers.imported = ["recent"]) :
    writers.Complete legacySource := by
  intro key present
  unfold legacySource at present
  split at present
  · rename_i same
    rw [imported, same]
    exact mem_singleton.mpr rfl
  · cases present

theorem consistent_sample : Consistent mergedCodec (allRecords legacySource resumedLabels) := by
  have listed : ∀ row ∈ allRecords legacySource resumedLabels,
      row ∈ streamedTrade :: recentTrades := by
    rintro row (live | ⟨key, _, evidence, rows, present, read, mem⟩)
    · rw [liveRecords_of_live (by simp [resumedLabels])] at live
      exact mem_cons.mpr (.inl live)
    · unfold legacySource at present
      split at present
      · cases present
        cases read
        exact mem_cons_of_mem _ mem
      · cases present
  intro first one second two same
  have agree : ∀ first ∈ streamedTrade :: recentTrades, ∀ second ∈ streamedTrade :: recentTrades,
      first.tradeId = second.tradeId → facts mergedCodec first = facts mergedCodec second ∧
        (first.eventTimeMs = none ∨ second.eventTimeMs = none ∨
          first.eventTimeMs = second.eventTimeMs) := by
    decide +kernel
  obtain ⟨equal, times⟩ := agree first (listed first one) second (listed second two) same
  refine ⟨equal, ?_⟩
  intro early late timed again
  rw [timed, again] at times
  simpa using times

/-- The resumed migration and the undisturbed one meet. -/
theorem trades_converge_resumed :
    ∃ writers writers',
      resumedLabels.foldlM (Writers.step mergedCodec legacySource) Writers.new = some writers ∧
      streamedFirst.foldlM (Writers.step mergedCodec legacySource) Writers.new = some writers' ∧
      writers.store.repairs ≠ writers'.store.repairs ∧
      economics mergedCodec writers.store.trades = economics mergedCodec writers'.store.trades := by
  have first : ∃ writers, resumedLabels.foldlM (Writers.step mergedCodec legacySource)
      Writers.new = some writers ∧ writers.imported = ["recent"] ∧ writers.store.repairs = [5] := by
    refine ⟨_, rfl, ?_⟩
    decide +kernel
  have second : ∃ writers, streamedFirst.foldlM (Writers.step mergedCodec legacySource)
      Writers.new = some writers ∧ writers.imported = ["recent"] ∧ writers.store.repairs = [] := by
    refine ⟨_, rfl, ?_⟩
    decide +kernel
  obtain ⟨writers, reached, imported, logged⟩ := first
  obtain ⟨writers', arrived, listed, none⟩ := second
  refine ⟨writers, writers', reached, arrived, by rw [logged, none]; simp, ?_⟩
  have live : ∀ batch, .live batch ∈ resumedLabels ↔ batch = streamedBatch := by
    simp [resumedLabels]
  have following : ∀ batch, .live batch ∈ streamedFirst ↔ batch = streamedBatch := by
    simp [streamedFirst]
  have same : allRecords legacySource resumedLabels = allRecords legacySource streamedFirst := by
    unfold allRecords
    rw [liveRecords_of_live live, liveRecords_of_live following]
  exact ((trades_converge mergedCodec).1 _ _ _ _ _ _ (Run.of_foldlM reached)
    (Run.of_foldlM arrived) (liveFormed_of_live live) (liveFormed_of_live following)
    (complete_legacySource imported) (complete_legacySource listed) consistent_sample same).2

end Sample

end MarketCow.Btc
