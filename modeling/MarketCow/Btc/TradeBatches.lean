import MarketCow.Btc.TradeStore

/-!
# What batches of trades do to the store

A batch puts rows and logs repairs. Whatever it does not log as a repair leaves
the stored trades alone and brings only trades above the highest of before.
-/

namespace MarketCow.Btc

open Library List
open Live (Codec)
open Sdk (Trade)

/-! ## One row -/

/-- What a row of a batch does to the trades and to the log. -/
inductive RowChange (high : Option Nat) (number : Nat) (before after : Store) : Prop
  | same :
      after.trades = before.trades →
      after.repairs = before.repairs →
      RowChange high number before after
  | repaired (row : Trade) :
      row.tradeId = number →
      after.trades = before.trades.put row →
      after.repairs = before.repairs ++ [number] →
      RowChange high number before after
  | appended (row : Trade) :
      row.tradeId = number →
      before.trades.find number = none →
      (∀ top, high = some top → top < number) →
      after.trades = before.trades.put row →
      after.repairs = before.repairs →
      RowChange high number before after

section Rows

variable {codec : Codec} {fresh : String} {input : EvidenceInput} {high : Option Nat}
  {insertion finished : Insertion}

/-- Referring to the evidence row leaves the trades and the log alone. -/
theorem frame_of_refer (referred : insertion.refer fresh input = .ok (known, finished)) :
    finished.store.trades = insertion.store.trades ∧
      finished.store.repairs = insertion.store.repairs := by
  unfold Insertion.refer at referred
  split at referred
  · obtain ⟨rfl, rfl⟩ := Prod.mk.inj (ok.inj referred)
    exact ⟨rfl, rfl⟩
  · obtain ⟨store, written, referred⟩ := bind_ok.mp referred
    obtain ⟨rfl, rfl⟩ := Prod.mk.inj (ok.inj referred)
    iterate 2 obtain ⟨_, _, written⟩ := bind_ok.mp written
    cases written
    exact ⟨rfl, rfl⟩

variable {index : Nat}

theorem rowChange_of_enrich
    (enriched : insertion.enrich fresh input prior row index = .ok finished) :
    RowChange high prior.tradeId insertion.store finished.store := by
  unfold Insertion.enrich at enriched
  split at enriched
  · obtain ⟨⟨known, middle⟩, referred, enriched⟩ := bind_ok.mp enriched
    obtain ⟨trades, repairs⟩ := frame_of_refer referred
    cases enriched
    refine .repaired (Btc.enriched prior row known index) rfl ?_ ?_
    · rw [trades]
    · rw [repairs]
  · cases enriched
    exact .same rfl rfl

theorem rowChange_of_add (absent : insertion.store.trades.find row.tradeId = none)
    (added : insertion.add fresh input high row index = .ok finished) :
    RowChange high row.tradeId insertion.store finished.store := by
  obtain ⟨⟨known, middle⟩, referred, added⟩ := bind_ok.mp added
  obtain ⟨trades, repairs⟩ := frame_of_refer referred
  obtain ⟨_, _, added⟩ := bind_ok.mp added
  cases added
  by_cases below : (high.any fun before => decide (row.tradeId ≤ before)) = true
  · refine .repaired { row with evidence := some ⟨known, some index⟩ } rfl ?_ ?_
    · rw [trades]
    · rw [if_pos below, repairs]
  · refine .appended { row with evidence := some ⟨known, some index⟩ } rfl absent ?_ ?_ ?_
    · rintro top rfl
      simp only [any_some, decide_eq_true_eq] at below
      omega
    · rw [trades]
    · rw [if_neg below, repairs]

/-- A row changes the trade of its own id only. -/
theorem rowChange_of_insertRow
    (inserted : insertRow codec fresh input high insertion numbered = .ok finished) :
    RowChange high numbered.1.tradeId insertion.store finished.store := by
  obtain ⟨number, counted, inserted⟩ := bind_ok.mp inserted
  obtain ⟨_, same⟩ := rowNumber_ok.mp counted
  subst number
  split at inserted
  · rename_i prior present
    obtain ⟨_, _, inserted⟩ := bind_ok.mp inserted
    rw [← (Table.find_eq_some_iff.mp present).2]
    exact rowChange_of_enrich inserted
  · rename_i absent
    exact rowChange_of_add absent inserted

end Rows

/-! ## What the log tells -/

/-- What is left of a store, next to the repairs that were logged since. A trade
that came without a repair is above a bound. -/
structure Follows (bound : Nat) (more : List Nat) (before after : Store) : Prop where
  repairs : after.repairs = before.repairs ++ more
  kept : ∀ row ∈ before.trades.rows, row.tradeId ∈ more ∨ row ∈ after.trades.rows
  fresh : ∀ row ∈ after.trades.rows,
    row.tradeId ∈ more ∨ row ∈ before.trades.rows ∨ bound < row.tradeId
  numbers : ∀ row ∈ before.trades.rows, ∃ other ∈ after.trades.rows, other.tradeId = row.tradeId

/-- Only trades beyond a limit were written and logged. -/
structure Beyond (limit : Nat) (more : List Nat) (before after : Store) : Prop where
  repairs : after.repairs = before.repairs ++ more
  beyond : ∀ number ∈ more, limit < number
  same : ∀ row : Trade, row.tradeId ≤ limit → (row ∈ before.trades.rows ↔ row ∈ after.trades.rows)

section Log

variable {bound limit : Nat} {more later : List Nat} {before middle after : Store}
  {high : Option Nat} {number : Nat}

theorem Follows.refl (bound : Nat) (store : Store) : Follows bound [] store store where
  repairs := (append_nil _).symm
  kept _ member := .inr member
  fresh _ member := .inr (.inl member)
  numbers row member := ⟨row, member, rfl⟩

/-- Stores that follow in turn follow. -/
theorem Follows.trans
    (first : Follows bound more before middle) (second : Follows bound later middle after) :
    Follows bound (more ++ later) before after where
  repairs := by rw [second.repairs, first.repairs, append_assoc]
  kept row member := by
    rcases first.kept row member with logged | there
    · exact .inl (mem_append_left _ logged)
    · rcases second.kept row there with logged | there
      · exact .inl (mem_append_right _ logged)
      · exact .inr there
  fresh row member := by
    rcases second.fresh row member with logged | there | above
    · exact .inl (mem_append_right _ logged)
    · rcases first.fresh row there with logged | there | above
      · exact .inl (mem_append_left _ logged)
      · exact .inr (.inl there)
      · exact .inr (.inr above)
    · exact .inr (.inr above)
  numbers row member := by
    obtain ⟨other, there, same⟩ := first.numbers row member
    obtain ⟨another, present, equal⟩ := second.numbers other there
    exact ⟨another, present, equal.trans same⟩

variable {table : TradeTable} {row other : Trade}

/-- Putting a row keeps every number. -/
theorem exists_mem_put (mem : row ∈ table.rows) :
    ∃ found ∈ (table.put other).rows, found.tradeId = row.tradeId := by
  by_cases same : row.tradeId = other.tradeId
  · exact ⟨other, Table.mem_put.mpr (.inl rfl), same.symm⟩
  · exact ⟨row, Table.mem_put.mpr (.inr ⟨mem, same⟩), rfl⟩

theorem follows_of_rowChange (positive : 0 < number) (bounded : bound ≤ high.getD 0)
    (changed : RowChange high number before after) :
    ∃ more, Follows bound more before after := by
  cases changed with
  | same trades repairs =>
    refine ⟨[], ⟨by rw [repairs, append_nil], ?_, ?_, ?_⟩⟩
    · intro row mem
      rw [trades]
      exact .inr mem
    · intro row mem
      rw [trades] at mem
      exact .inr (.inl mem)
    · intro row mem
      rw [trades]
      exact ⟨row, mem, rfl⟩
  | repaired row numbered trades repairs =>
    refine ⟨[number], ⟨repairs, ?_, ?_, ?_⟩⟩
    · intro other mem
      rw [trades, Table.mem_put, ← numbered, mem_singleton]
      by_cases same : other.tradeId = row.tradeId
      · exact .inl same
      · exact .inr (.inr ⟨mem, same⟩)
    · intro other mem
      rw [trades, Table.mem_put] at mem
      rw [← numbered, mem_singleton]
      rcases mem with rfl | ⟨mem, _⟩
      · exact .inl rfl
      · exact .inr (.inl mem)
    · intro other mem
      rw [trades]
      exact exists_mem_put mem
  | appended row numbered absent above trades repairs =>
    have lower : bound < number := by
      cases high with
      | none =>
        rw [Option.getD_none] at bounded
        omega
      | some top =>
        have step := above top rfl
        rw [getD_some] at bounded
        omega
    refine ⟨[], ⟨by rw [repairs, append_nil], ?_, ?_, ?_⟩⟩
    · intro other mem
      rw [trades, Table.mem_put, numbered]
      exact .inr (.inr ⟨mem, Table.find_eq_none_iff.mp absent other mem⟩)
    · intro other mem
      rw [trades, Table.mem_put] at mem
      rcases mem with rfl | ⟨mem, _⟩
      · rw [numbered]
        exact .inr (.inr lower)
      · exact .inr (.inl mem)
    · intro other mem
      rw [trades]
      exact exists_mem_put mem

theorem Beyond.refl (limit : Nat) (store : Store) : Beyond limit [] store store where
  repairs := (append_nil _).symm
  beyond _ impossible := absurd impossible not_mem_nil
  same _ _ := Iff.rfl

theorem Beyond.trans
    (first : Beyond limit more before middle) (second : Beyond limit later middle after) :
    Beyond limit (more ++ later) before after where
  repairs := by rw [second.repairs, first.repairs, append_assoc]
  beyond number member := by
    rcases mem_append.mp member with early | late
    · exact first.beyond number early
    · exact second.beyond number late
  same row within := (first.same row within).trans (second.same row within)

/-- A row beyond the limit does not show below it. -/
theorem mem_put_of_beyond (beyond : limit < row.tradeId) (within : other.tradeId ≤ limit) :
    other ∈ table.rows ↔ other ∈ (table.put row).rows := by
  rw [Table.mem_put]
  have ne : other.tradeId ≠ row.tradeId := by omega
  constructor
  · intro mem
    exact .inr ⟨mem, ne⟩
  · rintro (rfl | ⟨mem, _⟩)
    · exact absurd rfl ne
    · exact mem

theorem beyond_of_rowChange
    (beyond : limit < number) (changed : RowChange high number before after) :
    ∃ more, Beyond limit more before after := by
  cases changed with
  | same trades repairs =>
    refine ⟨[], ⟨by rw [repairs, append_nil], by simp, ?_⟩⟩
    intro row _
    rw [trades]
  | repaired row numbered trades repairs =>
    refine ⟨[number], ⟨repairs, by simp [beyond], ?_⟩⟩
    intro other within
    rw [trades]
    exact mem_put_of_beyond (numbered ▸ beyond) within
  | appended row numbered _ _ trades repairs =>
    refine ⟨[], ⟨by rw [repairs, append_nil], by simp, ?_⟩⟩
    intro other within
    rw [trades]
    exact mem_put_of_beyond (numbered ▸ beyond) within

end Log

/-! ## Batches -/

/-- Trades of one insertion, with the evidence they were read from. -/
structure Batch where
  fresh : String
  rows : List Trade
  input : EvidenceInput

/-- The store after a batch was tried. -/
def Store.write (codec : Codec) (store : Store) (batch : Batch) : Store :=
  match insertTrades codec batch.fresh batch.rows batch.input store with
  | .ok (_, after) => after
  | .error _ => store

section Batches

variable {codec : Codec} {store after : Store} {batch : Batch} {batches : List Batch} {bound : Nat}

theorem getD_highest_le (every : ∀ row ∈ table.rows, row.tradeId ≤ number) :
    (highest table).getD 0 ≤ number := by
  unfold highest
  cases found : table.last fun _ => true with
  | none => exact Nat.zero_le _
  | some row => exact every row (Table.last_eq_some_iff.mp found).1

theorem tradeId_le_highest (mem : row ∈ table.rows) : row.tradeId ≤ (highest table).getD 0 := by
  unfold highest
  cases found : table.last fun _ => true with
  | none => exact absurd (Table.last_eq_none_iff.mp found row mem) (by simp)
  | some top => exact (Table.last_eq_some_iff.mp found).2.2 row mem rfl

/-- The highest id never falls. -/
theorem Follows.highest (follows : Follows bound more store after) :
    (highest store.trades).getD 0 ≤ (Btc.highest after.trades).getD 0 := by
  apply getD_highest_le
  intro row mem
  obtain ⟨other, there, same⟩ := follows.numbers row mem
  rw [← same]
  exact tradeId_le_highest there

/-- Every row of a batch that is written has a positive id. -/
theorem positive_of_forM {rows : List Trade} (valid : rows.forM (validateTrade codec) = .ok ()) :
    ∀ row ∈ rows, 0 < row.tradeId := by
  induction rows with
  | nil => simp
  | cons first rows ih =>
    rw [forM_eq_forM, forM_cons, ← forM_eq_forM] at valid
    obtain ⟨_, now, later⟩ := bind_ok.mp valid
    intro row mem
    rcases mem_cons.mp mem with rfl | rest
    · exact tradeId_pos_of_validateTrade now
    · exact ih later row rest

/-- A relation of stores that the rows of a batch maintain one by one, the batch
maintains. -/
theorem related_of_write {related : Store → Store → Prop} (reflexive : ∀ store, related store store)
    (transitive : ∀ first second third, related first second → related second third →
      related first third)
    (changed : ∀ row ∈ batch.rows, 0 < row.tradeId → ∀ before after,
      RowChange (highest store.trades) row.tradeId before after → related before after) :
    related store (store.write codec batch) := by
  unfold Store.write
  split
  · rename_i number after written
    obtain ⟨_, _, _, valid, finished, folded, written⟩ := bind₃_ok.mp written
    obtain ⟨_, same⟩ := Prod.mk.inj (ok.inj written)
    rw [← same]
    refine Fallible.foldlM_invariant (fun insertion => related store insertion.store) ?_
      (reflexive store) folded
    intro before numbered mem after reached inserted
    have listed := fst_mem_of_mem_zipIdx mem
    exact transitive _ _ _ reached (changed numbered.1 listed (positive_of_forM valid _ listed)
      _ _ (rowChange_of_insertRow inserted))
  · exact reflexive store

theorem follows_of_write (bounded : bound ≤ (highest store.trades).getD 0) :
    ∃ more, Follows bound more store (store.write codec batch) := by
  refine @related_of_write _ _ _ (fun before after => ∃ more, Follows bound more before after)
    (fun store => ⟨[], Follows.refl bound store⟩) ?_ ?_
  · rintro _ _ _ ⟨_, first⟩ ⟨_, second⟩
    exact ⟨_, first.trans second⟩
  · intro row _ positive before after changed
    exact follows_of_rowChange positive bounded changed

/-- Batches one after another leave everything they do not log. -/
theorem follows_of_writes (bounded : bound ≤ (highest store.trades).getD 0) :
    ∃ more, Follows bound more store (batches.foldl (Store.write codec) store) := by
  induction batches generalizing store with
  | nil => exact ⟨[], Follows.refl bound store⟩
  | cons batch batches ih =>
    obtain ⟨_, first⟩ := @follows_of_write codec _ batch _ bounded
    obtain ⟨_, rest⟩ := ih (bounded.trans first.highest)
    exact ⟨_, first.trans rest⟩

/-- Batches beyond a limit do not show at or below it. -/
theorem beyond_of_writes
    {limit : Nat} (beyond : ∀ batch ∈ batches, ∀ row ∈ batch.rows, limit < row.tradeId) :
    ∃ more, Beyond limit more store (batches.foldl (Store.write codec) store) := by
  induction batches generalizing store with
  | nil => exact ⟨[], Beyond.refl limit store⟩
  | cons batch batches ih =>
    have first : ∃ more, Beyond limit more store (store.write codec batch) := by
      refine @related_of_write _ _ _ (fun before after => ∃ more, Beyond limit more before after)
        (fun store => ⟨[], Beyond.refl limit store⟩) ?_ ?_
      · rintro _ _ _ ⟨_, one⟩ ⟨_, two⟩
        exact ⟨_, one.trans two⟩
      · intro row mem _ before after changed
        exact beyond_of_rowChange (beyond batch (by simp) row mem) changed
    obtain ⟨_, first⟩ := first
    obtain ⟨_, rest⟩ := ih (fun other mem =>
      beyond other (by simp [mem]))
    exact ⟨_, first.trans rest⟩

end Batches

end MarketCow.Btc
