import MarketCow.Core.DecisionEffect

/-!
# Well-formed books

Every stored book is uncrossed, has a versioned tick, and all of its levels are
multiples of that tick. Each change of a book preserves this.
-/

namespace MarketCow.Core

open Library

namespace Book

/-- A price that a nonzero tick divides. -/
def Divides (tick price : Price) : Prop :=
  tick ≠ 0 ∧ ∃ factor : Int, price = factor * tick

structure WellFormed (book : Book) : Prop where
  uncrossed : book.crossedOrLocked = false
  versioned : book.tickVersion.isEmpty = false
  ticked : ∃ tick, book.tickSize = some tick ∧
    ∀ (side : Side) (price : Price) (quantity : Decimal),
      (book.sideOf side)[price]? = some quantity → Divides tick price

theorem divides_of_aligned (aligned : levelsTickAligned tick levels = true) (mem : level ∈ levels) :
    Divides tick level.price := by
  obtain ⟨nonzero, multiples⟩ := levelsTickAligned_iff.mp aligned
  exact ⟨nonzero, multiples level mem⟩

variable {book : Book} {side : Side}

/-- A level after some changes is one of their levels or an old one. -/
theorem level_of_getElem?_applyBatch
    (present : ((book.applyBatch changes observedAt).sideOf side)[price]? = some quantity) :
    (∃ change ∈ changes, ∃ level ∈ change.levels,
          level.price = price ∧ level.quantity = quantity ∧ quantity ≠ 0) ∨
      (book.sideOf side)[price]? = some quantity := by
  induction changes generalizing book with
  | nil => exact .inr present
  | cons change changes ih =>
    rw [applyBatch_cons] at present
    rcases ih present with ⟨other, mem, level, inLevels, same⟩ | earlier
    · exact .inl ⟨other, by simp [mem], level, inLevels, same⟩
    · rw [sideOf_apply] at earlier
      split at earlier
      · rcases BookSide.level_of_getElem?_setLevels earlier with
          ⟨level, inLevels, same⟩ | old
        · exact .inl ⟨change, by simp, level, inLevels, same⟩
        · exact .inr old
      · exact .inr earlier

/-- Changes keep the tick. -/
theorem tick_applyBatch (book : Book) (changes : List SideLevels) (observedAt : DateTime) :
    (book.applyBatch changes observedAt).tickSize = book.tickSize ∧
      (book.applyBatch changes observedAt).tickVersion = book.tickVersion := by
  induction changes generalizing book with
  | nil => exact ⟨rfl, rfl⟩
  | cons change changes ih =>
    rw [applyBatch_cons]
    obtain ⟨size, version⟩ := ih (book.apply change.side change.levels observedAt)
    rw [size, version]
    unfold apply
    cases change.side <;> exact ⟨rfl, rfl⟩

/-- Pruning only removes levels. -/
theorem getElem?_of_getElem?_prune {quote : ExpectedQuote} {price : Price} {quantity : Decimal}
    (present : ((quote.prune book).sideOf side)[price]? = some quantity) :
    (book.sideOf side)[price]? = some quantity := by
  cases side with
  | bid =>
    simp only [ExpectedQuote.prune, sideOf] at present ⊢
    rw [getElem?_pruneBids] at present
    split at present
    · cases present
    · exact present
  | ask =>
    simp only [ExpectedQuote.prune, sideOf] at present ⊢
    rw [getElem?_pruneAsks] at present
    split at present
    · cases present
    · exact present

/-- The book after a frame has levels of the frame or of the old book, and the
tick of the old book. -/
theorem atomicBook_levels (book : Book) (event : CanonicalEvent) (changes : List SideLevels)
    (bestBid bestAsk : Option Price) :
    ((atomicBook book event changes bestBid bestAsk).tickSize = book.tickSize ∧
      (atomicBook book event changes bestBid bestAsk).tickVersion = book.tickVersion) ∧
    ∀ (side : Side) (price : Price) (quantity : Decimal),
      ((atomicBook book event changes bestBid bestAsk).sideOf side)[price]? = some quantity →
        (∃ change ∈ changes, ∃ level ∈ change.levels,
          level.price = price ∧ level.quantity = quantity ∧ quantity ≠ 0) ∨
          (book.sideOf side)[price]? = some quantity := by
  have ticks := tick_applyBatch book changes event.sourceObservedAt
  unfold atomicBook
  split
  · refine ⟨ticks, ?_⟩
    intro side price quantity present
    exact level_of_getElem?_applyBatch (getElem?_of_getElem?_prune present)
  · refine ⟨ticks, ?_⟩
    intro side price quantity present
    exact level_of_getElem?_applyBatch present

variable {event : CanonicalEvent} {tokenId : String}

/-- Every change of a continuous book keeps it well formed. -/
theorem WellFormed.change
    (wellFormed : before.WellFormed) (changed : BookChange event tokenId before after) :
    after.WellFormed := by
  obtain ⟨tick, known, multiples⟩ := wellFormed.ticked
  cases changed with
  | @delta side levels newTick _ ticked aligned uncrossed =>
    rw [known] at ticked
    cases ticked
    have kept : (before.apply side levels event.sourceObservedAt).tickSize = before.tickSize ∧
        (before.apply side levels event.sourceObservedAt).tickVersion = before.tickVersion := by
      unfold apply
      cases side <;> exact ⟨rfl, rfl⟩
    refine ⟨uncrossed, by rw [kept.2]; exact wellFormed.versioned, tick, by rw [kept.1, known], ?_⟩
    intro other price quantity present
    rw [sideOf_apply] at present
    split at present
    · rcases BookSide.level_of_getElem?_setLevels present with
        ⟨level, mem, rfl, _⟩ | old
      · exact divides_of_aligned aligned mem
      · exact multiples other price quantity old
    · exact multiples other price quantity present
  | @atomicDelta changes bestBid bestAsk newTick _ ticked aligned uncrossed =>
    rw [known] at ticked
    cases ticked
    obtain ⟨kept, levels⟩ := atomicBook_levels before event changes bestBid bestAsk
    refine ⟨uncrossed, by rw [kept.2]; exact wellFormed.versioned, tick, by rw [kept.1, known], ?_⟩
    intro side price quantity present
    rcases levels side price quantity present with
      ⟨change, inFrame, level, mem, rfl, _⟩ | old
    · exact divides_of_aligned (aligned change inFrame) mem
    · exact multiples side price quantity old
  | bestBidAsk _ | lastTradePrice _ =>
    refine ⟨wellFormed.uncrossed, wellFormed.versioned, tick, known, ?_⟩
    intro side price quantity present
    exact multiples side price quantity (by cases side <;> exact present)
  | @tickSizeChange _ newTickSize tickVersion _ versioned aligned =>
    refine ⟨wellFormed.uncrossed, versioned, newTickSize, rfl, ?_⟩
    intro side price quantity present
    have listed : price ∈ before.bids.keyList ++ before.asks.keyList := by
      cases side with
      | bid => exact List.mem_append_left _ (TreeMap.mem_keyList.mpr ⟨quantity, present⟩)
      | ask => exact List.mem_append_right _ (TreeMap.mem_keyList.mpr ⟨quantity, present⟩)
    obtain ⟨nonzero, remainder⟩ := aligned price listed
    exact ⟨nonzero, (Decimal.isZero_rem_iff nonzero).mp remainder⟩

/-- A full book that passes its checks is well formed. -/
theorem wellFormed_refreshedBook
    {state : CanonicalState} {bids asks : List Level} {tickSize : Price} {tickVersion : String}
    (aligned : fullBookIsAligned bids asks tickSize tickVersion = true)
    (uncrossed :
      (refreshedBook state event tokenId bids asks tickSize tickVersion).crossedOrLocked = false) :
    (refreshedBook state event tokenId bids asks tickSize tickVersion).WellFormed := by
  simp only [fullBookIsAligned, and_eq_true, not_eq_true'] at aligned
  obtain ⟨⟨versioned, bidsAligned⟩, asksAligned⟩ := aligned
  refine ⟨uncrossed, versioned, tickSize, rfl, ?_⟩
  intro side price quantity present
  cases side with
  | bid =>
    obtain ⟨level, mem, rfl, _⟩ := BookSide.level_of_getElem?_ofLevels present
    exact divides_of_aligned bidsAligned mem
  | ask =>
    obtain ⟨level, mem, rfl, _⟩ := BookSide.level_of_getElem?_ofLevels present
    exact divides_of_aligned asksAligned mem

end Book

end MarketCow.Core
