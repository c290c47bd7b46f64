import MarketCow.Core.BookDecision

/-!
# Complete change lists

Completing the changes of a frame by the deletions its quote proves is
idempotent, and a reader that sets the completed levels obtains the book that
the writer pruned to the quote.
-/

namespace MarketCow.Core

open Library List

namespace Book

/-- The side of a book that a change addresses. -/
def sideOf (book : Book) : Side → BookSide
  | .bid => book.bids
  | .ask => book.asks

/-! ## Final writes -/

/-- Write levels into a map of final quantities. -/
def writeLevels (target : TreeMap Price Decimal) (levels : List Level) : TreeMap Price Decimal :=
  levels.foldl (fun target level => target.insert level.price level.quantity) target

/-- Continue the final writes of a side. -/
def writesFrom (target : TreeMap Price Decimal) (side : Side)
    (changes : List SideLevels) : TreeMap Price Decimal :=
  changes.foldl
    (fun target change =>
      if change.side = side then writeLevels target change.levels else target) target

variable (side : Side)

theorem writes_eq_writesFrom (changes : List SideLevels) :
    writes side changes = writesFrom ∅ side changes := rfl

variable (target : TreeMap Price Decimal)

theorem writesFrom_append (first second : List SideLevels) :
    writesFrom target side (first ++ second) =
      writesFrom (writesFrom target side first) side second := by
  simp [writesFrom, foldl_append]

/-- Zero writes at some prices. -/
theorem getElem?_writeLevels_deletions (prices : List Price) (price : Price) :
    (writeLevels target (prices.map fun price => ⟨price, 0⟩))[price]? =
      if price ∈ prices then some 0 else target[price]? := by
  induction prices generalizing target with
  | nil => simp [writeLevels]
  | cons first prices ih =>
    have step := ih (target.insert first 0)
    simp only [writeLevels, map_cons, foldl_cons] at step ⊢
    rw [step, TreeMap.getElem?_insert]
    by_cases later : price ∈ prices
    · simp [later]
    · by_cases same : first = price
      · simp [same]
      · have ne : ¬price = first := fun equal => same equal.symm
        simp [later, same, ne]

theorem getElem?_writesFrom_deletions (side other : Side) (prices : List Price) (price : Price) :
    (writesFrom target side (deletions other prices))[price]? =
      if other = side ∧ price ∈ prices then some 0 else target[price]? := by
  unfold deletions
  by_cases empty : prices.isEmpty = true
  · have none : prices = [] := isEmpty_iff.mp empty
    simp [none, writesFrom]
  · rw [if_neg empty]
    simp only [writesFrom, foldl_cons, foldl_nil]
    by_cases same : other = side
    · rw [if_pos same, getElem?_writeLevels_deletions]
      simp [same]
    · simp [same]

/-- The level that writes leave at a price: the last write decides, else the
level that was there. -/
def overlay (written base : TreeMap Price Decimal) (price : Price) : Option Decimal :=
  match written[price]? with
  | some quantity => if quantity = 0 then none else some quantity
  | none => base[price]?

theorem sideOf_apply
    (book : Book) (side other : Side) (levels : List Level) (observedAt : DateTime) :
    (book.apply side levels observedAt).sideOf other =
      if side = other then (book.sideOf other).setLevels levels
      else book.sideOf other := by
  cases side <;> cases other <;> simp [apply, sideOf]

/-! ## Removals -/

variable {side : BookSide}

theorem mem_removals :
    price ∈ removals outside side written ↔
      outside price = true ∧
        (((∃ quantity, side[price]? = some quantity) ∧
            ∀ quantity, written[price]? = some quantity → quantity ≠ 0) ∨
          ∃ quantity, quantity ≠ 0 ∧ written[price]? = some quantity) := by
  unfold removals
  rw [Std.ExtTreeSet.mem_toList, Std.ExtTreeSet.mem_ofList]
  simp only [contains_eq_mem, mem_append, mem_filter, TreeMap.mem_keyList,
    mem_map, Prod.exists, mem_toList_iff_getElem?_eq_some,
    and_eq_true, not_eq_true', Decimal.isZero_eq_false_iff,
    Option.all_eq_true, decide_eq_true_eq, exists_and_right, exists_eq_right]
  constructor
  · rintro (⟨present, beyond, kept⟩ | ⟨quantity, present, nonzero, beyond⟩)
    · exact ⟨beyond, .inl ⟨present, kept⟩⟩
    · exact ⟨beyond, .inr ⟨quantity, nonzero, present⟩⟩
  · rintro ⟨beyond, ⟨present, kept⟩ | ⟨quantity, nonzero, present⟩⟩
    · exact .inl ⟨present, beyond, kept⟩
    · exact .inr ⟨quantity, present, nonzero, beyond⟩

/-- A price outside the quote is removed exactly when the writes leave a level
there. -/
theorem mem_removals_iff_overlay :
    price ∈ removals outside side written ↔
      outside price = true ∧ overlay written side price ≠ none := by
  rw [mem_removals]
  unfold overlay
  cases last : written[price]? with
  | none =>
    cases present : side[price]? with
    | none | some quantity => simp
  | some quantity =>
    by_cases zero : quantity = 0
    · simp [zero]
    · simp [zero]

/-! ## Completed lists -/

/-- The prices of one side outside the final range of a venue quote. -/
def outsideOf (side : Side) (bestBid bestAsk : Option Price) : Price → Bool :=
  match side with
  | .bid => bidOutside (expectedBid bestBid)
  | .ask => askOutside (expectedAsk bestAsk)

/-- The levels of one side that a completed list deletes. -/
def staleLevels (book : Book) (side : Side) (changes : List SideLevels)
    (bestBid bestAsk : Option Price) : List Price :=
  removals (outsideOf side bestBid bestAsk) (book.sideOf side) (writes side changes)

variable {book : Book} {changes : List SideLevels} {bestBid bestAsk : Option Price}

theorem replayCompleteAtomicChanges_quoted (quoted : (bestBid.isSome || bestAsk.isSome) = true) :
    book.replayCompleteAtomicChanges changes bestBid bestAsk =
      changes ++ deletions .bid (book.staleLevels .bid changes bestBid bestAsk) ++
        deletions .ask (book.staleLevels .ask changes bestBid bestAsk) := by
  unfold replayCompleteAtomicChanges
  rw [if_neg]
  · rfl
  · cases bestBid <;> cases bestAsk <;> simp at quoted ⊢

theorem replayCompleteAtomicChanges_unquoted
    (unquoted : (bestBid.isSome || bestAsk.isSome) = false) :
    book.replayCompleteAtomicChanges changes bestBid bestAsk = changes := by
  unfold replayCompleteAtomicChanges
  rw [if_pos]
  cases bestBid <;> cases bestAsk <;> simp at unquoted ⊢

section

variable (quoted : (bestBid.isSome || bestAsk.isSome) = true)
include quoted

/-- The completed list deletes the stale levels last. -/
theorem getElem?_writes_completed (side : Side) (price : Price) :
    (writes side (book.replayCompleteAtomicChanges changes bestBid bestAsk))[price]? =
      if price ∈ book.staleLevels side changes bestBid bestAsk then some 0
      else (writes side changes)[price]? := by
  rw [replayCompleteAtomicChanges_quoted quoted, writes_eq_writesFrom, writesFrom_append,
    writesFrom_append, getElem?_writesFrom_deletions, getElem?_writesFrom_deletions,
    ← writes_eq_writesFrom]
  cases side <;> simp

/-- After a completed list no level outside the quote is left, and every other
level is the one the changes leave. -/
theorem overlay_completed (side : Side) (price : Price) :
    overlay (writes side (book.replayCompleteAtomicChanges changes bestBid bestAsk))
        (book.sideOf side) price =
      if outsideOf side bestBid bestAsk price = true then none
      else overlay (writes side changes) (book.sideOf side) price := by
  have decides : price ∈ book.staleLevels side changes bestBid bestAsk ↔
      outsideOf side bestBid bestAsk price = true ∧
        overlay (writes side changes) (book.sideOf side) price ≠ none :=
    mem_removals_iff_overlay
  have writesCompleted :
      (writes side (book.replayCompleteAtomicChanges changes bestBid bestAsk))[price]? =
        if price ∈ book.staleLevels side changes bestBid bestAsk then some 0
        else (writes side changes)[price]? :=
    getElem?_writes_completed quoted side price
  by_cases stale : price ∈ book.staleLevels side changes bestBid bestAsk
  · have removed := decides.mp stale
    rw [if_pos stale] at writesCompleted
    rw [if_pos removed.1]
    unfold overlay
    rw [writesCompleted]
    simp
  · rw [if_neg stale] at writesCompleted
    have unchanged :
        overlay (writes side (book.replayCompleteAtomicChanges changes bestBid bestAsk))
            (book.sideOf side) price =
          overlay (writes side changes) (book.sideOf side) price := by
      unfold overlay
      rw [writesCompleted]
    rw [unchanged]
    by_cases beyond : outsideOf side bestBid bestAsk price = true
    · rw [if_pos beyond]
      by_contra present
      exact stale (decides.mpr ⟨beyond, present⟩)
    · rw [if_neg beyond]

/-- A completed list has no stale levels left to delete. -/
theorem staleLevels_completed (side : Side) :
    book.staleLevels side (book.replayCompleteAtomicChanges changes bestBid bestAsk)
      bestBid bestAsk = [] := by
  rw [eq_nil_iff_forall_not_mem]
  intro price stale
  obtain ⟨beyond, present⟩ := mem_removals_iff_overlay.mp stale
  rw [overlay_completed quoted, if_pos beyond] at present
  exact present rfl

end

/-- Completing a completed list changes nothing. -/
theorem replayCompleteAtomicChanges_idempotent
    (book : Book) (changes : List SideLevels) (bestBid bestAsk : Option Price) :
    book.replayCompleteAtomicChanges
        (book.replayCompleteAtomicChanges changes bestBid bestAsk) bestBid bestAsk =
      book.replayCompleteAtomicChanges changes bestBid bestAsk := by
  cases quoted : bestBid.isSome || bestAsk.isSome with
  | false => rw [replayCompleteAtomicChanges_unquoted quoted]
  | true =>
    generalize completed : book.replayCompleteAtomicChanges changes bestBid bestAsk = complete
    rw [replayCompleteAtomicChanges_quoted quoted, ← completed,
      staleLevels_completed quoted, staleLevels_completed quoted]
    simp [deletions]

/-! ## Pruning to a quote -/

theorem getElem?_pruneBids (bids : BookSide) (expected : Option Price) (price : Price) :
    (expected.elim (∅ : BookSide) fun best =>
        bids.filter fun price _ => price ≤ best)[price]? =
      if bidOutside expected price = true then none else bids[price]? := by
  cases expected with
  | none => simp [bidOutside]
  | some best =>
    simp only [bidOutside, elim_some, Option.all_some, decide_eq_true_eq]
    rw [getElem?_filterKeys bids (fun price => decide (price ≤ best))]
    by_cases within : price ≤ best
    · simp [within]
    · simp [within, not_le.mp within]

theorem getElem?_pruneAsks (asks : BookSide) (expected : Option Price) (price : Price) :
    (expected.elim (∅ : BookSide) fun best =>
        asks.filter fun price _ => best ≤ price)[price]? =
      if askOutside expected price = true then none else asks[price]? := by
  cases expected with
  | none => simp [askOutside]
  | some best =>
    simp only [askOutside, elim_some, Option.all_some, decide_eq_true_eq]
    rw [getElem?_filterKeys asks (fun price => decide (best ≤ price))]
    by_cases within : best ≤ price
    · simp [within]
    · simp [within, not_le.mp within]

/-! ## What a list of changes leaves -/

theorem getElem?_setLevels {current base : BookSide} {written : TreeMap Price Decimal}
    (overlaid : ∀ price, current[price]? = overlay written base price) (levels : List Level)
    (price : Price) :
    (current.setLevels levels)[price]? = overlay (writeLevels written levels) base price := by
  induction levels generalizing current written with
  | nil => exact overlaid price
  | cons level levels ih =>
    apply ih
    intro other
    rw [BookSide.getElem?_setLevel, overlaid other]
    unfold overlay
    rw [TreeMap.getElem?_insert]
    by_cases same : level.price = other
    · simp [same]
    · simp [same]

theorem getElem?_applyBatch
    {side : Side} {current : Book} {base : BookSide} {written : TreeMap Price Decimal}
    (overlaid : ∀ price, (current.sideOf side)[price]? = overlay written base price)
    (changes : List SideLevels) (observedAt : DateTime) (price : Price) :
    ((current.applyBatch changes observedAt).sideOf side)[price]? =
      overlay (writesFrom written side changes) base price := by
  induction changes generalizing current written with
  | nil => exact overlaid price
  | cons change changes ih =>
    apply ih
    intro other
    rw [sideOf_apply]
    by_cases same : change.side = side
    · simp only [same, if_true]
      exact getElem?_setLevels overlaid change.levels other
    · simp only [same, if_false]
      exact overlaid other

/-- Changes with the same final writes leave the same side of a book. -/
theorem sideOf_applyBatch_congr {side : Side} {first second : List SideLevels}
    (same : writes side first = writes side second) (book : Book) (observedAt : DateTime) :
    (book.applyBatch first observedAt).sideOf side =
      (book.applyBatch second observedAt).sideOf side := by
  have untouched : ∀ price, (book.sideOf side)[price]? = overlay ∅ (book.sideOf side) price := by
    intro price
    simp [overlay]
  apply TreeMap.ext_getElem?
  intro price
  rw [getElem?_applyBatch untouched, getElem?_applyBatch untouched, ← writes_eq_writesFrom,
    ← writes_eq_writesFrom, same]

end Book

end MarketCow.Core
