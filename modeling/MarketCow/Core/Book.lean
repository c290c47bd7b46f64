import MarketCow.Library.OrderedMap

/-!
# Prices, levels and order books

Decimals are exact rationals: the decimal type of the source compares by
numeric value, and its remainder is exact. A side of a book is an ordered map
from price to quantity.
-/

namespace MarketCow.Core

open Library List

/-- A decimal by its numeric value. -/
abbrev Decimal := ℚ

instance : Std.TransOrd Decimal := inferInstance

/-- Nanoseconds since the epoch. -/
abbrev DateTime := Int

/-- A duration of whole seconds. -/
def seconds (count : Int) : Int := count * 1000000000

namespace Decimal

def isZero (value : Decimal) : Bool := decide (value = 0)

@[simp] theorem isZero_eq_true_iff : isZero value = true ↔ value = 0 := decide_eq_true_iff

@[simp] theorem isZero_eq_false_iff : isZero value = false ↔ value ≠ 0 := decide_eq_false_iff_not

/-- Integer part of a quotient, rounded toward zero. -/
def truncate (value : Decimal) : Int :=
  if 0 ≤ value then ⌊value⌋ else ⌈value⌉

/-- Remainder of the truncated division. The source panics on a zero divisor;
callers test the divisor first. -/
def rem (dividend divisor : Decimal) : Decimal :=
  dividend - divisor * truncate (dividend / divisor)

/-- A value is an exact multiple of a nonzero divisor exactly when the
remainder vanishes. -/
theorem isZero_rem_iff (nonzero : divisor ≠ 0) :
    isZero (rem dividend divisor) = true ↔ ∃ factor : Int, dividend = factor * divisor := by
  rw [isZero_eq_true_iff]
  unfold rem
  constructor
  · intro vanishes
    exact ⟨truncate (dividend / divisor), by linarith⟩
  · rintro ⟨factor, rfl⟩
    have quotient : (factor : ℚ) * divisor / divisor = factor := mul_div_cancel_right₀ _ nonzero
    have whole : truncate ((factor : ℚ) * divisor / divisor) = factor := by
      rw [quotient]
      unfold truncate
      split <;> simp
    rw [whole]
    ring

end Decimal

/-- A price, stored as its decimal value. -/
abbrev Price := Decimal

namespace Price

def isZero (price : Price) : Bool := decide (price = 0)

def isOne (price : Price) : Bool := decide (price = 1)

@[simp] theorem isZero_eq_false_iff : isZero price = false ↔ price ≠ 0 := decide_eq_false_iff_not

end Price

structure Level where
  price : Price
  quantity : Decimal
  deriving DecidableEq

inductive Side
  | bid
  | ask
  deriving DecidableEq

structure SideLevels where
  side : Side
  levels : List Level
  deriving DecidableEq

/-- One side of a book. -/
abbrev BookSide := TreeMap Price Decimal

namespace BookSide

/-- Set one level, removing it when the quantity is zero. -/
def setLevel (side : BookSide) (level : Level) : BookSide :=
  if level.quantity.isZero then side.erase level.price
  else side.insert level.price level.quantity

/-- Set levels from left to right. -/
def setLevels (side : BookSide) (levels : List Level) : BookSide :=
  levels.foldl setLevel side

/-- The nonzero levels of a list; a later level replaces an earlier one. -/
def ofLevels (levels : List Level) : BookSide :=
  TreeMap.collect
    ((levels.filter fun level => !level.quantity.isZero).map fun level =>
      (level.price, level.quantity))

@[simp] theorem setLevels_nil (side : BookSide) : setLevels side [] = side := rfl

variable (side : BookSide) (level : Level)

@[simp] theorem setLevels_cons (levels : List Level) :
    setLevels side (level :: levels) = setLevels (setLevel side level) levels :=
  rfl

theorem getElem?_setLevel (price : Price) :
    (setLevel side level)[price]? =
      if level.price = price then
        (if level.quantity = 0 then none else some level.quantity)
      else side[price]? := by
  unfold setLevel
  by_cases zero : level.quantity = 0
  · simp [zero, getElem?_erase]
  · simp [zero, TreeMap.getElem?_insert]

variable {levels : List Level}

/-- Every entry of a collected side is a nonzero one of the levels. -/
theorem level_of_getElem?_ofLevels (present : (ofLevels levels)[price]? = some quantity) :
    ∃ level ∈ levels, level.price = price ∧ level.quantity = quantity ∧ quantity ≠ 0 := by
  unfold ofLevels at present
  induction levels using List.reverseRecOn with
  | nil => simp [TreeMap.collect] at present
  | append_singleton front level ih =>
    rw [filter_append, map_append] at present
    cases kept : !level.quantity.isZero with
    | false =>
      simp only [filter_cons, kept, false_eq_true, if_false,
        filter_nil, map_nil, append_nil] at present
      obtain ⟨earlier, mem, same⟩ := ih present
      exact ⟨earlier, by simp [mem], same⟩
    | true =>
      simp only [filter_cons, kept, if_true, filter_nil, map_cons, map_nil] at present
      rw [TreeMap.getElem?_collect_append] at present
      by_cases samePrice : level.price = price
      · rw [if_pos samePrice] at present
        cases present
        exact ⟨level, by simp, samePrice, rfl, by simpa using kept⟩
      · rw [if_neg samePrice] at present
        obtain ⟨earlier, mem, same⟩ := ih present
        exact ⟨earlier, by simp [mem], same⟩

/-- Setting levels only introduces nonzero ones of these levels. -/
theorem level_of_getElem?_setLevels
    {side : BookSide} (present : (setLevels side levels)[price]? = some quantity) :
    (∃ level ∈ levels, level.price = price ∧ level.quantity = quantity ∧ quantity ≠ 0) ∨
      side[price]? = some quantity := by
  induction levels generalizing side with
  | nil => exact .inr present
  | cons level levels ih =>
    rcases ih present with ⟨found, mem, same⟩ | earlier
    · exact .inl ⟨found, by simp [mem], same⟩
    · rw [getElem?_setLevel] at earlier
      by_cases samePrice : level.price = price
      · rw [if_pos samePrice] at earlier
        by_cases zero : level.quantity = 0
        · rw [if_pos zero] at earlier
          cases earlier
        · rw [if_neg zero] at earlier
          cases earlier
          exact .inl ⟨level, by simp, samePrice, rfl, zero⟩
      · rw [if_neg samePrice] at earlier
        exact .inr earlier

end BookSide

structure Book where
  bids : BookSide
  asks : BookSide
  tickSize : Option Price
  tickVersion : String
  sourceObservedAt : Option DateTime
  authoritativeRefreshReceivedAt : Option DateTime
  lastTradePrice : Option Price
  lastTradeObservedAt : Option DateTime
  deriving DecidableEq

namespace Book

/-- The default book: no levels and no metadata. -/
def empty : Book where
  bids := ∅
  asks := ∅
  tickSize := none
  tickVersion := ""
  sourceObservedAt := none
  authoritativeRefreshReceivedAt := none
  lastTradePrice := none
  lastTradeObservedAt := none

def levelsTickAligned (tickSize : Price) (levels : List Level) : Bool :=
  !tickSize.isZero &&
    levels.all fun level => (Decimal.rem level.price tickSize).isZero

def replace (book : Book) (bids asks : List Level) (tickSize : Price) (tickVersion : String)
    (observedAt : DateTime) : Book :=
  { book with
    bids := BookSide.ofLevels bids
    asks := BookSide.ofLevels asks
    tickSize := some tickSize
    tickVersion := tickVersion
    sourceObservedAt := some observedAt }

def apply (book : Book) (side : Side) (levels : List Level) (observedAt : DateTime) : Book :=
  match side with
  | .bid =>
    { book with
      bids := book.bids.setLevels levels
      sourceObservedAt := some observedAt }
  | .ask =>
    { book with
      asks := book.asks.setLevels levels
      sourceObservedAt := some observedAt }

def applyBatch (book : Book) (changes : List SideLevels) (observedAt : DateTime) : Book :=
  changes.foldl (fun book change => book.apply change.side change.levels observedAt) book

/-- Final assignment of every touched price of one side, including zero-size
deletions. -/
def writes (side : Side) (changes : List SideLevels) : TreeMap Price Decimal :=
  changes.foldl
    (fun target change =>
      if change.side = side then
        change.levels.foldl
          (fun target level => target.insert level.price level.quantity) target
      else target) ∅

/-- Prices outside the final range of the venue: present levels that no write
deletes, and nonzero writes. -/
def removals
    (outside : Price → Bool) (side : BookSide) (written : TreeMap Price Decimal) : List Price :=
  (Std.ExtTreeSet.ofList
    ((side.keyList.filter fun price =>
        outside price && written[price]?.all fun quantity => !quantity.isZero) ++
      ((written.toList.filter fun entry =>
        !entry.2.isZero && outside entry.1).map Prod.fst)) compare).toList

/-- Zero-quantity levels at the given prices. -/
def deletions (side : Side) (prices : List Price) : List SideLevels :=
  if prices.isEmpty then []
  else [{ side := side, levels := prices.map fun price => ⟨price, 0⟩ }]

/-- The bid of a venue quote, unless it is the empty-side sentinel. -/
def expectedBid (bestBid : Option Price) : Option Price :=
  bestBid.filter fun price => !price.isZero

/-- The ask of a venue quote, unless it is the empty-side sentinel. -/
def expectedAsk (bestAsk : Option Price) : Option Price :=
  bestAsk.filter fun price => !price.isOne

def bidOutside (expected : Option Price) (price : Price) : Bool :=
  expected.all fun best => best < price

def askOutside (expected : Option Price) (price : Price) : Bool :=
  expected.all fun best => price < best

def replayCompleteAtomicChanges
    (book : Book) (changes : List SideLevels) (bestBid bestAsk : Option Price) : List SideLevels :=
  if bestBid.isNone && bestAsk.isNone then changes
  else
    let bidRemovals :=
      removals (bidOutside (expectedBid bestBid)) book.bids (writes .bid changes)
    let askRemovals :=
      removals (askOutside (expectedAsk bestAsk)) book.asks (writes .ask changes)
    changes ++ deletions .bid bidRemovals ++ deletions .ask askRemovals

/-- Whether the best bid reaches the best ask. -/
def crossedOrLocked (book : Book) : Bool :=
  match book.bids.lastKey?, book.asks.firstKey? with
  | some bid, some ask => ask ≤ bid
  | _, _ => false

variable (book : Book)

@[simp] theorem applyBatch_nil (observedAt : DateTime) : book.applyBatch [] observedAt = book := rfl

@[simp] theorem applyBatch_cons
    (change : SideLevels) (changes : List SideLevels) (observedAt : DateTime) :
    book.applyBatch (change :: changes) observedAt =
      (book.apply change.side change.levels observedAt).applyBatch changes
        observedAt := rfl

/-- A tick is a nonzero divisor of every level price. -/
theorem levelsTickAligned_iff {tickSize : Price} {levels : List Level} :
    levelsTickAligned tickSize levels = true ↔
      tickSize ≠ 0 ∧ ∀ level ∈ levels, ∃ factor : Int, level.price = factor * tickSize := by
  unfold levelsTickAligned
  simp only [and_eq_true, not_eq_true', all_eq_true]
  constructor
  · rintro ⟨nonzero, aligned⟩
    have tickNonzero : tickSize ≠ 0 := Price.isZero_eq_false_iff.mp nonzero
    exact ⟨tickNonzero, fun level mem =>
      (Decimal.isZero_rem_iff tickNonzero).mp (aligned level mem)⟩
  · rintro ⟨nonzero, aligned⟩
    exact ⟨Price.isZero_eq_false_iff.mpr nonzero, fun level mem =>
      (Decimal.isZero_rem_iff nonzero).mpr (aligned level mem)⟩

/-- A book is uncrossed exactly when every bid lies below every ask. -/
theorem crossedOrLocked_eq_false_iff {book : Book} :
    book.crossedOrLocked = false ↔
      ∀ (bid : Price) (bidQuantity : Decimal) (ask : Price) (askQuantity : Decimal),
        book.bids[bid]? = some bidQuantity → book.asks[ask]? = some askQuantity → bid < ask := by
  unfold crossedOrLocked
  cases bestBid : book.bids.lastKey? with
  | none =>
    have empty := TreeMap.lastKey?_eq_none_iff.mp bestBid
    simp only [TreeMap.isEmpty_iff] at empty
    simp [empty]
  | some bid =>
    obtain ⟨bidPresent, bidBound⟩ := TreeMap.lastKey?_eq_some_iff.mp bestBid
    cases bestAsk : book.asks.firstKey? with
    | none =>
      have empty := TreeMap.firstKey?_eq_none_iff.mp bestAsk
      simp only [TreeMap.isEmpty_iff] at empty
      simp [empty]
    | some ask =>
      obtain ⟨askPresent, askBound⟩ := TreeMap.firstKey?_eq_some_iff.mp bestAsk
      simp only [decide_eq_false_iff_not, not_le]
      constructor
      · intro below otherBid bidQuantity otherAsk askQuantity hasBid hasAsk
        calc
          otherBid ≤ bid := bidBound otherBid bidQuantity hasBid
          _ < ask := below
          _ ≤ otherAsk := askBound otherAsk askQuantity hasAsk
      · intro separated
        obtain ⟨bidQuantity, hasBid⟩ := bidPresent
        obtain ⟨askQuantity, hasAsk⟩ := askPresent
        exact separated bid bidQuantity ask askQuantity hasBid hasAsk

end Book

end MarketCow.Core
