import MarketCow.Core.CatalogReplacement

/-!
# Decisions about one book

The branches of the events that name one token. Each of them either rejects the
event and opens a gap for the token, or stores one new book for the token. A
division by a zero tick panics in the source and fails here.
-/

namespace MarketCow.Core

open Library
open Decision (accept reject)

namespace CanonicalState

/-- Store the book of a token. -/
def withBook (state : CanonicalState) (tokenId : String) (book : Book) : CanonicalState :=
  { state with books := state.books.insert tokenId book }

/-- The book of a token whose data is continuous. -/
def continuousBook? (state : CanonicalState) (tokenId : String) : Option Book :=
  if state.tokenHasRecoveryGap tokenId then none else state.books[tokenId]?

/-- Without a catalog every token is active. -/
def tokenIsActive (state : CanonicalState) (tokenId : String) : Bool :=
  state.catalogRevision.isNone ||
    state.activeMarkets.any fun market => market.hasToken tokenId

theorem continuousBook?_eq_some_iff {state : CanonicalState} {tokenId : String} {book : Book} :
    state.continuousBook? tokenId = some book ↔
      state.tokenHasRecoveryGap tokenId = false ∧ state.books[tokenId]? = some book := by
  unfold continuousBook?
  cases state.tokenHasRecoveryGap tokenId <;> simp

end CanonicalState

/-! ## Full books -/

/-- The book that a full snapshot installs. -/
def refreshedBook
    (state : CanonicalState) (event : CanonicalEvent) (tokenId : String) (bids asks : List Level)
    (tickSize : Price) (tickVersion : String) : Book :=
  { ((state.books[tokenId]?).getD Book.empty).replace bids asks tickSize tickVersion
      event.sourceObservedAt with
    authoritativeRefreshReceivedAt :=
      if event.source.source = "polymarket_clob_http" then some event.receivedAt else none }

def fullBookIsAligned (bids asks : List Level) (tickSize : Price) (tickVersion : String) : Bool :=
  !tickVersion.isEmpty && Book.levelsTickAligned tickSize bids &&
    Book.levelsTickAligned tickSize asks

def decideFullBook
    (state : CanonicalState) (event : CanonicalEvent) (tokenId : String) (bids asks : List Level)
    (tickSize : Price) (tickVersion : String) : Decision :=
  let book := refreshedBook state event tokenId bids asks tickSize tickVersion
  if !state.tokenIsActive tokenId then
    reject state tokenId "token_not_in_active_catalog"
  else if !fullBookIsAligned bids asks tickSize tickVersion then
    reject state tokenId "invalid_tick_full_book"
  else if book.crossedOrLocked then
    reject state tokenId "crossed_or_locked_full_book"
  else
    accept
      { state.withBook tokenId book with
        unresolvedGaps := state.unresolvedGaps.erase tokenId }

/-! ## Deltas -/

def decideDelta (state : CanonicalState) (event : CanonicalEvent) (tokenId : String) (side : Side)
    (levels : List Level) : Decision :=
  match state.continuousBook? tokenId with
  | none => reject state tokenId "full_book_recovery_required"
  | some book =>
    let updated := book.apply side levels event.sourceObservedAt
    if !book.tickSize.any fun tick => Book.levelsTickAligned tick levels then
      reject state tokenId "invalid_tick_delta"
    else if updated.crossedOrLocked then
      reject state tokenId "crossed_or_locked_delta"
    else accept (state.withBook tokenId updated)

/-- The quote an atomic delta must leave. The second normalizer writes an empty
side as a bid of zero and an ask of one. -/
structure ExpectedQuote where
  bid : Option Price
  ask : Option Price

def expectedQuote
    (correctedBboSemantics : Bool) (bestBid bestAsk : Option Price) : ExpectedQuote where
  bid := bestBid.filter fun price => !correctedBboSemantics || !price.isZero
  ask := bestAsk.filter fun price => !correctedBboSemantics || !price.isOne

namespace ExpectedQuote

/-- Both sides quoted with the bid at or above the ask. -/
def isInvalid (quote : ExpectedQuote) : Bool :=
  match quote.bid, quote.ask with
  | some bid, some ask => ask ≤ bid
  | _, _ => false

/-- A venue quote proves that levels beyond it are stale, and that a side it
leaves out is empty. -/
def prune (quote : ExpectedQuote) (book : Book) : Book :=
  { book with
    bids := quote.bid.elim ∅ fun best => book.bids.filter fun price _ => price ≤ best
    asks := quote.ask.elim ∅ fun best => book.asks.filter fun price _ => best ≤ price }

/-- The best levels of a book are the quoted ones. -/
def agrees (quote : ExpectedQuote) (book : Book) : Bool :=
  book.bids.lastKey? == quote.bid && book.asks.firstKey? == quote.ask

end ExpectedQuote

/-- The book after a complete frame of changes and the quote that closes it. -/
def atomicBook (book : Book) (event : CanonicalEvent) (changes : List SideLevels)
    (bestBid bestAsk : Option Price) : Book :=
  let updated := book.applyBatch changes event.sourceObservedAt
  if bestBid.isSome || bestAsk.isSome then
    (expectedQuote (event.normalizerVersion == normalizerV2) bestBid bestAsk).prune updated
  else updated

def decideAtomicDelta
    (state : CanonicalState) (event : CanonicalEvent) (tokenId : String) (changes : List SideLevels)
    (bestBid bestAsk : Option Price) : Decision :=
  match if changes.isEmpty then none else state.continuousBook? tokenId with
  | none => reject state tokenId "full_book_recovery_required"
  | some book =>
    let quote := expectedQuote (event.normalizerVersion == normalizerV2) bestBid bestAsk
    let updated := atomicBook book event changes bestBid bestAsk
    if !book.tickSize.any fun tick =>
        changes.all fun change => Book.levelsTickAligned tick change.levels then
      reject state tokenId "invalid_tick_atomic_delta"
    else if quote.isInvalid ||
        ((bestBid.isSome || bestAsk.isSome) && !quote.agrees updated) then
      reject state tokenId "best_bid_ask_source_mismatch"
    else if updated.crossedOrLocked then
      reject state tokenId "crossed_or_locked_atomic_delta"
    else accept (state.withBook tokenId updated)

/-! ## Quotes, trades and ticks -/

def decideBestBidAsk (state : CanonicalState) (event : CanonicalEvent) (tokenId : String)
    (bestBid bestAsk : Option Price) : Decision :=
  match state.continuousBook? tokenId with
  | none => reject state tokenId "full_book_recovery_required"
  | some book =>
    if book.bids.lastKey? ≠ bestBid ∨ book.asks.firstKey? ≠ bestAsk then
      reject state tokenId "best_bid_ask_source_mismatch"
    else
      accept (state.withBook tokenId
        { book with sourceObservedAt := some event.sourceObservedAt })

def decideLastTradePrice (state : CanonicalState) (event : CanonicalEvent) (tokenId : String)
    (price : Price) : Except Failure Decision :=
  match state.continuousBook? tokenId with
  | none => .ok (reject state tokenId "full_book_recovery_required")
  | some book =>
    match book.tickSize with
    | none => .ok (reject state tokenId "invalid_tick_last_trade")
    | some tick =>
      if tick.isZero then .error (.panic "Division by zero")
      else if (Decimal.rem price tick).isZero then
        .ok (accept (state.withBook tokenId
          { book with
            lastTradePrice := some price
            lastTradeObservedAt := some event.sourceObservedAt }))
      else .ok (reject state tokenId "invalid_tick_last_trade")

def decideTickSizeChange
    (state : CanonicalState) (tokenId : String) (oldTickSize : Option Price) (newTickSize : Price)
    (tickVersion : String) : Except Failure Decision :=
  match if tickVersion.isEmpty then none else state.continuousBook? tokenId with
  | none => .ok (reject state tokenId "full_book_recovery_required")
  | some book =>
    let prices := book.bids.keyList ++ book.asks.keyList
    if newTickSize.isZero && !prices.isEmpty then .error (.panic "Division by zero")
    else if !oldTickSize.all fun expected => book.tickSize == some expected then
      .ok (reject state tokenId "tick_size_source_mismatch")
    else if !prices.all fun price => (Decimal.rem price newTickSize).isZero then
      .ok (reject state tokenId "tick_size_recovery_required")
    else
      -- A rule update of the supplier is no new observation of the depth.
      .ok (accept (state.withBook tokenId
        { book with
          tickSize := some newTickSize
          tickVersion := tickVersion }))

def decideSourceGap (state : CanonicalState) (tokenId reason : String) : Decision :=
  reject state tokenId ("source_gap:" ++ reason)

/-! ## What the branches do -/

/-- The event is rejected under the given gap. -/
def Decision.Rejects (decision : Decision) (state : CanonicalState) (gap : String) : Prop :=
  ∃ reason, decision = reject state gap reason

variable (state : CanonicalState) (event : CanonicalEvent) (tokenId : String)

theorem decideFullBook_cases (bids asks : List Level) (tickSize : Price) (tickVersion : String) :
    (decideFullBook state event tokenId bids asks tickSize tickVersion).Rejects state tokenId ∨
      (state.tokenIsActive tokenId = true ∧
        fullBookIsAligned bids asks tickSize tickVersion = true ∧
        (refreshedBook state event tokenId bids asks tickSize tickVersion).crossedOrLocked = false ∧
        decideFullBook state event tokenId bids asks tickSize tickVersion =
          .accept
            { state.withBook tokenId
                (refreshedBook state event tokenId bids asks tickSize tickVersion) with
              unresolvedGaps := state.unresolvedGaps.erase tokenId }) := by
  unfold decideFullBook
  by_cases active : state.tokenIsActive tokenId = true
  · by_cases aligned : fullBookIsAligned bids asks tickSize tickVersion = true
    · by_cases crossed : (refreshedBook state event tokenId bids asks tickSize
          tickVersion).crossedOrLocked = true
      · exact .inl ⟨"crossed_or_locked_full_book", by simp [active, aligned, crossed]⟩
      · exact .inr ⟨active, aligned, by simpa using crossed, by simp [active, aligned, crossed]⟩
    · exact .inl ⟨"invalid_tick_full_book", by simp [active, aligned]⟩
  · exact .inl ⟨"token_not_in_active_catalog", by simp [active]⟩

theorem decideDelta_cases (side : Side) (levels : List Level) :
    (decideDelta state event tokenId side levels).Rejects state tokenId ∨
      ∃ book tick, state.continuousBook? tokenId = some book ∧ book.tickSize = some tick ∧
        Book.levelsTickAligned tick levels = true ∧
        (book.apply side levels event.sourceObservedAt).crossedOrLocked = false ∧
        decideDelta state event tokenId side levels =
          .accept (state.withBook tokenId (book.apply side levels event.sourceObservedAt)) := by
  unfold decideDelta
  cases continuous : state.continuousBook? tokenId with
  | none => exact .inl ⟨"full_book_recovery_required", rfl⟩
  | some book =>
    cases known : book.tickSize with
    | none => exact .inl ⟨"invalid_tick_delta", by simp [known]⟩
    | some tick =>
      by_cases aligned : Book.levelsTickAligned tick levels = true
      · by_cases crossed : (book.apply side levels event.sourceObservedAt).crossedOrLocked = true
        · exact .inl ⟨"crossed_or_locked_delta", by simp [known, aligned, crossed]⟩
        · exact .inr ⟨book, tick, rfl, known, aligned, by simpa using crossed,
            by simp [known, aligned, crossed]⟩
      · exact .inl ⟨"invalid_tick_delta", by simp [known, aligned]⟩

theorem decideAtomicDelta_cases (changes : List SideLevels) (bestBid bestAsk : Option Price) :
    (decideAtomicDelta state event tokenId changes bestBid bestAsk).Rejects state tokenId ∨
      ∃ book tick, state.continuousBook? tokenId = some book ∧ book.tickSize = some tick ∧
        (∀ change ∈ changes, Book.levelsTickAligned tick change.levels = true) ∧
        ((bestBid.isSome || bestAsk.isSome) = true →
          (expectedQuote (event.normalizerVersion == normalizerV2) bestBid
            bestAsk).agrees (atomicBook book event changes bestBid bestAsk) = true) ∧
        (atomicBook book event changes bestBid bestAsk).crossedOrLocked = false ∧
        decideAtomicDelta state event tokenId changes bestBid bestAsk =
          .accept (state.withBook tokenId (atomicBook book event changes bestBid bestAsk)) := by
  unfold decideAtomicDelta
  cases continuous : if changes.isEmpty then none else state.continuousBook? tokenId with
  | none => exact .inl ⟨"full_book_recovery_required", rfl⟩
  | some book =>
    have present : state.continuousBook? tokenId = some book := by
      split at continuous
      · simp at continuous
      · exact continuous
    cases known : book.tickSize with
    | none => exact .inl ⟨"invalid_tick_atomic_delta", by simp [known]⟩
    | some tick =>
      by_cases aligned : (changes.all fun change =>
          Book.levelsTickAligned tick change.levels) = true
      · by_cases mismatch :
            ((expectedQuote (event.normalizerVersion == normalizerV2) bestBid bestAsk).isInvalid ||
              ((bestBid.isSome || bestAsk.isSome) &&
                !(expectedQuote (event.normalizerVersion == normalizerV2) bestBid
                  bestAsk).agrees (atomicBook book event changes bestBid bestAsk))) = true
        · exact .inl ⟨"best_bid_ask_source_mismatch", by
            simp only [known, any_some, aligned, Bool.not_true,
              false_eq_true, if_false, mismatch, if_true]⟩
        · by_cases crossed : (atomicBook book event changes bestBid bestAsk).crossedOrLocked = true
          · exact .inl ⟨"crossed_or_locked_atomic_delta", by
              simp only [known, any_some, aligned, Bool.not_true,
                false_eq_true, if_false, mismatch, crossed, if_true]⟩
          · refine .inr ⟨book, tick, present, known, ?_, ?_, by simpa using crossed, ?_⟩
            · simpa using aligned
            · intro observed
              simp only [observed, Bool.true_and, or_eq_true, not_or,
                not_eq_true', Bool.not_eq_false] at mismatch
              exact mismatch.2
            · simp only [known, any_some, aligned, Bool.not_true,
                false_eq_true, if_false, mismatch, crossed]
      · exact .inl ⟨"invalid_tick_atomic_delta", by
          simp only [known, any_some, aligned, Bool.not_false, if_true]⟩

theorem decideBestBidAsk_cases (bestBid bestAsk : Option Price) :
    (decideBestBidAsk state event tokenId bestBid bestAsk).Rejects state tokenId ∨
      ∃ book, state.continuousBook? tokenId = some book ∧
        decideBestBidAsk state event tokenId bestBid bestAsk =
          .accept (state.withBook tokenId
            { book with sourceObservedAt := some event.sourceObservedAt }) := by
  unfold decideBestBidAsk
  cases continuous : state.continuousBook? tokenId with
  | none => exact .inl ⟨"full_book_recovery_required", rfl⟩
  | some book =>
    by_cases mismatch : book.bids.lastKey? ≠ bestBid ∨ book.asks.firstKey? ≠ bestAsk
    · exact .inl ⟨"best_bid_ask_source_mismatch", by simp only [mismatch, if_true]⟩
    · exact .inr ⟨book, rfl, by simp only [mismatch, if_false]⟩

variable {decision : Decision}

theorem decideLastTradePrice_cases
    {state : CanonicalState} {event : CanonicalEvent} {tokenId : String}
    (decided : decideLastTradePrice state event tokenId price = .ok decision) :
    decision.Rejects state tokenId ∨
      ∃ book, state.continuousBook? tokenId = some book ∧
        decision = .accept (state.withBook tokenId
          { book with
            lastTradePrice := some price
            lastTradeObservedAt := some event.sourceObservedAt }) := by
  unfold decideLastTradePrice at decided
  cases continuous : state.continuousBook? tokenId with
  | none =>
    simp only [continuous] at decided
    exact .inl ⟨_, (ok.inj decided).symm⟩
  | some book =>
    simp only [continuous] at decided
    split at decided
    · exact .inl ⟨_, (ok.inj decided).symm⟩
    · split at decided
      · cases decided
      · split at decided
        · exact .inr ⟨book, rfl, (ok.inj decided).symm⟩
        · exact .inl ⟨_, (ok.inj decided).symm⟩

theorem decideTickSizeChange_cases
    {state : CanonicalState} {tokenId : String}
    (decided :
      decideTickSizeChange state tokenId oldTickSize newTickSize tickVersion = .ok decision) :
    decision.Rejects state tokenId ∨
      ∃ book, tickVersion.isEmpty = false ∧ state.continuousBook? tokenId = some book ∧
        (∀ price ∈ book.bids.keyList ++ book.asks.keyList,
          newTickSize ≠ 0 ∧ (Decimal.rem price newTickSize).isZero = true) ∧
        decision = .accept (state.withBook tokenId
          { book with
            tickSize := some newTickSize
            tickVersion := tickVersion }) := by
  unfold decideTickSizeChange at decided
  cases continuous :
      if tickVersion.isEmpty then none else state.continuousBook? tokenId with
  | none =>
    simp only [continuous] at decided
    exact .inl ⟨_, (ok.inj decided).symm⟩
  | some book =>
    simp only [continuous] at decided
    split at continuous
    · simp at continuous
    · rename_i versioned
      split at decided
      · cases decided
      · rename_i dividing
        split at decided
        · exact .inl ⟨_, (ok.inj decided).symm⟩
        · split at decided
          · exact .inl ⟨_, (ok.inj decided).symm⟩
          · rename_i aligned
            refine .inr ⟨book, by simpa using versioned, continuous, ?_, (ok.inj decided).symm⟩
            simp only [not_eq_true', Bool.not_eq_false, List.all_eq_true] at aligned
            intro price mem
            refine ⟨?_, aligned price mem⟩
            intro zero
            apply dividing
            have nonempty : (book.bids.keyList ++ book.asks.keyList) ≠ [] := List.ne_nil_of_mem mem
            simpa [Price.isZero, zero] using nonempty

end MarketCow.Core
