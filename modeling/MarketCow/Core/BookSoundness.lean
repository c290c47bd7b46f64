import MarketCow.Core.CatalogStep

/-!
# Sound books

The books a reader may rely on: uncrossed, on a nonzero tick, with positive
quantities only. Events whose quantities are not negative and whose new ticks
are not zero keep every published and every monitored book sound, so that no
decision divides by a zero tick.
-/

namespace MarketCow.Core

open Library CanonicalState

/-- Quantities are not negative and a new tick is not zero. -/
def EventKind.Normalized : EventKind → Prop
  | .fullBook _ bids asks _ _ => ∀ level ∈ bids ++ asks, 0 ≤ level.quantity
  | .delta _ _ levels => ∀ level ∈ levels, 0 ≤ level.quantity
  | .atomicDelta _ changes _ _ =>
    ∀ change ∈ changes, ∀ level ∈ change.levels, 0 ≤ level.quantity
  | .tickSizeChange _ _ newTickSize _ => newTickSize ≠ 0
  | _ => True

namespace Book

/-- Every level of a book has a positive quantity. -/
def Positive (book : Book) : Prop :=
  ∀ (side : Side) (price : Price) (quantity : Decimal),
    (book.sideOf side)[price]? = some quantity → 0 < quantity

/-- A book without crossing on a nonzero tick, with a tick version and positive
quantities at exact multiples of the tick. -/
structure Sound (book : Book) : Prop where
  uncrossed : book.crossedOrLocked = false
  versioned : book.tickVersion ≠ ""
  ticked : ∃ tick, book.tickSize = some tick ∧ tick ≠ 0 ∧
    ∀ (side : Side) (price : Price) (quantity : Decimal),
      (book.sideOf side)[price]? = some quantity →
        0 < quantity ∧ ∃ factor : Int, price = factor * tick

theorem sound_iff {book : Book} :
    book.Sound ↔ book.WellFormed ∧ book.Positive ∧ book.tickSize ≠ some 0 := by
  constructor
  · rintro ⟨uncrossed, versioned, tick, known, nonzero, levels⟩
    refine ⟨⟨uncrossed, by simpa using versioned, tick, known, ?_⟩, ?_, ?_⟩
    · intro side price quantity present
      exact ⟨nonzero, (levels side price quantity present).2⟩
    · intro side price quantity present
      exact (levels side price quantity present).1
    · rw [known]
      exact fun zero => nonzero (some.inj zero)
  · rintro ⟨⟨uncrossed, versioned, tick, known, multiples⟩, positive, nonzero⟩
    refine ⟨uncrossed, by simpa using versioned, tick, known, ?_, ?_⟩
    · rintro rfl
      exact nonzero known
    · intro side price quantity present
      exact ⟨positive side price quantity present, (multiples side price quantity present).2⟩

/-- A nonzero level of quantities that are not negative is positive. -/
theorem pos_of_level {levels : List Level} (normalized : ∀ level ∈ levels, 0 ≤ level.quantity)
    (set : ∃ level ∈ levels, level.price = price ∧ level.quantity = quantity ∧ quantity ≠ 0) :
    0 < quantity := by
  obtain ⟨level, mem, _, rfl, nonzero⟩ := set
  exact lt_of_le_of_ne (normalized level mem) (Ne.symm nonzero)

variable {event : CanonicalEvent} {tokenId : String} {before after : Book}

/-- A change by a normalized event keeps quantities positive. -/
theorem Positive.change (positive : before.Positive) (normalized : event.kind.Normalized)
    (changed : BookChange event tokenId before after) :
    after.Positive := by
  intro side price quantity present
  cases changed with
  | @delta changedSide levels _ kind _ _ _ =>
    rw [kind] at normalized
    rw [sideOf_apply] at present
    split at present
    · rcases BookSide.level_of_getElem?_setLevels present with set | old
      · exact pos_of_level normalized set
      · exact positive side price quantity old
    · exact positive side price quantity present
  | @atomicDelta changes bestBid bestAsk _ kind _ _ _ =>
    rw [kind] at normalized
    rcases (atomicBook_levels before event changes bestBid bestAsk).2 side price quantity
      present with ⟨change, inFrame, set⟩ | old
    · exact pos_of_level (normalized change inFrame) set
    · exact positive side price quantity old
  | bestBidAsk _ => exact positive side price quantity (by cases side <;> exact present)
  | lastTradePrice _ => exact positive side price quantity (by cases side <;> exact present)
  | tickSizeChange _ _ _ => exact positive side price quantity (by cases side <;> exact present)

/-- A change by a normalized event keeps the tick nonzero. -/
theorem tickSize_ne_zero_of_change
    (nonzero : before.tickSize ≠ some 0) (normalized : event.kind.Normalized)
    (changed : BookChange event tokenId before after) :
    after.tickSize ≠ some 0 := by
  cases changed with
  | @delta side levels _ _ _ _ _ =>
    unfold apply
    cases side <;> exact nonzero
  | atomicDelta _ _ _ _ =>
    rw [(atomicBook_levels before event _ _ _).1.1]
    exact nonzero
  | bestBidAsk _ | lastTradePrice _ => exact nonzero
  | tickSizeChange kind _ _ =>
    rw [kind] at normalized
    exact fun zero => normalized (some.inj zero)

/-- Every change of a sound book by a normalized event is sound. -/
theorem Sound.change (sound : before.Sound) (normalized : event.kind.Normalized)
    (changed : BookChange event tokenId before after) :
    after.Sound := by
  obtain ⟨wellFormed, positive, nonzero⟩ := sound_iff.mp sound
  exact sound_iff.mpr ⟨wellFormed.change changed, positive.change normalized changed,
    tickSize_ne_zero_of_change nonzero normalized changed⟩

/-- A normalized full book that passes its checks is sound. -/
theorem sound_refreshedBook
    {state : CanonicalState} {bids asks : List Level} {tickSize : Price} {tickVersion : String}
    (normalized : ∀ level ∈ bids ++ asks, 0 ≤ level.quantity)
    (aligned : fullBookIsAligned bids asks tickSize tickVersion = true)
    (uncrossed :
      (refreshedBook state event tokenId bids asks tickSize tickVersion).crossedOrLocked = false) :
    (refreshedBook state event tokenId bids asks tickSize tickVersion).Sound := by
  have wellFormed := wellFormed_refreshedBook aligned uncrossed
  simp only [fullBookIsAligned, and_eq_true] at aligned
  refine sound_iff.mpr ⟨wellFormed, ?_, ?_⟩
  · intro side price quantity present
    cases side with
    | bid =>
      exact pos_of_level (fun level mem => normalized level (List.mem_append_left _ mem))
        (BookSide.level_of_getElem?_ofLevels present)
    | ask =>
      exact pos_of_level (fun level mem => normalized level (List.mem_append_right _ mem))
        (BookSide.level_of_getElem?_ofLevels present)
  · exact fun zero => (levelsTickAligned_iff.mp aligned.2).1 (some.inj zero)

end Book

/-! ## The stored event -/

/-- The deletions that complete a frame have no quantity. -/
theorem normalized_replayCompleteAtomicChanges (book : Book) (bestBid bestAsk : Option Price)
    (normalized : ∀ change ∈ changes, ∀ level ∈ change.levels, 0 ≤ level.quantity) :
    ∀ change ∈ book.replayCompleteAtomicChanges changes bestBid bestAsk,
      ∀ level ∈ change.levels, 0 ≤ level.quantity := by
  have deleted : ∀ (side : Side) (prices : List Price),
      ∀ change ∈ Book.deletions side prices, ∀ level ∈ change.levels, 0 ≤ level.quantity := by
    intro side prices change mem level inLevels
    unfold Book.deletions at mem
    split at mem
    · cases mem
    · rw [List.mem_singleton] at mem
      subst mem
      obtain ⟨price, _, rfl⟩ := List.mem_map.mp inLevels
      exact le_refl 0
  unfold Book.replayCompleteAtomicChanges
  split
  · exact normalized
  · intro change mem
    rcases List.mem_append.mp mem with earlier | askDeletions
    · rcases List.mem_append.mp earlier with original | bidDeletions
      · exact normalized change original
      · exact deleted _ _ change bidDeletions
    · exact deleted _ _ change askDeletions

variable {event : CanonicalEvent}

/-- The stored form of a normalized event is normalized. -/
theorem normalized_rewriteEvent
    (enforce : Bool) (state : CanonicalState) (normalized : event.kind.Normalized) :
    (rewriteEvent enforce state event).kind.Normalized := by
  have completed : (completeAtomicChanges enforce state event).Normalized := by
    unfold completeAtomicChanges
    split
    · rename_i tokenId changes bestBid bestAsk kind
      have frame := normalized
      rw [kind] at frame
      split
      · rename_i book _
        split
        · exact normalized_replayCompleteAtomicChanges book bestBid bestAsk frame
        · exact normalized
      · exact normalized
    · exact normalized
  unfold rewriteEvent
  split
  · exact completed
  · split
    · generalize completeAtomicChanges enforce state event = kind at completed
      cases kind with
      | atomicDelta tokenId changes bestBid bestAsk =>
        intro change mem
        cases mem
      | _ => exact completed
    · exact completed

/-! ## The books of a state -/

/-- Every published and every monitored book is sound. -/
def CanonicalState.BooksSound (state : CanonicalState) : Prop :=
  ∀ (tokenId : String) (book : Book),
    state.books[tokenId]? = some book ∨ state.monitoringBooks[tokenId]? = some book → book.Sound

namespace CanonicalState.BooksSound

theorem bootstrap (scopeId : String) : (CanonicalState.bootstrap scopeId).BooksSound := by
  intro tokenId book present
  simp [CanonicalState.bootstrap] at present

theorem of_same
    {before after : CanonicalState} (sound : before.BooksSound) (books : after.books = before.books)
    (monitored : after.monitoringBooks = before.monitoringBooks) :
    after.BooksSound := by
  intro tokenId book
  rw [books, monitored]
  exact sound tokenId book

variable {state : CanonicalState}

section

variable (sound : state.BooksSound)
include sound

theorem withBook (fresh : replacement.Sound) (unresolvedGaps : Finset String) :
    CanonicalState.BooksSound
      { state.withBook changed replacement with unresolvedGaps := unresolvedGaps } := by
  intro tokenId book present
  rcases present with published | monitored
  · simp only [CanonicalState.withBook, TreeMap.getElem?_insert, compare_eq_iff_eq] at published
    split at published
    · cases published
      exact fresh
    · exact sound tokenId book (.inl published)
  · exact sound tokenId book (.inr monitored)

/-- A catalog drops books and copies them to the monitored ones. -/
theorem installCatalog (catalogRevision : String) (catalog : CatalogState) :
    (state.installCatalog catalogRevision catalog).BooksSound := by
  intro tokenId book present
  rcases present with published | monitored
  · rw [getElem?_books_installCatalog] at published
    split at published
    · exact sound tokenId book (.inl published)
    · cases published
  · obtain ⟨gaps, health, ready, reason, shape⟩ :=
      state.installCatalog_fields catalogRevision catalog
    rw [shape] at monitored
    have released : (state.releasedState catalogRevision catalog).monitoringBooks[tokenId]? =
        some book := monitored
    unfold CanonicalState.releasedState at released
    obtain ⟨dropped, kept⟩ := monitoringBooks_foldl_releaseMarket
      catalog.markets.valueList ((removedActiveMarkets state catalog.markets).foldl
        (CanonicalState.monitorMarket catalogRevision) state) tokenId
    by_cases releases : ((removedActiveMarkets state catalog.markets).foldl
        (CanonicalState.monitorMarket catalogRevision) state).Releases
          catalog.markets.valueList tokenId
    · rw [dropped releases] at released
      cases released
    · rw [kept releases, monitoringBooks_foldl_monitorMarket] at released
      split at released
      · rcases Option.or_eq_some_iff.mp released with current | ⟨_, earlier⟩
        · exact sound tokenId book (.inl current)
        · exact sound tokenId book (.inr earlier)
      · exact sound tokenId book (.inr released)

theorem resolveMarket (platform : Platform) (event : CanonicalEvent) (conditionId marketId : String)
    (winningTokenId winningOutcome : Option String) (market : MarketRecord) :
    (state.resolveMarket platform event conditionId winningTokenId winningOutcome marketId
      market).BooksSound := by
  obtain ⟨relations, gaps, shape⟩ := resolveMarket_eq platform event conditionId
    winningTokenId winningOutcome state marketId market
  rw [shape]
  intro tokenId book present
  rcases present with published | monitored
  · dsimp only at published
    rw [getElem?_erase_outcomes] at published
    split at published
    · cases published
    · exact sound tokenId book (.inl published)
  · exact sound tokenId book (.inr monitored)

/-- The decision of a normalized event. -/
theorem decision {platform : Platform} {enforce : Bool} {decision : Decision}
    (normalized : event.kind.Normalized)
    (effect : DecisionEffect platform enforce state event decision) :
    decision.state.BooksSound := by
  cases effect with
  | sourceRejected => exact sound.of_same rfl rfl
  | superseded => exact sound
  | decided _ _ kindEffect =>
    have stored := normalized_rewriteEvent enforce state normalized
    cases kindEffect with
    | catalogRejected _ => exact sound.of_same rfl rfl
    | catalogInstalled _ _ _ => exact sound.installCatalog _ _
    | newMarket _ | resolutionRejected _ _ => exact sound.of_same rfl rfl
    | resolved _ _ _ => exact sound.resolveMarket _ _ _ _ _ _ _
    | tokenRejected _ _ => exact sound.of_same rfl rfl
    | fullBook kind _ aligned uncrossed =>
      rw [kind] at stored
      exact sound.withBook (Book.sound_refreshedBook stored aligned uncrossed) _
    | bookChanged _ _ present changed =>
      exact sound.withBook ((sound _ _ (.inl present)).change stored changed) state.unresolvedGaps

end

end CanonicalState.BooksSound

/-! ## One step -/

variable {platform : Platform}

/-- One step with a normalized event keeps all books sound. -/
theorem Evaluates.booksSound {enforce : Bool} {state next : CanonicalState}
    (evaluates : Evaluates platform enforce state label next) (sound : state.BooksSound)
    (normalized : label.event.kind.Normalized) :
    next.BooksSound := by
  obtain ⟨validated, evaluated⟩ := evaluates
  obtain ⟨phases⟩ := phases_of_evaluateEvent evaluated
  obtain ⟨health, shape, _, _⟩ := admittedState_eq state label.event
  have admitted : (admittedState state label.event).BooksSound := by
    rw [shape]
    exact sound.of_same rfl rfl
  exact (admitted.decision normalized phases.decided).of_same phases.afterDecision.books
    phases.afterDecision.monitoringBooks

/-! ## Divisions -/

/-- How the remainder by a zero divisor ends. -/
def divisionByZero : Failure := .panic "Division by zero"

variable {state : CanonicalState} {validateRawPayload validateDuplicate enforce : Bool}

/-- A step fails where its decision fails, or with a failure of its own. -/
theorem failure_of_evaluateEvent {failure : Failure}
    (failed : evaluateEvent platform validateRawPayload validateDuplicate
      enforce state event = .error failure) :
    failure ≠ divisionByZero ∨
      decideEvent platform enforce (admittedState state event) event = .error failure := by
  unfold evaluateEvent at failed
  rcases Fallible.bind_eq_error_iff.mp failed with invalid | ⟨_, _, failed⟩
  · refine .inl ?_
    unfold validate at invalid
    rintro rfl
    split at invalid
    · cases invalid
    · split at invalid
      · cases invalid
      · split at invalid
        · cases invalid
        · split at invalid
          · cases invalid
          · split at invalid <;> cases invalid
  · rcases Fallible.bind_eq_error_iff.mp failed with undecided | ⟨decision, _, unsettled⟩
    · exact .inr undecided
    · refine .inl ?_
      rintro rfl
      unfold settle at unsettled
      rcases Fallible.bind_eq_error_iff.mp unsettled with unreconciled | ⟨_, _, concluded⟩
      · unfold reconcileActiveMarketInstrumentTicks at unreconciled
        split at unreconciled
        · cases unreconciled
        · split at unreconciled
          · cases unreconciled
          · rcases Fallible.bind_eq_error_iff.mp unreconciled with unwritten | ⟨_, _, written⟩
            · obtain ⟨update, _, markets, failing⟩ := Fallible.exists_of_foldlM_eq_error unwritten
              unfold applyTickUpdate divisionByZero at failing
              split at failing
              · simp at failing
              · split at failing
                · simp at failing
                · cases failing
            · cases written
      · cases concluded

/-- Sound books and normalized events leave no division by a zero tick. -/
theorem decideEvent_ne_divisionByZero
    (sound : state.BooksSound) (normalized : event.kind.Normalized) :
    decideEvent platform enforce state event ≠ .error divisionByZero := by
  have stored := normalized_rewriteEvent enforce state normalized
  intro failed
  unfold decideEvent at failed
  split at failed
  · cases failed
  · split at failed
    · cases failed
    · generalize rewriteEvent enforce state event = event at stored failed
      unfold decideKind at failed
      cases kind : event.kind with
      | marketResolved conditionId winningTokenId winningOutcome =>
        simp only [kind] at failed
        unfold decideMarketResolved divisionByZero at failed
        split at failed
        · cases failed
        · split at failed
          · simp at failed
          · split at failed <;> cases failed
      | lastTradePrice tokenId price =>
        simp only [kind] at failed
        unfold decideLastTradePrice at failed
        split at failed
        · cases failed
        · rename_i book continuous
          have present := (continuousBook?_eq_some_iff.mp continuous).2
          obtain ⟨_, _, nonzero⟩ := Book.sound_iff.mp (sound tokenId book (.inl present))
          split at failed
          · cases failed
          · rename_i tick known
            split at failed
            · rename_i zero
              rw [known] at nonzero
              exact nonzero (congrArg some (by simpa [Price.isZero] using zero))
            · split at failed <;> cases failed
      | tickSizeChange tokenId oldTickSize newTickSize tickVersion =>
        simp only [kind] at failed
        rw [kind] at stored
        have divides : newTickSize.isZero = false := Price.isZero_eq_false_iff.mpr stored
        unfold decideTickSizeChange at failed
        simp only [divides, Bool.false_and, false_eq_true, if_false] at failed
        split at failed
        · cases failed
        · split at failed
          · cases failed
          · split at failed <;> cases failed
      | _ =>
        simp only [kind] at failed
        cases failed

theorem evaluateEvent_ne_divisionByZero
    (sound : state.BooksSound) (normalized : event.kind.Normalized) :
    evaluateEvent platform validateRawPayload validateDuplicate enforce state
      event ≠ .error divisionByZero := by
  intro failed
  obtain ⟨health, shape, _, _⟩ := admittedState_eq state event
  have admitted : (admittedState state event).BooksSound := by
    rw [shape]
    exact sound.of_same rfl rfl
  rcases failure_of_evaluateEvent failed with other | undecided
  · exact other rfl
  · exact decideEvent_ne_divisionByZero admitted normalized undecided

end MarketCow.Core
