import MarketCow.Core.Readiness

/-!
# The step of an event of one market

What a step does for an event that belongs to one market and whose faults stay
inside that market: how the event is admitted and decided, and what becomes of
every record outside the market.
-/

namespace MarketCow.Core

open Library

/-! ## Admission -/

variable (state : CanonicalState)

@[simp] theorem eventMarketId_advance (event : CanonicalEvent) (kind : EventKind) :
    eventMarketId (state.advance event) kind = eventMarketId state kind := by
  cases kind <;> rfl

/-- Admission advances the state and writes health records at most: a new one,
for the market of the event. -/
theorem admittedState_eq (event : CanonicalEvent) :
    ∃ health, admittedState state event = { state.advance event with marketHealth := health } ∧
      (∀ other : String, eventMarketId state event.kind ≠ some other →
        health[other]? = state.marketHealth[other]?) ∧
      (∀ other : String, state.marketHealth[other]?.isSome = true →
        health[other]? = state.marketHealth[other]?) := by
  unfold admittedState
  dsimp only
  rw [eventMarketId_advance]
  cases attributed : eventMarketId state event.kind with
  | none => exact ⟨state.marketHealth, rfl, fun _ _ => rfl, fun _ _ => rfl⟩
  | some marketId =>
    simp only [elim_some]
    unfold CanonicalState.admitExecutableMarket
    split
    · rename_i condition
      simp only [and_eq_true, not_eq_true'] at condition
      refine ⟨_, rfl, ?_, ?_⟩
      · intro other ne
        have foreign : ¬marketId = other := fun same => ne (congrArg some same)
        simp [CanonicalState.advance, TreeMap.getElem?_insert, foreign]
      · intro other recorded
        have foreign : ¬marketId = other := by
          rintro rfl
          have absent : state.marketHealth.contains marketId = false := condition.1
          rw [contains_eq_isSome_getElem?] at absent
          rw [absent] at recorded
          cases recorded
        simp [CanonicalState.advance, TreeMap.getElem?_insert, foreign]
    · exact ⟨state.marketHealth, rfl, fun _ _ => rfl, fun _ _ => rfl⟩

variable {state : CanonicalState} {event : CanonicalEvent}

/-- The attribution of an event, as the admitted state has it. -/
theorem attribution_eq_some_iff :
    attribution state event = some market ↔
      ∃ marketId, eventMarketId state event.kind = some marketId ∧
        market = attributeTo (admittedState state event) marketId := by
  unfold attribution
  rw [eventMarketId_advance, map_eq_some_iff]
  constructor
  · rintro ⟨marketId, named, rfl⟩
    exact ⟨marketId, named, rfl⟩
  · rintro ⟨marketId, named, rfl⟩
    exact ⟨marketId, named, rfl⟩

/-! ## Full books -/

variable {enforce : Bool} {tokenId : String}

/-- A full book that its source stands by is decided as it arrives. -/
theorem decideEvent_fullBook
    (kind : event.kind = .fullBook tokenId bids asks tickSize tickVersion)
    (fresh : sourceRejected enforce state event = false) :
    decideEvent platform enforce state event =
      .ok (decideFullBook state event tokenId bids asks tickSize tickVersion) := by
  have current : incrementalSupersededByBook state event = false := by
    simp [incrementalSupersededByBook, delayedAtomicDeltaSupersededByBook,
      queuedAtomicDeltaSupersededByRefresh, bestBidAskSupersededByBook, kind,
      EventKind.isAtomicDelta, EventKind.isBestBidAsk]
  have stored : rewriteEvent enforce state event = event := by
    rw [rewriteEvent_of_fresh fresh current]
    unfold completeAtomicChanges
    rw [kind]
    dsimp only
    rw [← kind]
  unfold decideEvent
  rw [fresh, current, stored, if_neg Bool.false_ne_true, if_neg Bool.false_ne_true]
  unfold decideKind
  rw [kind]

/-! ## Accepted decisions -/

/-- The tick of a full book that the writer stores. -/
def storedTick? (enforce : Bool) (state : CanonicalState) (event : CanonicalEvent) : Option Price :=
  match event.kind with
  | .fullBook tokenId bids asks tickSize tickVersion =>
    if !sourceRejected enforce state event &&
        state.tokenIsActive tokenId &&
        fullBookIsAligned bids asks tickSize tickVersion &&
        !(refreshedBook state event tokenId bids asks tickSize tickVersion).crossedOrLocked
      then some tickSize
    else none
  | _ => none

/-- A stored full book is decided by storing it. -/
theorem decideEvent_of_storedTick?
    (platform : Platform) (stored : storedTick? enforce state event = some tick) :
    ∃ book, book.tickSize = some tick ∧
      decideEvent platform enforce state event =
        .ok (Decision.accept
          { state.withBook event.kind.tokenId book with
            unresolvedGaps := state.unresolvedGaps.erase event.kind.tokenId }) := by
  unfold storedTick? at stored
  split at stored
  · rename_i tokenId bids asks tickSize tickVersion kind
    split at stored
    · rename_i accepted
      simp only [and_eq_true, not_eq_true'] at accepted
      obtain ⟨⟨⟨fresh, active⟩, aligned⟩, uncrossed⟩ := accepted
      obtain rfl := some.inj stored
      refine ⟨refreshedBook state event tokenId bids asks tickSize tickVersion, rfl, ?_⟩
      rw [decideEvent_fullBook kind fresh, kind]
      unfold decideFullBook
      simp only [active, aligned, uncrossed, Bool.not_true, false_eq_true, if_false]
      rfl
    · cases stored
  · cases stored

/-- Changes of a continuous book keep its tick, unless they are about the tick. -/
theorem BookChange.tickSize (changed : BookChange event tokenId before after)
    (recoverable : event.kind.isLocallyRecoverable = true) :
    after.tickSize = before.tickSize ∧
      ∀ tokenId bids asks tickSize tickVersion,
        event.kind ≠ .fullBook tokenId bids asks tickSize tickVersion := by
  cases changed with
  | delta kind _ _ _ =>
    refine ⟨(Book.tick_applyBatch before [⟨_, _⟩] event.sourceObservedAt).1, ?_⟩
    simp [kind]
  | atomicDelta kind _ _ _ =>
    exact ⟨(Book.atomicBook_levels before event _ _ _).1.1, by simp [kind]⟩
  | bestBidAsk kind | lastTradePrice kind => exact ⟨rfl, by simp [kind]⟩
  | tickSizeChange kind _ _ =>
    rw [kind] at recoverable
    cases recoverable

theorem storedTick?_eq_none
    (notFullBook : ∀ tokenId bids asks tickSize tickVersion,
      event.kind ≠ .fullBook tokenId bids asks tickSize tickVersion) :
    storedTick? enforce state event = none := by
  unfold storedTick?
  split
  · rename_i kind
    exact absurd kind (notFullBook _ _ _ _ _)
  · rfl

/-- An accepted decision that stays inside a market opens no gap, and leaves its
token with a book at the old tick or at the tick of the stored full book. -/
theorem book_of_accepted
    (effect : DecisionEffect platform enforce state event decision)
    (recoverable : event.kind.isLocallyRecoverable = true) (accepted : decision.rejected = none) :
    decision.state.unresolvedGaps ⊆ state.unresolvedGaps ∧
      ∀ before, state.books[event.kind.tokenId]? = some before →
        ∃ after, decision.state.books[event.kind.tokenId]? = some after ∧
          after.tickSize = (storedTick? enforce state event).or before.tickSize := by
  cases effect with
  | sourceRejected => cases accepted
  | superseded _ superseded =>
    refine ⟨subset_rfl, fun before present => ⟨before, present, ?_⟩⟩
    rw [storedTick?_eq_none]
    · rfl
    · intro tokenId bids asks tickSize tickVersion kind
      simp [incrementalSupersededByBook, delayedAtomicDeltaSupersededByBook,
        queuedAtomicDeltaSupersededByRefresh, bestBidAskSupersededByBook, kind,
        EventKind.isAtomicDelta, EventKind.isBestBidAsk] at superseded
  | decided fresh current kindEffect =>
    obtain ⟨changes, rewritten⟩ := exists_rewriteEvent_eq_withChanges enforce state event
    have sameToken : (event.withChanges changes).kind.tokenId = event.kind.tokenId :=
      EventKind.tokenId_withChanges _ _
    have sameClass : (event.withChanges changes).kind.isLocallyRecoverable = true := by
      rw [← recoverable]
      exact EventKind.isLocallyRecoverable_withChanges _ _
    rw [rewritten] at kindEffect
    cases kindEffect with
    | catalogRejected => cases accepted
    | catalogInstalled kind _ _ | newMarket kind => rw [kind] at sameClass; cases sameClass
    | resolutionRejected => cases accepted
    | resolved kind _ _ => rw [kind] at sameClass; cases sameClass
    | tokenRejected => cases accepted
    | @fullBook tokenId bids asks tickSize tickVersion kind active aligned uncrossed =>
      have original := EventKind.eq_of_withChanges_eq kind rfl
      have named : event.kind.tokenId = tokenId := by rw [original]; rfl
      have stored : storedTick? enforce state event = some tickSize := by
        have same : (refreshedBook state event tokenId bids asks tickSize
            tickVersion).crossedOrLocked = false := uncrossed
        unfold storedTick?
        simp [original, fresh, active, aligned, same]
      refine ⟨Finset.erase_subset _ _, fun before _ =>
        ⟨refreshedBook state (event.withChanges changes) tokenId bids asks tickSize
          tickVersion, ?_, by rw [stored]; rfl⟩⟩
      rw [named]
      exact getElem?_insert_self
    | @bookChanged tokenId old after named _ present changed =>
      obtain ⟨sameTick, notFullBook⟩ := changed.tickSize sameClass
      refine ⟨subset_rfl, fun before known => ⟨after, ?_, ?_⟩⟩
      · rw [← sameToken, named]
        exact getElem?_insert_self
      · rw [← sameToken, named, present] at known
        cases known
        rw [storedTick?_eq_none, sameTick]
        · rfl
        · intro tokenId bids asks tickSize tickVersion kind
          refine notFullBook tokenId bids asks tickSize tickVersion ?_
          unfold CanonicalEvent.withChanges
          dsimp only
          rw [kind]
          rfl

end MarketCow.Core
