import MarketCow.Core.Rewriting

/-!
# Effects of decisions

One inversion of the decision function. Every later argument about a step
splits on these cases and never unfolds a branch again.
-/

namespace MarketCow.Core

open Library
open Decision (accept reject)

/-- How an event that keeps its token's data continuous changes the book. -/
inductive BookChange (event : CanonicalEvent) (tokenId : String) (before : Book) : Book → Prop
  | delta
      {side : Side}
      {levels : List Level}
      {tick : Price} :
      event.kind = .delta tokenId side levels →
      before.tickSize = some tick →
      Book.levelsTickAligned tick levels = true →
      (before.apply side levels event.sourceObservedAt).crossedOrLocked = false →
      BookChange event tokenId before (before.apply side levels event.sourceObservedAt)
  | atomicDelta
      {changes : List SideLevels}
      {bestBid bestAsk : Option Price}
      {tick : Price} :
      event.kind = .atomicDelta tokenId changes bestBid bestAsk →
      before.tickSize = some tick →
      (∀ change ∈ changes, Book.levelsTickAligned tick change.levels = true) →
      (atomicBook before event changes bestBid bestAsk).crossedOrLocked = false →
      BookChange event tokenId before (atomicBook before event changes bestBid bestAsk)
  | bestBidAsk
      {bestBid bestAsk : Option Price} :
      event.kind = .bestBidAsk tokenId bestBid bestAsk →
      BookChange event tokenId before
        { before with sourceObservedAt := some event.sourceObservedAt }
  | lastTradePrice
      {price : Price} :
      event.kind = .lastTradePrice tokenId price →
      BookChange event tokenId before
        { before with
          lastTradePrice := some price
          lastTradeObservedAt := some event.sourceObservedAt }
  | tickSizeChange
      {oldTickSize : Option Price}
      {newTickSize : Price}
      {tickVersion : String} :
      event.kind = .tickSizeChange tokenId oldTickSize newTickSize tickVersion →
      tickVersion.isEmpty = false →
      (∀ price ∈ before.bids.keyList ++ before.asks.keyList,
        newTickSize ≠ 0 ∧ (Decimal.rem price newTickSize).isZero = true) →
      BookChange event tokenId before
        { before with
          tickSize := some newTickSize
          tickVersion := tickVersion }

/-- Events that name one token. -/
def EventKind.isTokenEvent : EventKind → Bool
  | .catalogSnapshot .. => false
  | .newMarket _ => false
  | .marketResolved .. => false
  | _ => true

/-- The shapes of the decision of an event, by the event as it is stored. -/
inductive KindEffect
    (platform : Platform) (state : CanonicalState) (event : CanonicalEvent) : Decision → Prop
  | catalogRejected
      {catalogRevision : String}
      {markets : List MarketRecord}
      {relations : List NegativeRiskRelation} :
      event.kind = .catalogSnapshot catalogRevision markets relations →
      KindEffect platform state event
        (reject state "catalog:invalid" "invalid_catalog_snapshot")
  | catalogInstalled
      {catalogRevision : String}
      {markets : List MarketRecord}
      {relations : List NegativeRiskRelation}
      {catalog : CatalogState} :
      event.kind = .catalogSnapshot catalogRevision markets relations →
      catalogRevision.isEmpty = false →
      validatedCatalog (markets ++ retainedResolvedMarkets state markets) relations = some catalog →
      KindEffect platform state event
        (accept (state.installCatalog catalogRevision catalog))
  | newMarket
      {conditionId : String} :
      event.kind = .newMarket conditionId →
      KindEffect platform state event (decideNewMarket state conditionId)
  | resolutionRejected
      {conditionId : String}
      {winningTokenId winningOutcome : Option String}
      (reason : String) :
      event.kind = .marketResolved conditionId winningTokenId winningOutcome →
      KindEffect platform state event
        (reject state ("catalog:" ++ conditionId) reason)
  | resolved
      {conditionId marketId : String}
      {winningTokenId winningOutcome : Option String}
      {market : MarketRecord} :
      event.kind = .marketResolved conditionId winningTokenId winningOutcome →
      state.conditionToMarket[conditionId]? = some marketId →
      state.markets[marketId]? = some market →
      KindEffect platform state event
        (accept
          (state.resolveMarket platform event conditionId winningTokenId winningOutcome
            marketId market))
  | tokenRejected
      (reason : String) :
      event.kind.isTokenEvent = true →
      KindEffect platform state event
        (reject state event.kind.tokenId reason)
  | fullBook
      {tokenId : String}
      {bids asks : List Level}
      {tickSize : Price}
      {tickVersion : String} :
      event.kind = .fullBook tokenId bids asks tickSize tickVersion →
      state.tokenIsActive tokenId = true →
      fullBookIsAligned bids asks tickSize tickVersion = true →
      (refreshedBook state event tokenId bids asks tickSize
        tickVersion).crossedOrLocked = false →
      KindEffect platform state event
        (accept
          { state.withBook tokenId
              (refreshedBook state event tokenId bids asks tickSize tickVersion) with
            unresolvedGaps := state.unresolvedGaps.erase tokenId })
  | bookChanged
      {tokenId : String}
      {before after : Book} :
      event.kind.tokenId = tokenId →
      state.tokenHasRecoveryGap tokenId = false →
      state.books[tokenId]? = some before →
      BookChange event tokenId before after →
      KindEffect platform state event (accept (state.withBook tokenId after))

namespace KindEffect

variable {platform : Platform} {state : CanonicalState} {event : CanonicalEvent} {tokenId : String}

/-- A rejection of a token event. -/
theorem of_rejects
    (tokenEvent : event.kind.isTokenEvent = true) (named : event.kind.tokenId = tokenId)
    (rejects : decision.Rejects state tokenId) :
    KindEffect platform state event decision := by
  obtain ⟨reason, rfl⟩ := rejects
  rw [← named]
  exact tokenRejected reason tokenEvent

/-- A change of a continuous book. -/
theorem of_continuous (named : event.kind.tokenId = tokenId)
    (continuous : state.continuousBook? tokenId = some before)
    (changed : BookChange event tokenId before after) :
    KindEffect platform state event (accept (state.withBook tokenId after)) := by
  obtain ⟨sound, present⟩ := CanonicalState.continuousBook?_eq_some_iff.mp continuous
  exact bookChanged named sound present changed

end KindEffect

variable {state : CanonicalState} {event : CanonicalEvent} {decision : Decision}

/-- Every decision of a kind branch has one of the shapes. -/
theorem kindEffect_of_decideKind (decided : decideKind platform state event = .ok decision) :
    KindEffect platform state event decision := by
  unfold decideKind at decided
  cases kind : event.kind with
  | catalogSnapshot catalogRevision markets relations =>
    simp only [kind] at decided
    cases decided
    unfold decideCatalogSnapshot
    split
    · exact .catalogRejected kind
    · rename_i revised
      split
      · rename_i catalog valid
        exact .catalogInstalled kind (by simpa using revised) valid
      · exact .catalogRejected kind
  | newMarket conditionId =>
    simp only [kind] at decided
    cases decided
    exact .newMarket kind
  | marketResolved conditionId winningTokenId winningOutcome =>
    simp only [kind] at decided
    unfold decideMarketResolved at decided
    split at decided
    · cases decided
      exact .resolutionRejected _ kind
    · rename_i marketId indexed
      split at decided
      · cases decided
      · rename_i market known
        split at decided
        · cases decided
          exact .resolved kind indexed known
        · cases decided
          exact .resolutionRejected _ kind
  | sourceGap tokenId reason =>
    simp only [kind] at decided
    cases decided
    exact .of_rejects (by rw [kind]; rfl) (by rw [kind]; rfl) ⟨_, rfl⟩
  | fullBook tokenId bids asks tickSize tickVersion =>
    simp only [kind] at decided
    cases decided
    rcases decideFullBook_cases state event tokenId bids asks tickSize tickVersion with
      rejects | ⟨active, aligned, uncrossed, accepted⟩
    · exact .of_rejects (by rw [kind]; rfl) (by rw [kind]; rfl) rejects
    · rw [accepted]
      exact .fullBook kind active aligned uncrossed
  | delta tokenId side levels =>
    simp only [kind] at decided
    cases decided
    rcases decideDelta_cases state event tokenId side levels with
      rejects | ⟨book, tick, continuous, known, aligned, uncrossed, accepted⟩
    · exact .of_rejects (by rw [kind]; rfl) (by rw [kind]; rfl) rejects
    · rw [accepted]
      exact .of_continuous (by rw [kind]; rfl) continuous (.delta kind known aligned uncrossed)
  | atomicDelta tokenId changes bestBid bestAsk =>
    simp only [kind] at decided
    cases decided
    rcases decideAtomicDelta_cases state event tokenId changes bestBid bestAsk with
      rejects | ⟨book, tick, continuous, known, aligned, _, uncrossed, accepted⟩
    · exact .of_rejects (by rw [kind]; rfl) (by rw [kind]; rfl) rejects
    · rw [accepted]
      exact .of_continuous (by rw [kind]; rfl) continuous
        (.atomicDelta kind known aligned uncrossed)
  | bestBidAsk tokenId bestBid bestAsk =>
    simp only [kind] at decided
    cases decided
    rcases decideBestBidAsk_cases state event tokenId bestBid bestAsk with
      rejects | ⟨book, continuous, accepted⟩
    · exact .of_rejects (by rw [kind]; rfl) (by rw [kind]; rfl) rejects
    · rw [accepted]
      exact .of_continuous (by rw [kind]; rfl) continuous (.bestBidAsk kind)
  | lastTradePrice tokenId price =>
    simp only [kind] at decided
    rcases decideLastTradePrice_cases decided with rejects | ⟨book, continuous, rfl⟩
    · exact .of_rejects (by rw [kind]; rfl) (by rw [kind]; rfl) rejects
    · exact .of_continuous (by rw [kind]; rfl) continuous (.lastTradePrice kind)
  | tickSizeChange tokenId oldTickSize newTickSize tickVersion =>
    simp only [kind] at decided
    rcases decideTickSizeChange_cases decided with
      rejects | ⟨book, versioned, continuous, aligned, rfl⟩
    · exact .of_rejects (by rw [kind]; rfl) (by rw [kind]; rfl) rejects
    · exact .of_continuous (by rw [kind]; rfl) continuous (.tickSizeChange kind versioned aligned)

/-- The decision of an event: its source rejects it, a book has overtaken it,
or its kind decides. -/
inductive DecisionEffect
    (platform : Platform) (enforce : Bool) (state : CanonicalState)
    (event : CanonicalEvent) : Decision → Prop
  | sourceRejected :
      sourceRejected enforce state event = true →
      DecisionEffect platform enforce state event
        (rejectSource state event)
  | superseded :
      sourceRejected enforce state event = false →
      incrementalSupersededByBook state event = true →
      DecisionEffect platform enforce state event (accept state)
  | decided
      {decision : Decision} :
      sourceRejected enforce state event = false →
      incrementalSupersededByBook state event = false →
      KindEffect platform state (rewriteEvent enforce state event) decision →
      DecisionEffect platform enforce state event decision

theorem decisionEffect_of_decideEvent
    (decided : decideEvent platform enforce state event = .ok decision) :
    DecisionEffect platform enforce state event decision := by
  unfold decideEvent at decided
  split at decided
  · rename_i rejected
    cases decided
    exact .sourceRejected rejected
  · rename_i fresh
    split at decided
    · rename_i superseded
      cases decided
      exact .superseded (by simpa using fresh) superseded
    · rename_i current
      exact .decided (by simpa using fresh) (by simpa using current)
        (kindEffect_of_decideKind decided)

end MarketCow.Core
