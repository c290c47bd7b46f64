import MarketCow.Core.Isolation

/-!
# The step of a full book

A fresh full book of an active token replaces the book, closes the gap of the
token, and moves the recovery of its market: a ready market stays ready when its
other book is still there, and a market that waited for this book last becomes
ready.
-/

namespace MarketCow.Core

open Library List Finset MarketRecord CanonicalState
open MarketProjectionHealth (awaitSnapshot projectionStatus recover)

/-! ## Fresh full books -/

/-- A book with levels on both sides. -/
def Book.isTwoSided (book : Book) : Bool :=
  !book.bids.isEmpty && !book.asks.isEmpty

/-- A full book that its source stands by, aligned, uncrossed and two-sided. -/
def isFreshFullBook (enforce : Bool) (event : CanonicalEvent) : Bool :=
  match event.kind with
  | .fullBook _ bids asks tickSize tickVersion =>
    let book :=
      Book.empty.replace bids asks tickSize tickVersion event.sourceObservedAt
    !event.source.missing && !(enforce && event.source.delayed) &&
      fullBookIsAligned bids asks tickSize tickVersion &&
      !book.crossedOrLocked && book.isTwoSided
  | _ => false

/-- The recovering tokens of a market that have been observed. -/
def CanonicalState.observedTokens (state : CanonicalState) (marketId : String) :
    Finset String :=
  (state.marketRecoveryTokenIds[marketId]?).getD ∅

/-- Active markets have neither facts nor a negative-risk group. -/
def CanonicalState.Plain (state : CanonicalState) : Prop :=
  ∀ (marketId : String) (market : MarketRecord),
    state.markets[marketId]? = some market → market.isActive = true →
      market.instrumentFacts = none ∧ market.negativeRiskGroup = none

variable {book : Book}

theorem Book.WellFormed.isExecutable
    (wellFormed : book.WellFormed) (twoSided : book.isTwoSided = true) :
    book.isExecutable = true := by
  obtain ⟨tick, known, _⟩ := wellFormed.ticked
  simp only [Book.isTwoSided, and_eq_true, not_eq_true'] at twoSided
  simp [Book.isExecutable, twoSided, known, wellFormed.versioned, wellFormed.uncrossed]

theorem Book.isTwoSided_of_isExecutable (executable : book.isExecutable = true) :
    book.isTwoSided = true := by
  simp only [Book.isExecutable, and_eq_true] at executable
  simp only [Book.isTwoSided, and_eq_true]
  exact executable.1.1.1

variable {state : CanonicalState} {market : MarketRecord}

/-- The market of a token that it owns. -/
theorem Invariant.marketIdForToken (invariant : Invariant state) {marketId tokenId : String}
    (known : state.markets[marketId]? = some market) (mem : tokenId ∈ market.tokenIds) :
    state.marketIdForToken tokenId = some marketId := by
  unfold CanonicalState.marketIdForToken
  cases found : state.markets.valueList.find? fun market => market.hasToken tokenId with
  | none =>
    have absent := find?_eq_none.mp found market (mem_valueList.mpr ⟨marketId, known⟩)
    exact absurd (hasToken_iff.mpr mem) absent
  | some owner =>
    have hasToken := find?_some found
    have owns := hasToken_iff.mp hasToken
    obtain ⟨key, stored⟩ := mem_valueList.mp (mem_of_find?_eq_some found)
    rw [map_some, invariant.keyed key owner stored]
    exact congrArg some (invariant.disjoint key marketId owner market tokenId stored known
      owns mem)

/-- With its quarantine lifted, a plain active market is executable when both of
its books are. -/
theorem marketBooksAreExecutable_closeRecovery {marketId : String}
    (known : state.markets[marketId]? = some market) (active : market.isActive = true)
    (unpriced : market.instrumentFacts = none) (ungrouped : market.negativeRiskGroup = none) :
    marketBooksAreExecutable (closeRecovery state marketId) marketId = true ↔
      ∀ tokenId ∈ market.tokenIds, (state.books[tokenId]?).any Book.isExecutable = true := by
  unfold marketBooksAreExecutable closeRecovery
  simp only [known, active, unpriced, ungrouped, Option.all_none, Bool.and_true,
    elim_some, all_eq_true, and_eq_true, not_eq_true',
    decide_eq_false_iff_not, mem_sdiff, mem_toFinset, not_and, not_not, true_and]
  constructor
  · exact fun both tokenId mem => (both tokenId mem).2
  · exact fun books tokenId mem => ⟨fun _ => mem, books tokenId mem⟩

/-- The tokens of a market, named by any two distinct ones. -/
theorem MarketRecord.mem_tokenIds_pair
    (mem : tokenId ∈ market.tokenIds) (otherMember : other ∈ market.tokenIds)
    (ne : other ≠ tokenId) (token : String) :
    token ∈ market.tokenIds ↔ token = tokenId ∨ token = other := by
  rw [mem_tokenIds] at mem otherMember ⊢
  rcases mem with rfl | rfl <;> rcases otherMember with rfl | rfl
  · exact absurd rfl ne
  · exact Iff.rfl
  · exact or_comm
  · exact absurd rfl ne

/-- A recovery is complete once the other token of a market was observed. -/
theorem recoveryIsComplete_observeToken {marketId tokenId other : String}
    (known : state.markets[marketId]? = some market) (mem : tokenId ∈ market.tokenIds)
    (otherMember : other ∈ market.tokenIds) (ne : other ≠ tokenId) :
    recoveryIsComplete (observeToken state marketId tokenId) marketId = true ↔
      other ∈ state.observedTokens marketId := by
  have expected : expectedTokens (observeToken state marketId tokenId) marketId =
      market.tokenIds.toFinset := by
    unfold expectedTokens observeToken
    rw [known, elim_some]
  have observed : ((observeToken state marketId tokenId).marketRecoveryTokenIds[marketId]?).getD ∅ =
      insert tokenId (state.observedTokens marketId) := by
    unfold observeToken CanonicalState.observedTokens
    rw [getElem?_insert_self, getD_some]
  have pair := mem_tokenIds_pair mem otherMember ne
  unfold recoveryIsComplete
  rw [expected, observed, and_eq_true, decide_eq_true_eq, decide_eq_true_eq]
  constructor
  · rintro ⟨_, covered⟩
    have inObserved := covered (mem_toFinset.mpr otherMember)
    exact (mem_insert.mp inObserved).resolve_left ne
  · intro seen
    refine ⟨?_, ?_⟩
    · intro empty
      have inEmpty := mem_toFinset.mpr mem
      rw [empty] at inEmpty
      exact notMem_empty tokenId inEmpty
    · intro token listed
      rcases (pair token).mp (mem_toFinset.mp listed) with rfl | rfl
      · exact mem_insert_self _ _
      · exact mem_insert_of_mem seen

/-! ## The step -/

/-- What a stored full book does for its market. -/
structure FullBookEffect
    (state next : CanonicalState) (market : MarketRecord) (tokenId : String) : Prop where
  book : ∃ book, next.books[tokenId]? = some book ∧ book.isTwoSided = true
  gaps : next.unresolvedGaps = state.unresolvedGaps.erase tokenId
  ready : ∀ other ∈ market.tokenIds, other ≠ tokenId →
    (next.status? market.marketId = some .ready ↔
      (state.status? market.marketId = some .ready ∨ other ∈ state.observedTokens market.marketId) ∧
        (state.books[other]?).any Book.isTwoSided = true)
  observed : ∀ other ∈ market.tokenIds, other ≠ tokenId →
    ∀ token, token ∈ next.observedTokens market.marketId ↔
      state.status? market.marketId ≠ some .ready ∧ other ∉ state.observedTokens market.marketId ∧
        (token ∈ state.observedTokens market.marketId ∨ token = tokenId)

variable {tokenId : String}

/-- A full book belongs to the market of its token. -/
theorem eventMarketId_of_fullBookToken?
    (fullBook : kind.fullBookToken? = some tokenId) :
    eventMarketId state kind = state.marketIdForToken tokenId := by
  cases kind <;> cases fullBook
  rfl

variable {event : CanonicalEvent}

/-- A fresh full book of an active token is stored. -/
theorem exists_decideEvent_of_isFreshFullBook
    (platform : Platform) (fresh : isFreshFullBook enforce event = true)
    (active : state.tokenIsActive event.kind.tokenId = true) :
    ∃ book, book.isTwoSided = true ∧ event.kind.fullBookToken? = some event.kind.tokenId ∧
      decideEvent platform enforce state event =
        .ok (Decision.accept
          { state.withBook event.kind.tokenId book with
            unresolvedGaps := state.unresolvedGaps.erase event.kind.tokenId }) := by
  unfold isFreshFullBook at fresh
  split at fresh
  · rename_i tokenId bids asks tickSize tickVersion kind
    simp only [and_eq_true, not_eq_true'] at fresh
    obtain ⟨⟨⟨⟨present, timely⟩, aligned⟩, uncrossed⟩, twoSided⟩ := fresh
    have sound : sourceRejected enforce state event = false := by
      unfold sourceRejected
      rw [present, timely, Bool.false_and, Bool.or_false]
    refine ⟨refreshedBook state event tokenId bids asks tickSize tickVersion, twoSided, ?_, ?_⟩
    · rw [kind]
      rfl
    · rw [decideEvent_fullBook kind sound, kind]
      rw [kind] at active
      have named : (EventKind.fullBook tokenId bids asks tickSize tickVersion).tokenId =
          tokenId := rfl
      rw [named] at active ⊢
      have sameCrossing : (refreshedBook state event tokenId bids asks tickSize
          tickVersion).crossedOrLocked = false := uncrossed
      unfold decideFullBook
      simp only [active, aligned, sameCrossing, Bool.not_true, false_eq_true, if_false]
  · cases fresh

/-- The state in which the recovery of a market meets its full book. -/
structure FullBookStored
    (state stored : CanonicalState) (market : MarketRecord) (tokenId : String) : Prop where
  invariant : Invariant stored
  book : ∃ book, stored.books[tokenId]? = some book ∧ book.isTwoSided = true
  otherBooks : ∀ other, other ≠ tokenId → stored.books[other]? = state.books[other]?
  status : stored.status? market.marketId = state.status? market.marketId
  recovery : stored.marketRecoveryTokenIds = state.marketRecoveryTokenIds
  gaps : stored.unresolvedGaps = state.unresolvedGaps.erase tokenId
  market : ∃ copy, stored.markets[market.marketId]? = some copy ∧
    copy.tokenIds = market.tokenIds ∧ copy.isActive = true ∧
    copy.instrumentFacts = none ∧ copy.negativeRiskGroup = none

namespace FullBookStored

variable {state stored : CanonicalState} {market : MarketRecord} {tokenId : String}

/-- The market is executable once its quarantine is lifted when the other book
has two sides. -/
theorem executable_iff
    (full : FullBookStored state stored market tokenId) (mem : tokenId ∈ market.tokenIds)
    (otherMember : other ∈ market.tokenIds) (ne : other ≠ tokenId) :
    marketBooksAreExecutable (closeRecovery stored market.marketId) market.marketId = true ↔
      (state.books[other]?).any Book.isTwoSided = true := by
  obtain ⟨copy, known, sameTokens, active, unpriced, ungrouped⟩ := full.market
  rw [marketBooksAreExecutable_closeRecovery known active unpriced ungrouped, sameTokens,
    ← full.otherBooks other ne]
  have executable_iff_twoSided : ∀ token : String,
      (stored.books[token]?).any Book.isExecutable = true ↔
        (stored.books[token]?).any Book.isTwoSided = true := by
    intro token
    rw [Option.any_eq_true, Option.any_eq_true]
    constructor
    · rintro ⟨book, present, executable⟩
      exact ⟨book, present, Book.isTwoSided_of_isExecutable executable⟩
    · rintro ⟨book, present, twoSided⟩
      exact ⟨book, present,
        (full.invariant.booksWellFormed token book present).isExecutable twoSided⟩
  constructor
  · exact fun all => (executable_iff_twoSided other).mp (all other otherMember)
  · intro twoSided token listed
    rw [executable_iff_twoSided]
    rcases (mem_tokenIds_pair mem otherMember ne token).mp listed with
      rfl | rfl
    · obtain ⟨book, present, sides⟩ := full.book
      rw [present, any_some, sides]
    · exact twoSided

theorem recoveryIsComplete_iff
    (full : FullBookStored state stored market tokenId) (mem : tokenId ∈ market.tokenIds)
    (otherMember : other ∈ market.tokenIds) (ne : other ≠ tokenId) :
    recoveryIsComplete (observeToken stored market.marketId tokenId) market.marketId = true ↔
      other ∈ state.observedTokens market.marketId := by
  obtain ⟨copy, known, sameTokens, _⟩ := full.market
  rw [← sameTokens] at mem otherMember
  rw [recoveryIsComplete_observeToken known mem otherMember ne]
  unfold CanonicalState.observedTokens
  rw [full.recovery]

end FullBookStored

/-- The status that a change of health leaves. -/
theorem CanonicalState.status?_upsertHealth_self
    (state : CanonicalState) (marketId : String) (catalogRevision : Option String)
    (change : MarketProjectionHealth → MarketProjectionHealth) (status : MarketProjectionStatus)
    (changes : ∀ health, (change health).projectionStatus = status) :
    (state.upsertHealth marketId catalogRevision change).status? marketId = some status := by
  rw [status?_upsertHealth, if_pos rfl, changes]

/-- The observed tokens after a closed recovery: none. -/
theorem observedTokens_closeRecovery (state : CanonicalState) (marketId : String) :
    (closeRecovery state marketId).observedTokens marketId = ∅ := by
  unfold CanonicalState.observedTokens closeRecovery
  rw [TreeMap.getElem?_erase_self]
  rfl

theorem observedTokens_quarantineMarket
    (state : CanonicalState) (marketId tokenId : String) (sequence : Nat) (reason : String)
    (event : CanonicalEvent) :
    (quarantineMarket state marketId tokenId sequence reason event).observedTokens marketId =
      ∅ := by
  unfold CanonicalState.observedTokens quarantineMarket CanonicalState.upsertHealth
  rw [getElem?_insert_self]
  rfl

/-- Observing a token has no part in whether a market is executable. -/
theorem executable_observeToken (state : CanonicalState) (marketId tokenId : String) :
    marketBooksAreExecutable (closeRecovery state marketId) marketId =
      marketBooksAreExecutable (closeRecovery (observeToken state marketId tokenId) marketId)
        marketId := rfl

/-- What the settlement of a full book makes of its market. -/
theorem settlement_fullBook {attribution : Attribution} {before after : Assessment}
    (settlement : Settlement attribution event before after)
    (full : FullBookStored state before.state market tokenId) (opened : before.isOpen = true)
    (fullBook : event.kind.fullBookToken? = some tokenId)
    (named : attribution.marketId = market.marketId)
    (previous : attribution.previousMarketStatus = state.status? market.marketId)
    (mem : tokenId ∈ market.tokenIds) (otherMember : other ∈ market.tokenIds)
    (ne : other ≠ tokenId) :
    (after.state.status? market.marketId = some .ready ↔
      (state.status? market.marketId = some .ready ∨ other ∈ state.observedTokens market.marketId) ∧
        (state.books[other]?).any Book.isTwoSided = true) ∧
    ∀ token, token ∈ after.state.observedTokens market.marketId ↔
      state.status? market.marketId ≠ some .ready ∧ other ∉ state.observedTokens market.marketId ∧
        (token ∈ state.observedTokens market.marketId ∨ token = tokenId) := by
  have executable := full.executable_iff mem otherMember ne
  have complete := full.recoveryIsComplete_iff mem otherMember ne
  rw [← previous]
  cases settlement with
  | unchanged closed =>
    rw [(closed opened).1] at fullBook
    cases fullBook
  | excluded _ none _ _ _ =>
    rw [none] at fullBook
    cases fullBook
  | kept _ _ ready admits =>
    rw [named, executable] at admits
    rw [named]
    have status := status?_upsertHealth_self
      (closeRecovery before.state market.marketId) market.marketId
      before.state.catalogRevision (recover event) .ready fun _ => rfl
    have seen : ((closeRecovery before.state market.marketId).upsertHealth market.marketId
        before.state.catalogRevision
        (recover event)).observedTokens market.marketId = ∅ :=
      observedTokens_closeRecovery _ _
    rw [status, seen]
    simp [ready, admits]
  | dropped _ _ ready refuses =>
    rw [← not_eq_true, named, executable] at refuses
    have status := status?_quarantineMarket (closeRecovery before.state attribution.marketId)
      attribution.marketId event.kind.tokenId attribution.marketSequence
      "market_book_not_executable" event
    have seen := observedTokens_quarantineMarket
      (closeRecovery before.state attribution.marketId) attribution.marketId
      event.kind.tokenId attribution.marketSequence "market_book_not_executable" event
    rw [named] at status seen
    unfold Assessment.quarantine
    rw [named, status, seen]
    simp [ready, refuses]
  | @recovered observed _ sameToken recovering finished admits =>
    obtain rfl := some.inj (fullBook.symm.trans sameToken)
    rw [named, complete] at finished
    rw [named] at admits
    rw [← executable_observeToken, executable] at admits
    rw [named]
    have status := status?_upsertHealth_self
      (closeRecovery (observeToken before.state market.marketId tokenId) market.marketId)
      market.marketId before.state.catalogRevision (recover event)
      .ready fun _ => rfl
    have seen : ((closeRecovery (observeToken before.state market.marketId tokenId)
        market.marketId).upsertHealth market.marketId before.state.catalogRevision
        (recover event)).observedTokens market.marketId = ∅ :=
      observedTokens_closeRecovery _ _
    rw [status, seen]
    simp [finished, admits]
  | @awaiting observed waiting _ sameToken recovering shape =>
    obtain rfl := some.inj (fullBook.symm.trans sameToken)
    rw [named] at shape ⊢
    have status := status?_upsertHealth_self waiting market.marketId
      before.state.catalogRevision awaitSnapshot .recovering
      fun _ => rfl
    rw [status]
    rcases shape with ⟨rfl, unfinished⟩ | ⟨rfl, finished, refuses⟩
    · rw [← not_eq_true, complete] at unfinished
      have seen : ((observeToken before.state market.marketId tokenId).upsertHealth
          market.marketId before.state.catalogRevision
          awaitSnapshot).observedTokens market.marketId =
            insert tokenId (state.observedTokens market.marketId) := by
        unfold CanonicalState.observedTokens CanonicalState.upsertHealth observeToken
        rw [getElem?_insert_self, ← full.recovery]
        rfl
      rw [seen]
      simp [unfinished, recovering, or_comm]
    · rw [complete] at finished
      rw [← executable_observeToken, ← not_eq_true, executable] at refuses
      have seen : ((closeRecovery (observeToken before.state market.marketId tokenId)
          market.marketId).upsertHealth market.marketId before.state.catalogRevision
          awaitSnapshot).observedTokens market.marketId = ∅ :=
        observedTokens_closeRecovery _ _
      rw [seen]
      simp [finished, refuses]

namespace Phases

variable {platform : Platform} {enforce : Bool}
  {state next : CanonicalState} {event : CanonicalEvent} {persisted : PersistedEvent}

section

variable (phases : Phases platform enforce state event next persisted)
include phases

section

variable (invariant : Invariant state) (plain : state.Plain)
  (fresh : isFreshFullBook enforce event = true)
  (known : state.markets[market.marketId]? = some market) (active : market.isActive = true)
  (mem : event.kind.tokenId ∈ market.tokenIds)
include invariant plain fresh known active mem

/-- Up to its settlement, the step of a fresh full book stores it. -/
theorem fullBookStored :
    attribution state event = some (attributeTo (admittedState state event) market.marketId) ∧
      event.kind.fullBookToken? = some event.kind.tokenId ∧
      phases.localized.isOpen = true ∧
      FullBookStored state phases.reconciled market event.kind.tokenId := by
  obtain ⟨health, admittedShape, _, kept⟩ := admittedState_eq state event
  have tokenActive : (admittedState state event).tokenIsActive event.kind.tokenId = true := by
    rw [admittedShape]
    unfold CanonicalState.tokenIsActive
    rw [or_eq_true, any_eq_true]
    exact .inr ⟨market, mem_activeMarkets.mpr ⟨⟨_, known⟩, active⟩, hasToken_iff.mpr mem⟩
  obtain ⟨book, twoSided, fullBook, decided⟩ :=
    exists_decideEvent_of_isFreshFullBook platform fresh tokenActive
  have decision := ok.inj (phases.decision_eq.symm.trans decided)
  have recoverable := fullBookToken?_isLocallyRecoverable fullBook
  have tokenEvent := isTokenEvent_of_isLocallyRecoverable recoverable
  have named : eventMarketId state event.kind = some market.marketId := by
    rw [eventMarketId_of_fullBookToken? fullBook]
    exact invariant.marketIdForToken known mem
  have attributed : attribution state event =
      some (attributeTo (admittedState state event) market.marketId) :=
    attribution_eq_some_iff.mpr ⟨market.marketId, named, rfl⟩
  obtain ⟨passed, opened⟩ : phases.localized.state = phases.decision.state ∧
      phases.localized.isOpen = true := by
    rcases phases.localized_of_recoverable attributed recoverable with
      ⟨reason, rejected, _⟩ | ⟨passed, _, opened⟩
    · rw [decision] at rejected
      cases rejected
    · exact ⟨passed, opened⟩
  have only := phases.reconciliation.onlyMarkets
  have shape : phases.localized.state =
      { (admittedState state event).withBook event.kind.tokenId book with
        unresolvedGaps :=
          (admittedState state event).unresolvedGaps.erase event.kind.tokenId } := by
    rw [passed, decision]
    rfl
  refine ⟨attributed, fullBook, opened, phases.invariant_reconciled invariant, ?_, ?_, ?_,
    ?_, ?_, ?_⟩
  · refine ⟨book, ?_, twoSided⟩
    rw [only, shape]
    exact getElem?_insert_self
  · intro other ne
    rw [only, passed]
    exact phases.decision_books_other tokenEvent ne
  · rw [only]
    exact phases.localized_status invariant recoverable passed known active
  · rw [only, shape, admittedShape]
    rfl
  · rw [only, shape, admittedShape]
    rfl
  · have identity : ∀ marketId : String,
        state.markets[marketId]?.map MarketRecord.identity =
          phases.reconciled.markets[marketId]?.map MarketRecord.identity := by
      intro marketId
      rw [phases.reconciliation.identity, (phases.localized_catalog attributed tokenEvent).1]
    obtain ⟨copy, copied, same⟩ := exists_of_identity_eq identity known
    obtain ⟨unpriced, ungrouped⟩ := plain market.marketId market known active
    refine ⟨copy, copied, tokenIds_of_identity same,
      (isActive_of_identity same).trans active, ?_, ?_⟩
    · rw [← isNone_iff_eq_none, ← Option.isSome_eq_false_iff,
        isSome_facts_of_identity same, unpriced]
      rfl
    · have sameGroup := congrArg MarketRecord.negativeRiskGroup same
      exact sameGroup.trans ungrouped

/-- The step of a fresh full book of a plain active market. -/
theorem fullBookEffect :
    FullBookEffect state next market event.kind.tokenId := by
  obtain ⟨attributed, fullBook, opened, stored⟩ :=
    phases.fullBookStored invariant plain fresh known active mem
  have settlement := phases.settlement _ attributed
  have frame := marketLocal_of_settlement settlement
  rw [phases.stored_tokenId] at frame
  obtain ⟨sameBooks, _, _, sameGaps, _, _⟩ := phases.next_frame
  have storedBook : persisted.event.kind.fullBookToken? = some event.kind.tokenId := by
    obtain ⟨changes, same⟩ := phases.exists_withChanges
    rw [same]
    exact (EventKind.fullBookToken?_withChanges _ _).trans fullBook
  have previous : (attributeTo (admittedState state event)
      market.marketId).previousMarketStatus = state.status? market.marketId := by
    obtain ⟨health, admittedShape, _, kept⟩ := admittedState_eq state event
    rw [admittedShape]
    exact congrArg (Option.map projectionStatus)
      (kept market.marketId (invariant.health _ market known active))
  have status : next.status? market.marketId = phases.settled.state.status? market.marketId := by
    obtain ⟨copy, copied, _, copyActive, _⟩ := stored.market
    rw [← phases.settled_frame.2.1] at copied
    exact phases.status?_next invariant copied copyActive
  have recovery : next.observedTokens market.marketId =
      phases.settled.state.observedTokens market.marketId := by
    unfold CanonicalState.observedTokens
    rw [phases.next_recovery]
  constructor
  · obtain ⟨book, present, twoSided⟩ := stored.book
    refine ⟨book, ?_, twoSided⟩
    rw [sameBooks, frame.books]
    exact present
  · ext gap
    rw [sameGaps, ← stored.gaps]
    by_cases here : gap = event.kind.tokenId
    · have closed : gap ∉ phases.reconciled.unresolvedGaps := by
        rw [stored.gaps, here]
        exact notMem_erase _ _
      exact ⟨fun inSettled => frame.noNewGap inSettled, fun inStored => absurd inStored closed⟩
    · exact frame.gaps gap here
  · intro other otherMember ne
    rw [status]
    exact (settlement_fullBook settlement stored opened storedBook rfl previous mem
      otherMember ne).1
  · intro other otherMember ne token
    rw [recovery]
    exact (settlement_fullBook settlement stored opened storedBook rfl previous mem
      otherMember ne).2 token

end

end

end Phases

end MarketCow.Core
