import MarketCow.Core.MarketStatus
import MarketCow.Core.WriterRun

/-!
# Readiness

A ready projection has no gap, something to trade, and only public markets
whose books can be quoted. One part depends on the catalogs of a run: a
replacement may move a quarantined token into a market that keeps its ready
health, and then the market is public with a quarantined token.
-/

namespace MarketCow.Core

open Library Option
open CanonicalState (admitExecutableMarket marketIsPublic_iff publicMarkets remember)

/-- A book with a best bid below a best ask, all on one nonzero tick. -/
structure Book.Quotable (book : Book) : Prop where
  quoted : ∃ bid ask, book.bids.lastKey? = some bid ∧ book.asks.firstKey? = some ask ∧ bid < ask
  versioned : book.tickVersion ≠ ""
  ticked : ∃ tick, book.tickSize = some tick ∧ tick ≠ 0 ∧
    ∀ (side : Side) (price : Price) (quantity : Decimal),
      (book.sideOf side)[price]? = some quantity → ∃ factor : Int, price = factor * tick

/-- The books of a public market can be quoted, at the tick of its facts. -/
structure MarketQuoted (state : CanonicalState) (market : MarketRecord) : Prop where
  quotable : ∀ tokenId ∈ market.tokenIds, ∃ book, state.books[tokenId]? = some book ∧ book.Quotable
  priced : ∀ facts, market.instrumentFacts = some facts →
    ∀ tokenId ∈ market.tokenIds, ∃ book,
      state.books[tokenId]? = some book ∧ book.tickSize = some facts.priceIncrement

/-- What the readiness of a projection rests on. -/
structure ReadinessGrounded (state : CanonicalState) : Prop where
  noGap : state.unresolvedGaps = ∅
  usable : (state.catalogRevision = none ∧ ∃ (tokenId : String) (book : Book),
      state.books[tokenId]? = some book) ∨
    ∃ (marketId : String) (market : MarketRecord),
      state.markets[marketId]? = some market ∧ market.isActive = true ∧
        state.marketIsPublic marketId = true
  quoted : ∀ (marketId : String) (market : MarketRecord),
    state.markets[marketId]? = some market → market.isActive = true →
      state.marketIsPublic marketId = true → MarketQuoted state market

/-- What readiness promises about a projection. -/
structure ReadinessSound (state : CanonicalState) : Prop
    extends ReadinessGrounded state where
  clear : ∀ (marketId tokenId : String), state.ActiveOn marketId tokenId →
    state.marketIsPublic marketId = true → tokenId ∉ state.quarantinedTokenIds

/-! ## Ready markets are clear of quarantine -/

/-- No token of a ready active market is quarantined. -/
def CanonicalState.ReadyClear (state : CanonicalState) : Prop :=
  ∀ marketId tokenId, state.ActiveOn marketId tokenId →
    state.status? marketId = some .ready → tokenId ∉ state.quarantinedTokenIds

/-- The markets of a snapshot that passes its checks, as they replace the
catalog of a state. -/
def installedMarkets
    (enforce : Bool) (state : CanonicalState) (event : CanonicalEvent) : List MarketRecord :=
  match event.kind with
  | .catalogSnapshot catalogRevision markets relations =>
    if event.source.missing || (enforce && event.source.delayed) ||
        catalogRevision.isEmpty ||
        (validatedCatalog (markets ++ retainedResolvedMarkets state markets)
          relations).isNone then []
    else markets
  | _ => []

/-- A snapshot keeps quarantined tokens out of the markets that stay ready. -/
def KeepsReadyClear (enforce : Bool) (state : CanonicalState) (event : CanonicalEvent) : Prop :=
  ∀ market ∈ installedMarkets enforce state event,
    market.isActive = true → state.status? market.marketId = some .ready →
      ∀ tokenId ∈ market.tokenIds, tokenId ∉ state.quarantinedTokenIds

instance (enforce : Bool) (state : CanonicalState) (event : CanonicalEvent) :
    Decidable (KeepsReadyClear enforce state event) := by
  unfold KeepsReadyClear
  infer_instance

variable {enforce : Bool} {state : CanonicalState} {event : CanonicalEvent}

/-- The state in which a catalog snapshot is decided is the state before it, up
to its position. -/
theorem KeepsReadyClear.admitted
    (keeps : KeepsReadyClear enforce state event)
    (kind : event.kind = .catalogSnapshot catalogRevision markets relations) :
    KeepsReadyClear enforce (admittedState state event) event := by
  have same : admittedState state event = state.advance event := by
    unfold admittedState
    rw [kind]
    rfl
  rw [same]
  unfold KeepsReadyClear installedMarkets at keeps ⊢
  rw [kind] at keeps ⊢
  exact keeps

namespace CanonicalState.ReadyClear

theorem bootstrap (scopeId : String) : (CanonicalState.bootstrap scopeId).ReadyClear := by
  rintro marketId tokenId ⟨market, known, _⟩
  simp [CanonicalState.bootstrap] at known

variable {before after : CanonicalState}

/-- The rule for a phase: its ready markets are old ones whose tokens it does
not quarantine, or clear. -/
theorem of_phase (clear : before.ReadyClear)
    (phase : ∀ marketId tokenId, after.ActiveOn marketId tokenId →
      after.status? marketId = some .ready →
        (before.ActiveOn marketId tokenId ∧ before.status? marketId = some .ready ∧
            (tokenId ∈ after.quarantinedTokenIds → tokenId ∈ before.quarantinedTokenIds)) ∨
          tokenId ∉ after.quarantinedTokenIds) :
    after.ReadyClear := by
  intro marketId tokenId active ready
  rcases phase marketId tokenId active ready with ⟨wasActive, wasReady, kept⟩ | absent
  · exact fun quarantined => clear marketId tokenId wasActive wasReady (kept quarantined)
  · exact absent

variable {state : CanonicalState}

/-- Executable books belong to a market whose tokens are clear. -/
theorem notMem_of_executable
    (executable : marketBooksAreExecutable state marketId = true)
    (active : state.ActiveOn marketId tokenId) :
    tokenId ∉ state.quarantinedTokenIds := by
  obtain ⟨market, known, books⟩ := exists_executable executable
  obtain ⟨other, alsoKnown, _, mem⟩ := active
  rw [known] at alsoKnown
  cases alsoKnown
  exact books.clear tokenId mem

theorem admitted (clear : state.ReadyClear) (event : CanonicalEvent) :
    (admittedState state event).ReadyClear := by
  have started : (state.advance event).ReadyClear := clear
  unfold admittedState
  dsimp only
  cases eventMarketId (state.advance event) event.kind with
  | none => exact started
  | some attributed =>
    simp only [elim_some]
    unfold admitExecutableMarket
    split
    · rename_i condition
      simp only [and_eq_true] at condition
      apply started.of_phase
      intro marketId tokenId active ready
      by_cases here : attributed = marketId
      · subst here
        exact .inr (notMem_of_executable condition.2 active)
      · refine .inl ⟨active, ?_, id⟩
        unfold status? at ready ⊢
        simp only [TreeMap.getElem?_insert, compare_eq_iff_eq, if_neg here] at ready
        exact ready
    · exact started

/-- Dropping quarantines and closing other markets keeps the rest clear. -/
theorem marketLocal
    (clear : before.ReadyClear) (frame : MarketLocal marketId token before after)
    (invariant : Invariant before)
    (owned : ∃ market, before.markets[marketId]? = some market ∧ token ∈ market.tokenIds)
    (here : ∀ tokenId, after.ActiveOn marketId tokenId →
      after.status? marketId = some .ready → tokenId ∉ after.quarantinedTokenIds) :
    after.ReadyClear := by
  apply clear.of_phase
  rintro other tokenId ⟨market, known, active, mem⟩ ready
  by_cases same : other = marketId
  · subst same
    exact .inr (here tokenId ⟨market, known, active, mem⟩ ready)
  · rw [frame.markets] at known
    rw [status?_of_marketLocal frame same] at ready
    refine .inl ⟨⟨market, known, active, mem⟩, ready, ?_⟩
    obtain ⟨owner, ownerKnown, owns⟩ := owned
    -- No token of another market is a token of this one.
    have foreign : ∀ ownToken ∈ owner.tokenIds, tokenId ≠ ownToken := by
      rintro ownToken ownMember rfl
      exact same (invariant.disjoint other marketId market owner tokenId known ownerKnown
        mem ownMember)
    have outside : tokenId ∉ expectedTokens before marketId := by
      unfold expectedTokens
      rw [ownerKnown, elim_some, List.mem_toFinset]
      exact fun ownMember => foreign tokenId ownMember rfl
    exact (frame.quarantine tokenId (foreign token owns) outside).mp

/-- A phase that keeps markets, statuses and quarantines keeps ready markets
clear. -/
theorem of_same (clear : before.ReadyClear) (sameMarkets : after.markets = before.markets)
    (sameHealth : after.marketHealth = before.marketHealth)
    (sameQuarantine : after.quarantinedTokenIds = before.quarantinedTokenIds) :
    after.ReadyClear := by
  intro marketId tokenId active ready
  unfold CanonicalState.ActiveOn at active
  unfold status? at ready
  rw [sameMarkets] at active
  rw [sameHealth] at ready
  rw [sameQuarantine]
  exact clear marketId tokenId active ready

variable {event : CanonicalEvent}

theorem installCatalog
    {catalogRevision : String} {markets : List MarketRecord} {relations : List NegativeRiskRelation}
    {catalog : CatalogState}
    (clear : state.ReadyClear) (keeps : KeepsReadyClear enforce state event)
    (kind : event.kind = .catalogSnapshot catalogRevision markets relations)
    (fresh : (event.source.missing || (enforce && event.source.delayed)) = false)
    (revised : catalogRevision.isEmpty = false)
    (valid : validatedCatalog (markets ++ retainedResolvedMarkets state markets) relations =
      some catalog) :
    (state.installCatalog catalogRevision catalog).ReadyClear := by
  have indexes := validatedCatalog_indexes valid
  have installed : installedMarkets enforce state event = markets := by
    unfold installedMarkets
    simp only [kind, fresh, revised, valid, isNone_some, Bool.or_false, false_eq_true, if_false]
  apply clear.of_phase
  rintro marketId tokenId ⟨market, known, active, mem⟩ ready
  refine .inr fun quarantined => ?_
  rw [CanonicalState.markets_installCatalog] at known
  obtain ⟨listed, rfl⟩ := (indexes.market marketId market).mp known
  have fromEvent : market ∈ markets := by
    rcases List.mem_append.mp listed with inEvent | retained
    · exact inEvent
    · unfold retainedResolvedMarkets at retained
      have resolved := (List.mem_filter.mp retained).2
      simp only [and_eq_true, beq_iff_eq] at resolved
      simp [MarketRecord.isActive, resolved.1] at active
  have wasReady : state.status? market.marketId = some .ready := by
    unfold status? at ready ⊢
    obtain ⟨health, present, isReady⟩ := map_eq_some_iff.mp ready
    rw [state.readyWithin_installCatalog catalogRevision catalog market.marketId health
      present isReady]
    exact congrArg some isReady
  rw [← installed] at fromEvent
  exact keeps market fromEvent active wasReady tokenId mem
    ((state.mem_quarantinedTokenIds_installCatalog catalogRevision catalog tokenId).mp
      quarantined).2

theorem resolveMarket
    (clear : state.ReadyClear) :
    (state.resolveMarket platform event conditionId winningTokenId winningOutcome marketId
      market).ReadyClear := by
  obtain ⟨relations, gaps, shape⟩ := resolveMarket_eq platform event conditionId
    winningTokenId winningOutcome state marketId market
  rw [shape]
  apply clear.of_phase
  rintro otherId tokenId ⟨other, known, active, mem⟩ ready
  refine .inl ⟨⟨other, ?_, active, mem⟩, ready, id⟩
  simp only [TreeMap.getElem?_insert, compare_eq_iff_eq] at known
  split at known
  · cases known
    simp [MarketRecord.isActive, resolvedMarket] at active
  · exact known

theorem decision {platform : Platform} {decision : Decision}
    (clear : (admittedState state event).ReadyClear) (keeps : KeepsReadyClear enforce state event)
    (effect : DecisionEffect platform enforce (admittedState state event) event decision) :
    decision.state.ReadyClear := by
  cases effect with
  | sourceRejected => exact clear.of_same rfl rfl rfl
  | superseded => exact clear
  | decided fresh current kindEffect =>
    cases kindEffect with
    | @catalogInstalled catalogRevision markets relations catalog kind revised valid =>
      obtain ⟨changes, rewritten⟩ := exists_rewriteEvent_eq_withChanges
        enforce (admittedState state event) event
      rw [rewritten] at kind
      have original := EventKind.eq_of_withChanges_eq kind rfl
      have accepted : (event.source.missing || (enforce && event.source.delayed)) = false := by
        unfold sourceRejected at fresh
        rwa [current, Bool.not_false, Bool.and_true] at fresh
      exact clear.installCatalog (KeepsReadyClear.admitted keeps original) original
        accepted revised valid
    | resolved => exact clear.resolveMarket
    | _ => exact clear.of_same rfl rfl rfl

end CanonicalState.ReadyClear

/-! ## Phases -/

namespace Phases

variable {platform : Platform} {enforce : Bool} {state next : CanonicalState}
  {event : CanonicalEvent} {persisted : PersistedEvent} {market : Attribution}
  (phases : Phases platform enforce state event next persisted)

section

variable (invariant : Invariant state) (attributed : attribution state event = some market)
  (tokenEvent : event.kind.isTokenEvent = true)
include invariant attributed tokenEvent

/-- The market of a token event owns the token, in the state of its decision. -/
theorem owner_of_isTokenEvent :
    ∃ record, phases.decision.state.markets[market.marketId]? = some record ∧
      event.kind.tokenId ∈ record.tokenIds := by
  unfold attribution at attributed
  obtain ⟨marketId, named, rfl⟩ := map_eq_some_iff.mp attributed
  have keyed : (state.advance event).Keyed := invariant.keyed
  obtain ⟨record, known, mem⟩ := mem_of_eventMarketId keyed named tokenEvent
  obtain ⟨books, gaps, shape, _, _⟩ := decision_of_isTokenEvent phases.decided tokenEvent
  have sameMarkets : (admittedState state event).markets = state.markets := by
    unfold admittedState
    dsimp only
    cases eventMarketId (state.advance event) event.kind with
    | none => rfl
    | some other =>
      simp only [elim_some]
      unfold admitExecutableMarket
      split <;> rfl
  refine ⟨record, ?_, mem⟩
  rw [shape]
  dsimp only [attributeTo]
  rw [sameMarkets]
  exact known

/-- The market still owns the token once the ticks are reconciled. -/
theorem owner_reconciled :
    ∃ record, phases.reconciled.markets[market.marketId]? = some record ∧
      event.kind.tokenId ∈ record.tokenIds := by
  obtain ⟨record, known, mem⟩ := phases.owner_of_isTokenEvent invariant attributed tokenEvent
  have localization := phases.localization
  rw [attributed] at localization
  rw [← (marketLocal_of_localization localization).markets] at known
  have symmetric : ∀ marketId : String,
      phases.localized.state.markets[marketId]?.map MarketRecord.identity =
        phases.reconciled.markets[marketId]?.map MarketRecord.identity :=
    fun marketId => (phases.reconciliation.identity marketId).symm
  obtain ⟨copy, copied, same⟩ := exists_of_identity_eq symmetric known
  refine ⟨copy, copied, ?_⟩
  rw [MarketRecord.tokenIds_of_identity same]
  exact mem

end

theorem stored_isLocallyRecoverable (phases : Phases platform enforce state event next persisted) :
    persisted.event.kind.isLocallyRecoverable = event.kind.isLocallyRecoverable := by
  obtain ⟨changes, same⟩ := phases.exists_withChanges
  rw [same]
  exact EventKind.isLocallyRecoverable_withChanges _ _

/-- A settlement that changes anything follows an event of one token. -/
theorem isTokenEvent_of_settlement (attributed : attribution state event = some market) :
    phases.settled = { phases.localized with state := phases.reconciled } ∨
      event.kind.isTokenEvent = true := by
  have recoverable : persisted.event.kind.isLocallyRecoverable = true →
      event.kind.isTokenEvent = true := by
    rw [phases.stored_isLocallyRecoverable]
    exact isTokenEvent_of_isLocallyRecoverable
  have settlement := phases.settlement market attributed
  generalize phases.settled = settled at settlement
  cases settlement with
  | unchanged => exact .inl rfl
  | excluded _ _ _ local_ _ => exact .inr (recoverable local_)
  | kept _ fullBook _ _ | dropped _ fullBook _ _ | recovered _ fullBook _ _ _ =>
    exact .inr (recoverable (fullBookToken?_isLocallyRecoverable fullBook))
  | awaiting _ fullBook _ _ =>
    exact .inr (recoverable (fullBookToken?_isLocallyRecoverable fullBook))

variable {marketId : String}

/-- Metadata makes no market ready. -/
theorem ready_of_recordAttributed {attribution : Option Attribution}
    (ready : (recordAttributed attribution event state).status? marketId = some .ready) :
    state.status? marketId = some .ready := by
  unfold recordAttributed at ready
  cases attribution with
  | none => exact ready
  | some market =>
    simp only [elim_some] at ready
    unfold recordMarketEvent at ready
    rw [CanonicalState.status?_upsertHealth] at ready
    split at ready
    · rename_i here
      subst here
      unfold CanonicalState.status?
      cases known : state.marketHealth[market.marketId]? with
      | none => rw [known] at ready; cases ready
      | some health => rw [known] at ready; exact ready
    · exact ready

section

variable (invariant : Invariant state) (clear : state.ReadyClear)
  (keeps : KeepsReadyClear enforce state event)
include invariant clear keeps

theorem readyClear_localized :
    phases.localized.state.ReadyClear := by
  have decided := CanonicalState.ReadyClear.decision (clear.admitted event) keeps phases.decided
  have decisionInvariant := phases.invariant_decision invariant
  have localization := phases.localization
  have recoverableStored := phases.stored_isLocallyRecoverable
  have sameToken := phases.stored_tokenId
  have owner : ∀ market, attribution state event = some market → event.kind.isTokenEvent = true →
      ∃ record, phases.decision.state.markets[market.marketId]? = some record ∧
        event.kind.tokenId ∈ record.tokenIds :=
    fun market attributed tokenEvent => phases.owner_of_isTokenEvent invariant attributed tokenEvent
  generalize phases.localized = localized at localization
  cases localization with
  | passed => exact decided
  | @fault market reason attributed rejected recoverable =>
    rw [recoverableStored] at recoverable
    have owned := owner market attributed (isTokenEvent_of_isLocallyRecoverable recoverable)
    rw [← sameToken] at owned
    refine decided.marketLocal (marketLocal_quarantineMarket _ _ _ _ _ _) decisionInvariant owned ?_
    intro tokenId _ ready
    rw [status?_quarantineMarket] at ready
    cases ready

theorem readyClear_reconciled :
    phases.reconciled.ReadyClear := by
  have localized := phases.readyClear_localized invariant clear keeps
  have shape := phases.reconciliation.onlyMarkets
  intro marketId tokenId active ready
  obtain ⟨market, known, isActive, mem⟩ := active
  obtain ⟨original, stored, same⟩ := exists_of_identity_eq phases.reconciliation.identity known
  rw [shape] at ready ⊢
  refine localized marketId tokenId ⟨original, stored, ?_, ?_⟩ ready
  · rw [MarketRecord.isActive_of_identity same]
    exact isActive
  · rw [MarketRecord.tokenIds_of_identity same]
    exact mem

theorem readyClear_settled :
    phases.settled.state.ReadyClear := by
  have reconciled := phases.readyClear_reconciled invariant clear keeps
  cases attributed : attribution state event with
  | none =>
    rw [phases.unattributed attributed]
    exact reconciled
  | some market =>
    rcases phases.isTokenEvent_of_settlement attributed with same | tokenEvent
    · rw [same]
      exact reconciled
    · have settlement := phases.settlement market attributed
      have owned := phases.owner_reconciled invariant attributed tokenEvent
      rw [← phases.stored_tokenId] at owned
      refine reconciled.marketLocal (marketLocal_of_settlement settlement)
        (phases.invariant_reconciled invariant) owned ?_
      intro tokenId active ready
      rcases ready_of_settlement settlement ready with
        ⟨wasReady, same, _⟩ | executable
      · rw [same] at active ⊢
        exact reconciled market.marketId tokenId active wasReady
      · exact CanonicalState.ReadyClear.notMem_of_executable executable active

end

/-- A step under a catalog that keeps ready markets clear does so itself. -/
theorem readyClear_next
    (phases : Phases platform enforce state event next persisted) (invariant : Invariant state)
    (clear : state.ReadyClear) (keeps : KeepsReadyClear enforce state event) :
    next.ReadyClear := by
  have settled := phases.readyClear_settled invariant clear keeps
  intro marketId tokenId active ready
  rw [phases.next_eq] at active ready ⊢
  have sameMarkets : ∀ base : CanonicalState,
      (recordAttributed (attribution state event) persisted.event base).markets = base.markets := by
    intro base
    unfold recordAttributed
    cases attribution state event <;> rfl
  have sameQuarantine : ∀ base : CanonicalState,
      (recordAttributed (attribution state event) persisted.event base).quarantinedTokenIds =
        base.quarantinedTokenIds := by
    intro base
    unfold recordAttributed
    cases attribution state event <;> rfl
  have wasReady := ready_of_recordAttributed ready
  unfold CanonicalState.ActiveOn at active
  simp only [remember, sameMarkets, sameQuarantine] at active ⊢
  exact settled marketId tokenId active wasReady

/-! ## Soundness of readiness -/

/-- The settled state keeps the books and the markets of the reconciled one. -/
theorem settled_frame (phases : Phases platform enforce state event next persisted) :
    phases.settled.state.books = phases.localized.state.books ∧
      phases.settled.state.markets = phases.reconciled.markets ∧
      phases.settled.state.catalogRevision = phases.localized.state.catalogRevision := by
  have shape := phases.reconciliation.onlyMarkets
  cases attributed : attribution state event with
  | none =>
    rw [phases.unattributed attributed]
    refine ⟨?_, rfl, ?_⟩
    · rw [shape]
    · rw [shape]
  | some market =>
    have frame := marketLocal_of_settlement (phases.settlement market attributed)
    refine ⟨?_, frame.markets, ?_⟩
    · rw [frame.books]
      rw [shape]
    · rw [frame.catalogRevision]
      rw [shape]

/-- A market that ends ready was ready before the settlement, or its books admit
execution. -/
theorem ready_of_settled (ready : phases.settled.state.status? marketId = some .ready) :
    phases.localized.state.status? marketId = some .ready ∨
      marketBooksAreExecutable phases.settled.state marketId = true := by
  have sameStatus : ∀ other, phases.reconciled.status? other =
      phases.localized.state.status? other := by
    intro other
    rw [phases.reconciliation.onlyMarkets]
    rfl
  rw [← sameStatus]
  cases attributed : attribution state event with
  | none =>
    rw [phases.unattributed attributed] at ready
    exact .inl ready
  | some market =>
    have settlement := phases.settlement market attributed
    by_cases here : marketId = market.marketId
    · rw [here] at ready ⊢
      rcases ready_of_settlement settlement ready with ⟨wasReady, _⟩ | executable
      · exact .inl wasReady
      · exact .inr executable
    · rw [status?_of_marketLocal (marketLocal_of_settlement settlement) here] at ready
      exact .inl ready

end Phases

/-- A well-formed two-sided book can be quoted. -/
theorem Book.WellFormed.quotable
    {book : Book} (wellFormed : book.WellFormed) (bids : book.bids.isEmpty = false)
    (asks : book.asks.isEmpty = false) :
    book.Quotable := by
  obtain ⟨tick, known, multiples⟩ := wellFormed.ticked
  have uncrossed := Book.crossedOrLocked_eq_false_iff.mp wellFormed.uncrossed
  have versioned : book.tickVersion ≠ "" := by
    intro empty
    have nonempty := wellFormed.versioned
    rw [empty] at nonempty
    cases nonempty
  cases bestBid : book.bids.lastKey? with
  | none =>
    rw [TreeMap.lastKey?_eq_none_iff.mp bestBid] at bids
    cases bids
  | some bid =>
    cases bestAsk : book.asks.firstKey? with
    | none =>
      rw [TreeMap.firstKey?_eq_none_iff.mp bestAsk] at asks
      cases asks
    | some ask =>
      obtain ⟨⟨bidQuantity, bidPresent⟩, _⟩ := TreeMap.lastKey?_eq_some_iff.mp bestBid
      obtain ⟨⟨askQuantity, askPresent⟩, _⟩ := TreeMap.firstKey?_eq_some_iff.mp bestAsk
      have nonzero : tick ≠ 0 := (multiples .bid bid bidQuantity bidPresent).1
      refine ⟨⟨bid, ask, bestBid, bestAsk, ?_⟩, versioned, tick, known, nonzero, ?_⟩
      · exact uncrossed bid bidQuantity ask askQuantity bidPresent askPresent
      · intro side price quantity present
        exact (multiples side price quantity present).2

namespace Phases

variable {platform : Platform} {enforce : Bool}
  {state next : CanonicalState} {event : CanonicalEvent} {persisted : PersistedEvent}

section

variable (phases : Phases platform enforce state event next persisted)
include phases

/-- The metadata of a step leaves the scope alone. -/
theorem next_frame :
    next.books = phases.settled.state.books ∧ next.markets = phases.settled.state.markets ∧
      next.catalogRevision = phases.settled.state.catalogRevision ∧
      next.unresolvedGaps = phases.settled.state.unresolvedGaps ∧
      next.quarantinedTokenIds = phases.settled.state.quarantinedTokenIds ∧
      next.ready = phases.settled.state.readiness phases.consistent := by
  have same : ∀ base : CanonicalState,
      ∀ after, after = (recordAttributed (attribution state event) persisted.event
        base).remember persisted.event →
      after.books = base.books ∧ after.markets = base.markets ∧
        after.catalogRevision = base.catalogRevision ∧
        after.unresolvedGaps = base.unresolvedGaps ∧
        after.quarantinedTokenIds = base.quarantinedTokenIds ∧
        after.ready = base.ready := by
    rintro base after rfl
    unfold recordAttributed
    cases attribution state event <;> exact ⟨rfl, rfl, rfl, rfl, rfl, rfl⟩
  exact same _ next phases.next_eq

/-- The metadata of a step leaves the recoveries alone. -/
theorem next_recovery :
    next.marketRecoveryTokenIds = phases.settled.state.marketRecoveryTokenIds := by
  have same : ∀ base after : CanonicalState,
      after = (recordAttributed (attribution state event) persisted.event
        base).remember persisted.event →
      after.marketRecoveryTokenIds = base.marketRecoveryTokenIds := by
    rintro base after rfl
    unfold recordAttributed
    cases attribution state event <;> rfl
  exact same (phases.settled.state.assessReadiness phases.consistent phases.settled.rejected)
    next phases.next_eq

end

variable (phases : Phases platform enforce state event next persisted) {market : MarketRecord}
  {marketId : String}

section

variable (invariant : Invariant state)
  (known : phases.settled.state.markets[marketId]? = some market) (active : market.isActive = true)
include invariant known active

/-- The status of an active market is the one it settled with. -/
theorem status?_next :
    next.status? marketId = phases.settled.state.status? marketId := by
  have recorded : (phases.settled.state.status? marketId).isSome = true := by
    unfold CanonicalState.status?
    rw [isSome_map]
    exact (phases.invariant_settled invariant).health marketId market known active
  refine (congrArg (fun after : CanonicalState => after.status? marketId) phases.next_eq).trans ?_
  exact status?_recordAttributed (attribution state event) persisted.event
    (phases.settled.state.assessReadiness phases.consistent phases.settled.rejected)
    marketId recorded

/-- An active market is public after a step exactly when it settled so. -/
theorem marketIsPublic_next :
    next.marketIsPublic marketId = phases.settled.state.marketIsPublic marketId := by
  rw [Bool.eq_iff_iff, marketIsPublic_iff, marketIsPublic_iff,
    phases.status?_next invariant known active]

end

end Phases

variable {market : MarketRecord}

theorem mem_publicMarkets (keyed : state.Keyed) :
    market ∈ state.publicMarkets ↔
      state.markets[market.marketId]? = some market ∧ market.isActive = true ∧
        state.marketIsPublic market.marketId = true := by
  unfold publicMarkets
  rw [List.mem_filter, mem_activeMarkets]
  constructor
  · rintro ⟨⟨⟨marketId, known⟩, active⟩, isPublic⟩
    rw [keyed marketId market known]
    refine ⟨known, active, ?_⟩
    rw [← keyed marketId market known]
    exact isPublic
  · rintro ⟨known, active, isPublic⟩
    exact ⟨⟨⟨market.marketId, known⟩, active⟩, isPublic⟩

variable {marketId : String} {tokenId : String}

/-- The books that a ready state requires of its public markets. -/
theorem exists_twoSided (keyed : state.Keyed) (twoSided : state.activeMarketBooksTwoSided = true)
    (installed : state.catalogRevision.isSome = true)
    (known : state.markets[marketId]? = some market) (active : market.isActive = true)
    (isPublic : state.marketIsPublic marketId = true) (mem : tokenId ∈ market.tokenIds) :
    ∃ book, state.books[tokenId]? = some book ∧ book.bids.isEmpty = false ∧
      book.asks.isEmpty = false := by
  obtain rfl := keyed marketId market known
  have listed := (mem_publicMarkets keyed).mpr ⟨known, active, isPublic⟩
  obtain ⟨revision, revised⟩ := isSome_iff_exists.mp installed
  unfold CanonicalState.activeMarketBooksTwoSided at twoSided
  simp only [revised, isNone_some, Bool.false_or, List.all_eq_true] at twoSided
  obtain ⟨book, present, sides⟩ := (any_eq_true _ _).mp (twoSided market listed tokenId mem)
  simp only [and_eq_true, not_eq_true'] at sides
  exact ⟨book, present, sides⟩

/-- Active markets are public only by a ready record. -/
theorem Invariant.ready_of_marketIsPublic
    (invariant : Invariant state) (known : state.markets[marketId]? = some market)
    (active : market.isActive = true) (isPublic : state.marketIsPublic marketId = true) :
    state.status? marketId = some .ready := by
  rcases marketIsPublic_iff.mp isPublic with absent | ready
  · have recorded := invariant.health marketId market known active
    rw [map_eq_none_iff.mp absent] at recorded
    cases recorded
  · exact ready

variable {platform : Platform} {persisted : PersistedEvent}

/-- With consistent ticks, the books of a public market carry the tick of its
facts. -/
theorem Phases.priced_of_settled
    (phases : Phases platform enforce state event next persisted) (invariant : Invariant state)
    (consistent : phases.consistent = true)
    (known : phases.settled.state.markets[marketId]? = some market)
    (active : market.isActive = true)
    (isPublic : phases.settled.state.marketIsPublic marketId = true)
    (priced : market.instrumentFacts = some facts) (mem : tokenId ∈ market.tokenIds) :
    ∃ book, phases.settled.state.books[tokenId]? = some book ∧
      book.tickSize = some facts.priceIncrement := by
  obtain ⟨sameBooks, sameMarkets, sameCatalog⟩ := phases.settled_frame
  have settledInvariant := phases.invariant_settled invariant
  have ready := settledInvariant.ready_of_marketIsPublic known active isPublic
  rcases phases.ready_of_settled ready with wasReady | executable
  · -- The market was ready when the ticks were reconciled.
    have installed : phases.localized.state.catalogRevision.isSome = true := by
      rw [← sameCatalog]
      cases revised : phases.settled.state.catalogRevision with
      | some _ => rfl
      | none =>
        rw [settledInvariant.bare revised] at known
        cases known
    rw [sameMarkets] at known
    rcases phases.reconciliation.agreed consistent installed
        (phases.invariant_localized invariant).keyed marketId market facts known active priced
      with ⟨versions, common⟩ | ⟨hidden, _⟩
    · obtain ⟨book, present, tick, _⟩ := tickSize_of_commonTick common mem
      rw [sameBooks]
      exact ⟨book, present, tick⟩
    · have visible := marketIsPublic_iff.mpr (.inr wasReady)
      rw [hidden] at visible
      cases visible
  · obtain ⟨other, alsoKnown, books⟩ := exists_executable executable
    rw [known] at alsoKnown
    cases alsoKnown
    obtain ⟨book, present, _, tick⟩ := books.book tokenId mem
    exact ⟨book, present, tick facts priced⟩

/-- A step that publishes readiness grounds it. -/
theorem Phases.readinessGrounded {state next : CanonicalState}
    (phases : Phases platform enforce state event next persisted) (invariant : Invariant state)
    (ready : next.ready = true) :
    ReadinessGrounded next := by
  obtain ⟨sameBooks, sameMarkets, sameCatalog, sameGaps, _, readyEq⟩ := phases.next_frame
  have settledInvariant := phases.invariant_settled invariant
  have nextInvariant := phases.invariant_next invariant
  rw [readyEq] at ready
  simp only [CanonicalState.readiness, and_eq_true, beq_iff_eq, Finset.card_eq_zero] at ready
  obtain ⟨⟨⟨⟨noGap, usable⟩, _⟩, consistent⟩, twoSided⟩ := ready
  refine ⟨by rw [sameGaps, noGap], ?_, ?_⟩
  · unfold CanonicalState.usableProjection at usable
    split at usable
    · rename_i bare
      rw [not_eq_true', TreeMap.isEmpty_false_iff] at usable
      rw [sameCatalog, sameBooks]
      exact .inl ⟨isNone_iff_eq_none.mp bare, usable⟩
    · rw [not_eq_true', List.isEmpty_eq_false_iff_exists_mem] at usable
      obtain ⟨market, listed⟩ := usable
      obtain ⟨known, active, isPublic⟩ := (mem_publicMarkets settledInvariant.keyed).mp listed
      refine .inr ⟨market.marketId, market, ?_, active, ?_⟩
      · rw [sameMarkets]
        exact known
      · rw [phases.marketIsPublic_next invariant known active]
        exact isPublic
  · intro marketId market known active isPublic
    have installed : next.catalogRevision.isSome = true := by
      cases revised : next.catalogRevision with
      | some _ => rfl
      | none =>
        rw [nextInvariant.bare revised] at known
        cases known
    have knownSettled := known
    rw [sameMarkets] at knownSettled
    rw [phases.marketIsPublic_next invariant knownSettled active] at isPublic
    have settledInstalled := installed
    rw [sameCatalog] at settledInstalled
    constructor
    · intro tokenId mem
      obtain ⟨book, present, bids, asks⟩ := exists_twoSided settledInvariant.keyed twoSided
        settledInstalled knownSettled active isPublic mem
      rw [← sameBooks] at present
      exact ⟨book, present, (nextInvariant.booksWellFormed tokenId book present).quotable bids asks⟩
    · intro facts priced tokenId mem
      obtain ⟨book, present, tick⟩ := phases.priced_of_settled invariant consistent
        knownSettled active isPublic priced mem
      rw [← sameBooks] at present
      exact ⟨book, present, tick⟩

/-! ## Runs -/

/-- What every state of a run from the empty scope keeps. -/
structure Held (state : CanonicalState) : Prop where
  invariant : Invariant state
  grounded : state.ready = true → ReadinessGrounded state

theorem Held.bootstrap (scopeId : String) : Held (.bootstrap scopeId) where
  invariant := invariant_bootstrap scopeId
  grounded := fun ready => by cases ready

theorem Held.next {state next : CanonicalState}
    (held : Held state) (evaluates : Evaluates platform enforce state label next) :
    Held next := by
  obtain ⟨validateRawPayload, evaluated⟩ := evaluates
  obtain ⟨phases⟩ := phases_of_evaluateEvent evaluated
  exact ⟨phases.invariant_next held.invariant, phases.readinessGrounded held.invariant⟩

variable {labels : List EvaluatedEvent}

theorem EvaluationRun.held
    (run : EvaluationRun platform enforce (.bootstrap scopeId) labels state) :
    Held state :=
  Run.preserves (fun _ _ _ held evaluates => held.next evaluates) run (Held.bootstrap scopeId)

/-- Readiness is sound in every run whose catalogs keep quarantined tokens out
of the markets that stay ready. -/
theorem readinessSound_of_run
    (run : EvaluationRunWhere (KeepsReadyClear enforce) platform
      enforce (.bootstrap scopeId) labels state)
    (ready : state.ready = true) :
    ReadinessSound state := by
  have preserved : ∀ (before : CanonicalState) (label : EvaluatedEvent)
      (after : CanonicalState), Held before ∧ before.ReadyClear →
        Evaluates platform enforce before label after ∧
          KeepsReadyClear enforce before label.event → Held after ∧ after.ReadyClear := by
    rintro before label after ⟨held, clear⟩ ⟨evaluates, keeps⟩
    refine ⟨held.next evaluates, ?_⟩
    obtain ⟨validateRawPayload, evaluated⟩ := evaluates
    obtain ⟨phases⟩ := phases_of_evaluateEvent evaluated
    exact phases.readyClear_next held.invariant clear keeps
  obtain ⟨held, clear⟩ := Run.preserves preserved run
    ⟨Held.bootstrap scopeId, CanonicalState.ReadyClear.bootstrap scopeId⟩
  refine ⟨held.grounded ready, ?_⟩
  intro marketId tokenId active isPublic
  have listed := active
  obtain ⟨market, known, isActive, _⟩ := listed
  exact clear marketId tokenId active
    (held.invariant.ready_of_marketIsPublic known isActive isPublic)

/-- Every ready projection that a writer publishes from the empty scope on is
soundly ready, when its catalogs keep quarantined tokens out of the markets that
stay ready. -/
theorem readinessSound_of_published
    {L : Type} (platform : Platform) (durable : DurableLog L) (scopeId : String) (now : DateTime)
    (writer final : SingleWriter L) (commands : List (Command × Except Failure (List ApplyOutcome)))
    (bootstrapped : writer.current = .bootstrap scopeId now)
    (run : Run (SingleWriter.StepWhere (KeepsReadyClear writer.enforceSourceFreshness)
      platform durable) writer commands final)
    (ready : final.current.ready = true) :
    ReadinessSound final.current.toCanonicalState := by
  obtain ⟨_, labels, evaluations⟩ := SingleWriter.run_evaluates run
  rw [bootstrapped] at evaluations
  exact readinessSound_of_run evaluations ready

/-! ## A run that ends ready with a quarantined token -/

/-- Two markets with both of their books, and a fault in the first market. -/
def sampleFault : List EventKind :=
  [.catalogSnapshot "c1" [sampleMarket "m1" "t1" "t2", sampleMarket "m2" "t3" "t4"] [],
   sampleFullBook "t1",
   sampleFullBook "t2",
   sampleFullBook "t3",
   sampleFullBook "t4",
   .sourceGap "t1" "upstream_disconnected"]

/-- A catalog in which the two markets have exchanged their tokens. -/
def sampleExchange : List EventKind :=
  sampleFault ++
    [.catalogSnapshot "c2" [sampleMarket "m1" "t3" "t4", sampleMarket "m2" "t1" "t2"] []]

/-- The first market loses its ready status with its token, and the second one
is listed with a quarantined token while it stays ready. -/
theorem ready_with_quarantined_token :
    ¬∀ (commands : List (Command × Except Failure (List ApplyOutcome))) (final : SingleWriter Unit),
      Run (SingleWriter.Step samplePlatform sampleLog) sampleWriter commands final →
        final.current.ready = true → ReadinessSound final.current.toCanonicalState := by
  intro sound
  have run := SingleWriter.executeAll_run samplePlatform sampleLog sampleWriter
    (sampleCommands sampleExchange)
  have reached : ∃ final : CanonicalState,
      (SingleWriter.executeAll samplePlatform sampleLog sampleWriter
        (sampleCommands sampleExchange)).2.current.toCanonicalState = final ∧
      (final.ready && final.markets["m2"]? == some (sampleMarket "m2" "t1" "t2") &&
        final.marketIsPublic "m2" && decide ("t1" ∈ final.quarantinedTokenIds)) = true :=
    ⟨_, rfl, by decide +kernel⟩
  obtain ⟨final, same, observed⟩ := reached
  simp only [and_eq_true, beq_iff_eq, decide_eq_true_eq] at observed
  obtain ⟨⟨⟨ready, listed⟩, isPublic⟩, quarantined⟩ := observed
  have unsound := sound _ _ run (by rw [same]; exact ready)
  rw [same] at unsound
  exact unsound.clear "m2" "t1" ⟨_, listed, rfl, by decide⟩ isPublic quarantined

/-- The fault alone leaves the projection ready, and soundly so. -/
theorem readinessSound_of_sampleFault :
    ReadinessSound (SingleWriter.executeAll samplePlatform sampleLog sampleWriter
      (sampleCommands sampleFault)).2.current.toCanonicalState :=
  readinessSound_of_published samplePlatform sampleLog "scope" 0 sampleWriter _ _ rfl
    (SingleWriter.executeAll_runWhere (by decide +kernel))
    (by decide +kernel)

end MarketCow.Core
