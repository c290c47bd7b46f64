import MarketCow.Core.MarketStep

/-!
# Isolation of market faults

An event of one market changes no record of another market. It also leaves a
ready projection ready, as long as another market is public, with one exception:
a stored full book that moves the tick of a public market away from its facts.
-/

namespace MarketCow.Core

open Library Option MarketRecord CanonicalState
open CanonicalState (bootstrap readiness status?)

/-! ## What a step keeps outside one market -/

/-- Nothing outside a market and its tokens changes. -/
structure OutsideKept
    (marketId tokenId : String) (before after : CanonicalState) : Prop where
  expected : expectedTokens after marketId = expectedTokens before marketId
  health : ∀ other, other ≠ marketId → after.marketHealth[other]? = before.marketHealth[other]?
  recovery : ∀ other, other ≠ marketId →
    after.marketRecoveryTokenIds[other]? = before.marketRecoveryTokenIds[other]?
  books : ∀ other, other ≠ tokenId → after.books[other]? = before.books[other]?
  quarantine : ∀ other, other ≠ tokenId → other ∉ expectedTokens before marketId →
    (other ∈ after.quarantinedTokenIds ↔ other ∈ before.quarantinedTokenIds)
  tokenHealth : ∀ other, other ≠ tokenId → other ∉ expectedTokens before marketId →
    after.tokenHealth[other]? = before.tokenHealth[other]?

namespace OutsideKept

variable {marketId tokenId : String} {before middle after : CanonicalState}

theorem trans (first : OutsideKept marketId tokenId before middle)
    (second : OutsideKept marketId tokenId middle after) :
    OutsideKept marketId tokenId before after := by
  refine ⟨second.expected.trans first.expected, ?_, ?_, ?_, ?_, ?_⟩
  · intro other ne
    rw [second.health other ne, first.health other ne]
  · intro other ne
    rw [second.recovery other ne, first.recovery other ne]
  · intro other ne
    rw [second.books other ne, first.books other ne]
  · intro other ne unexpected
    rw [second.quarantine other ne (by rwa [first.expected]),
      first.quarantine other ne unexpected]
  · intro other ne unexpected
    rw [second.tokenHealth other ne (by rwa [first.expected]),
      first.tokenHealth other ne unexpected]

theorem of_marketLocal (frame : MarketLocal marketId tokenId before after) :
    OutsideKept marketId tokenId before after :=
  { frame with
    expected := MarketLocal.expectedTokens_eq frame.markets marketId
    health := frame.marketHealth
    books := fun _ _ => by rw [frame.books] }

/-- A phase that keeps all of these maps but the market identities. -/
theorem of_identity
    (identity : ∀ marketId : String,
      after.markets[marketId]?.map MarketRecord.identity =
        before.markets[marketId]?.map MarketRecord.identity)
    (sameBooks : after.books = before.books)
    (sameHealth : after.marketHealth = before.marketHealth)
    (sameRecovery : after.marketRecoveryTokenIds = before.marketRecoveryTokenIds)
    (sameQuarantine : after.quarantinedTokenIds = before.quarantinedTokenIds)
    (sameTokenHealth : after.tokenHealth = before.tokenHealth) :
    OutsideKept marketId tokenId before after where
  expected := expectedTokens_of_identity identity marketId
  health := fun _ _ => by rw [sameHealth]
  recovery := fun _ _ => by rw [sameRecovery]
  books := fun _ _ => by rw [sameBooks]
  quarantine := fun _ _ _ => by rw [sameQuarantine]
  tokenHealth := fun _ _ _ => by rw [sameTokenHealth]

end OutsideKept

variable {state : CanonicalState} {event : CanonicalEvent}

/-- The market identities and the quarantines of an admitted state. -/
theorem outsideKept_admittedState {marketId : String}
    (named : eventMarketId state event.kind = some marketId) (tokenId : String) :
    OutsideKept marketId tokenId state (admittedState state event) := by
  obtain ⟨health, shape, foreign, _⟩ := admittedState_eq state event
  rw [shape]
  refine ⟨rfl, ?_, fun _ _ => rfl, fun _ _ => rfl, fun _ _ _ => .rfl, fun _ _ _ => rfl⟩
  intro other ne
  exact foreign other fun same => ne (some.inj (same.symm.trans named))

namespace Phases

variable {platform : Platform} {enforce : Bool} {state next : CanonicalState}
  {event : CanonicalEvent} {persisted : PersistedEvent} {market : Attribution}
  (phases : Phases platform enforce state event next persisted)

section

variable (attributed : attribution state event = some market)
  (tokenEvent : event.kind.isTokenEvent = true)
include attributed tokenEvent

theorem outsideKept_localized :
    OutsideKept market.marketId event.kind.tokenId state phases.localized.state := by
  obtain ⟨marketId, named, shape⟩ := attribution_eq_some_iff.mp attributed
  have sameMarket : market.marketId = marketId := by
    rw [shape]
    rfl
  rw [← sameMarket] at named
  have admitted := outsideKept_admittedState named event.kind.tokenId
  have decided : OutsideKept market.marketId event.kind.tokenId (admittedState state event)
      phases.decision.state := by
    obtain ⟨books, gaps, decisionShape, kept, _⟩ :=
      decision_of_isTokenEvent phases.decided tokenEvent
    rw [decisionShape]
    exact ⟨rfl, fun _ _ => rfl, fun _ _ => rfl, kept, fun _ _ _ => .rfl, fun _ _ _ => rfl⟩
  have localized : OutsideKept market.marketId event.kind.tokenId phases.decision.state
      phases.localized.state := by
    have localization := phases.localization
    rw [attributed] at localization
    rw [← phases.stored_tokenId]
    exact .of_marketLocal (marketLocal_of_localization localization)
  exact admitted.trans (decided.trans localized)

theorem outsideKept_settled :
    OutsideKept market.marketId event.kind.tokenId state phases.settled.state := by
  have localized := phases.outsideKept_localized attributed tokenEvent
  have reconciled : OutsideKept market.marketId event.kind.tokenId phases.localized.state
      phases.reconciled := by
    have only := phases.reconciliation.onlyMarkets
    refine .of_identity phases.reconciliation.identity ?_ ?_ ?_ ?_ ?_ <;> rw [only]
  have settled : OutsideKept market.marketId event.kind.tokenId phases.reconciled
      phases.settled.state := by
    rw [← phases.stored_tokenId]
    exact .of_marketLocal (marketLocal_of_settlement (phases.settlement market attributed))
  exact localized.trans (reconciled.trans settled)

end

/-- A step changes nothing outside the market of its event. -/
theorem outsideKept_next (phases : Phases platform enforce state event next persisted)
    (attributed : attribution state event = some market)
    (tokenEvent : event.kind.isTokenEvent = true) :
    OutsideKept market.marketId event.kind.tokenId state next := by
  refine (phases.outsideKept_settled attributed tokenEvent).trans ?_
  have same : ∀ (base : CanonicalState) (rejected : Option String),
      ∀ after, after = (recordAttributed (some market) persisted.event
        (base.assessReadiness phases.consistent rejected)).remember persisted.event →
      OutsideKept market.marketId event.kind.tokenId base after := by
    rintro base rejected after rfl
    have frame : OutsideKept market.marketId event.kind.tokenId _ _ := .of_marketLocal
      (marketLocal_upsertHealth (base.assessReadiness phases.consistent rejected)
        market.marketId event.kind.tokenId base.catalogRevision
        (MarketProjectionHealth.recordEvent base market.marketSequence persisted.event))
    exact ⟨frame.expected, frame.health, frame.recovery, frame.books, frame.quarantine,
      frame.tokenHealth⟩
  have nextEq := phases.next_eq
  rw [attributed] at nextEq
  exact same _ _ next nextEq

section

variable (attributed : attribution state event = some market)
include attributed

/-- Up to its localization a step keeps the catalog. -/
theorem localized_catalog (tokenEvent : event.kind.isTokenEvent = true) :
    phases.localized.state.markets = state.markets ∧
      phases.localized.state.catalogRevision = state.catalogRevision := by
  obtain ⟨health, admittedShape, _, _⟩ := admittedState_eq state event
  obtain ⟨books, gaps, decisionShape, _, _⟩ := decision_of_isTokenEvent phases.decided tokenEvent
  have localization := phases.localization
  rw [attributed] at localization
  have frame := marketLocal_of_localization localization
  rw [frame.markets, frame.catalogRevision, decisionShape, admittedShape]
  exact ⟨rfl, rfl⟩

/-! ## Gaps and statuses -/

section

variable (recoverable : event.kind.isLocallyRecoverable = true)
include recoverable

/-- A fault stays with its market; anything else is left as it was decided. -/
theorem localized_of_recoverable :
    (∃ reason, phases.decision.rejected = some reason ∧
        phases.localized.state =
          quarantineMarket phases.decision.state market.marketId event.kind.tokenId
            market.marketSequence reason persisted.event) ∨
      (phases.localized.state = phases.decision.state ∧ phases.decision.rejected = none ∧
        phases.localized.isOpen = true) := by
  have localization := phases.localization
  have sameToken := phases.stored_tokenId
  have stored := phases.stored_isLocallyRecoverable
  rw [attributed] at localization
  generalize phases.localized = localized at localization
  cases localization with
  | @fault faulty reason same rejected _ =>
    cases same
    rw [sameToken]
    exact .inl ⟨reason, rejected, rfl⟩
  | passed open_ =>
    rcases open_ with unattributed | accepted | global
    · cases unattributed
    · refine .inr ⟨rfl, accepted, ?_⟩
      simp [Assessment.isOpen, accepted]
    · rw [stored, recoverable] at global
      cases global

/-- Without a gap before the step, no gap is left when the market has settled. -/
theorem settled_noGap
    (noGap : state.unresolvedGaps = ∅) :
    phases.settled.state.unresolvedGaps = ∅ := by
  obtain ⟨health, admittedShape, _, _⟩ := admittedState_eq state event
  have admitted : (admittedState state event).unresolvedGaps = ∅ := by
    rw [admittedShape]
    exact noGap
  have localized : phases.localized.state.unresolvedGaps = ∅ := by
    rw [Finset.eq_empty_iff_forall_notMem]
    intro gap
    rcases phases.localized_of_recoverable attributed recoverable with
      ⟨reason, _, fault⟩ | ⟨same, accepted, _⟩
    · obtain ⟨books, gaps, decisionShape, _, kept⟩ := decision_of_isTokenEvent
        phases.decided (isTokenEvent_of_isLocallyRecoverable recoverable)
      rw [fault, decisionShape]
      intro mem
      obtain ⟨ne, inGaps⟩ := Finset.mem_erase.mp
        (show gap ∈ gaps.erase event.kind.tokenId from mem)
      rw [kept gap ne, admitted] at inGaps
      exact Finset.notMem_empty gap inGaps
    · rw [same]
      intro mem
      have before := (book_of_accepted phases.decided recoverable accepted).1 mem
      rw [admitted] at before
      exact Finset.notMem_empty gap before
  have frame := marketLocal_of_settlement (phases.settlement market attributed)
  have shrunk := frame.noNewGap
  rw [phases.reconciliation.onlyMarkets] at shrunk
  exact Finset.subset_empty.mp (localized ▸ shrunk)

/-- A market that settles ready has executable books. -/
theorem executable_of_settled_ready
    (ready : phases.settled.state.status? market.marketId = some .ready) :
    marketBooksAreExecutable phases.settled.state market.marketId = true := by
  rcases ready_of_settlement (phases.settlement market attributed) ready with
    ⟨wasReady, same, complete⟩ | executable
  · have sameStatus : phases.reconciled.status? market.marketId =
        phases.localized.state.status? market.marketId := by
      rw [phases.reconciliation.onlyMarkets]
      rfl
    rw [sameStatus] at wasReady
    rcases phases.localized_of_recoverable attributed recoverable with
      ⟨reason, _, fault⟩ | ⟨passed, _, open_⟩
    · rw [fault, status?_quarantineMarket] at wasReady
      cases wasReady
    · have previous : market.previousMarketStatus = some .ready := by
        obtain ⟨marketId, _, shape⟩ := attribution_eq_some_iff.mp attributed
        obtain ⟨books, gaps, decisionShape, _, _⟩ := decision_of_isTokenEvent
          phases.decided (isTokenEvent_of_isLocallyRecoverable recoverable)
        rw [passed, decisionShape] at wasReady
        rw [shape] at wasReady ⊢
        exact wasReady
      rw [same]
      exact complete open_ previous (phases.stored_isLocallyRecoverable.trans recoverable)
  · exact executable

end

end

end Phases

/-! ## Ticks -/

variable {market : MarketRecord}

/-- Two books at one versioned tick have it in common. -/
theorem exists_commonTick
    (ticked : ∀ tokenId ∈ market.tokenIds, ∃ book,
      state.books[tokenId]? = some book ∧ book.tickSize = some tick ∧
        book.tickVersion.isEmpty = false) :
    ∃ versions, commonTick state market = some (tick, versions) := by
  obtain ⟨first, firstPresent, firstTick, firstVersion⟩ :=
    ticked market.outcomes.first.tokenId (mem_tokenIds.mpr (.inl rfl))
  obtain ⟨second, secondPresent, secondTick, secondVersion⟩ :=
    ticked market.outcomes.second.tokenId (mem_tokenIds.mpr (.inr rfl))
  refine ⟨(first.tickVersion, second.tickVersion), ?_⟩
  simp [commonTick, firstPresent, secondPresent, Book.tick?, firstTick, secondTick,
    firstVersion, secondVersion]

/-- A stored full book moves the tick of a public market away from its facts. -/
def movesPublicTick (enforce : Bool) (state : CanonicalState) (event : CanonicalEvent) : Bool :=
  (storedTick? enforce state event).any fun tick =>
    state.publicMarkets.any fun market =>
      market.hasToken event.kind.tokenId &&
        market.instrumentFacts.any fun facts => tick != facts.priceIncrement

theorem movesPublicTick_iff (keyed : state.Keyed) :
    movesPublicTick enforce state event = true ↔
      ∃ (tick : Price) (market : MarketRecord) (facts : MarketInstrumentFacts),
        storedTick? enforce state event = some tick ∧
        state.markets[market.marketId]? = some market ∧ market.isActive = true ∧
        state.marketIsPublic market.marketId = true ∧
        event.kind.tokenId ∈ market.tokenIds ∧ market.instrumentFacts = some facts ∧
        tick ≠ facts.priceIncrement := by
  unfold movesPublicTick
  simp only [any_eq_true, List.any_eq_true, and_eq_true, bne_iff_ne, ne_eq,
    mem_publicMarkets keyed, hasToken_iff]
  constructor
  · rintro ⟨tick, stored, market, ⟨known, active, isPublic⟩, mem, facts, priced, moved⟩
    exact ⟨tick, market, facts, stored, known, active, isPublic, mem, priced, moved⟩
  · rintro ⟨tick, market, facts, stored, known, active, isPublic, mem, priced, moved⟩
    exact ⟨tick, stored, market, ⟨known, active, isPublic⟩, mem, facts, priced, moved⟩

/-- One of two distinct tokens is not the given one. -/
theorem exists_other_token
    (distinct : market.outcomes.first.tokenId ≠ market.outcomes.second.tokenId) (tokenId : String) :
    ∃ other ∈ market.tokenIds, other ≠ tokenId := by
  by_cases first : market.outcomes.first.tokenId = tokenId
  · refine ⟨market.outcomes.second.tokenId, mem_tokenIds.mpr (.inr rfl), ?_⟩
    rw [← first]
    exact distinct.symm
  · exact ⟨_, mem_tokenIds.mpr (.inl rfl), first⟩

/-- The market of a token event owns the token. -/
theorem owner_of_attribution (invariant : Invariant state) {market : Attribution}
    (attributed : attribution state event = some market)
    (tokenEvent : event.kind.isTokenEvent = true) :
    ∃ record, state.markets[market.marketId]? = some record ∧
      event.kind.tokenId ∈ record.tokenIds := by
  obtain ⟨marketId, named, rfl⟩ := attribution_eq_some_iff.mp attributed
  exact mem_of_eventMarketId invariant.keyed named tokenEvent

@[simp] theorem storedTick?_admittedState
    (enforce : Bool) (state : CanonicalState) (event : CanonicalEvent) :
    storedTick? enforce (admittedState state event) event = storedTick? enforce state event := by
  obtain ⟨health, shape, _, _⟩ := admittedState_eq state event
  rw [shape]
  rfl

namespace Phases

variable {platform : Platform} {enforce : Bool} {state next : CanonicalState}
  {event : CanonicalEvent} {persisted : PersistedEvent} {market : MarketRecord}
  (phases : Phases platform enforce state event next persisted) {marketId : String}

/-- The status of an active market only changes by a fault until the ticks are
reconciled. -/
theorem localized_status
    (invariant : Invariant state) (recoverable : event.kind.isLocallyRecoverable = true)
    (passed : phases.localized.state = phases.decision.state)
    (known : state.markets[marketId]? = some market) (active : market.isActive = true) :
    phases.localized.state.status? marketId = state.status? marketId := by
  obtain ⟨health, admittedShape, _, kept⟩ := admittedState_eq state event
  obtain ⟨books, gaps, decisionShape, _, _⟩ := decision_of_isTokenEvent phases.decided
    (isTokenEvent_of_isLocallyRecoverable recoverable)
  have same := kept marketId (invariant.health marketId market known active)
  rw [passed, decisionShape, admittedShape]
  exact congrArg (Option.map MarketProjectionHealth.projectionStatus) same

variable {tokenId : String}

/-- The books of a market in the decided state: those before the step, but for
the token of the event. -/
theorem decision_books_other
    (tokenEvent : event.kind.isTokenEvent = true) (ne : tokenId ≠ event.kind.tokenId) :
    phases.decision.state.books[tokenId]? = state.books[tokenId]? := by
  obtain ⟨health, admittedShape, _, _⟩ := admittedState_eq state event
  obtain ⟨books, gaps, decisionShape, kept, _⟩ := decision_of_isTokenEvent phases.decided tokenEvent
  rw [decisionShape]
  refine (kept tokenId ne).trans ?_
  rw [admittedShape]
  rfl

variable {attributed : Attribution}

section

variable (invariant : Invariant state)
include invariant

section

variable (grounded : ReadinessGrounded state)
include grounded

section

variable (attribution_eq : attribution state event = some attributed)
include attribution_eq

section

variable (recoverable : event.kind.isLocallyRecoverable = true)
include recoverable

/-- Every public market with facts keeps its common tick, unless a stored full
book moves it. -/
theorem exists_commonTick_localized
    (unmoved : movesPublicTick enforce state event = false) {facts : MarketInstrumentFacts}
    (known : state.markets[marketId]? = some market) (active : market.isActive = true)
    (isPublic : phases.localized.state.marketIsPublic marketId = true)
    (priced : market.instrumentFacts = some facts) :
    ∃ versions, commonTick phases.localized.state market =
      some (facts.priceIncrement, versions) := by
  have tokenEvent := isTokenEvent_of_isLocallyRecoverable recoverable
  have localizedInvariant := phases.invariant_localized invariant
  have owner := owner_of_attribution invariant attribution_eq tokenEvent
  have ticked : ∀ tokenId ∈ market.tokenIds, ∃ book,
      phases.localized.state.books[tokenId]? = some book ∧
        book.tickSize = some facts.priceIncrement := by
    intro tokenId mem
    have frame := phases.outsideKept_localized attribution_eq tokenEvent
    by_cases here : marketId = attributed.marketId
    · subst here
      rcases phases.localized_of_recoverable attribution_eq recoverable with
        ⟨reason, _, fault⟩ | ⟨passed, accepted, _⟩
      · rw [fault, marketIsPublic_iff, status?_quarantineMarket] at isPublic
        simp at isPublic
      · have sameStatus := phases.localized_status invariant recoverable passed known active
        rw [marketIsPublic_iff, sameStatus, ← marketIsPublic_iff] at isPublic
        obtain ⟨book, present, tick⟩ := (grounded.quoted attributed.marketId market known active
          isPublic).priced facts priced tokenId mem
        rw [passed]
        by_cases named : tokenId = event.kind.tokenId
        · subst named
          have admittedBook :
              (admittedState state event).books[event.kind.tokenId]? = some book := by
            obtain ⟨health, shape, _, _⟩ := admittedState_eq state event
            rw [shape]
            exact present
          obtain ⟨after, stored, afterTick⟩ :=
            (book_of_accepted phases.decided recoverable accepted).2 book admittedBook
          refine ⟨after, stored, ?_⟩
          rw [storedTick?_admittedState] at afterTick
          cases moved : storedTick? enforce state event with
          | none =>
            rw [moved] at afterTick
            exact afterTick.trans tick
          | some newTick =>
            rw [moved] at afterTick
            refine afterTick.trans (congrArg some ?_)
            by_contra ne
            rw [← not_eq_true, movesPublicTick_iff invariant.keyed] at unmoved
            have keyed := invariant.keyed _ market known
            rw [← keyed] at known isPublic
            exact unmoved ⟨newTick, market, facts, moved, known, active, isPublic, mem,
              priced, ne⟩
        · rw [phases.decision_books_other tokenEvent named]
          exact ⟨book, present, tick⟩
    · have sameStatus : phases.localized.state.status? marketId = state.status? marketId := by
        unfold status?
        rw [frame.health marketId here]
      rw [marketIsPublic_iff, sameStatus, ← marketIsPublic_iff] at isPublic
      obtain ⟨book, present, tick⟩ :=
        (grounded.quoted marketId market known active isPublic).priced facts priced tokenId mem
      obtain ⟨record, owned, ownToken⟩ := owner
      have ne : tokenId ≠ event.kind.tokenId := by
        rintro rfl
        exact here (invariant.disjoint marketId attributed.marketId market record _ known
          owned mem ownToken)
      rw [frame.books tokenId ne]
      exact ⟨book, present, tick⟩
  apply exists_commonTick
  intro tokenId mem
  obtain ⟨book, present, tick⟩ := ticked tokenId mem
  exact ⟨book, present, tick, (localizedInvariant.booksWellFormed tokenId book present).versioned⟩

/-- A stored full book that moves a public tick makes the ticks inconsistent. -/
theorem inconsistent_of_moved
    (moves : movesPublicTick enforce state event = true) :
    phases.consistent = false := by
  have tokenEvent := isTokenEvent_of_isLocallyRecoverable recoverable
  obtain ⟨tick, market, facts, stored, known, active, isPublic, mem, priced, moved⟩ :=
    (movesPublicTick_iff invariant.keyed).mp moves
  obtain ⟨sameMarkets, sameCatalog⟩ := phases.localized_catalog attribution_eq tokenEvent
  rw [← storedTick?_admittedState] at stored
  obtain ⟨moving, movingTick, decided⟩ := decideEvent_of_storedTick? platform stored
  have decision := ok.inj (phases.decision_eq.symm.trans decided)
  have passed : phases.localized.state = phases.decision.state := by
    rcases phases.localized_of_recoverable attribution_eq recoverable with
      ⟨reason, rejected, _⟩ | ⟨passed, _, _⟩
    · rw [decision] at rejected
      cases rejected
    · exact passed
  rw [← not_eq_true]
  intro consistent
  -- The record of the market after the reconciliation still has facts.
  have identity : ∀ marketId : String,
      phases.localized.state.markets[marketId]?.map MarketRecord.identity =
        phases.reconciled.markets[marketId]?.map MarketRecord.identity :=
    fun marketId => (phases.reconciliation.identity marketId).symm
  have knownLocalized := known
  rw [← sameMarkets] at knownLocalized
  obtain ⟨copy, copied, same⟩ := exists_of_identity_eq identity knownLocalized
  have factsKept := isSome_facts_of_identity same
  rw [priced, isSome_some] at factsKept
  obtain ⟨copyFacts, copyPriced⟩ := isSome_iff_exists.mp factsKept
  have installed : phases.localized.state.catalogRevision.isSome = true := by
    rw [sameCatalog]
    cases revised : state.catalogRevision with
    | some _ => rfl
    | none =>
      rw [invariant.bare revised] at known
      cases known
  rcases phases.reconciliation.agreed consistent installed
      (phases.invariant_localized invariant).keyed _ copy copyFacts copied
      ((isActive_of_identity same).trans active) copyPriced with
    ⟨versions, common⟩ | ⟨hidden, _⟩
  · have tickOf : ∀ tokenId ∈ market.tokenIds, ∃ book,
        phases.decision.state.books[tokenId]? = some book ∧
          book.tickSize = some copyFacts.priceIncrement := by
      intro tokenId listed
      rw [← tokenIds_of_identity same] at listed
      obtain ⟨book, present, sized, _⟩ := tickSize_of_commonTick common listed
      rw [passed] at present
      exact ⟨book, present, sized⟩
    -- The token of the event has the new tick, the other token the tick of the facts.
    have newTick : copyFacts.priceIncrement = tick := by
      obtain ⟨book, present, sized⟩ := tickOf _ mem
      rw [decision] at present
      have stored : book = moving := (some.inj (getElem?_insert_self.symm.trans present)).symm
      rw [stored, movingTick] at sized
      exact (some.inj sized).symm
    obtain ⟨other, otherListed, ne⟩ := exists_other_token
      (invariant.distinct _ market known) event.kind.tokenId
    obtain ⟨before, presentBefore, oldTick⟩ :=
      (grounded.quoted _ market known active isPublic).priced facts priced other otherListed
    obtain ⟨book, present, sized⟩ := tickOf other otherListed
    rw [phases.decision_books_other tokenEvent ne, presentBefore] at present
    cases present
    rw [sized] at oldTick
    exact moved (newTick.symm.trans (some.inj oldTick))
  · have visible := isPublic
    rw [marketIsPublic_iff, ← phases.localized_status invariant recoverable passed known active,
      ← marketIsPublic_iff, hidden] at visible
    cases visible

/-- The ticks are consistent unless a stored full book moves a public one. -/
theorem consistent_iff :
    phases.consistent = true ↔ movesPublicTick enforce state event = false := by
  have tokenEvent := isTokenEvent_of_isLocallyRecoverable recoverable
  obtain ⟨sameMarkets, sameCatalog⟩ := phases.localized_catalog attribution_eq tokenEvent
  constructor
  · intro consistent
    rw [← not_eq_true]
    intro moves
    rw [phases.inconsistent_of_moved invariant grounded attribution_eq recoverable moves]
      at consistent
    cases consistent
  · intro unmoved
    by_contra inconsistent
    obtain ⟨_, _, market, listed, facts, isPublic, none⟩ :=
      phases.reconciliation.refused (by simpa using inconsistent)
    obtain ⟨⟨marketId, known⟩, active⟩ := mem_activeMarkets.mp listed
    rw [sameMarkets] at known
    rw [← invariant.keyed marketId market known] at known
    obtain ⟨value, priced⟩ := isSome_iff_exists.mp facts
    obtain ⟨versions, common⟩ := phases.exists_commonTick_localized invariant grounded
      attribution_eq recoverable unmoved known active isPublic priced
    rw [none] at common
    cases common

/-- Every public market settles with both of its books two-sided. -/
theorem twoSided_of_settled
    (listed : market ∈ phases.settled.state.publicMarkets) (mem : tokenId ∈ market.tokenIds) :
    ∃ book, phases.settled.state.books[tokenId]? = some book ∧
      book.bids.isEmpty = false ∧ book.asks.isEmpty = false := by
  have tokenEvent := isTokenEvent_of_isLocallyRecoverable recoverable
  have settledInvariant := phases.invariant_settled invariant
  obtain ⟨known, active, isPublic⟩ := (mem_publicMarkets settledInvariant.keyed).mp listed
  have ready := settledInvariant.ready_of_marketIsPublic known active isPublic
  by_cases here : market.marketId = attributed.marketId
  · rw [here] at known ready
    obtain ⟨other, alsoKnown, executable⟩ := exists_executable
      (phases.executable_of_settled_ready attribution_eq recoverable ready)
    rw [known] at alsoKnown
    cases alsoKnown
    obtain ⟨book, present, quoted, _⟩ := executable.book tokenId mem
    simp only [Book.isExecutable, and_eq_true, not_eq_true'] at quoted
    exact ⟨book, present, quoted.1.1.1.1, quoted.1.1.1.2⟩
  · have frame := phases.outsideKept_settled attribution_eq tokenEvent
    obtain ⟨sameMarkets, _⟩ := phases.localized_catalog attribution_eq tokenEvent
    rw [phases.settled_frame.2.1] at known
    obtain ⟨original, stored, same⟩ := exists_of_identity_eq phases.reconciliation.identity known
    rw [sameMarkets] at stored
    rw [← tokenIds_of_identity same] at mem
    have wasPublic : state.marketIsPublic market.marketId = true := by
      rw [marketIsPublic_iff]
      unfold status? at ready ⊢
      rw [← frame.health market.marketId here]
      exact .inr ready
    obtain ⟨book, present, ⟨bid, ask, bestBid, bestAsk, _⟩, _, _⟩ := (grounded.quoted _ original
      stored ((isActive_of_identity same).trans active) wasPublic).quotable tokenId mem
    obtain ⟨record, owned, ownToken⟩ := owner_of_attribution invariant attribution_eq tokenEvent
    have ne : tokenId ≠ event.kind.tokenId := by
      rintro rfl
      exact here (invariant.disjoint _ attributed.marketId original record _ stored owned
        mem ownToken)
    refine ⟨book, ?_, ?_, ?_⟩
    · rw [frame.books tokenId ne]
      exact present
    · rw [← not_eq_true, ← TreeMap.lastKey?_eq_none_iff, bestBid]
      simp
    · rw [← not_eq_true, ← TreeMap.firstKey?_eq_none_iff, bestAsk]
      simp

/-- A step of one market leaves a ready projection ready exactly when the ticks
stay consistent, as long as another market is public. -/
theorem ready_next_iff
    (ne : otherId ≠ attributed.marketId) (known : state.markets[otherId]? = some other)
    (active : other.isActive = true) (isPublic : state.marketIsPublic otherId = true) :
    next.ready = true ↔ phases.consistent = true := by
  have tokenEvent := isTokenEvent_of_isLocallyRecoverable recoverable
  have settledInvariant := phases.invariant_settled invariant
  obtain ⟨_, _, _, _, _, readyEq⟩ := phases.next_frame
  obtain ⟨_, settledMarkets, settledCatalog⟩ := phases.settled_frame
  obtain ⟨sameMarkets, sameCatalog⟩ := phases.localized_catalog attribution_eq tokenEvent
  rw [readyEq]
  unfold readiness
  constructor
  · intro ready
    simp only [and_eq_true] at ready
    exact ready.1.2
  · intro consistent
    have installed : phases.settled.state.catalogRevision.isNone = false := by
      rw [settledCatalog, sameCatalog, isNone_eq_false_iff]
      cases revised : state.catalogRevision with
      | some _ => rfl
      | none =>
        rw [invariant.bare revised] at known
        cases known
    have usable : phases.settled.state.usableProjection = true := by
      have identity : ∀ marketId : String,
          state.markets[marketId]?.map MarketRecord.identity =
            phases.settled.state.markets[marketId]?.map MarketRecord.identity := by
        intro marketId
        rw [settledMarkets, phases.reconciliation.identity, sameMarkets]
      obtain ⟨copy, copied, same⟩ := exists_of_identity_eq identity known
      have sameName := settledInvariant.keyed otherId copy copied
      have settledPublic : phases.settled.state.marketIsPublic otherId = true := by
        rw [marketIsPublic_iff]
        unfold status?
        rw [(phases.outsideKept_settled attribution_eq tokenEvent).health otherId ne]
        exact marketIsPublic_iff.mp isPublic
      have listed : copy ∈ phases.settled.state.publicMarkets := by
        rw [mem_publicMarkets settledInvariant.keyed, sameName]
        exact ⟨copied, (isActive_of_identity same).trans active, settledPublic⟩
      unfold CanonicalState.usableProjection
      rw [installed, if_neg Bool.false_ne_true, not_eq_true', List.isEmpty_eq_false_iff_exists_mem]
      exact ⟨copy, listed⟩
    have complete : phases.settled.state.catalogBooksComplete = true := by
      unfold CanonicalState.catalogBooksComplete
      simp only [or_eq_true, List.all_eq_true]
      refine .inr fun market listed tokenId mem => ?_
      obtain ⟨book, present, _⟩ := phases.twoSided_of_settled invariant grounded
        attribution_eq recoverable listed mem
      rw [contains_eq_isSome_getElem?, present]
      rfl
    have twoSided : phases.settled.state.activeMarketBooksTwoSided = true := by
      unfold CanonicalState.activeMarketBooksTwoSided
      simp only [or_eq_true, List.all_eq_true]
      refine .inr fun market listed tokenId mem => ?_
      obtain ⟨book, present, bids, asks⟩ := phases.twoSided_of_settled invariant grounded
        attribution_eq recoverable listed mem
      rw [present, any_some, bids, asks]
      rfl
    rw [phases.settled_noGap attribution_eq recoverable grounded.noGap, usable, complete,
      consistent, twoSided]
    rfl

end

end

end

end

end Phases

/-! ## Isolation -/

/-- The records of every other market and of its tokens are as before. -/
structure OthersUntouched
    (marketId : String) (before after : CanonicalState) : Prop where
  health : ∀ other, other ≠ marketId → after.marketHealth[other]? = before.marketHealth[other]?
  tokens : ∀ (other : String) (market : MarketRecord) (tokenId : String),
    other ≠ marketId → before.markets[other]? = some market → tokenId ∈ market.tokenIds →
      after.books[tokenId]? = before.books[tokenId]? ∧
        after.tokenHealth[tokenId]? = before.tokenHealth[tokenId]? ∧
        (tokenId ∈ after.quarantinedTokenIds ↔ tokenId ∈ before.quarantinedTokenIds)

/-- In every reachable ready projection with another public market, an event of
one market leaves the projection ready and the other markets untouched, unless
it stores a full book that moves the tick of a public market. -/
theorem marketFault_isolated_iff
    (platform : Platform) (enforce : Bool) (scopeId marketId otherId : String)
    (labels : List EvaluatedEvent) (state next : CanonicalState) (label : EvaluatedEvent)
    (other : MarketRecord)
    (run : EvaluationRun platform enforce (.bootstrap scopeId) labels state)
    (ready : state.ready = true)
    (evaluates : Evaluates platform enforce state label next)
    (attributed : eventMarketId state label.event.kind = some marketId)
    (recoverable : label.event.kind.isLocallyRecoverable = true)
    (different : otherId ≠ marketId)
    (known : state.markets[otherId]? = some other)
    (active : other.isActive = true)
    (isPublic : state.marketIsPublic otherId = true) :
    (next.ready = true ∧ OthersUntouched marketId state next) ↔
      movesPublicTick enforce state label.event = false := by
  have held := EvaluationRun.held run
  have invariant := held.invariant
  have grounded := held.grounded ready
  obtain ⟨validateRawPayload, evaluated⟩ := evaluates
  obtain ⟨phases⟩ := phases_of_evaluateEvent evaluated
  have attribution_eq : attribution state label.event =
      some (attributeTo (admittedState state label.event) marketId) :=
    attribution_eq_some_iff.mpr ⟨marketId, attributed, rfl⟩
  have tokenEvent := isTokenEvent_of_isLocallyRecoverable recoverable
  have frame : OutsideKept marketId label.event.kind.tokenId state next :=
    phases.outsideKept_next attribution_eq tokenEvent
  have untouched : OthersUntouched marketId state next := by
    refine ⟨frame.health, ?_⟩
    intro foreignId foreign tokenId foreignDifferent foreignKnown member
    have unexpected := invariant.notMem_expectedTokens foreignKnown member foreignDifferent
    obtain ⟨record, owned, ownToken⟩ := owner_of_attribution invariant attribution_eq tokenEvent
    have outside : tokenId ≠ label.event.kind.tokenId := by
      rintro rfl
      exact foreignDifferent (invariant.disjoint foreignId marketId foreign record _
        foreignKnown owned member ownToken)
    exact ⟨frame.books tokenId outside, frame.tokenHealth tokenId outside unexpected,
      frame.quarantine tokenId outside unexpected⟩
  rw [← phases.consistent_iff invariant grounded attribution_eq recoverable,
    ← phases.ready_next_iff invariant grounded attribution_eq recoverable different known
      active isPublic]
  exact ⟨fun both => both.1, fun nextReady => ⟨nextReady, untouched⟩⟩

/-! ## A full book that takes the whole projection down -/

/-- A market with instrument facts at the tick of the sample books. -/
def samplePricedMarket (marketId first second : String) : MarketRecord :=
  { sampleMarket marketId first second with
    instrumentFacts := some
      { priceIncrement := 1 / 4
        sizeIncrement := 1
        minimumOrderSize := 1
        settlementCurrency := "USDC"
        startAt := 0
        endAt := 1
        revision := "facts"
        feeSchedule := none } }

/-- A ready projection of two markets, the first one with instrument facts. -/
def sampleReady : List EvaluatedEvent × CanonicalState :=
  (evaluateAll samplePlatform true (bootstrap "scope")
    (sampleEvents
      [.catalogSnapshot "c1"
        [samplePricedMarket "m1" "t1" "t2", sampleMarket "m2" "t3" "t4"] [],
       sampleFullBook "t1",
       sampleFullBook "t2",
       sampleFullBook "t3",
       sampleFullBook "t4"])).get (by decide +kernel)

/-- The step of one more event in the ready sample projection. -/
def sampleNext (kind : EventKind) : Except Failure (CanonicalState × PersistedEvent) :=
  stepEvent samplePlatform true sampleReady.2 (sampleEvent 6 "6" kind)

/-- A full book of the first market at a new tick. -/
def sampleMovedBook : EventKind :=
  .fullBook "t1" [⟨1 / 2, 1⟩] [⟨1, 1⟩] (1 / 2) "tick-v2"

/-- What the sample steps are about. -/
theorem sampleReady_facts :
    sampleReady.2.ready = true ∧ isNext sampleReady.2 (sampleEvent 6 "6" sampleMovedBook) ∧
      eventMarketId sampleReady.2 (sampleFullBook "t1") = some "m1" ∧
      sampleReady.2.markets["m2"]? = some (sampleMarket "m2" "t3" "t4") ∧
      sampleReady.2.marketIsPublic "m2" = true := by
  decide +kernel

/-- The second market keeps trading in the claim, and the writer stops it. -/
theorem full_book_closes_other_market :
    ¬∀ (marketId otherId : String) (labels : List EvaluatedEvent)
      (state next : CanonicalState) (label : EvaluatedEvent) (other : MarketRecord),
      EvaluationRun samplePlatform true (.bootstrap "scope") labels state → state.ready = true →
        Evaluates samplePlatform true state label next →
        eventMarketId state label.event.kind = some marketId →
        label.event.kind.isLocallyRecoverable = true →
        otherId ≠ marketId →
        state.markets[otherId]? = some other →
        other.isActive = true →
        state.marketIsPublic otherId = true →
        next.ready = true := by
  intro isolated
  obtain ⟨ready, follows, attributed, known, isPublic⟩ := sampleReady_facts
  have closed : (sampleNext sampleMovedBook).toOption.map (fun result => result.1.ready) =
      some false := by
    decide +kernel
  cases stepped : sampleNext sampleMovedBook with
  | error _ => rw [stepped] at closed; cases closed
  | ok result =>
    have opened := isolated "m1" "m2" sampleReady.1 sampleReady.2 result.1
      ⟨sampleEvent 6 "6" sampleMovedBook, result.2⟩ _
      (evaluateAll_run (fun _ => sampleEvents_valid) (some_get _).symm) ready
      (evaluates_of_stepEvent (sampleEvent_valid _ _ _) follows stepped) attributed rfl
      (by decide) known rfl isPublic
    rw [stepped] at closed
    exact absurd (some.inj closed) (by simp [opened])

/-- A gap of the first market is isolated. -/
theorem marketFault_isolated_sample :
    ∃ next persisted,
      sampleNext (.sourceGap "t1" "upstream_disconnected") = .ok (next, persisted) ∧
        ((next.ready = true ∧ OthersUntouched "m1" sampleReady.2 next) ↔
          movesPublicTick true sampleReady.2
            (sampleEvent 6 "6" (.sourceGap "t1" "upstream_disconnected")) = false) := by
  obtain ⟨ready, follows, attributed, known, isPublic⟩ := sampleReady_facts
  have succeeded :
      (sampleNext (.sourceGap "t1" "upstream_disconnected")).toOption.isSome = true := by
    decide +kernel
  cases stepped : sampleNext (.sourceGap "t1" "upstream_disconnected") with
  | error _ => rw [stepped] at succeeded; cases succeeded
  | ok result =>
    exact ⟨result.1, result.2, rfl, marketFault_isolated_iff samplePlatform true "scope"
      "m1" "m2" sampleReady.1 sampleReady.2 result.1
      ⟨sampleEvent 6 "6" (.sourceGap "t1" "upstream_disconnected"), result.2⟩ _
      (evaluateAll_run (fun _ => sampleEvents_valid) (some_get _).symm) ready
      (evaluates_of_stepEvent (sampleEvent_valid _ _ _) follows stepped) attributed rfl
      (by decide) known rfl isPublic⟩

end MarketCow.Core
