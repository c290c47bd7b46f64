import MarketCow.Core.Invariant

/-!
# Market statuses over a step

The status of a market, what executable books mean, and the only two ways in
which a step makes a market ready.
-/

namespace MarketCow.Core

open Library Option CanonicalState

namespace CanonicalState

/-- The recorded status of a market. -/
def status? (state : CanonicalState) (marketId : String) : Option MarketProjectionStatus :=
  (state.marketHealth[marketId]?).map MarketProjectionHealth.projectionStatus

/-- A market is public unless it has a record that is not ready. -/
theorem marketIsPublic_iff {state : CanonicalState} {marketId : String} :
    state.marketIsPublic marketId = true ↔
      state.status? marketId = none ∨ state.status? marketId = some .ready := by
  unfold marketIsPublic status?
  cases state.marketHealth[marketId]? with
  | none | some health => simp

theorem status?_upsertHealth
    (state : CanonicalState) (marketId other : String) (catalogRevision : Option String)
    (change : MarketProjectionHealth → MarketProjectionHealth) :
    (state.upsertHealth marketId catalogRevision change).status? other =
      if marketId = other then
        some (change ((state.marketHealth[marketId]?).getD
          (MarketProjectionHealth.recovering marketId state.generation
            catalogRevision))).projectionStatus
      else state.status? other := by
  unfold status?
  rw [getElem?_marketHealth_upsertHealth]
  split <;> rfl

end CanonicalState

/-! ## Executable books -/

/-- The books of a market admit execution. -/
structure Executable (state : CanonicalState) (market : MarketRecord) : Prop where
  active : market.isActive = true
  clear : ∀ tokenId ∈ market.tokenIds, tokenId ∉ state.quarantinedTokenIds
  book : ∀ tokenId ∈ market.tokenIds, ∃ book,
    state.books[tokenId]? = some book ∧ book.isExecutable = true ∧
      ∀ facts, market.instrumentFacts = some facts → book.tickSize = some facts.priceIncrement

variable {state : CanonicalState} {marketId : String}

theorem exists_executable (executable : marketBooksAreExecutable state marketId = true) :
    ∃ market, state.markets[marketId]? = some market ∧ Executable state market := by
  unfold marketBooksAreExecutable at executable
  cases known : state.markets[marketId]? with
  | none => rw [known] at executable; cases executable
  | some market =>
    simp only [known, and_eq_true, List.all_eq_true, not_eq_true',
      decide_eq_false_iff_not] at executable
    obtain ⟨⟨⟨active, facts⟩, _⟩, tokens⟩ := executable
    refine ⟨market, rfl, active, fun tokenId mem => (tokens tokenId mem).1, ?_⟩
    intro tokenId mem
    obtain ⟨_, twoSided⟩ := tokens tokenId mem
    cases present : state.books[tokenId]? with
    | none => rw [present] at twoSided; cases twoSided
    | some book =>
      rw [present, any_some] at twoSided
      refine ⟨book, rfl, twoSided, ?_⟩
      intro priced recorded
      rw [recorded, all_some] at facts
      simp only [factsExecutable, and_eq_true, List.all_eq_true] at facts
      have sameTick := facts.2 tokenId mem
      rw [present, any_some, beq_iff_eq] at sameTick
      exact sameTick

/-- Both books of a market with a common tick carry it. -/
theorem tickSize_of_commonTick
    (common : commonTick state market = some (tick, versions))
    (mem : tokenId ∈ market.tokenIds) :
    ∃ book, state.books[tokenId]? = some book ∧ book.tickSize = some tick ∧
      book.tickVersion.isEmpty = false := by
  have ofTick : ∀ (tokenId : String) (size : Price) (version : String),
      (state.books[tokenId]?).bind Book.tick? = some (size, version) →
        ∃ book, state.books[tokenId]? = some book ∧ book.tickSize = some size ∧
          book.tickVersion.isEmpty = false := by
    intro tokenId size version found
    obtain ⟨book, present, ticked⟩ := bind_eq_some_iff.mp found
    unfold Book.tick? at ticked
    obtain ⟨known, sized, versioned⟩ := bind_eq_some_iff.mp ticked
    split at versioned
    · cases versioned
    · rename_i nonempty
      obtain ⟨rfl, _⟩ := Prod.mk.inj (some.inj versioned)
      exact ⟨book, present, sized, by simpa using nonempty⟩
  unfold commonTick at common
  obtain ⟨⟨firstTick, firstVersion⟩, first, common⟩ := bind_eq_some_iff.mp common
  obtain ⟨⟨secondTick, secondVersion⟩, second, common⟩ := bind_eq_some_iff.mp common
  dsimp only at common
  split at common
  · rename_i same
    obtain rfl : firstTick = tick := (Prod.mk.inj (some.inj common)).1
    rcases MarketRecord.mem_tokenIds.mp mem with rfl | rfl
    · exact ofTick _ _ _ first
    · rw [← same] at second
      exact ofTick _ _ _ second
  · cases common

/-! ## Attribution -/

/-- A token is traded in the market it is attributed to. -/
theorem mem_of_marketIdForToken (keyed : state.Keyed)
    (attributed : state.marketIdForToken tokenId = some marketId) :
    ∃ market, state.markets[marketId]? = some market ∧ tokenId ∈ market.tokenIds := by
  unfold CanonicalState.marketIdForToken at attributed
  obtain ⟨market, found, rfl⟩ := map_eq_some_iff.mp attributed
  have owns := List.find?_some found
  obtain ⟨key, known⟩ := mem_valueList.mp (List.mem_of_find?_eq_some found)
  rw [keyed key market known]
  exact ⟨market, known, MarketRecord.hasToken_iff.mp owns⟩

variable {kind : EventKind}

/-- A fault that stays inside a market names one of its tokens. -/
theorem mem_of_eventMarketId
    (keyed : state.Keyed) (attributed : eventMarketId state kind = some marketId)
    (tokenEvent : kind.isTokenEvent = true) :
    ∃ market, state.markets[marketId]? = some market ∧ kind.tokenId ∈ market.tokenIds := by
  cases kind with
  | catalogSnapshot | newMarket | marketResolved => cases tokenEvent
  | sourceGap tokenId reason =>
    unfold eventMarketId at attributed
    dsimp only at attributed
    split at attributed
    · cases attributed
    · exact mem_of_marketIdForToken keyed attributed
  | _ => exact mem_of_marketIdForToken keyed attributed

theorem isTokenEvent_of_isLocallyRecoverable (recoverable : kind.isLocallyRecoverable = true) :
    kind.isTokenEvent = true := by
  cases kind <;> first | rfl | cases recoverable

/-! ## Decisions about one token -/

variable {event : CanonicalEvent}

/-- A decision about a token touches the book and the gap of that token. -/
theorem decision_of_isTokenEvent
    (effect : DecisionEffect platform enforceSourceFreshness state event decision)
    (tokenEvent : event.kind.isTokenEvent = true) :
    ∃ books gaps, decision.state = { state with books := books, unresolvedGaps := gaps } ∧
      (∀ other, other ≠ event.kind.tokenId → books[other]? = state.books[other]?) ∧
      (∀ gap, gap ≠ event.kind.tokenId → (gap ∈ gaps ↔ gap ∈ state.unresolvedGaps)) := by
  have rejected : ∀ gap : String, gap = event.kind.tokenId → ∀ reason,
      ∃ books gaps, (Decision.reject state gap reason).state =
          { state with books := books, unresolvedGaps := gaps } ∧
        (∀ other : String, other ≠ event.kind.tokenId → books[other]? = state.books[other]?) ∧
        (∀ gap, gap ≠ event.kind.tokenId → (gap ∈ gaps ↔ gap ∈ state.unresolvedGaps)) := by
    rintro gap rfl reason
    refine ⟨state.books, insert event.kind.tokenId state.unresolvedGaps, rfl, fun _ _ => rfl, ?_⟩
    intro gap ne
    simp [ne]
  cases effect with
  | sourceRejected => exact rejected _ rfl _
  | superseded => exact ⟨state.books, state.unresolvedGaps, rfl, fun _ _ => rfl, fun _ _ => .rfl⟩
  | decided _ _ kindEffect =>
    obtain ⟨changes, rewritten⟩ :=
      exists_rewriteEvent_eq_withChanges enforceSourceFreshness state event
    have sameToken :
        (rewriteEvent enforceSourceFreshness state event).kind.tokenId = event.kind.tokenId := by
      rw [rewritten]
      exact EventKind.tokenId_withChanges _ _
    have sameClass :
        (rewriteEvent enforceSourceFreshness state event).kind.isTokenEvent = true := by
      rw [rewritten, ← tokenEvent]
      unfold CanonicalEvent.withChanges
      cases event.kind <;> rfl
    generalize rewriteEvent enforceSourceFreshness state event = stored
      at kindEffect sameToken sameClass
    cases kindEffect with
    | catalogRejected kind | catalogInstalled kind _ _ => rw [kind] at sameClass; cases sameClass
    | newMarket kind | resolutionRejected _ kind => rw [kind] at sameClass; cases sameClass
    | resolved kind _ _ => rw [kind] at sameClass; cases sameClass
    | tokenRejected reason _ => exact rejected _ sameToken reason
    | @fullBook tokenId bids asks tickSize tickVersion kind _ _ _ =>
      have named : tokenId = event.kind.tokenId := by
        rw [← sameToken, kind]
        rfl
      refine ⟨_, _, rfl, ?_, ?_⟩
      · intro other ne
        rw [← named] at ne
        simp [CanonicalState.withBook, TreeMap.getElem?_insert, Ne.symm ne]
      · intro gap ne
        rw [← named] at ne
        simp [ne]
    | @bookChanged tokenId before after named _ _ _ =>
      refine ⟨_, state.unresolvedGaps, rfl, ?_, fun _ _ => .rfl⟩
      intro other ne
      rw [← sameToken, named] at ne
      simp [TreeMap.getElem?_insert, Ne.symm ne]

/-! ## Settlement -/

/-- Market metadata leaves every recorded status alone. -/
theorem status?_recordAttributed
    (attribution : Option Attribution) (event : CanonicalEvent) (state : CanonicalState)
    (marketId : String) (recorded : (state.status? marketId).isSome = true) :
    (recordAttributed attribution event state).status? marketId = state.status? marketId := by
  unfold recordAttributed
  cases attribution with
  | none => rfl
  | some market =>
    simp only [elim_some]
    unfold recordMarketEvent
    rw [status?_upsertHealth]
    split
    · rename_i here
      subst here
      unfold CanonicalState.status? at recorded ⊢
      cases known : state.marketHealth[market.marketId]? with
      | none => rw [known] at recorded; cases recorded
      | some health => rfl
    · rfl

theorem status?_quarantineMarket
    (state : CanonicalState) (marketId tokenId : String) (sequence : Nat) (reason : String)
    (event : CanonicalEvent) :
    (quarantineMarket state marketId tokenId sequence reason event).status? marketId =
      some .quarantined := by
  unfold quarantineMarket
  rw [status?_upsertHealth, if_pos rfl]
  rfl

/-- A settlement leaves the status of every other market alone. -/
theorem status?_of_marketLocal
    (frame : MarketLocal marketId tokenId before after) (ne : other ≠ marketId) :
    after.status? other = before.status? other := by
  unfold CanonicalState.status?
  rw [frame.marketHealth other ne]

/-- Settlements that end with the market ready, and then its books admit
execution. -/
theorem ready_of_settlement
    (settlement : Settlement market event before after)
    (ready : after.state.status? market.marketId = some .ready) :
    (before.state.status? market.marketId = some .ready ∧ after = before ∧
        (before.isOpen = true → market.previousMarketStatus = some .ready →
          event.kind.isLocallyRecoverable = true →
            marketBooksAreExecutable before.state market.marketId = true)) ∨
      marketBooksAreExecutable after.state market.marketId = true := by
  cases settlement with
  | unchanged complete => exact .inl ⟨ready, rfl, fun opened => (complete opened).2⟩
  | excluded =>
    unfold Assessment.quarantine at ready
    rw [status?_quarantineMarket] at ready
    cases ready
  | kept _ _ _ executable => exact .inr executable
  | dropped =>
    unfold Assessment.quarantine at ready
    rw [status?_quarantineMarket] at ready
    cases ready
  | recovered _ _ _ _ executable => exact .inr executable
  | awaiting =>
    rw [status?_upsertHealth, if_pos rfl] at ready
    cases ready

end MarketCow.Core
