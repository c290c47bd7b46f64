import MarketCow.Core.AfterDecision
import MarketCow.Core.CatalogGaps
import MarketCow.Core.MarketStep

/-!
# Markets and monitored books in one step

Only three things happen to the records of markets and to the monitored copies:
an applied snapshot replaces the catalog, an applied resolution ends one
market, and every other step leaves identities and copies alone.
-/

namespace MarketCow.Core

open Library List CanonicalState
open MarketRecord (identity isActive tokenIds)

namespace CanonicalState

/-! ## Monitored books of a replacement -/

/-- A listed market has a monitored copy that names the token. -/
def Releases (state : CanonicalState) (listed : List MarketRecord) (tokenId : String) : Prop :=
  ∃ market ∈ listed, ∃ retained,
    state.monitoringMarkets[market.marketId]? = some retained ∧ tokenId ∈ retained.tokenIds

/-- An active market that is not listed names the token. -/
def Removes (state : CanonicalState) (listed : List MarketRecord) (tokenId : String) : Prop :=
  ∃ (marketId : String) (market : MarketRecord),
    state.markets[marketId]? = some market ∧ market.isActive = true ∧
      (∀ other ∈ listed, other.marketId ≠ marketId) ∧ tokenId ∈ market.tokenIds

variable (state : CanonicalState)

theorem monitoringBooks_monitorBook (outcome : OutcomeToken) (tokenId : String) :
    (state.monitorBook outcome).monitoringBooks[tokenId]? =
      if outcome.tokenId = tokenId then
        (state.books[tokenId]?).or state.monitoringBooks[tokenId]?
      else state.monitoringBooks[tokenId]? := by
  unfold monitorBook
  by_cases same : outcome.tokenId = tokenId
  · subst same
    cases state.books[outcome.tokenId]? with
    | none | some book => simp
  · cases state.books[outcome.tokenId]? with
    | none => simp [same]
    | some book => simp [same, TreeMap.getElem?_insert]

variable (catalogRevision : String)

/-- Copying books leaves the books themselves. -/
theorem books_monitorMarket (market : MarketRecord) :
    (state.monitorMarket catalogRevision market).books = state.books :=
  congrArg ScanFields.books (scanFields_monitorMarket catalogRevision state market)

variable (market : MarketRecord)

theorem monitoringBooks_monitorMarket (tokenId : String) :
    (state.monitorMarket catalogRevision market).monitoringBooks[tokenId]? =
      if tokenId ∈ market.tokenIds then
        (state.books[tokenId]?).or state.monitoringBooks[tokenId]?
      else state.monitoringBooks[tokenId]? := by
  have copied : (market.outcomes.toList.foldl monitorBook state).monitoringBooks[tokenId]? =
      if tokenId ∈ market.tokenIds then
        (state.books[tokenId]?).or state.monitoringBooks[tokenId]?
      else state.monitoringBooks[tokenId]? := by
    have firstBooks : (state.monitorBook market.outcomes.first).books = state.books :=
      congrArg ScanFields.books (scanFields_monitorBook state market.outcomes.first)
    have named : tokenId ∈ market.tokenIds ↔
        market.outcomes.first.tokenId = tokenId ∨ market.outcomes.second.tokenId = tokenId := by
      rw [MarketRecord.mem_tokenIds, eq_comm, @eq_comm _ tokenId]
    simp only [OutcomePair.toList, foldl_cons, foldl_nil,
      monitoringBooks_monitorBook, firstBooks, named]
    by_cases first : market.outcomes.first.tokenId = tokenId
    · by_cases second : market.outcomes.second.tokenId = tokenId
      · simp [first, second]
        cases state.books[tokenId]? <;> simp
      · simp [first, second]
    · by_cases second : market.outcomes.second.tokenId = tokenId
      · simp [first, second]
      · simp [first, second]
  exact copied

variable (markets : List MarketRecord)

/-- The monitored books after the removed markets were copied. -/
theorem monitoringBooks_foldl_monitorMarket (state : CanonicalState) (tokenId : String) :
    (markets.foldl (monitorMarket catalogRevision) state).monitoringBooks[tokenId]? =
      if tokenId ∈ markets.flatMap tokenIds then
        (state.books[tokenId]?).or state.monitoringBooks[tokenId]?
      else state.monitoringBooks[tokenId]? := by
  induction markets generalizing state with
  | nil => simp
  | cons market markets ih =>
    rw [foldl_cons, ih, books_monitorMarket, monitoringBooks_monitorMarket, flatMap_cons]
    by_cases here : tokenId ∈ market.tokenIds
    · by_cases later : tokenId ∈ markets.flatMap tokenIds
      · rw [if_pos later, if_pos here, if_pos (mem_append_left _ here)]
        cases state.books[tokenId]? <;> simp
      · rw [if_neg later, if_pos here, if_pos (mem_append_left _ here)]
    · simp only [mem_append, here, false_or, if_false]

theorem monitoringBooks_releaseMarket (tokenId : String) :
    (state.Releases [market] tokenId →
        (state.releaseMarket market).monitoringBooks[tokenId]? = none) ∧
      (¬state.Releases [market] tokenId →
        (state.releaseMarket market).monitoringBooks[tokenId]? =
          state.monitoringBooks[tokenId]?) := by
  unfold Releases releaseMarket
  simp only [mem_singleton, exists_eq_left]
  cases state.monitoringMarkets[market.marketId]? with
  | none => simp
  | some retained =>
    have erased := TreeMap.getElem?_foldl_erase retained.tokenIds state.monitoringBooks tokenId
    rw [tokenIds, foldl_map] at erased
    simp only [erased, Option.some.injEq, exists_eq_left', tokenIds]
    exact ⟨fun named => if_pos named, fun unnamed => if_neg unnamed⟩

/-- The monitored books after the listed markets were released. -/
theorem monitoringBooks_foldl_releaseMarket (state : CanonicalState) (tokenId : String) :
    (state.Releases markets tokenId →
        (markets.foldl releaseMarket state).monitoringBooks[tokenId]? = none) ∧
      (¬state.Releases markets tokenId →
        (markets.foldl releaseMarket state).monitoringBooks[tokenId]? =
          state.monitoringBooks[tokenId]?) := by
  induction markets generalizing state with
  | nil =>
    refine ⟨?_, fun _ => rfl⟩
    rintro ⟨_, mem, _⟩
    cases mem
  | cons market markets ih =>
    -- A later market of the same name finds no copy, but the first released its tokens.
    have later_iff : state.Releases (market :: markets) tokenId ↔
        state.Releases [market] tokenId ∨
          (state.releaseMarket market).Releases markets tokenId := by
      constructor
      · rintro ⟨other, mem, retained, copied, named⟩
        by_cases same : market.marketId = other.marketId
        · exact .inl ⟨market, mem_singleton_self _, retained, same ▸ copied, named⟩
        · rcases mem_cons.mp mem with rfl | later
          · exact absurd rfl same
          · refine .inr ⟨other, later, retained, ?_, named⟩
            rw [getElem?_monitoringMarkets_releaseMarket, if_neg same]
            exact copied
      · rintro (⟨other, mem, retained, copied, named⟩ | ⟨other, later, retained, copied, named⟩)
        · obtain rfl := mem_singleton.mp mem
          exact ⟨other, mem_cons_self, retained, copied, named⟩
        · rw [getElem?_monitoringMarkets_releaseMarket] at copied
          split at copied
          · cases copied
          · exact ⟨other, mem_cons_of_mem _ later, retained, copied, named⟩
    obtain ⟨releasedHere, keptHere⟩ := monitoringBooks_releaseMarket state market tokenId
    obtain ⟨releasedLater, keptLater⟩ := ih (state.releaseMarket market)
    rw [foldl_cons, later_iff]
    refine ⟨?_, ?_⟩
    · intro released
      by_cases later : (state.releaseMarket market).Releases markets tokenId
      · exact releasedLater later
      · rw [keptLater later]
        exact releasedHere (released.resolve_right later)
    · intro kept
      rw [not_or] at kept
      rw [keptLater kept.2, keptHere kept.1]

/-- A market of the catalog has no monitored copy. -/
def Separate (state : CanonicalState) : Prop :=
  ∀ (marketId : String) (market : MarketRecord),
    state.markets[marketId]? = some market → state.monitoringMarkets[marketId]? = none

variable {state : CanonicalState} {catalog : CatalogState} {listed : List MarketRecord}

/-- The copies that the listed markets of a valid snapshot release. -/
theorem releases_iff (keyed : state.Keyed) (separate : state.Separate) (catalogRevision : String)
    (indexes : catalog.Indexes (listed ++ retainedResolvedMarkets state listed))
    (tokenId : String) :
    ((removedActiveMarkets state catalog.markets).foldl (monitorMarket catalogRevision)
        state).Releases catalog.markets.valueList tokenId ↔
      state.Releases listed tokenId := by
  have copied : ∀ {market : MarketRecord}, market ∈ catalog.markets.valueList →
      ∀ retained, ((removedActiveMarkets state catalog.markets).foldl
          (monitorMarket catalogRevision) state).monitoringMarkets[market.marketId]? =
            some retained →
        state.monitoringMarkets[market.marketId]? = some retained := by
    intro market mem retained present
    rcases getElem?_monitoringMarkets_foldl_monitorMarket catalogRevision present with
      ⟨inRemoved, named⟩ | ⟨_, before⟩
    · obtain ⟨_, _, absent⟩ := (mem_removedActiveMarkets keyed).mp inRemoved
      obtain ⟨key, known⟩ := mem_valueList.mp mem
      rw [named, ((indexes.market key market).mp known).2, known] at absent
      cases absent
    · exact before
  constructor
  · rintro ⟨market, mem, retained, present, named⟩
    have before := copied mem retained present
    obtain ⟨key, known⟩ := mem_valueList.mp mem
    rcases mem_append.mp ((indexes.market key market).mp known).1 with inListed | resolved
    · exact ⟨market, inListed, retained, before, named⟩
    · obtain ⟨inMarkets, _⟩ := mem_filter.mp resolved
      obtain ⟨otherKey, inState⟩ := mem_valueList.mp inMarkets
      rw [keyed otherKey market inState, separate otherKey market inState] at before
      cases before
  · rintro ⟨market, inListed, retained, before, named⟩
    have known : catalog.markets[market.marketId]? = some market :=
      (indexes.market _ market).mpr ⟨mem_append_left _ inListed, rfl⟩
    have mem : market ∈ catalog.markets.valueList := mem_valueList.mpr ⟨_, known⟩
    have present : ((removedActiveMarkets state catalog.markets).foldl
        (monitorMarket catalogRevision) state).monitoringMarkets[market.marketId]?.isSome = true :=
      isSome_monitoringMarkets_foldl_monitorMarket catalogRevision (.inr (by rw [before]; rfl))
    obtain ⟨stored, found⟩ := isSome_iff_exists.mp present
    have same := (copied mem stored found).symm.trans before
    obtain rfl := some.inj same
    exact ⟨market, mem, stored, found, named⟩

theorem removes_iff (keyed : state.Keyed)
    (indexes : catalog.Indexes (listed ++ retainedResolvedMarkets state listed))
    (tokenId : String) :
    tokenId ∈ (removedActiveMarkets state catalog.markets).flatMap tokenIds ↔
      state.Removes listed tokenId := by
  rw [mem_flatMap]
  constructor
  · rintro ⟨market, inRemoved, named⟩
    obtain ⟨known, active, absent⟩ := (mem_removedActiveMarkets keyed).mp inRemoved
    refine ⟨market.marketId, market, known, active, ?_, named⟩
    intro other inListed
    exact indexes.absent_iff.mp absent other (mem_append_left _ inListed)
  · rintro ⟨marketId, market, known, active, unlisted, named⟩
    have keyedHere := keyed marketId market known
    refine ⟨market, (mem_removedActiveMarkets keyed).mpr ⟨keyedHere ▸ known, active, ?_⟩, named⟩
    rw [indexes.absent_iff]
    intro other mem same
    rcases mem_append.mp mem with inListed | resolved
    · exact unlisted other inListed (same.trans keyedHere)
    · obtain ⟨inMarkets, isResolved⟩ := mem_filter.mp resolved
      obtain ⟨otherKey, inState⟩ := mem_valueList.mp inMarkets
      have sameKey : otherKey = marketId :=
        (keyed otherKey other inState).symm.trans (same.trans keyedHere)
      subst sameKey
      rw [known] at inState
      cases inState
      simp only [and_eq_true, beq_iff_eq] at isResolved
      simp [isActive, isResolved.1] at active

/-- The monitored books after a replacement. -/
structure MonitoredBooks
    (state next : CanonicalState) (listed : List MarketRecord) (tokenId : String) : Prop where
  released : state.Releases listed tokenId → next.monitoringBooks[tokenId]? = none
  removed : ¬state.Releases listed tokenId → state.Removes listed tokenId →
    next.monitoringBooks[tokenId]? = (state.books[tokenId]?).or state.monitoringBooks[tokenId]?
  kept : ¬state.Releases listed tokenId → ¬state.Removes listed tokenId →
    next.monitoringBooks[tokenId]? = state.monitoringBooks[tokenId]?

theorem monitoredBooks_releasedState
    (keyed : state.Keyed) (separate : state.Separate) (catalogRevision : String)
    (indexes : catalog.Indexes (listed ++ retainedResolvedMarkets state listed))
    (tokenId : String) :
    MonitoredBooks state (state.releasedState catalogRevision catalog) listed tokenId := by
  obtain ⟨releases, keeps⟩ := monitoringBooks_foldl_releaseMarket catalog.markets.valueList
    ((removedActiveMarkets state catalog.markets).foldl (monitorMarket catalogRevision) state)
    tokenId
  rw [releases_iff keyed separate catalogRevision indexes] at releases keeps
  have copies := monitoringBooks_foldl_monitorMarket catalogRevision
    (removedActiveMarkets state catalog.markets) state tokenId
  refine ⟨releases, ?_, ?_⟩
  · intro unreleased removed
    rw [if_pos ((removes_iff keyed indexes tokenId).mpr removed)] at copies
    exact (keeps unreleased).trans copies
  · intro unreleased unremoved
    rw [if_neg fun mem => unremoved ((removes_iff keyed indexes tokenId).mp mem)] at copies
    exact (keeps unreleased).trans copies

end CanonicalState

/-! ## One step -/

/-- The markets that a snapshot lists, when it passes the checks of the writer. -/
def appliedListing (enforce : Bool) (state : CanonicalState)
    (event : CanonicalEvent) : Option (List MarketRecord) :=
  match event.kind with
  | .catalogSnapshot catalogRevision markets relations =>
    if event.source.missing || (enforce && event.source.delayed) ||
        catalogRevision.isEmpty ||
        (validatedCatalog (markets ++ retainedResolvedMarkets state markets)
          relations).isNone then none
    else some markets
  | _ => none

/-- The markets that an applied snapshot of a run lists. -/
def EvaluatedEvent.snapshot? (label : EvaluatedEvent) : Option (List MarketRecord) :=
  match label.event.kind with
  | .catalogSnapshot _ markets _ => if label.persisted.applied then some markets else none
  | _ => none

/-- What a step does to the records of markets and to the monitored copies. -/
inductive IndexStep
    (platform : Platform) (enforce : Bool) (state next : CanonicalState)
    (label : EvaluatedEvent) : Prop
  | installed
      {catalogRevision : String}
      {listed : List MarketRecord}
      {relations : List NegativeRiskRelation}
      {catalog : CatalogState} :
      appliedListing enforce state label.event = some listed →
      label.event.kind = .catalogSnapshot catalogRevision listed relations →
      label.persisted.applied = true →
      catalog.Indexes (listed ++ retainedResolvedMarkets state listed) →
      (∀ marketId : String, next.markets[marketId]?.map identity =
        catalog.markets[marketId]?.map identity) →
      (∀ (marketId : String) (market : MarketRecord),
        next.monitoringMarkets[marketId]? = some market ↔
          (∀ other ∈ listed ++ retainedResolvedMarkets state listed, other.marketId ≠ marketId) ∧
            (state.markets[marketId]? = some market ∧ market.isActive = true ∨
              state.monitoringMarkets[marketId]? = some market ∧
                ∀ current, state.markets[marketId]? = some current → current.isActive = false)) →
      (state.Separate → ∀ tokenId, state.MonitoredBooks next listed tokenId) →
      IndexStep platform enforce state next label
  | resolved
      {conditionId marketId : String}
      {winningTokenId winningOutcome : Option String}
      {market : MarketRecord} :
      appliedListing enforce state label.event = none →
      label.event.kind = .marketResolved conditionId winningTokenId winningOutcome →
      label.persisted.applied = true →
      state.conditionToMarket[conditionId]? = some marketId →
      state.markets[marketId]? = some market →
      (∀ otherId : String, next.markets[otherId]?.map identity =
        (state.markets.insert marketId (resolvedMarket platform label.event winningTokenId
          winningOutcome market))[otherId]?.map identity) →
      next.monitoringMarkets = state.monitoringMarkets →
      next.monitoringBooks = state.monitoringBooks →
      IndexStep platform enforce state next label
  | kept :
      appliedListing enforce state label.event = none →
      (∀ marketId : String, next.markets[marketId]?.map identity =
        state.markets[marketId]?.map identity) →
      next.monitoringMarkets = state.monitoringMarkets →
      next.monitoringBooks = state.monitoringBooks →
      IndexStep platform enforce state next label

variable {event : CanonicalEvent}

/-- Rewriting leaves every event but an atomic delta alone. -/
theorem rewriteEvent_of_plain
    (enforce : Bool) (state : CanonicalState) (plain : event.kind.isAtomicDelta = false) :
    rewriteEvent enforce state event = event := by
  obtain ⟨changes, rewritten⟩ := exists_rewriteEvent_eq_withChanges enforce state event
  rw [rewritten, CanonicalEvent.withChanges]
  have same : event.kind.withChanges changes = event.kind := by
    cases kind : event.kind with
    | atomicDelta tokenId old bestBid bestAsk =>
      rw [kind] at plain
      cases plain
    | _ => rfl
  rw [same]

/-- No book overtakes an event that is not an increment. -/
theorem incrementalSupersededByBook_eq_false
    (state : CanonicalState) (noDelta : event.kind.isAtomicDelta = false)
    (noQuote : event.kind.isBestBidAsk = false) :
    incrementalSupersededByBook state event = false := by
  simp [incrementalSupersededByBook, delayedAtomicDeltaSupersededByBook,
    queuedAtomicDeltaSupersededByRefresh, bestBidAskSupersededByBook, noDelta, noQuote]

variable {state : CanonicalState} {catalogRevision : String} {markets : List MarketRecord}
  {relations : List NegativeRiskRelation}

theorem admittedState_catalogSnapshot
    (kind : event.kind = .catalogSnapshot catalogRevision markets relations) :
    admittedState state event = state.advance event := by
  unfold admittedState
  rw [kind]
  rfl

/-- The decision of a snapshot. -/
theorem decideEvent_catalogSnapshot (platform : Platform) (enforce : Bool) (state : CanonicalState)
    (kind : event.kind = .catalogSnapshot catalogRevision markets relations) :
    decideEvent platform enforce state event =
      .ok (if event.source.missing || (enforce && event.source.delayed) then
          rejectSource state event
        else decideCatalogSnapshot state catalogRevision markets relations) := by
  have current : incrementalSupersededByBook state event = false :=
    incrementalSupersededByBook_eq_false state (by rw [kind]; rfl) (by rw [kind]; rfl)
  unfold decideEvent sourceRejected
  rw [current, rewriteEvent_of_plain _ _ (by rw [kind]; rfl), Bool.not_false, Bool.and_true,
    if_neg Bool.false_ne_true]
  unfold decideKind
  rw [kind]
  split <;> rfl

variable {platform : Platform} {enforce : Bool}

/-- The snapshots that are applied, and what they are decided to. -/
theorem decision_of_catalogSnapshot
    (kind : event.kind = .catalogSnapshot catalogRevision markets relations)
    (decided : decideEvent platform enforce state event = .ok decision) :
    (∃ catalog,
        appliedListing enforce state event = some markets ∧
          validatedCatalog (markets ++ retainedResolvedMarkets state markets) relations =
            some catalog ∧
          decision = .accept (state.installCatalog catalogRevision catalog)) ∨
      (appliedListing enforce state event = none ∧
        ∃ gap reason, decision = .reject state gap reason) := by
  rw [decideEvent_catalogSnapshot platform enforce state kind] at decided
  unfold appliedListing
  rw [kind]
  dsimp only
  by_cases stale : (event.source.missing || (enforce && event.source.delayed)) = true
  · rw [if_pos stale] at decided
    refine .inr ⟨if_pos (by simp only [stale, Bool.true_or]), _, _, (ok.inj decided).symm⟩
  · rw [if_neg stale] at decided
    unfold decideCatalogSnapshot at decided
    by_cases unnamed : catalogRevision.isEmpty = true
    · rw [if_pos unnamed] at decided
      refine .inr ⟨if_pos (by simp only [unnamed, Bool.or_true, Bool.true_or]), _, _,
        (ok.inj decided).symm⟩
    · rw [if_neg unnamed] at decided
      cases valid : validatedCatalog (markets ++ retainedResolvedMarkets state markets)
          relations with
      | none =>
        rw [valid] at decided
        exact .inr ⟨if_pos (by simp), _, _, (ok.inj decided).symm⟩
      | some catalog =>
        rw [valid] at decided
        refine .inl ⟨catalog, if_neg ?_, rfl, (ok.inj decided).symm⟩
        simp only [not_eq_true] at stale unnamed
        simp [stale, unnamed]

/-- Only an event of its kind is rewritten to an event of another kind. -/
theorem EventKind.eq_of_rewriteEvent_kind
    (stored : (rewriteEvent enforce state event).kind = kind) (plain : kind.isAtomicDelta = false) :
    event.kind = kind := by
  obtain ⟨changes, rewritten⟩ := exists_rewriteEvent_eq_withChanges enforce state event
  rw [rewritten] at stored
  exact EventKind.eq_of_withChanges_eq stored plain

/-- The effect of one accepted event on markets and monitored copies. -/
theorem Evaluates.indexStep {state next : CanonicalState}
    (evaluates : Evaluates platform enforce state label next) (keyed : state.Keyed) :
    IndexStep platform enforce state next label := by
  obtain ⟨_, evaluated⟩ := evaluates
  obtain ⟨phases⟩ := phases_of_evaluateEvent evaluated
  have after := phases.afterDecision
  have applied := phases.applied_eq
  by_cases snapshot : ∃ catalogRevision markets relations,
      label.event.kind = .catalogSnapshot catalogRevision markets relations
  · obtain ⟨catalogRevision, markets, relations, kind⟩ := snapshot
    have decided := phases.decision_eq
    rw [admittedState_catalogSnapshot kind] at decided
    have listing : appliedListing enforce (state.advance label.event)
        label.event = appliedListing enforce state label.event := rfl
    rcases decision_of_catalogSnapshot kind decided with
      ⟨catalog, listed, valid, decision⟩ | ⟨refused, gap, reason, decision⟩
    · have advanced : (state.advance label.event).Keyed := keyed
      have indexes := validatedCatalog_indexes valid
      have fields := (state.advance label.event).installCatalog_fields catalogRevision catalog
      rw [decision] at after applied
      refine .installed (listing ▸ listed) kind applied indexes ?_ ?_ ?_
      · intro marketId
        rw [after.identity marketId]
        exact congrArg (fun markets : TreeMap String MarketRecord =>
          markets[marketId]?.map identity)
          (markets_installCatalog _ _ _)
      · intro marketId market
        rw [after.monitoringMarkets]
        obtain ⟨_, _, _, _, shape⟩ := fields
        rw [Decision.accept, shape]
        exact getElem?_monitoringMarkets_releasedState advanced catalogRevision
          indexes marketId market
      · intro separate tokenId
        have copies := monitoredBooks_releasedState advanced separate
          catalogRevision indexes tokenId
        have same : next.monitoringBooks =
            ((state.advance label.event).releasedState catalogRevision
              catalog).monitoringBooks := by
          obtain ⟨_, _, _, _, shape⟩ := fields
          rw [after.monitoringBooks, Decision.accept, shape]
          rfl
        refine ⟨?_, ?_, ?_⟩
        · rw [same]
          exact copies.released
        · rw [same]
          exact copies.removed
        · rw [same]
          exact copies.kept
    · rw [decision] at after
      exact .kept (listing ▸ refused) after.identity after.monitoringMarkets after.monitoringBooks
  · have unlisted : appliedListing enforce state label.event = none := by
      unfold appliedListing
      cases kind : label.event.kind with
      | catalogSnapshot revision markets relations =>
        exact absurd ⟨revision, markets, relations, kind⟩ snapshot
      | _ => rfl
    obtain ⟨health, admitted, _, _⟩ := admittedState_eq state label.event
    have effect := phases.decided
    generalize phases.decision = decision at effect after applied
    rw [admitted] at effect
    cases effect with
    | sourceRejected | superseded =>
      exact .kept unlisted after.identity after.monitoringMarkets after.monitoringBooks
    | decided _ _ kindEffect =>
      cases kindEffect with
      | catalogInstalled kind _ _ =>
        exact absurd ⟨_, _, _, EventKind.eq_of_rewriteEvent_kind kind rfl⟩ snapshot
      | @resolved conditionId marketId winningTokenId winningOutcome market kind indexed known =>
          have stored := EventKind.eq_of_rewriteEvent_kind kind rfl
          rw [rewriteEvent_of_plain _ _ (by rw [stored]; rfl)] at after
          obtain ⟨relations, gaps, shape⟩ := resolveMarket_eq platform label.event
            conditionId winningTokenId winningOutcome
            { state.advance label.event with marketHealth := health } marketId market
          rw [Decision.accept, shape] at after
          exact .resolved unlisted stored applied indexed known after.identity
            after.monitoringMarkets after.monitoringBooks
      | _ => exact .kept unlisted after.identity after.monitoringMarkets after.monitoringBooks

/-- The snapshots that are applied are those that pass the checks. -/
theorem Evaluates.appliedListing_eq
    {state next : CanonicalState} (evaluates : Evaluates platform enforce state label next) :
    appliedListing enforce state label.event = label.snapshot? := by
  obtain ⟨_, evaluated⟩ := evaluates
  obtain ⟨phases⟩ := phases_of_evaluateEvent evaluated
  have applied := phases.applied_eq
  have decided := phases.decision_eq
  unfold EvaluatedEvent.snapshot?
  cases kind : label.event.kind with
  | catalogSnapshot catalogRevision markets relations =>
    rw [admittedState_catalogSnapshot kind] at decided
    rcases decision_of_catalogSnapshot kind decided with
      ⟨catalog, listed, _, decision⟩ | ⟨refused, gap, reason, decision⟩
    · rw [decision] at applied
      rw [applied]
      exact listed
    · rw [decision] at applied
      rw [applied]
      exact refused
  | _ =>
    unfold appliedListing
    rw [kind]

end MarketCow.Core
