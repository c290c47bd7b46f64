import MarketCow.Core.CatalogGaps
import MarketCow.Core.FullBookStep

/-!
# Resynchronization

A scope is resynchronized by a catalog snapshot and one fresh full book of every
active token. The projection is ready afterwards exactly when the snapshot or
the books close every gap, by the names of the gaps, and some market recovers.
-/

namespace MarketCow.Core

open Library List MarketRecord
open CanonicalState (bootstrap isCatalogGap observedTokens status?)

/-! ## The snapshot -/

/-- What an applied snapshot leaves of the state before it. -/
structure SnapshotApplied
    (state next : CanonicalState) (listed : List MarketRecord) : Prop where
  installed : next.catalogRevision.isSome = true
  markets : ∀ (marketId : String) (identity : MarketRecord),
    next.markets[marketId]?.map MarketRecord.identity = some identity ↔
      ∃ market ∈ listed, market.marketId = marketId ∧ market.identity = identity
  gaps : ∀ gap, gap ∈ next.unresolvedGaps ↔
    gap ∈ state.unresolvedGaps ∧ isCatalogGap gap = false ∧
      ((∃ market ∈ listed, market.isActive = true ∧ gap ∈ market.tokenIds) ∨
        ¬state.LeavesScope listed gap)
  ready : ∀ market ∈ listed, market.isActive = true →
    (next.status? market.marketId = some .ready ↔ state.status? market.marketId = some .ready)
  observed : ∀ market ∈ listed,
    next.observedTokens market.marketId = state.observedTokens market.marketId
  books : ∀ market ∈ listed, market.isActive = true → ∀ tokenId ∈ market.tokenIds,
    next.books[tokenId]? = state.books[tokenId]?

variable {platform : Platform} {enforce : Bool} {state : CanonicalState}
  {event : CanonicalEvent} {markets : List MarketRecord}

/-- Only a valid snapshot is applied. -/
theorem exists_catalog_of_applied
    (effect : DecisionEffect platform enforce state event decision)
    (kind : event.kind = .catalogSnapshot catalogRevision markets relations)
    (applied : decision.applied = true) :
    ∃ catalog, validatedCatalog (markets ++ retainedResolvedMarkets state markets) relations =
        some catalog ∧
      decision.state = state.installCatalog catalogRevision catalog := by
  cases effect with
  | sourceRejected => cases applied
  | superseded _ superseded =>
    simp [incrementalSupersededByBook, delayedAtomicDeltaSupersededByBook,
      queuedAtomicDeltaSupersededByRefresh, bestBidAskSupersededByBook, kind,
      EventKind.isAtomicDelta, EventKind.isBestBidAsk] at superseded
  | decided _ _ kindEffect =>
    obtain ⟨changes, rewritten⟩ := exists_rewriteEvent_eq_withChanges enforce state event
    have stored : (rewriteEvent enforce state event).kind =
        .catalogSnapshot catalogRevision markets relations := by
      rw [rewritten]
      unfold CanonicalEvent.withChanges
      rw [kind]
      rfl
    generalize rewriteEvent enforce state event = storedEvent at kindEffect stored
    cases kindEffect with
    | catalogRejected => cases applied
    | catalogInstalled installed _ valid =>
      rw [stored] at installed
      obtain ⟨rfl, rfl, rfl⟩ := EventKind.catalogSnapshot.inj installed
      exact ⟨_, valid, rfl⟩
    | newMarket other => rw [stored] at other; cases other
    | resolutionRejected => cases applied
    | resolved other _ _ => rw [stored] at other; cases other
    | tokenRejected => cases applied
    | fullBook other _ _ _ => rw [stored] at other; cases other
    | bookChanged _ _ _ changed =>
      cases changed with
      | delta other _ _ _ | atomicDelta other _ _ _ => rw [stored] at other; cases other
      | bestBidAsk other | lastTradePrice other => rw [stored] at other; cases other
      | tickSizeChange other _ _ => rw [stored] at other; cases other

variable {persisted : PersistedEvent}

/-- The step of a snapshot, which belongs to no market. -/
theorem Phases.snapshotApplied {state next : CanonicalState}
    (phases : Phases platform enforce state event next persisted) (invariant : Invariant state)
    (kind : event.kind = .catalogSnapshot catalogRevision markets relations)
    (applied : persisted.applied = true) :
    SnapshotApplied state next (markets ++ retainedResolvedMarkets state markets) := by
  rw [phases.applied_eq] at applied
  obtain ⟨catalog, valid, decided⟩ := exists_catalog_of_applied phases.decided kind applied
  have admitted : admittedState state event = state.advance event := by
    unfold admittedState
    rw [kind]
    rfl
  rw [admitted] at valid decided
  have indexes := validatedCatalog_indexes valid
  have unattributed : attribution state event = none := by
    unfold attribution
    rw [kind]
    rfl
  have localization := phases.localization
  rw [unattributed] at localization
  have localized := (state_of_localization_none localization).trans decided
  have only := phases.reconciliation.onlyMarkets
  have settled : phases.settled.state = phases.reconciled := by
    rw [phases.unattributed unattributed]
  obtain ⟨sameBooks, sameMarkets, sameCatalog, sameGaps, _, _⟩ := phases.next_frame
  have sameRecovery := phases.next_recovery
  rw [settled, only, localized] at sameBooks sameCatalog sameGaps sameRecovery
  rw [settled] at sameMarkets
  have identity : ∀ marketId : String,
      next.markets[marketId]?.map MarketRecord.identity =
        catalog.markets[marketId]?.map MarketRecord.identity := by
    intro marketId
    rw [sameMarkets, phases.reconciliation.identity, localized,
      CanonicalState.markets_installCatalog]
  have stored : ∀ market ∈ markets ++ retainedResolvedMarkets state markets,
      catalog.markets[market.marketId]? = some market := fun market mem =>
    (indexes.market market.marketId market).mpr ⟨mem, rfl⟩
  constructor
  · rw [sameCatalog, CanonicalState.catalogRevision_installCatalog]
    rfl
  · intro marketId record
    rw [identity, map_eq_some_iff]
    constructor
    · rintro ⟨market, known, same⟩
      obtain ⟨mem, named⟩ := (indexes.market marketId market).mp known
      exact ⟨market, mem, named, same⟩
    · rintro ⟨market, mem, rfl, same⟩
      exact ⟨market, stored market mem, same⟩
  · intro gap
    rw [sameGaps]
    have keyed : (state.advance event).Keyed := invariant.keyed
    refine (CanonicalState.mem_unresolvedGaps_installCatalog keyed indexes gap).trans ?_
    rw [indexes.active]
    exact .rfl
  · intro market mem active
    obtain ⟨copy, copied, same⟩ := exists_of_identity_eq
      (fun marketId => (identity marketId).symm) (stored market mem)
    have status := phases.status?_next invariant (by rw [settled, ← sameMarkets]; exact copied)
      ((isActive_of_identity same).trans active)
    rw [status, settled, only, localized]
    unfold status?
    rw [CanonicalState.getElem?_marketHealth_installCatalog (state.advance event)
      catalogRevision catalog (stored market mem) active rfl]
    have sameHealth : (state.advance event).marketHealth = state.marketHealth := rfl
    rw [sameHealth]
    cases state.marketHealth[market.marketId]? with
    | none => simp [MarketProjectionHealth.recovering]
    | some health => simp
  · intro market mem
    unfold observedTokens
    rw [sameRecovery, CanonicalState.getElem?_marketRecoveryTokenIds_installCatalog,
      if_pos (by simp [contains_eq_isSome_getElem?, stored market mem])]
    rfl
  · intro market mem active tokenId owned
    rw [sameBooks, CanonicalState.getElem?_books_installCatalog,
      if_pos ((indexes.active tokenId).mpr ⟨market, mem, active, owned⟩)]
    rfl

/-! ## The full books -/

/-- A market recovers unless it is ready or waits for its last book only, while
the retained copy of that book is missing or one-sided. -/
def RecoversWith (state : CanonicalState) (market : MarketRecord) (last : String) : Prop :=
  (state.status? market.marketId = some .ready ∨ last ∈ state.observedTokens market.marketId) →
    (state.books[last]?).any Book.isTwoSided = true

/-- How far the recovery of a market is after some of its books. -/
def MarketProgress
    (start state : CanonicalState) (market : MarketRecord) : List String → Prop
  | [] =>
    (state.status? market.marketId = some .ready ↔ start.status? market.marketId = some .ready) ∧
    state.observedTokens market.marketId = start.observedTokens market.marketId
  | [first] =>
    ∀ last ∈ market.tokenIds, last ≠ first →
      (state.status? market.marketId = some .ready ↔
        (start.status? market.marketId = some .ready ∨
            last ∈ start.observedTokens market.marketId) ∧
          (start.books[last]?).any Book.isTwoSided = true) ∧
      (first ∈ state.observedTokens market.marketId ↔
        start.status? market.marketId ≠ some .ready ∧ last ∉ start.observedTokens market.marketId)
  | _ :: last :: _ =>
    state.status? market.marketId = some .ready ↔ RecoversWith start market last

/-- The state after the full books of some tokens. -/
structure ResyncProgress
    (start state : CanonicalState) (seen : List String) : Prop where
  invariant : Invariant state
  installed : state.catalogRevision = start.catalogRevision
  identity : ∀ marketId : String,
    state.markets[marketId]?.map MarketRecord.identity =
      start.markets[marketId]?.map MarketRecord.identity
  gaps : ∀ gap, gap ∈ state.unresolvedGaps ↔ gap ∈ start.unresolvedGaps ∧ gap ∉ seen
  retained : ∀ tokenId, tokenId ∉ seen → state.books[tokenId]? = start.books[tokenId]?
  refreshed : ∀ tokenId ∈ seen, (state.books[tokenId]?).any Book.isTwoSided = true
  markets : ∀ (marketId : String) (market : MarketRecord),
    start.markets[marketId]? = some market → market.isActive = true →
      MarketProgress start state market (seen.filter fun tokenId => market.hasToken tokenId)

theorem resyncProgress_nil (invariant : Invariant state) : ResyncProgress state state [] where
  invariant := invariant
  installed := rfl
  identity := fun _ => rfl
  gaps := by simp
  retained := fun _ _ => rfl
  refreshed := by simp
  markets := fun _ _ _ _ => ⟨.rfl, rfl⟩

/-- The last book of a market decides its recovery. -/
theorem MarketProgress.snoc
    {start state next : CanonicalState} {market : MarketRecord} {seen : List String}
    {tokenId : String}
    (progress : MarketProgress start state market
      (seen.filter fun tokenId => market.hasToken tokenId))
    (effect : FullBookEffect state next market tokenId)
    (mem : tokenId ∈ market.tokenIds)
    (distinct : seen.Nodup)
    (fresh : tokenId ∉ seen)
    (retained : ∀ tokenId, tokenId ∉ seen → state.books[tokenId]? = start.books[tokenId]?)
    (refreshed : ∀ tokenId ∈ seen, (state.books[tokenId]?).any Book.isTwoSided = true) :
    MarketProgress start next market
      ((seen ++ [tokenId]).filter fun tokenId => market.hasToken tokenId) := by
  have owned : market.hasToken tokenId = true := hasToken_iff.mpr mem
  have mem_filter : ∀ token,
      token ∈ seen.filter (fun tokenId => market.hasToken tokenId) ↔
        token ∈ seen ∧ token ∈ market.tokenIds := by
    intro token
    rw [mem_filter, hasToken_iff]
  have distinctFilter := distinct.filter fun tokenId => market.hasToken tokenId
  rw [filter_append, filter_cons, if_pos owned, filter_nil]
  generalize seen.filter (fun tokenId => market.hasToken tokenId) = before
    at progress mem_filter distinctFilter
  match before with
  | [] =>
    obtain ⟨sameReady, sameObserved⟩ := progress
    intro last lastMember ne
    have unseen : last ∉ seen := fun inSeen => by
      have inNil := (mem_filter last).mpr ⟨inSeen, lastMember⟩
      cases inNil
    rw [effect.ready last lastMember ne,
      effect.observed last lastMember ne, sameReady, sameObserved,
      retained last unseen]
    exact ⟨.rfl, by simp [sameReady]⟩
  | [first] =>
    obtain ⟨inSeen, firstMember⟩ := (mem_filter first).mp (by simp)
    have ne : first ≠ tokenId := fun same => fresh (same ▸ inSeen)
    obtain ⟨wasReady, wasObserved⟩ := progress tokenId mem (Ne.symm ne)
    show next.status? market.marketId = some .ready ↔ RecoversWith start market tokenId
    rw [effect.ready first firstMember ne, refreshed first inSeen, wasReady, wasObserved]
    unfold RecoversWith
    tauto
  | first :: second :: rest =>
    obtain ⟨firstSeen, firstMember⟩ := (mem_filter first).mp (by simp)
    obtain ⟨secondSeen, secondMember⟩ := (mem_filter second).mp (by simp)
    have ne : second ≠ first := by
      rintro rfl
      simp at distinctFilter
    -- A market has two tokens, so no third one is left.
    rcases (mem_tokenIds_pair firstMember secondMember ne tokenId).mp mem with rfl | rfl
    · exact absurd firstSeen fresh
    · exact absurd secondSeen fresh

variable {market : MarketRecord}

/-- Progress reads the status of the market and its observed tokens. -/
theorem MarketProgress.congr
    {start state next : CanonicalState} (progress : MarketProgress start state market seen)
    (sameStatus : next.status? market.marketId = state.status? market.marketId)
    (sameObserved : next.observedTokens market.marketId = state.observedTokens market.marketId) :
    MarketProgress start next market seen := by
  match seen with
  | [] | [first] =>
    unfold MarketProgress at progress ⊢
    rwa [sameStatus, sameObserved]
  | first :: last :: rest =>
    unfold MarketProgress at progress ⊢
    rwa [sameStatus]

theorem FullBookEffect.of_identity
    {state next : CanonicalState} {market other : MarketRecord} {tokenId : String}
    (effect : FullBookEffect state next market tokenId) (same : market.identity = other.identity) :
    FullBookEffect state next other tokenId := by
  obtain ⟨book, gaps, ready, observed⟩ := effect
  rw [tokenIds_of_identity same, marketId_of_identity same] at ready observed
  exact ⟨book, gaps, ready, observed⟩

theorem CanonicalState.Plain.of_identity {before after : CanonicalState} (plain : before.Plain)
    (identity : ∀ marketId : String,
      after.markets[marketId]?.map MarketRecord.identity =
        before.markets[marketId]?.map MarketRecord.identity) :
    after.Plain := by
  intro marketId market known active
  obtain ⟨original, stored, same⟩ := exists_of_identity_eq identity known
  rw [← isActive_of_identity same] at active
  obtain ⟨unpriced, ungrouped⟩ := plain marketId original stored active
  constructor
  · rw [← isNone_iff_eq_none, ← Option.isSome_eq_false_iff,
      ← isSome_facts_of_identity same, unpriced]
    rfl
  · have sameGroup := congrArg MarketRecord.negativeRiskGroup same
    exact sameGroup.symm.trans ungrouped

/-- A token event keeps the identity of every market. -/
theorem Phases.identity_next
    {state next : CanonicalState} (phases : Phases platform enforce state event next persisted)
    {market : Attribution} (attributed : attribution state event = some market)
    (tokenEvent : event.kind.isTokenEvent = true) :
    next.catalogRevision = state.catalogRevision ∧
      ∀ marketId : String,
        next.markets[marketId]?.map MarketRecord.identity =
          state.markets[marketId]?.map MarketRecord.identity := by
  obtain ⟨_, sameMarkets, sameCatalog, _⟩ := phases.next_frame
  obtain ⟨_, settledMarkets, settledCatalog⟩ := phases.settled_frame
  obtain ⟨localizedMarkets, localizedCatalog⟩ := phases.localized_catalog attributed tokenEvent
  refine ⟨by rw [sameCatalog, settledCatalog, localizedCatalog], ?_⟩
  intro marketId
  rw [sameMarkets, settledMarkets, phases.reconciliation.identity, localizedMarkets]

/-- The tokens of full books. -/
def fullBookTokens (fulls : List EvaluatedEvent) : List String :=
  fulls.map fun full => full.event.kind.tokenId

/-- The full book of one more active token. -/
theorem ResyncProgress.snoc
    {platform : Platform} {enforce : Bool} {start state next : CanonicalState} {seen : List String}
    {full : EvaluatedEvent} (progress : ResyncProgress start state seen) (plain : start.Plain)
    (startInvariant : Invariant start) (evaluates : Evaluates platform enforce state full next)
    (fresh : isFreshFullBook enforce full.event = true)
    (distinct : (seen ++ [full.event.kind.tokenId]).Nodup) {marketId : String}
    (active : start.ActiveOn marketId full.event.kind.tokenId) :
    ResyncProgress start next (seen ++ [full.event.kind.tokenId]) := by
  obtain ⟨validateRawPayload, evaluated⟩ := evaluates
  obtain ⟨phases⟩ := phases_of_evaluateEvent evaluated
  obtain ⟨record, known, isActive, mem⟩ := active
  have unseen : full.event.kind.tokenId ∉ seen := by
    intro earlier
    exact (nodup_append.mp distinct).2.2 _ earlier _ (by simp) rfl
  obtain ⟨copy, copied, same⟩ := exists_of_identity_eq
    (fun marketId => (progress.identity marketId).symm) known
  obtain rfl := progress.invariant.keyed marketId copy copied
  have copyActive := (isActive_of_identity same).trans isActive
  have copyMember : full.event.kind.tokenId ∈ copy.tokenIds := by
    rw [tokenIds_of_identity same]
    exact mem
  have statePlain := plain.of_identity progress.identity
  obtain ⟨attributed, fullBook, _, _⟩ := phases.fullBookStored progress.invariant statePlain
    fresh copied copyActive copyMember
  have tokenEvent := isTokenEvent_of_isLocallyRecoverable
    (fullBookToken?_isLocallyRecoverable fullBook)
  have effect := (phases.fullBookEffect progress.invariant statePlain fresh copied copyActive
    copyMember).of_identity same
  have outside : OutsideKept copy.marketId full.event.kind.tokenId state next :=
    phases.outsideKept_next attributed tokenEvent
  obtain ⟨sameCatalog, sameIdentity⟩ := phases.identity_next attributed tokenEvent
  refine ⟨phases.invariant_next progress.invariant, sameCatalog.trans progress.installed,
    fun other => (sameIdentity other).trans (progress.identity other), ?_, ?_, ?_, ?_⟩
  · intro gap
    rw [effect.gaps, Finset.mem_erase, progress.gaps, mem_append, mem_singleton]
    tauto
  · intro tokenId absent
    rw [mem_append, mem_singleton, not_or] at absent
    rw [outside.books tokenId absent.2, progress.retained tokenId absent.1]
  · intro tokenId listed
    by_cases here : tokenId = full.event.kind.tokenId
    · obtain ⟨book, present, twoSided⟩ := effect.book
      rw [here, present, any_some, twoSided]
    · rw [outside.books tokenId here]
      exact progress.refreshed tokenId
        ((mem_append.mp listed).resolve_right fun last => here (mem_singleton.mp last))
  · intro otherId other otherKnown otherActive
    by_cases here : otherId = copy.marketId
    · subst here
      rw [known] at otherKnown
      cases otherKnown
      exact (progress.markets copy.marketId record known isActive).snoc effect mem
        (nodup_append.mp distinct).1 unseen progress.retained progress.refreshed
    · have named := startInvariant.keyed otherId other otherKnown
      have foreign : ¬other.hasToken full.event.kind.tokenId = true := by
        rw [hasToken_iff]
        intro shared
        exact here (startInvariant.disjoint otherId copy.marketId other record _ otherKnown
          known shared mem)
      rw [filter_append, filter_cons, if_neg foreign, filter_nil, append_nil]
      refine (progress.markets otherId other otherKnown otherActive).congr ?_ ?_
      · unfold status?
        rw [named, outside.health otherId here]
      · unfold observedTokens
        rw [named, outside.recovery otherId here]

/-- The full books of distinct active tokens. -/
theorem resyncProgress_of_run
    (resync : EvaluationRun platform enforce start fulls final) (invariant : Invariant start)
    (plain : start.Plain) (fresh : ∀ full ∈ fulls, isFreshFullBook enforce full.event = true)
    (distinct : (fullBookTokens fulls).Nodup)
    (active : ∀ tokenId ∈ fullBookTokens fulls, ∃ marketId, start.ActiveOn marketId tokenId) :
    ResyncProgress start final (fullBookTokens fulls) := by
  induction resync with
  | nil => exact resyncProgress_nil invariant
  | @snoc front middle full final before evaluates ih =>
    have tokens : fullBookTokens (front ++ [full]) =
        fullBookTokens front ++ [full.event.kind.tokenId] := by
      simp [fullBookTokens]
    rw [tokens] at distinct active ⊢
    have progress := ih (fun other mem => fresh other (by simp [mem]))
      (nodup_append.mp distinct).1
      (fun tokenId mem => active tokenId (by simp [mem]))
    obtain ⟨marketId, activeOn⟩ := active full.event.kind.tokenId (by simp)
    exact progress.snoc plain invariant evaluates (fresh full (by simp)) distinct activeOn

/-! ## Readiness after the resynchronization -/

/-- With every active book two-sided and nothing priced, readiness is a matter
of gaps and of one public market. -/
theorem Phases.ready_iff_of_complete {state next : CanonicalState}
    (phases : Phases platform enforce state event next persisted) (invariant : Invariant state)
    (plain : next.Plain) (installed : next.catalogRevision.isSome = true)
    (complete : ∀ (marketId : String) (market : MarketRecord),
      next.markets[marketId]? = some market → market.isActive = true →
        ∀ tokenId ∈ market.tokenIds, (next.books[tokenId]?).any Book.isTwoSided = true) :
    next.ready = true ↔
      next.unresolvedGaps = ∅ ∧ ∃ (marketId : String) (market : MarketRecord),
        next.markets[marketId]? = some market ∧ market.isActive = true ∧
          next.status? marketId = some .ready := by
  obtain ⟨sameBooks, sameMarkets, sameCatalog, sameGaps, _, readyEq⟩ := phases.next_frame
  have settledInvariant := phases.invariant_settled invariant
  have consistent : phases.consistent = true := by
    by_contra inconsistent
    obtain ⟨unchanged, _, market, listed, priced, _⟩ :=
      phases.reconciliation.refused (by simpa using inconsistent)
    obtain ⟨⟨marketId, known⟩, active⟩ := mem_activeMarkets.mp listed
    rw [← unchanged, ← phases.settled_frame.2.1, ← sameMarkets] at known
    rw [(plain marketId market known active).1] at priced
    cases priced
  have bare : phases.settled.state.catalogRevision.isNone = false := by
    rw [← sameCatalog, Option.isNone_eq_false_iff]
    exact installed
  have twoSided : ∀ market ∈ phases.settled.state.publicMarkets, ∀ tokenId ∈ market.tokenIds,
      (phases.settled.state.books[tokenId]?).any Book.isTwoSided = true := by
    intro market listed tokenId mem
    obtain ⟨known, active, _⟩ := (mem_publicMarkets settledInvariant.keyed).mp listed
    rw [← sameMarkets] at known
    rw [← sameBooks]
    exact complete _ market known active tokenId mem
  have booksComplete : phases.settled.state.catalogBooksComplete = true := by
    unfold CanonicalState.catalogBooksComplete
    simp only [or_eq_true, all_eq_true]
    refine .inr fun market listed tokenId mem => ?_
    obtain ⟨book, present, _⟩ := (Option.any_eq_true _ _).mp (twoSided market listed tokenId mem)
    rw [contains_eq_isSome_getElem?, present]
    rfl
  have booksTwoSided : phases.settled.state.activeMarketBooksTwoSided = true := by
    unfold CanonicalState.activeMarketBooksTwoSided
    simp only [or_eq_true, all_eq_true]
    exact .inr twoSided
  have usable : phases.settled.state.usableProjection = true ↔
      ∃ (marketId : String) (market : MarketRecord),
        next.markets[marketId]? = some market ∧ market.isActive = true ∧
          next.status? marketId = some .ready := by
    unfold CanonicalState.usableProjection
    rw [bare, if_neg Bool.false_ne_true, not_eq_true', isEmpty_eq_false_iff_exists_mem]
    constructor
    · rintro ⟨market, listed⟩
      obtain ⟨known, active, isPublic⟩ := (mem_publicMarkets settledInvariant.keyed).mp listed
      refine ⟨market.marketId, market, by rw [sameMarkets]; exact known, active, ?_⟩
      rw [phases.status?_next invariant known active]
      exact settledInvariant.ready_of_marketIsPublic known active isPublic
    · rintro ⟨marketId, market, known, active, ready⟩
      rw [sameMarkets] at known
      obtain rfl := settledInvariant.keyed marketId market known
      rw [phases.status?_next invariant known active] at ready
      exact ⟨market, (mem_publicMarkets settledInvariant.keyed).mpr ⟨known, active,
        CanonicalState.marketIsPublic_iff.mpr (.inr ready)⟩⟩
  rw [readyEq, sameGaps, ← usable]
  unfold CanonicalState.readiness
  rw [booksComplete, consistent, booksTwoSided]
  simp

/-- The last of the ordered tokens that belongs to a market. -/
def lastTokenOf (market : MarketRecord) (order : List String) : Option String :=
  (order.filter fun tokenId => market.hasToken tokenId).getLast?

/-- A market recovers when its books arrive in the given order. -/
def Recovers (state : CanonicalState) (order : List String) (market : MarketRecord) : Prop :=
  ∀ last, lastTokenOf market order = some last → RecoversWith state market last

variable {order : List String}

theorem recovers_of_identity
    (same : market.identity = other.identity) :
    Recovers state order market ↔ Recovers state order other := by
  have sameTokens : ∀ tokenId, market.hasToken tokenId = other.hasToken tokenId := by
    intro tokenId
    unfold MarketRecord.hasToken
    rw [outcomes_of_identity same]
  unfold Recovers lastTokenOf RecoversWith
  simp only [sameTokens, marketId_of_identity same]

/-- Both books of a market decide its status. -/
theorem MarketProgress.ready_iff
    (progress : MarketProgress start state market
      (order.filter fun tokenId => market.hasToken tokenId))
    (distinct : order.Nodup)
    (distinctTokens : market.outcomes.first.tokenId ≠ market.outcomes.second.tokenId)
    (complete : ∀ tokenId ∈ market.tokenIds, tokenId ∈ order) :
    state.status? market.marketId = some .ready ↔ Recovers start order market := by
  have mem_filter : ∀ token,
      token ∈ order.filter (fun tokenId => market.hasToken tokenId) ↔
        token = market.outcomes.first.tokenId ∨ token = market.outcomes.second.tokenId := by
    intro token
    rw [mem_filter, hasToken_iff, ← mem_tokenIds]
    exact ⟨fun both => both.2, fun mem => ⟨complete token mem, mem⟩⟩
  have size : (order.filter fun tokenId => market.hasToken tokenId).length = 2 := by
    rw [← toFinset_card_of_nodup (distinct.filter _)]
    have pair : (order.filter fun tokenId => market.hasToken tokenId).toFinset =
        {market.outcomes.first.tokenId, market.outcomes.second.tokenId} := by
      ext token
      rw [mem_toFinset, mem_filter, Finset.mem_insert, Finset.mem_singleton]
    rw [pair, Finset.card_pair distinctTokens]
  obtain ⟨first, last, both⟩ := length_eq_two.mp size
  unfold Recovers lastTokenOf
  rw [both] at progress ⊢
  show state.status? market.marketId = some .ready ↔ _
  refine Iff.trans progress ?_
  simp

/-- The snapshot or the full books of its active tokens close a gap. -/
def ClosesGap (state : CanonicalState) (markets : List MarketRecord) (gap : String) : Prop :=
  isCatalogGap gap = true ∨
    (∃ market ∈ markets, market.isActive = true ∧ gap ∈ market.tokenIds) ∨
    state.LeavesScope (markets ++ retainedResolvedMarkets state markets) gap

theorem isActive_of_mem_listed (mem : market ∈ markets ++ retainedResolvedMarkets state markets)
    (active : market.isActive = true) :
    market ∈ markets := by
  rcases mem_append.mp mem with inEvent | retained
  · exact inEvent
  · unfold retainedResolvedMarkets at retained
    have resolved := (mem_filter.mp retained).2
    simp only [and_eq_true, beq_iff_eq] at resolved
    simp [MarketRecord.isActive, resolved.1] at active

namespace SnapshotApplied

variable {state next : CanonicalState} {markets : List MarketRecord}

section

variable (snapshot : SnapshotApplied state next (markets ++ retainedResolvedMarkets state markets))
include snapshot

/-- The active records after the snapshot are its active markets. -/
theorem exists_of_active
    {marketId : String}
    {record : MarketRecord}
    (known : next.markets[marketId]? = some record)
    (active : record.isActive = true) :
    ∃ market ∈ markets, market.marketId = marketId ∧ market.identity = record.identity := by
  obtain ⟨market, mem, named, same⟩ := (snapshot.markets marketId record.identity).mp
    (by rw [known]; rfl)
  exact ⟨market, isActive_of_mem_listed mem
    ((isActive_of_identity same).trans active), named, same⟩

theorem exists_of_mem
    (mem : market ∈ markets) :
    ∃ record, next.markets[market.marketId]? = some record ∧ record.identity = market.identity := by
  have stored := (snapshot.markets market.marketId market.identity).mpr
    ⟨market, mem_append_left _ mem, rfl, rfl⟩
  exact map_eq_some_iff.mp stored

theorem activeOn_iff
    (tokenId : String) :
    (∃ marketId, next.ActiveOn marketId tokenId) ↔
      ∃ market ∈ markets, market.isActive = true ∧ tokenId ∈ market.tokenIds := by
  constructor
  · rintro ⟨marketId, record, known, active, mem⟩
    obtain ⟨market, inMarkets, _, same⟩ := snapshot.exists_of_active known active
    refine ⟨market, inMarkets, (isActive_of_identity same).trans active, ?_⟩
    rw [tokenIds_of_identity same]
    exact mem
  · rintro ⟨market, inMarkets, active, mem⟩
    obtain ⟨record, known, same⟩ := snapshot.exists_of_mem inMarkets
    refine ⟨market.marketId, record, known, (isActive_of_identity same).trans active, ?_⟩
    rw [tokenIds_of_identity same]
    exact mem

theorem plain
    (unpriced : ∀ market ∈ markets, market.isActive = true →
      market.instrumentFacts = none ∧ market.negativeRiskGroup = none) :
    next.Plain := by
  intro marketId record known active
  obtain ⟨market, inMarkets, _, same⟩ := snapshot.exists_of_active known active
  obtain ⟨noFacts, noGroup⟩ := unpriced market inMarkets ((isActive_of_identity same).trans active)
  constructor
  · rw [← isNone_iff_eq_none, ← Option.isSome_eq_false_iff,
      ← isSome_facts_of_identity same, noFacts]
    rfl
  · exact (congrArg MarketRecord.negativeRiskGroup same).symm.trans noGroup

/-- A snapshot keeps what the recovery of its active markets depends on. -/
theorem recovers_iff_of_snapshot
    (mem : market ∈ markets)
    (active : market.isActive = true)
    (order : List String) :
    Recovers next order market ↔ Recovers state order market := by
  have listed := mem_append_left (retainedResolvedMarkets state markets) mem
  have same : ∀ last, lastTokenOf market order = some last →
      (RecoversWith next market last ↔ RecoversWith state market last) := by
    intro last isLast
    have owned : last ∈ market.tokenIds := by
      have inFilter := mem_of_getLast? isLast
      exact hasToken_iff.mp (mem_filter.mp inFilter).2
    unfold RecoversWith
    rw [snapshot.ready market listed active, snapshot.observed market listed,
      snapshot.books market listed active last owned]
  exact forall₂_congr same

end

end SnapshotApplied

/-- After an applied snapshot of plain active markets and a fresh full book of
each active token, the projection is ready exactly when the snapshot or the
books close every gap it had before, by name, and some active market recovers. -/
theorem resync_ready_iff (platform : Platform) (enforce : Bool) (scopeId catalogRevision : String)
    (labels fulls : List EvaluatedEvent) (state installed final : CanonicalState)
    (snapshot : EvaluatedEvent) (markets : List MarketRecord)
    (relations : List NegativeRiskRelation)
    (run : EvaluationRun platform enforce (.bootstrap scopeId) labels state)
    (evaluates : Evaluates platform enforce state snapshot installed)
    (kind : snapshot.event.kind = .catalogSnapshot catalogRevision markets relations)
    (applied : snapshot.persisted.applied = true)
    (plain : ∀ market ∈ markets, market.isActive = true →
      market.instrumentFacts = none ∧ market.negativeRiskGroup = none)
    (someActive : ∃ market ∈ markets, market.isActive = true)
    (resync : EvaluationRun platform enforce installed fulls final)
    (fresh : ∀ full ∈ fulls, isFreshFullBook enforce full.event = true)
    (distinct : (fullBookTokens fulls).Nodup)
    (complete : ∀ tokenId, tokenId ∈ fullBookTokens fulls ↔
      ∃ market ∈ markets, market.isActive = true ∧ tokenId ∈ market.tokenIds) :
    final.ready = true ↔
      (∀ gap ∈ state.unresolvedGaps, ClosesGap state markets gap) ∧
        ∃ market ∈ markets, market.isActive = true ∧
          Recovers state (fullBookTokens fulls) market := by
  have invariant := (EvaluationRun.held run).invariant
  obtain ⟨validateRawPayload, evaluated⟩ := evaluates
  obtain ⟨phases⟩ := phases_of_evaluateEvent evaluated
  have applies := phases.snapshotApplied invariant kind applied
  have installedInvariant := phases.invariant_next invariant
  have installedPlain := applies.plain plain
  have progress := resyncProgress_of_run resync installedInvariant installedPlain fresh
    distinct fun tokenId member => (applies.activeOn_iff tokenId).mpr ((complete tokenId).mp member)
  have finalPlain := installedPlain.of_identity progress.identity
  have finalInstalled : final.catalogRevision.isSome = true := by
    rw [progress.installed]
    exact applies.installed
  -- Every active market of the final state has both of its new books.
  have books : ∀ (marketId : String) (market : MarketRecord),
      final.markets[marketId]? = some market → market.isActive = true →
        ∀ tokenId ∈ market.tokenIds, (final.books[tokenId]?).any Book.isTwoSided = true := by
    intro marketId market known active tokenId member
    obtain ⟨record, stored, same⟩ := exists_of_identity_eq progress.identity known
    apply progress.refreshed
    rw [complete, ← applies.activeOn_iff]
    refine ⟨marketId, record, stored, (isActive_of_identity same).trans active, ?_⟩
    rw [tokenIds_of_identity same]
    exact member
  have readiness : final.ready = true ↔
      final.unresolvedGaps = ∅ ∧ ∃ (marketId : String) (market : MarketRecord),
        final.markets[marketId]? = some market ∧ market.isActive = true ∧
          final.status? marketId = some .ready := by
    obtain ⟨market, member, active⟩ := someActive
    have nonempty : fulls ≠ [] := by
      rintro rfl
      have listed := (complete market.outcomes.first.tokenId).mpr
        ⟨market, member, active, mem_tokenIds.mpr (.inl rfl)⟩
      cases listed
    obtain ⟨front, full, rfl⟩ := (eq_nil_or_concat fulls).resolve_left nonempty
    rw [concat_eq_append] at resync
    obtain ⟨middle, before, ⟨_, last⟩⟩ := Run.snoc_iff.mp resync
    obtain ⟨lastPhases⟩ := phases_of_evaluateEvent last
    have reached := run.append (.cons ⟨validateRawPayload, evaluated⟩ before)
    exact lastPhases.ready_iff_of_complete (EvaluationRun.held reached).invariant finalPlain
      finalInstalled books
  have gapsClosed : final.unresolvedGaps = ∅ ↔
      ∀ gap ∈ state.unresolvedGaps, ClosesGap state markets gap := by
    have activeListed : ∀ gap,
        (∃ market ∈ markets ++ retainedResolvedMarkets state markets,
          market.isActive = true ∧ gap ∈ market.tokenIds) ↔
        ∃ market ∈ markets, market.isActive = true ∧ gap ∈ market.tokenIds := by
      intro gap
      constructor
      · rintro ⟨market, listed, active, member⟩
        exact ⟨market, isActive_of_mem_listed listed active, active, member⟩
      · rintro ⟨market, inMarkets, active, member⟩
        exact ⟨market, mem_append_left _ inMarkets, active, member⟩
    have left : ∀ gap, gap ∈ final.unresolvedGaps ↔
        gap ∈ state.unresolvedGaps ∧ ¬ClosesGap state markets gap := by
      intro gap
      rw [progress.gaps, applies.gaps, complete, activeListed, ← not_eq_true]
      constructor
      · rintro ⟨⟨present, named, source⟩, unlisted⟩
        refine ⟨present, ?_⟩
        rintro (ofCatalog | listed | leaves)
        · exact named ofCatalog
        · exact unlisted listed
        · rcases source with listed | stays
          · exact unlisted listed
          · exact stays leaves
      · rintro ⟨present, survives⟩
        exact ⟨⟨present, fun ofCatalog => survives (.inl ofCatalog),
          .inr fun leaves => survives (.inr (.inr leaves))⟩,
          fun listed => survives (.inr (.inl listed))⟩
    rw [Finset.eq_empty_iff_forall_notMem]
    refine forall_congr' fun gap => ?_
    rw [left, not_and_not_right]
  have recoveries : ∀ market ∈ markets, market.isActive = true →
      (final.status? market.marketId = some .ready ↔
        Recovers state (fullBookTokens fulls) market) := by
    intro market member active
    obtain ⟨record, stored, same⟩ := applies.exists_of_mem member
    have recordActive := (isActive_of_identity same).trans active
    have covered : ∀ tokenId ∈ record.tokenIds, tokenId ∈ fullBookTokens fulls := by
      intro tokenId owned
      rw [tokenIds_of_identity same] at owned
      exact (complete tokenId).mpr ⟨market, member, active, owned⟩
    rw [← applies.recovers_iff_of_snapshot member active, ← recovers_of_identity same,
      ← marketId_of_identity same]
    exact (progress.markets _ record stored recordActive).ready_iff distinct
      (installedInvariant.distinct _ record stored) covered
  rw [readiness, gapsClosed]
  refine and_congr_right fun _ => ?_
  constructor
  · rintro ⟨marketId, record, known, active, ready⟩
    obtain ⟨stored, installedKnown, same⟩ := exists_of_identity_eq progress.identity known
    obtain ⟨market, member, rfl, marketSame⟩ := applies.exists_of_active installedKnown
      ((isActive_of_identity same).trans active)
    have marketActive := (isActive_of_identity (marketSame.trans same)).trans active
    exact ⟨market, member, marketActive, (recoveries market member marketActive).mp ready⟩
  · rintro ⟨market, member, active, recovers⟩
    obtain ⟨record, stored, same⟩ := applies.exists_of_mem member
    obtain ⟨copy, copied, copySame⟩ := exists_of_identity_eq
      (fun marketId => (progress.identity marketId).symm) stored
    exact ⟨market.marketId, copy, copied, (isActive_of_identity (copySame.trans same)).trans active,
      (recoveries market member active).mpr recovers⟩

/-! ## Gaps that no resynchronization closes -/

/-- A snapshot that its source reports as missing. -/
def sampleMissingSnapshot : CanonicalEvent :=
  { sampleEvent 1 "1" (.catalogSnapshot "c1" [sampleMarket "m1" "t1" "t2"] []) with
    source := { sampleEvidence with missing := true } }

/-- A snapshot of one market. -/
def sampleSnapshot (cursor : Nat) : CanonicalEvent :=
  sampleEvent cursor (toString cursor)
    (.catalogSnapshot "c2" [sampleMarket "m1" "t1" "t2"] [])

/-- The two books of the market. -/
def sampleBooks (cursor : Nat) : List CanonicalEvent :=
  sampleEventsFrom cursor [sampleFullBook "t1", sampleFullBook "t2"]

/-- The scope after the missing snapshot. -/
def sampleUnsynced : CanonicalState × PersistedEvent :=
  sampleStepped (bootstrap "scope") sampleMissingSnapshot (by decide +kernel)

/-- The scope after the snapshot that follows. -/
def sampleResynced : CanonicalState × PersistedEvent :=
  sampleStepped sampleUnsynced.1 (sampleSnapshot 2) (by decide +kernel)

/-- The scope after the full books that follow. -/
def sampleRefreshed : List EvaluatedEvent × CanonicalState :=
  (evaluateAll samplePlatform true sampleResynced.1 (sampleBooks 3)).get (by decide +kernel)

/-- The gap named by the catalog revision of a missing snapshot survives every
book of the next snapshot. -/
theorem catalog_revision_gap_survives :
    ∃ (labels fulls : List EvaluatedEvent) (state installed final : CanonicalState)
      (snapshot : EvaluatedEvent) (markets : List MarketRecord),
      EvaluationRun samplePlatform true (.bootstrap "scope") labels state ∧
        (∀ label ∈ labels, label.event.kind.isTokenEvent = false) ∧
        Evaluates samplePlatform true state snapshot installed ∧
        snapshot.event.kind = .catalogSnapshot "c2" markets [] ∧
        snapshot.event.source.missing = false ∧ snapshot.event.source.delayed = false ∧
        snapshot.persisted.applied = true ∧
        (∀ market ∈ markets, market.isActive = true →
          market.instrumentFacts = none ∧ market.negativeRiskGroup = none) ∧
        (∃ market ∈ markets, market.isActive = true) ∧
        EvaluationRun samplePlatform true installed fulls final ∧
        (∀ full ∈ fulls, isFreshFullBook true full.event = true) ∧
        (fullBookTokens fulls).Nodup ∧
        (∀ tokenId, tokenId ∈ fullBookTokens fulls ↔
          ∃ market ∈ markets, market.isActive = true ∧ tokenId ∈ market.tokenIds) ∧
        final.ready = false := by
  have evidence : evidenceIsValid samplePlatform true sampleMissingSnapshot = true :=
    sampleEvent_valid 1 "1" (.newMarket "")
  have tokens : fullBookTokens sampleRefreshed.1 = ["t1", "t2"] := by decide +kernel
  refine ⟨[⟨sampleMissingSnapshot, sampleUnsynced.2⟩], sampleRefreshed.1, sampleUnsynced.1,
    sampleResynced.1, sampleRefreshed.2, ⟨sampleSnapshot 2, sampleResynced.2⟩,
    [sampleMarket "m1" "t1" "t2"], ?_, ?_, ?_, rfl, rfl, rfl, by decide +kernel, by decide,
    by decide, ?_, by decide +kernel, ?_, ?_, by decide +kernel⟩
  · exact Run.single (evaluates_sampleStepped evidence (by decide) (by decide +kernel))
  · intro label member
    obtain rfl := mem_singleton.mp member
    rfl
  · exact evaluates_sampleStepped (sampleEvent_valid _ _ _) (by decide +kernel) (by decide +kernel)
  · exact evaluateAll_run (fun _ => sampleEvents_valid) (some_get _).symm
  · rw [tokens]
    decide
  · intro tokenId
    rw [tokens]
    simp [sampleMarket, MarketRecord.isActive, MarketRecord.tokenIds, OutcomePair.toList]

/-- The empty scope after a snapshot. -/
def sampleSynced : CanonicalState × PersistedEvent :=
  sampleStepped (bootstrap "scope") (sampleSnapshot 1) (by decide +kernel)

/-- The scope after the snapshot and its full books. -/
def sampleComplete : List EvaluatedEvent × CanonicalState :=
  (evaluateAll samplePlatform true sampleSynced.1 (sampleBooks 2)).get (by decide +kernel)

/-- The empty scope is resynchronized. -/
theorem resync_ready_sample :
    sampleComplete.2.ready = true ↔
      (∀ gap ∈ (bootstrap "scope").unresolvedGaps,
        ClosesGap (.bootstrap "scope") [sampleMarket "m1" "t1" "t2"] gap) ∧
      ∃ market ∈ [sampleMarket "m1" "t1" "t2"], market.isActive = true ∧
        Recovers (.bootstrap "scope") (fullBookTokens sampleComplete.1)
          market := by
  have tokens : fullBookTokens sampleComplete.1 = ["t1", "t2"] := by decide +kernel
  exact resync_ready_iff samplePlatform true "scope" "c2" [] sampleComplete.1
    (.bootstrap "scope") sampleSynced.1 sampleComplete.2
    ⟨sampleSnapshot 1, sampleSynced.2⟩ [sampleMarket "m1" "t1" "t2"] [] .nil
    (evaluates_sampleStepped (sampleEvent_valid _ _ _) (by decide) (by decide +kernel)) rfl
    (by decide +kernel) (by decide) (by decide)
    (evaluateAll_run (fun _ => sampleEvents_valid) (some_get _).symm)
    (by decide +kernel) (by rw [tokens]; decide)
    (by
      intro tokenId
      rw [tokens]
      simp [sampleMarket, MarketRecord.isActive, MarketRecord.tokenIds, OutcomePair.toList])

end MarketCow.Core
