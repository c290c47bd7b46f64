import MarketCow.Core.CatalogStep
import MarketCow.Core.FullBookStep

/-!
# Recovery gaps across a step

A token has a recovery gap while its name is an open gap of the scope or its
quarantine lasts. A step that replaces neither its book nor the scope leaves
the book of such a token alone. The gap moves from one set to the other, and
ends only with the recovery of the whole market.
-/

namespace MarketCow.Core

open Library Finset
open Decision (accept reject)

/-- The kinds that replace part of the scope once they are applied. -/
def EventKind.replacesScope : EventKind → Bool
  | .catalogSnapshot .. => true
  | .marketResolved .. => true
  | _ => false

/-- The token whose book an applied full book replaces. -/
def EvaluatedEvent.refreshedToken? (label : EvaluatedEvent) : Option String :=
  if label.persisted.applied then label.event.kind.fullBookToken? else none

/-- An applied catalog snapshot or resolution. -/
def EvaluatedEvent.replacesScope (label : EvaluatedEvent) : Bool :=
  label.persisted.applied && label.event.kind.replacesScope

/-- The applied full book of a token of the same market ends the market's
recovery: it was ready, or the token's own full book was observed before. -/
def EndsRecovery (state : CanonicalState) (label : EvaluatedEvent) (tokenId : String) : Prop :=
  ∃ marketId refreshed,
    label.refreshedToken? = some refreshed ∧
      refreshed ∈ expectedTokens state marketId ∧ tokenId ∈ expectedTokens state marketId ∧
      (state.status? marketId = some .ready ∨ tokenId ∈ state.observedTokens marketId)

/-- A quarantined token belongs to a market of the catalog. -/
def CanonicalState.QuarantineOwned (state : CanonicalState) : Prop :=
  ∀ tokenId ∈ state.quarantinedTokenIds, ∃ marketId, tokenId ∈ expectedTokens state marketId

variable {state : CanonicalState}

theorem tokenHasRecoveryGap_iff :
    state.tokenHasRecoveryGap tokenId = true ↔
      tokenId ∈ state.unresolvedGaps ∨ tokenId ∈ state.quarantinedTokenIds := by
  unfold CanonicalState.tokenHasRecoveryGap
  rw [or_eq_true, decide_eq_true_iff, decide_eq_true_iff]

theorem mem_expectedTokens :
    tokenId ∈ expectedTokens state marketId ↔
      ∃ market, state.markets[marketId]? = some market ∧ tokenId ∈ market.tokenIds := by
  unfold expectedTokens
  cases known : state.markets[marketId]? with
  | none | some market => simp

/-! ## One phase -/

/-- The book of a token stays and its gap stays open. -/
structure GapHeld
    (tokenId : String) (before after : CanonicalState) : Prop where
  book : after.books[tokenId]? = before.books[tokenId]?
  gap : before.tokenHasRecoveryGap tokenId = true → after.tokenHasRecoveryGap tokenId = true

namespace GapHeld

variable {tokenId : String} {before middle after : CanonicalState}

theorem trans (early : GapHeld tokenId before middle) (late : GapHeld tokenId middle after) :
    GapHeld tokenId before after where
  book := late.book.trans early.book
  gap := fun open_ => late.gap (early.gap open_)

/-- Nothing is taken out of either set. -/
theorem of_subset
    (sameBooks : after.books = before.books) (gaps : before.unresolvedGaps ⊆ after.unresolvedGaps)
    (quarantine : before.quarantinedTokenIds ⊆ after.quarantinedTokenIds) :
    GapHeld tokenId before after where
  book := by rw [sameBooks]
  gap := by
    rw [tokenHasRecoveryGap_iff, tokenHasRecoveryGap_iff]
    exact Or.imp (fun mem => gaps mem) fun mem => quarantine mem

/-- The gap of the affected token turns into its quarantine. -/
theorem quarantineMarket
    (state : CanonicalState) (tokenId marketId affected : String) (sequence : Nat) (reason : String)
    (event : CanonicalEvent) :
    GapHeld tokenId state (quarantineMarket state marketId affected sequence reason event) where
  book := rfl
  gap := by
    rw [tokenHasRecoveryGap_iff, tokenHasRecoveryGap_iff]
    intro held
    by_cases same : tokenId = affected
    · exact .inr (same ▸ mem_insert_self _ _)
    · exact held.imp (fun mem => mem_erase.mpr ⟨same, mem⟩)
        fun mem => mem_insert_of_mem mem

variable {event : CanonicalEvent}

/-- A decision that neither replaces the book of the token nor the scope. -/
theorem decision {enforce : Bool} {decision : Decision}
    (effect : DecisionEffect platform enforce state event decision)
    (gap : state.tokenHasRecoveryGap tokenId = true)
    (unrefreshed : decision.applied = true → event.kind.fullBookToken? ≠ some tokenId)
    (unreplaced : decision.applied = true → event.kind.replacesScope = false) :
    GapHeld tokenId state decision.state := by
  have rejected : ∀ name reason : String,
      GapHeld tokenId state (reject state name reason).state := fun name _ =>
    .of_subset rfl (subset_insert name state.unresolvedGaps) (Finset.Subset.refl _)
  cases effect with
  | sourceRejected => exact rejected _ _
  | superseded => exact .of_subset rfl (Finset.Subset.refl _) (Finset.Subset.refl _)
  | decided _ _ kindEffect =>
    obtain ⟨changes, rewritten⟩ := exists_rewriteEvent_eq_withChanges enforce state event
    have sameToken : (rewriteEvent enforce state event).kind.fullBookToken? =
        event.kind.fullBookToken? := by
      rw [rewritten]
      exact EventKind.fullBookToken?_withChanges _ _
    have sameScope : (rewriteEvent enforce state event).kind.replacesScope =
        event.kind.replacesScope := by
      rw [rewritten]
      unfold CanonicalEvent.withChanges
      cases event.kind <;> rfl
    rw [← sameToken] at unrefreshed
    rw [← sameScope] at unreplaced
    generalize rewriteEvent enforce state event = stored at kindEffect unrefreshed unreplaced
    cases kindEffect with
    | catalogRejected _ => exact rejected _ _
    | catalogInstalled kind _ _ =>
      have replaced := unreplaced rfl
      rw [kind] at replaced
      cases replaced
    | newMarket _ => exact .of_subset rfl (subset_insert _ _) (Finset.Subset.refl _)
    | resolutionRejected _ _ => exact rejected _ _
    | resolved kind _ _ =>
      have replaced := unreplaced rfl
      rw [kind] at replaced
      cases replaced
    | tokenRejected _ _ => exact rejected _ _
    | @fullBook refreshed bids asks tickSize tickVersion kind _ _ _ =>
      have ne : refreshed ≠ tokenId := by
        rintro rfl
        exact unrefreshed rfl (by rw [kind]; rfl)
      refine ⟨?_, ?_⟩
      · simp [accept, CanonicalState.withBook, TreeMap.getElem?_insert, ne]
      · rw [tokenHasRecoveryGap_iff, tokenHasRecoveryGap_iff]
        exact Or.imp_left fun mem => mem_erase.mpr ⟨ne.symm, mem⟩
    | @bookChanged changed _ _ _ continuous _ _ =>
      have ne : changed ≠ tokenId := by
        rintro rfl
        rw [continuous] at gap
        cases gap
      refine ⟨?_, fun held => held⟩
      simp [accept, CanonicalState.withBook, TreeMap.getElem?_insert, ne]

/-- A settlement ends no gap but those of a market whose recovery ends. -/
theorem settlement {market : Attribution} {before after : Assessment}
    (settlement : Settlement market event before after)
    (unfinished : ∀ refreshed, event.kind.fullBookToken? = some refreshed →
      before.isOpen = true → tokenId ∈ expectedTokens before.state market.marketId →
        market.previousMarketStatus ≠ some .ready ∧ tokenId ≠ refreshed ∧
          tokenId ∉ before.state.observedTokens market.marketId) :
    GapHeld tokenId before.state after.state := by
  have closing : ∀ base final : CanonicalState, tokenId ∉ expectedTokens base market.marketId →
      final.books = base.books →
      final.unresolvedGaps = base.unresolvedGaps →
      final.quarantinedTokenIds = (closeRecovery base market.marketId).quarantinedTokenIds →
        GapHeld tokenId base final := by
    intro base final outside sameBooks sameGaps quarantined
    refine ⟨by rw [sameBooks], ?_⟩
    rw [tokenHasRecoveryGap_iff, tokenHasRecoveryGap_iff, sameGaps, quarantined]
    refine Or.imp_right fun mem => mem_sdiff.mpr ⟨mem, fun listed => outside ?_⟩
    unfold expectedTokens
    cases known : base.markets[market.marketId]? with
    | none => rw [known] at listed; simp at listed
    | some record => rw [known] at listed; exact listed
  have incomplete : ∀ refreshed, event.kind.fullBookToken? = some refreshed → before.isOpen = true →
      recoveryIsComplete (observeToken before.state market.marketId refreshed)
        market.marketId = true →
      tokenId ∉ expectedTokens before.state market.marketId := by
    intro refreshed fullBook opened complete mem
    obtain ⟨_, ne, unobserved⟩ := unfinished refreshed fullBook opened mem
    unfold recoveryIsComplete at complete
    rw [and_eq_true, decide_eq_true_iff, decide_eq_true_iff] at complete
    have observed := complete.2 mem
    simp only [observeToken, getElem?_insert_self, getD_some, mem_insert] at observed
    exact observed.elim ne unobserved
  have ready : ∀ refreshed, event.kind.fullBookToken? = some refreshed →
      before.isOpen = true → market.previousMarketStatus = some .ready →
      tokenId ∉ expectedTokens before.state market.marketId :=
    fun refreshed fullBook opened status mem =>
      (unfinished refreshed fullBook opened mem).1 status
  cases settlement with
  | unchanged => exact .of_subset rfl (Finset.Subset.refl _) (Finset.Subset.refl _)
  | excluded => exact .quarantineMarket _ _ _ _ _ _ _
  | kept opened fullBook status _ => exact closing _ _ (ready _ fullBook opened status) rfl rfl rfl
  | dropped opened fullBook status _ =>
    exact (closing _ (closeRecovery before.state market.marketId)
      (ready _ fullBook opened status) rfl rfl rfl).trans (.quarantineMarket _ _ _ _ _ _ _)
  | recovered opened fullBook _ complete _ =>
    exact closing before.state _ (incomplete _ fullBook opened complete) rfl rfl rfl
  | awaiting opened fullBook _ boundary =>
    rcases boundary with ⟨rfl, _⟩ | ⟨rfl, complete, _⟩
    · exact .of_subset rfl (Finset.Subset.refl _) (Finset.Subset.refl _)
    · exact closing before.state _ (incomplete _ fullBook opened complete) rfl rfl rfl

end GapHeld

/-! ## Applied full books -/

variable {platform : Platform} {enforce : Bool} {event : CanonicalEvent}

/-- An applied full book of an active token stores its book and closes its open
gap. -/
theorem decision_of_appliedFullBook
    (effect : DecisionEffect platform enforce state event decision)
    (fullBook : event.kind.fullBookToken? = some tokenId) (applied : decision.applied = true) :
    ∃ book, state.tokenIsActive tokenId = true ∧
      decision = .accept
        { state.withBook tokenId book with
          unresolvedGaps := state.unresolvedGaps.erase tokenId } := by
  obtain ⟨refreshed, bids, asks, tickSize, tickVersion, kind⟩ :
      ∃ refreshed bids asks tickSize tickVersion,
        event.kind = .fullBook refreshed bids asks tickSize tickVersion := by
    cases kind : event.kind with
    | fullBook refreshed bids asks tickSize tickVersion =>
      exact ⟨refreshed, bids, asks, tickSize, tickVersion, rfl⟩
    | _ => rw [kind] at fullBook; cases fullBook
  obtain rfl : refreshed = tokenId := by
    rw [kind] at fullBook
    exact some.inj fullBook
  cases effect with
  | sourceRejected => cases applied
  | superseded _ overtaken =>
    rw [incrementalSupersededByBook_eq_false state (by rw [kind]; rfl)
      (by rw [kind]; rfl)] at overtaken
    cases overtaken
  | decided _ _ kindEffect =>
    rw [rewriteEvent_of_plain _ _ (by rw [kind]; rfl)] at kindEffect
    cases kindEffect with
    | catalogRejected _ => cases applied
    | catalogInstalled other _ _ | newMarket other => rw [kind] at other; cases other
    | resolutionRejected _ other | resolved other _ _ => rw [kind] at other; cases other
    | tokenRejected _ _ => cases applied
    | fullBook other active _ _ =>
      rw [kind] at other
      cases other
      exact ⟨_, active, rfl⟩
    | bookChanged _ _ _ changed =>
      cases changed with
      | delta other _ _ _ | atomicDelta other _ _ _ => rw [kind] at other; cases other
      | bestBidAsk other | lastTradePrice other => rw [kind] at other; cases other
      | tickSizeChange other _ _ => rw [kind] at other; cases other

variable {persisted : PersistedEvent} {market : Attribution}

/-- The tokens of the attributed market are the same before an event of one
token and once its ticks are reconciled. -/
theorem Phases.expectedTokens_reconciled
    (phases : Phases platform enforce state event next persisted)
    (attributed : attribution state event = some market)
    (tokenEvent : event.kind.isTokenEvent = true) (marketId : String) :
    expectedTokens phases.reconciled marketId = expectedTokens state marketId := by
  have sameMarkets := (phases.localized_catalog attributed tokenEvent).1
  calc
    expectedTokens phases.reconciled marketId = expectedTokens phases.localized.state marketId :=
      expectedTokens_of_identity phases.reconciliation.identity marketId
    _ = expectedTokens state marketId := MarketLocal.expectedTokens_eq sameMarkets marketId

/-! ## One step -/

namespace Phases

variable {platform : Platform} {enforce : Bool}
  {state next : CanonicalState} {event : CanonicalEvent} {persisted : PersistedEvent}

theorem fullBookToken?_stored (phases : Phases platform enforce state event next persisted) :
    persisted.event.kind.fullBookToken? = event.kind.fullBookToken? := by
  obtain ⟨changes, stored⟩ := phases.exists_withChanges
  rw [stored]
  exact EventKind.fullBookToken?_withChanges _ _

variable (phases : Phases platform enforce state event next persisted)

/-- Nothing rejects an event that settles openly. -/
theorem accepted_of_isOpen (opened : phases.localized.isOpen = true) :
    phases.decision.rejected = none ∧ phases.localized.state = phases.decision.state := by
  have localization := phases.localization
  generalize phases.localized = localized at localization opened
  cases localization with
  | fault => cases opened
  | passed =>
    refine ⟨?_, rfl⟩
    simpa [Assessment.isOpen] using opened

/-- The market of an applied full book, with the status it had. -/
theorem attribution_of_appliedFullBook
    (invariant : Invariant state) (attributed : attribution state event = some market)
    (fullBook : event.kind.fullBookToken? = some refreshed)
    (applied : phases.decision.applied = true) :
    refreshed ∈ expectedTokens state market.marketId ∧
      market.previousMarketStatus = state.status? market.marketId := by
  have tokenEvent := isTokenEvent_of_isLocallyRecoverable
    (fullBookToken?_isLocallyRecoverable fullBook)
  have named : event.kind.tokenId = refreshed := by
    cases kind : event.kind with
    | fullBook other _ _ _ _ =>
      rw [kind] at fullBook
      exact some.inj fullBook
    | _ => rw [kind] at fullBook; cases fullBook
  obtain ⟨record, known, mem⟩ := owner_of_attribution invariant attributed tokenEvent
  rw [named] at mem
  refine ⟨mem_expectedTokens.mpr ⟨record, known, mem⟩, ?_⟩
  obtain ⟨book, active, _⟩ := decision_of_appliedFullBook phases.decided fullBook applied
  obtain ⟨health, admitted, _, kept⟩ := admittedState_eq state event
  obtain ⟨marketId, _, rfl⟩ := attribution_eq_some_iff.mp attributed
  have installed : state.catalogRevision.isSome = true := by
    cases revision : state.catalogRevision with
    | none =>
      have absent := invariant.bare revision (attributeTo (admittedState state event)
        marketId).marketId
      rw [absent] at known
      cases known
    | some _ => rfl
  rw [admitted] at active
  have admittedActive : state.tokenIsActive refreshed = true := active
  obtain ⟨owner, listed, ownerKnown, ownerActive, ownerMember⟩ :=
    exists_activeOn_of_tokenIsActive admittedActive installed
  have same : owner = marketId :=
    invariant.disjoint owner marketId listed record refreshed ownerKnown known ownerMember mem
  subst same
  have recorded := invariant.health owner listed ownerKnown ownerActive
  unfold CanonicalState.status?
  dsimp only [attributeTo]
  rw [admitted]
  exact congrArg (Option.map MarketProjectionHealth.projectionStatus) (kept owner recorded)

/-- A decision that replaces neither the book nor the scope keeps the book of a token with
a gap, and its gap. -/
theorem gapDecided (phases : Phases platform enforce state event next persisted)
    (gap : state.tokenHasRecoveryGap tokenId = true)
    (unrefreshed : persisted.applied = true → event.kind.fullBookToken? ≠ some tokenId)
    (unreplaced : persisted.applied = true → event.kind.replacesScope = false) :
    GapHeld tokenId state phases.decision.state := by
  obtain ⟨health, shape, _, _⟩ := admittedState_eq state event
  have admitted : GapHeld tokenId state (admittedState state event) := by
    rw [shape]
    exact .of_subset rfl (Finset.Subset.refl _) (Finset.Subset.refl _)
  rw [phases.applied_eq] at unrefreshed unreplaced
  exact admitted.trans (.decision phases.decided (admitted.gap gap) unrefreshed unreplaced)

/-- A step that replaces neither the book nor the scope and ends no recovery
keeps the gap of a token. -/
theorem gapHeld
    (phases : Phases platform enforce state event next persisted) (invariant : Invariant state)
    (gap : state.tokenHasRecoveryGap tokenId = true)
    (unrefreshed : persisted.applied = true → event.kind.fullBookToken? ≠ some tokenId)
    (unreplaced : persisted.applied = true → event.kind.replacesScope = false)
    (unended : ¬EndsRecovery state { event := event, persisted := persisted } tokenId) :
    GapHeld tokenId state next := by
  obtain ⟨health, shape, _, _⟩ := admittedState_eq state event
  have decided := phases.gapDecided gap unrefreshed unreplaced
  rw [phases.applied_eq] at unrefreshed
  have localized : GapHeld tokenId phases.decision.state phases.localized.state := by
    have localization := phases.localization
    generalize phases.localized = localized at localization
    cases localization with
    | fault => exact .quarantineMarket _ _ _ _ _ _ _
    | passed => exact .of_subset rfl (Finset.Subset.refl _) (Finset.Subset.refl _)
  have reconciled : GapHeld tokenId phases.localized.state phases.reconciled := by
    rw [phases.reconciliation.onlyMarkets]
    exact .of_subset rfl (Finset.Subset.refl _) (Finset.Subset.refl _)
  have settled : GapHeld tokenId phases.reconciled phases.settled.state := by
    cases attributed : attribution state event with
    | none =>
      rw [phases.unattributed attributed]
      exact .of_subset rfl (Finset.Subset.refl _) (Finset.Subset.refl _)
    | some market =>
      refine .settlement (phases.settlement market attributed) ?_
      intro refreshed stored opened mem
      have fullBook := phases.fullBookToken?_stored.symm.trans stored
      obtain ⟨accepted, passed⟩ := phases.accepted_of_isOpen opened
      have applied := phases.decided.applied accepted
      obtain ⟨owned, previous⟩ :=
        phases.attribution_of_appliedFullBook invariant attributed fullBook applied
      have listed : tokenId ∈ expectedTokens state market.marketId := by
        rw [← phases.expectedTokens_reconciled attributed
          (isTokenEvent_of_isLocallyRecoverable (fullBookToken?_isLocallyRecoverable fullBook))]
        exact mem
      have refreshes : ({ event := event, persisted := persisted } :
          EvaluatedEvent).refreshedToken? = some refreshed := by
        unfold EvaluatedEvent.refreshedToken?
        rw [phases.applied_eq, applied, if_pos rfl, fullBook]
      have sameRecovery : phases.reconciled.observedTokens market.marketId =
          state.observedTokens market.marketId := by
        obtain ⟨_, _, decision⟩ := decision_of_appliedFullBook phases.decided fullBook applied
        rw [phases.reconciliation.onlyMarkets, passed, decision, shape]
        rfl
      have open_ : ¬(state.status? market.marketId = some .ready ∨
          tokenId ∈ state.observedTokens market.marketId) :=
        fun ends => unended ⟨market.marketId, refreshed, refreshes, owned, listed, ends⟩
      rw [not_or, ← previous, ← sameRecovery] at open_
      refine ⟨open_.1, ?_, open_.2⟩
      rintro rfl
      exact unrefreshed applied fullBook
  have concluded : GapHeld tokenId phases.settled.state next := by
    obtain ⟨books, _, _, gaps, quarantine, _⟩ := phases.next_frame
    exact .of_subset books (Finset.Subset.refl _ |>.trans_eq gaps.symm)
      (Finset.Subset.refl _ |>.trans_eq quarantine.symm)
  exact ((decided.trans localized).trans reconciled).trans (settled.trans concluded)

end Phases

/-! ## The refreshed token -/

/-- A token without a gap, or a quarantined one of a market that is not ready. -/
def ClearOrHeld (state : CanonicalState) (marketId tokenId : String) : Prop :=
  state.tokenHasRecoveryGap tokenId = false ∨
    (tokenId ∈ state.quarantinedTokenIds ∧ tokenId ∈ expectedTokens state marketId ∧
      state.status? marketId ≠ some .ready)

variable {marketId tokenId : String}

theorem clear_of_notMem
    (noGap : tokenId ∉ state.unresolvedGaps) (released : tokenId ∉ state.quarantinedTokenIds) :
    ClearOrHeld state marketId tokenId := by
  refine .inl (Bool.eq_false_iff.mpr fun gap => ?_)
  exact (tokenHasRecoveryGap_iff.mp gap).elim noGap released

theorem notMem_quarantined_closeRecovery
    (state : CanonicalState) (owned : tokenId ∈ expectedTokens state marketId) :
    tokenId ∉ (closeRecovery state marketId).quarantinedTokenIds := by
  obtain ⟨market, known, mem⟩ := mem_expectedTokens.mp owned
  unfold closeRecovery
  rw [known]
  intro quarantined
  exact (mem_sdiff.mp quarantined).2 (List.mem_toFinset.mpr mem)

/-- The settlement of a full book of a token whose open gap it closed. -/
theorem clearOrHeld_of_settlement
    (settlement : Settlement market event before after) (opened : before.isOpen = true)
    (fullBook : event.kind.fullBookToken? = some tokenId) (named : event.kind.tokenId = tokenId)
    (owned : tokenId ∈ expectedTokens before.state market.marketId)
    (noGap : tokenId ∉ before.state.unresolvedGaps) :
    ClearOrHeld after.state market.marketId tokenId := by
  cases settlement with
  | unchanged same =>
    have other := (same opened).1
    rw [fullBook] at other
    cases other
  | excluded _ other _ _ _ =>
    rw [fullBook] at other
    cases other
  | kept _ _ _ _ =>
    exact clear_of_notMem noGap (notMem_quarantined_closeRecovery before.state owned)
  | dropped _ _ _ _ =>
    refine .inr ⟨?_, owned, ?_⟩
    · rw [← named]
      exact mem_insert_self _ _
    · exact (status?_quarantineMarket _ _ _ _ _ _).trans_ne (by decide)
  | recovered _ _ _ _ _ =>
    exact clear_of_notMem noGap (notMem_quarantined_closeRecovery
      (observeToken before.state market.marketId _) owned)
  | awaiting _ _ _ boundary =>
    rcases boundary with ⟨rfl, _⟩ | ⟨rfl, _, _⟩
    · by_cases quarantined : tokenId ∈ before.state.quarantinedTokenIds
      · refine .inr ⟨quarantined, owned, ?_⟩
        exact (CanonicalState.status?_upsertHealth_self _ _ _ _ .recovering
          fun _ => rfl).trans_ne (by decide)
      · exact clear_of_notMem noGap quarantined
    · exact clear_of_notMem noGap (notMem_quarantined_closeRecovery
        (observeToken before.state market.marketId _) owned)

namespace Phases

variable {platform : Platform} {enforce : Bool}
  {state next : CanonicalState} {event : CanonicalEvent} {persisted : PersistedEvent}

/-- An applied full book of a token clears its gaps, or leaves its market out of
the ready ones and the token quarantined. -/
theorem clearOrHeld
    (phases : Phases platform enforce state event next persisted) (invariant : Invariant state)
    (owned : state.QuarantineOwned) (fullBook : event.kind.fullBookToken? = some tokenId)
    (applied : persisted.applied = true) :
    ∃ marketId, ClearOrHeld next marketId tokenId := by
  have tokenEvent := isTokenEvent_of_isLocallyRecoverable
    (fullBookToken?_isLocallyRecoverable fullBook)
  rw [phases.applied_eq] at applied
  obtain ⟨book, active, decision⟩ := decision_of_appliedFullBook phases.decided fullBook applied
  obtain ⟨health, shape, _, _⟩ := admittedState_eq state event
  have accepted : phases.decision.rejected = none := by rw [decision]; rfl
  obtain ⟨passed, opened⟩ : phases.localized.state = phases.decision.state ∧
      phases.localized.isOpen = true := by
    have localization := phases.localization
    generalize phases.localized = localized at localization
    cases localization with
    | fault _ rejected _ => rw [accepted] at rejected; cases rejected
    | passed => exact ⟨rfl, by rw [accepted]; rfl⟩
  have gaps : phases.reconciled.unresolvedGaps = state.unresolvedGaps.erase tokenId := by
    rw [phases.reconciliation.onlyMarkets, passed, decision, shape]
    rfl
  have quarantine : phases.reconciled.quarantinedTokenIds = state.quarantinedTokenIds := by
    rw [phases.reconciliation.onlyMarkets, passed, decision, shape]
    rfl
  obtain ⟨_, sameMarkets, _, sameGaps, sameQuarantine, _⟩ := phases.next_frame
  cases attributed : attribution state event with
  | none =>
    refine ⟨"", clear_of_notMem ?_ ?_⟩
    · rw [sameGaps, phases.unattributed attributed, gaps]
      exact notMem_erase _ _
    · rw [sameQuarantine, phases.unattributed attributed, quarantine]
      intro quarantined
      obtain ⟨marketId, mem⟩ := owned tokenId quarantined
      obtain ⟨market, known, listed⟩ := mem_expectedTokens.mp mem
      have named : eventMarketId state event.kind = some marketId := by
        rw [eventMarketId_of_fullBookToken? fullBook]
        exact invariant.marketIdForToken known listed
      have absent : attribution state event =
          some (attributeTo (admittedState state event) marketId) :=
        attribution_eq_some_iff.mpr ⟨marketId, named, rfl⟩
      rw [attributed] at absent
      cases absent
  | some market =>
    have mem := (phases.attribution_of_appliedFullBook invariant attributed fullBook applied).1
    rw [← phases.expectedTokens_reconciled attributed tokenEvent] at mem
    have named : persisted.event.kind.tokenId = tokenId := by
      rw [phases.stored_tokenId]
      cases kind : event.kind with
      | fullBook other _ _ _ _ =>
        rw [kind] at fullBook
        exact some.inj fullBook
      | _ => rw [kind] at fullBook; cases fullBook
    have settled := clearOrHeld_of_settlement (phases.settlement market attributed) opened
      (phases.fullBookToken?_stored.trans fullBook) named mem (by
        rw [gaps]
        exact notMem_erase _ _)
    refine ⟨market.marketId, ?_⟩
    rcases settled with clear | ⟨quarantined, listed, notReady⟩
    · refine .inl ?_
      unfold CanonicalState.tokenHasRecoveryGap at clear ⊢
      rw [sameGaps, sameQuarantine]
      exact clear
    · refine .inr ⟨sameQuarantine ▸ quarantined, ?_, fun ready => notReady ?_⟩
      · rwa [MarketLocal.expectedTokens_eq sameMarkets]
      · rw [phases.next_eq] at ready
        have assessed : (phases.settled.state.assessReadiness phases.consistent
            phases.settled.rejected).status? market.marketId = some .ready :=
          ready_of_recordAttributed ready
        exact assessed

end Phases

/-! ## Quarantined tokens belong to the catalog -/

namespace CanonicalState.QuarantineOwned

theorem bootstrap (scopeId : String) : (CanonicalState.bootstrap scopeId).QuarantineOwned := by
  intro tokenId quarantined
  exact absurd quarantined (notMem_empty _)

variable {before after : CanonicalState}

/-- The tokens of every market and the quarantine are the same. -/
theorem of_same (owned : before.QuarantineOwned)
    (sameTokens : ∀ marketId, expectedTokens after marketId = expectedTokens before marketId)
    (sameQuarantine : after.quarantinedTokenIds = before.quarantinedTokenIds) :
    after.QuarantineOwned := by
  intro tokenId quarantined
  rw [sameQuarantine] at quarantined
  obtain ⟨marketId, mem⟩ := owned tokenId quarantined
  exact ⟨marketId, by rwa [sameTokens]⟩

/-- A change of one market quarantines only tokens of this market. -/
theorem marketLocal
    (owned : before.QuarantineOwned) (frame : MarketLocal marketId affected before after)
    (ofMarket : affected ∈ expectedTokens before marketId) :
    after.QuarantineOwned := by
  have sameTokens := MarketLocal.expectedTokens_eq frame.markets
  intro tokenId quarantined
  by_cases same : tokenId = affected
  · exact ⟨marketId, by rw [sameTokens, same]; exact ofMarket⟩
  · by_cases listed : tokenId ∈ expectedTokens before marketId
    · exact ⟨marketId, by rwa [sameTokens]⟩
    · obtain ⟨other, mem⟩ :=
        owned tokenId ((frame.quarantine tokenId same listed).mp quarantined)
      exact ⟨other, by rwa [sameTokens]⟩

/-- The decision of a step. -/
theorem decision {decision : Decision} (owned : state.QuarantineOwned)
    (effect : DecisionEffect platform enforce state event decision) :
    decision.state.QuarantineOwned := by
  cases effect with
  | sourceRejected => exact owned.of_same (fun _ => rfl) rfl
  | superseded => exact owned
  | decided _ _ kindEffect =>
    cases kindEffect with
    | catalogRejected _ => exact owned.of_same (fun _ => rfl) rfl
    | catalogInstalled _ _ valid =>
      have indexes := validatedCatalog_indexes valid
      intro tokenId quarantined
      obtain ⟨active, _⟩ :=
        (CanonicalState.mem_quarantinedTokenIds_installCatalog _ _ _ _).mp quarantined
      obtain ⟨market, listed, _, mem⟩ := (indexes.active tokenId).mp active
      refine ⟨market.marketId, mem_expectedTokens.mpr ⟨market, ?_, mem⟩⟩
      dsimp only [accept]
      rw [CanonicalState.markets_installCatalog]
      exact (indexes.market market.marketId market).mpr ⟨listed, rfl⟩
    | newMarket _ | resolutionRejected _ _ => exact owned.of_same (fun _ => rfl) rfl
    | @resolved conditionId marketId winningTokenId winningOutcome market _ _ known =>
      obtain ⟨relations, gaps, shape⟩ := resolveMarket_eq platform
        (rewriteEvent enforce state event) conditionId winningTokenId
        winningOutcome state marketId market
      refine owned.of_same (fun other => ?_) (by
        dsimp only [accept]
        rw [shape])
      dsimp only [accept]
      rw [shape]
      unfold expectedTokens
      rw [TreeMap.getElem?_insert]
      simp only [compare_eq_iff_eq]
      by_cases same : marketId = other
      · subst same
        rw [if_pos rfl, known]
        rfl
      · rw [if_neg same]
    | tokenRejected _ _ | fullBook _ _ _ _ => exact owned.of_same (fun _ => rfl) rfl
    | bookChanged _ _ _ _ => exact owned.of_same (fun _ => rfl) rfl

end CanonicalState.QuarantineOwned

/-- One step keeps the quarantined tokens within the catalog. -/
theorem Phases.quarantineOwned
    (phases : Phases platform enforce state event next persisted) (invariant : Invariant state)
    (owned : state.QuarantineOwned) :
    next.QuarantineOwned := by
  obtain ⟨health, shape, _, _⟩ := admittedState_eq state event
  have admitted : (admittedState state event).QuarantineOwned := by
    rw [shape]
    exact owned.of_same (fun _ => rfl) rfl
  have decided := admitted.decision phases.decided
  have localized : phases.localized.state.QuarantineOwned := by
    have localization := phases.localization
    generalize phases.localized = localized at localization
    cases localization with
    | passed => exact decided
    | @fault market reason attributed rejected recoverable =>
      have tokenEvent : event.kind.isTokenEvent = true := by
        rw [phases.stored_isLocallyRecoverable] at recoverable
        exact isTokenEvent_of_isLocallyRecoverable recoverable
      have fault : Localization (some market) persisted.event phases.decision
          { state := quarantineMarket phases.decision.state market.marketId
              persisted.event.kind.tokenId market.marketSequence reason persisted.event
            rejected := none
            transition := some .quarantined
            reasonCode := some reason } := .fault rfl rejected recoverable
      refine decided.marketLocal (marketLocal_of_localization fault) ?_
      rw [phases.stored_tokenId]
      exact mem_expectedTokens.mpr (phases.owner_of_isTokenEvent invariant attributed tokenEvent)
  have reconciled : phases.reconciled.QuarantineOwned := by
    refine localized.of_same (expectedTokens_of_identity phases.reconciliation.identity) ?_
    rw [phases.reconciliation.onlyMarkets]
  have settled : phases.settled.state.QuarantineOwned := by
    cases attributed : attribution state event with
    | none =>
      rw [phases.unattributed attributed]
      exact reconciled
    | some market =>
      rcases phases.isTokenEvent_of_settlement attributed with same | tokenEvent
      · rw [same]
        exact reconciled
      · refine reconciled.marketLocal
          (marketLocal_of_settlement (phases.settlement market attributed)) ?_
        rw [phases.stored_tokenId]
        exact mem_expectedTokens.mpr (phases.owner_reconciled invariant attributed tokenEvent)
  obtain ⟨_, sameMarkets, _, _, sameQuarantine, _⟩ := phases.next_frame
  exact settled.of_same (MarketLocal.expectedTokens_eq sameMarkets) sameQuarantine

/-- In every reachable state the quarantined tokens belong to the catalog. -/
theorem EvaluationRun.quarantineOwned
    (run : EvaluationRun platform enforce (.bootstrap scopeId) labels state) :
    state.QuarantineOwned := by
  induction run with
  | nil => exact .bootstrap scopeId
  | snoc earlier evaluates ih =>
    obtain ⟨validated, evaluated⟩ := evaluates
    obtain ⟨phases⟩ := phases_of_evaluateEvent evaluated
    exact phases.quarantineOwned (EvaluationRun.invariant earlier) ih

/-! ## Every run -/

/-- A gap of the first token, and the token's own full book after it. -/
def sampleObserved : List EvaluatedEvent × CanonicalState :=
  (evaluateAll samplePlatform true (CanonicalState.bootstrap "scope")
    (sampleEvents [.catalogSnapshot "r1" [sampleMarket "m" "t1" "t2"] [],
      .sourceGap "t1" "upstream_disconnected", sampleFullBook "t1"])).get
        (by decide +kernel)

theorem sampleObserved_run :
    EvaluationRun samplePlatform true (.bootstrap "scope") sampleObserved.1
      sampleObserved.2 :=
  evaluateAll_run (fun _ mem => sampleEvents_valid mem) (some_get _).symm

/-- The step of the next event. -/
def sampleAfterObserved (kind : EventKind)
    (succeeds : (stepEvent samplePlatform true sampleObserved.2
      (sampleEvent 4 "4" kind)).toOption.isSome = true) :
    CanonicalState × PersistedEvent :=
  sampleStepped sampleObserved.2 (sampleEvent 4 "4" kind) succeeds

theorem sampleAfterObserved_evaluates (kind : EventKind)
    (succeeds : (stepEvent samplePlatform true sampleObserved.2
      (sampleEvent 4 "4" kind)).toOption.isSome = true) :
    Evaluates samplePlatform true sampleObserved.2
      { event := sampleEvent 4 "4" kind, persisted := (sampleAfterObserved kind succeeds).2 }
      (sampleAfterObserved kind succeeds).1 := by
  have follows : isNext sampleObserved.2 (sampleEvent 4 "4" (sampleFullBook "t2")) = true := by
    decide +kernel
  exact evaluates_sampleStepped (sampleEvent_valid 4 "4" kind) follows succeeds

/-- A delta of the first token. -/
def sampleGapDelta : EventKind := .delta "t1" .bid [⟨1 / 4, 2⟩]

/-- A token that is quarantined or has a book belongs to one market of the catalog, and
a market is found under its name and from its condition. -/
theorem tokens_owned_once
    (platform : Platform) (enforce : Bool) (scopeId : String) (labels : List EvaluatedEvent)
    (state : CanonicalState)
    (run : EvaluationRun platform enforce (.bootstrap scopeId) labels state) :
    (∀ tokenId ∈ state.quarantinedTokenIds, ∃! marketId, tokenId ∈ expectedTokens state marketId) ∧
    (∀ (tokenId : String) book, state.books[tokenId]? = some book → book.WellFormed ∧
      (state.catalogRevision.isSome = true → ∃ marketId, state.ActiveOn marketId tokenId ∧
        ∀ other, tokenId ∈ expectedTokens state other → other = marketId)) ∧
    ∀ (marketId : String) market, state.markets[marketId]? = some market →
      market.marketId = marketId ∧
        state.conditionToMarket[market.conditionId]? = some marketId ∧
          (market.isActive = true → state.marketHealth[marketId]?.isSome = true) := by
  have invariant := run.invariant
  have once : ∀ tokenId marketId other, tokenId ∈ expectedTokens state marketId →
      tokenId ∈ expectedTokens state other → other = marketId := by
    intro tokenId marketId other named listed
    obtain ⟨market, known, member⟩ := mem_expectedTokens.mp named
    obtain ⟨second, there, shared⟩ := mem_expectedTokens.mp listed
    exact invariant.disjoint other marketId second market tokenId there known shared member
  refine ⟨?_, ?_, ?_⟩
  · intro tokenId quarantined
    obtain ⟨marketId, named⟩ := run.quarantineOwned tokenId quarantined
    exact ⟨marketId, named, fun other => once tokenId marketId other named⟩
  · intro tokenId book stored
    refine ⟨invariant.booksWellFormed tokenId book stored, fun installed => ?_⟩
    obtain ⟨marketId, market, known, active, member⟩ :=
      invariant.booksActive installed tokenId book stored
    exact ⟨marketId, ⟨market, known, active, member⟩, fun other =>
      once tokenId marketId other (mem_expectedTokens.mpr ⟨market, known, member⟩)⟩
  · intro marketId market known
    exact ⟨invariant.keyed marketId market known,
      (invariant.condition _ _).mpr ⟨market, known, rfl⟩, invariant.health marketId market known⟩

theorem tokens_owned_once_sample :
    ∃ book, sampleObserved.2.books["t1"]? = some book ∧ book.WellFormed ∧
      ∃ marketId, sampleObserved.2.ActiveOn marketId "t1" := by
  obtain ⟨book, stored⟩ := isSome_iff_exists.mp
    (by decide +kernel : sampleObserved.2.books["t1"]?.isSome = true)
  obtain ⟨sound, owned⟩ :=
    (tokens_owned_once samplePlatform true "scope" _ _ sampleObserved_run).2.1 "t1" book stored
  obtain ⟨marketId, active, _⟩ := owned (by decide +kernel)
  exact ⟨book, stored, sound, marketId, active⟩

end MarketCow.Core
