import MarketCow.Core.DecisionEffect

/-!
# What the end of a step may touch

Quarantine, recovery and market metadata edit the records of one market and of
its tokens. `MarketLocal` says so for one phase and composes over phases. The
position of a scope (its counters, its name and its duplicate window) changes
at the start and at the end of a step only.
-/

namespace MarketCow.Core

open Library

/-! ## Position -/

/-- The fields a step advances by itself. -/
structure Position where
  generation : Nat
  cursor : Nat
  persistedCursor : Nat
  scopeId : String
  recentEventIds : List String

namespace CanonicalState

def position (state : CanonicalState) : Position where
  generation := state.generation
  cursor := state.cursor
  persistedCursor := state.persistedCursor
  scopeId := state.scopeId
  recentEventIds := state.recentEventIds

variable (state : CanonicalState)

@[simp] theorem position_admitExecutableMarket (marketId : String) :
    (state.admitExecutableMarket marketId).position = state.position := by
  unfold admitExecutableMarket
  split <;> rfl

@[simp] theorem position_pruneStaleScopeGaps (state : CanonicalState) :
    state.pruneStaleScopeGaps.position = state.position := by
  unfold pruneStaleScopeGaps
  dsimp only
  split <;> rfl

@[simp] theorem position_installCatalog (catalogRevision : String) (catalog : CatalogState) :
    (state.installCatalog catalogRevision catalog).position = state.position := by
  have monitored : ∀ (state : CanonicalState) (market : MarketRecord),
      (state.monitorMarket catalogRevision market).position = state.position := by
    intro state market
    have copied : ∀ (state : CanonicalState) (outcome : OutcomeToken),
        (state.monitorBook outcome).position = state.position := by
      intro state outcome
      unfold monitorBook
      split <;> rfl
    exact Fallible.foldl_observed position copied _ _
  have released : ∀ (state : CanonicalState) (market : MarketRecord),
      (state.releaseMarket market).position = state.position := by
    intro state market
    unfold releaseMarket
    split <;> rfl
  have ensured : ∀ (state : CanonicalState) (market : MarketRecord),
      (state.ensureHealth market).position = state.position := fun _ _ => rfl
  unfold installCatalog
  rw [position_pruneStaleScopeGaps]
  exact (Fallible.foldl_observed position ensured _ _).trans
    ((Fallible.foldl_observed position released _ _).trans
      (Fallible.foldl_observed position monitored _ _))

@[simp] theorem position_resolveMarket
    (platform : Platform) (event : CanonicalEvent) (conditionId : String)
    (winningTokenId winningOutcome : Option String) (state : CanonicalState) (marketId : String)
    (market : MarketRecord) :
    (state.resolveMarket platform event conditionId winningTokenId winningOutcome marketId
      market).position = state.position := by
  have dropped : ∀ (state : CanonicalState) (outcome : OutcomeToken),
      (state.dropOutcome outcome).position = state.position := fun _ _ => rfl
  unfold resolveMarket
  cases market.negativeRiskGroup with
  | none | some groupId => exact Fallible.foldl_observed position dropped _ _

end CanonicalState

/-- No decision moves the position. -/
theorem position_of_decideEvent
    (decided : decideEvent platform enforceSourceFreshness state event = .ok decision) :
    decision.state.position = state.position := by
  cases decisionEffect_of_decideEvent decided with
  | sourceRejected | superseded => rfl
  | decided _ _ effect =>
    cases effect with
    | catalogInstalled => exact CanonicalState.position_installCatalog _ _ _
    | resolved => exact CanonicalState.position_resolveMarket _ _ _ _ _ _ _ _
    | _ => rfl

/-! ## Market-local phases -/

/-- One phase edits only the records of a market and of its tokens. -/
structure MarketLocal
    (marketId tokenId : String) (before after : CanonicalState) : Prop where
  position : after.position = before.position
  books : after.books = before.books
  catalogRevision : after.catalogRevision = before.catalogRevision
  markets : after.markets = before.markets
  conditionToMarket : after.conditionToMarket = before.conditionToMarket
  relations : after.negativeRiskRelations = before.negativeRiskRelations
  monitoringMarkets : after.monitoringMarkets = before.monitoringMarkets
  monitoringBooks : after.monitoringBooks = before.monitoringBooks
  marketHealth : ∀ other, other ≠ marketId →
    after.marketHealth[other]? = before.marketHealth[other]?
  healthKept : ∀ other : String, before.marketHealth[other]?.isSome = true →
    after.marketHealth[other]?.isSome = true
  recovery : ∀ other, other ≠ marketId →
    after.marketRecoveryTokenIds[other]? = before.marketRecoveryTokenIds[other]?
  quarantine : ∀ other, other ≠ tokenId → other ∉ expectedTokens before marketId →
    (other ∈ after.quarantinedTokenIds ↔ other ∈ before.quarantinedTokenIds)
  tokenHealth : ∀ other, other ≠ tokenId → other ∉ expectedTokens before marketId →
    after.tokenHealth[other]? = before.tokenHealth[other]?
  gaps : ∀ gap, gap ≠ tokenId → (gap ∈ after.unresolvedGaps ↔ gap ∈ before.unresolvedGaps)
  noNewGap : after.unresolvedGaps ⊆ before.unresolvedGaps

namespace MarketLocal

variable {marketId tokenId : String}

theorem refl (state : CanonicalState) : MarketLocal marketId tokenId state state := by
  constructor <;> simp

theorem expectedTokens_eq (sameMarkets : after.markets = before.markets) (marketId : String) :
    expectedTokens after marketId = expectedTokens before marketId := by
  unfold expectedTokens
  rw [sameMarkets]

theorem trans (first : MarketLocal marketId tokenId before middle)
    (second : MarketLocal marketId tokenId middle after) :
    MarketLocal marketId tokenId before after := by
  have sameTokens := expectedTokens_eq first.markets marketId
  constructor
  · rw [second.position, first.position]
  · rw [second.books, first.books]
  · rw [second.catalogRevision, first.catalogRevision]
  · rw [second.markets, first.markets]
  · rw [second.conditionToMarket, first.conditionToMarket]
  · rw [second.relations, first.relations]
  · rw [second.monitoringMarkets, first.monitoringMarkets]
  · rw [second.monitoringBooks, first.monitoringBooks]
  · intro other ne
    rw [second.marketHealth other ne, first.marketHealth other ne]
  · exact fun other present => second.healthKept other (first.healthKept other present)
  · intro other ne
    rw [second.recovery other ne, first.recovery other ne]
  · intro other ne unexpected
    rw [second.quarantine other ne (by rwa [sameTokens]), first.quarantine other ne unexpected]
  · intro other ne unexpected
    rw [second.tokenHealth other ne (by rwa [sameTokens]), first.tokenHealth other ne unexpected]
  · intro gap ne
    rw [second.gaps gap ne, first.gaps gap ne]
  · exact second.noNewGap.trans first.noNewGap

end MarketLocal

variable (state : CanonicalState)

/-- Looking up the health of a market after a change. -/
theorem getElem?_marketHealth_upsertHealth
    (marketId other : String) (catalogRevision : Option String)
    (change : MarketProjectionHealth → MarketProjectionHealth) :
    (state.upsertHealth marketId catalogRevision change).marketHealth[other]? =
      if marketId = other then
        some (change ((state.marketHealth[marketId]?).getD
          (MarketProjectionHealth.recovering marketId state.generation catalogRevision)))
      else state.marketHealth[other]? := by
  simp [CanonicalState.upsertHealth, TreeMap.getElem?_insert]

variable (marketId tokenId : String)

theorem marketLocal_upsertHealth
    (catalogRevision : Option String) (change : MarketProjectionHealth → MarketProjectionHealth) :
    MarketLocal marketId tokenId state (state.upsertHealth marketId catalogRevision change) :=
  { MarketLocal.refl state with
    marketHealth := by
      intro other ne
      rw [getElem?_marketHealth_upsertHealth, if_neg (Ne.symm ne)]
    healthKept := by
      intro other present
      rw [getElem?_marketHealth_upsertHealth]
      split
      · rfl
      · exact present }

theorem marketLocal_quarantineMarket (sequence : Nat) (reason : String) (event : CanonicalEvent) :
    MarketLocal marketId tokenId state
      (quarantineMarket state marketId tokenId sequence reason event) := by
  unfold quarantineMarket
  refine MarketLocal.trans ?_ (marketLocal_upsertHealth _ _ _ _ _)
  exact
    { @MarketLocal.refl marketId tokenId state with
      recovery := by
        intro other ne
        simp [TreeMap.getElem?_insert, Ne.symm ne]
      quarantine := by
        intro other ne _
        simp [ne]
      tokenHealth := by
        intro other ne _
        simp [TreeMap.getElem?_insert, Ne.symm ne]
      gaps := by
        intro gap ne
        simp [ne]
      noNewGap := Finset.erase_subset _ _ }

theorem marketLocal_observeToken (marketId tokenId : String) :
    MarketLocal marketId tokenId state (observeToken state marketId tokenId) :=
  { MarketLocal.refl state with
    recovery := by
      intro other ne
      simp [observeToken, TreeMap.getElem?_insert, Ne.symm ne] }

theorem marketLocal_closeRecovery (marketId tokenId : String) :
    MarketLocal marketId tokenId state (closeRecovery state marketId) :=
  { MarketLocal.refl state with
    recovery := by
      intro other ne
      simp [closeRecovery, getElem?_erase, Ne.symm ne]
    quarantine := by
      intro other _ unexpected
      unfold closeRecovery expectedTokens at *
      cases known : state.markets[marketId]? with
      | none => simp
      | some market =>
        simp only [known, elim_some] at unexpected ⊢
        rw [Finset.mem_sdiff]
        exact and_iff_left unexpected
    tokenHealth := by
      intro other _ unexpected
      unfold closeRecovery expectedTokens at *
      cases known : state.markets[marketId]? with
      | none => simp
      | some market =>
        simp only [known, elim_some, List.mem_toFinset] at unexpected ⊢
        rw [TreeMap.getElem?_foldl_erase, if_neg unexpected] }

end MarketCow.Core
