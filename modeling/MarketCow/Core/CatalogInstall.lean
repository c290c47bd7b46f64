import MarketCow.Core.DecisionEffect

/-!
# What a catalog replacement leaves

The fields of a state after `installCatalog`, one lemma for each, in terms of
the state before and of the validated catalog.
-/

namespace MarketCow.Core

open Library List

namespace CanonicalState

/-! ## Pruning stale gaps -/

/-- The fields that pruning leaves alone. -/
theorem pruneStaleScopeGaps_eq (state : CanonicalState) :
    ∃ ready failClosedReason, state.pruneStaleScopeGaps =
      { state with
        unresolvedGaps := state.unresolvedGaps.filter fun gap => !state.isStaleScopeGap gap
        ready := ready
        failClosedReason := failClosedReason } := by
  unfold pruneStaleScopeGaps
  dsimp only
  split
  · exact ⟨_, _, rfl⟩
  · exact ⟨state.ready, state.failClosedReason, rfl⟩

/-! ## Sub-phases -/

/-- The fields that neither retaining nor releasing a market touches. -/
structure ScanFields where
  books : TreeMap String Book
  quarantinedTokenIds : Finset String
  tokenHealth : TreeMap String TokenProjectionHealth
  marketRecoveryTokenIds : TreeMap String (Finset String)
  unresolvedGaps : Finset String
  generation : Nat

def scanFields (state : CanonicalState) : ScanFields where
  books := state.books
  quarantinedTokenIds := state.quarantinedTokenIds
  tokenHealth := state.tokenHealth
  marketRecoveryTokenIds := state.marketRecoveryTokenIds
  unresolvedGaps := state.unresolvedGaps
  generation := state.generation

variable (state : CanonicalState)

theorem scanFields_monitorBook (outcome : OutcomeToken) :
    (state.monitorBook outcome).scanFields = state.scanFields := by
  unfold monitorBook
  split <;> rfl

variable (catalogRevision : String)

theorem scanFields_monitorMarket (state : CanonicalState) (market : MarketRecord) :
    (state.monitorMarket catalogRevision market).scanFields = state.scanFields :=
  Fallible.foldl_observed scanFields scanFields_monitorBook _ _

theorem scanFields_releaseMarket (market : MarketRecord) :
    (state.releaseMarket market).scanFields = state.scanFields := by
  unfold releaseMarket
  split <;> rfl

/-- The state in which the indexes are replaced. -/
def releasedState
    (state : CanonicalState) (catalogRevision : String) (catalog : CatalogState) : CanonicalState :=
  catalog.markets.valueList.foldl releaseMarket
    ((removedActiveMarkets state catalog.markets).foldl (monitorMarket catalogRevision) state)

theorem scanFields_releasedState (catalog : CatalogState) :
    (state.releasedState catalogRevision catalog).scanFields = state.scanFields :=
  (Fallible.foldl_observed scanFields scanFields_releaseMarket _ _).trans
    (Fallible.foldl_observed scanFields (scanFields_monitorMarket catalogRevision) _ _)

/-- The fields other than market health. -/
def withoutHealth (state : CanonicalState) : CanonicalState :=
  { state with marketHealth := ∅ }

variable (markets : List MarketRecord)

theorem withoutHealth_foldl_ensureHealth (state : CanonicalState) :
    (markets.foldl ensureHealth state).withoutHealth = state.withoutHealth := by
  have ensured : ∀ (state : CanonicalState) (market : MarketRecord),
      (state.ensureHealth market).withoutHealth = state.withoutHealth := fun _ _ => rfl
  exact Fallible.foldl_observed withoutHealth ensured _ _

theorem eq_of_withoutHealth
    {state base : CanonicalState} (same : state.withoutHealth = base.withoutHealth) :
    ∃ marketHealth, state = { base with marketHealth := marketHealth } := by
  refine ⟨state.marketHealth, ?_⟩
  cases state
  cases base
  simp only [withoutHealth, CanonicalState.mk.injEq] at same ⊢
  tauto

/-- A catalog replacement in its parts. -/
theorem installCatalog_eq (catalog : CatalogState) :
    state.installCatalog catalogRevision catalog =
      (((state.releasedState catalogRevision catalog).replaceIndexes catalogRevision
          catalog).activeMarkets.foldl ensureHealth
        ((state.releasedState catalogRevision catalog).replaceIndexes catalogRevision
          catalog)).closeCatalogGaps.pruneStaleScopeGaps := rfl

/-! ## The fields after a replacement -/

section Fields

variable (state : CanonicalState) (catalogRevision : String) (catalog : CatalogState)

/-- Away from market health, gaps and readiness the indexes decide. -/
theorem installCatalog_fields :
    ∃ unresolvedGaps marketHealth ready failClosedReason,
      state.installCatalog catalogRevision catalog =
        { (state.releasedState catalogRevision catalog).replaceIndexes catalogRevision catalog with
          unresolvedGaps := unresolvedGaps
          marketHealth := marketHealth
          ready := ready
          failClosedReason := failClosedReason } := by
  have rest := withoutHealth_foldl_ensureHealth
    ((state.releasedState catalogRevision catalog).replaceIndexes catalogRevision
      catalog).activeMarkets
    ((state.releasedState catalogRevision catalog).replaceIndexes catalogRevision catalog)
  rw [installCatalog_eq]
  generalize ((state.releasedState catalogRevision catalog).replaceIndexes catalogRevision
    catalog).activeMarkets.foldl ensureHealth _ = healthy at rest ⊢
  obtain ⟨marketHealth, rfl⟩ := eq_of_withoutHealth rest
  obtain ⟨ready, reason, pruned⟩ := pruneStaleScopeGaps_eq
    { (state.releasedState catalogRevision catalog).replaceIndexes catalogRevision catalog with
      marketHealth := marketHealth }.closeCatalogGaps
  exact ⟨_, marketHealth, ready, reason, pruned⟩

@[simp] theorem catalogRevision_installCatalog :
    (state.installCatalog catalogRevision catalog).catalogRevision = some catalogRevision := by
  obtain ⟨_, _, _, _, same⟩ := state.installCatalog_fields catalogRevision catalog
  rw [same]
  rfl

@[simp] theorem markets_installCatalog :
    (state.installCatalog catalogRevision catalog).markets = catalog.markets := by
  obtain ⟨_, _, _, _, same⟩ := state.installCatalog_fields catalogRevision catalog
  rw [same]
  rfl

@[simp] theorem conditionToMarket_installCatalog :
    (state.installCatalog catalogRevision catalog).conditionToMarket =
      catalog.conditionToMarket := by
  obtain ⟨_, _, _, _, same⟩ := state.installCatalog_fields catalogRevision catalog
  rw [same]
  rfl

theorem getElem?_books_installCatalog (tokenId : String) :
    (state.installCatalog catalogRevision catalog).books[tokenId]? =
      if tokenId ∈ catalog.activeTokens then state.books[tokenId]? else none := by
  obtain ⟨_, _, _, _, same⟩ := state.installCatalog_fields catalogRevision catalog
  have scanned := congrArg ScanFields.books (state.scanFields_releasedState catalogRevision catalog)
  simp only [scanFields] at scanned
  rw [same]
  simp only [replaceIndexes, scanned]
  rw [getElem?_filterKeys _ fun tokenId => decide (tokenId ∈ catalog.activeTokens)]
  simp

theorem mem_quarantinedTokenIds_installCatalog (tokenId : String) :
    tokenId ∈ (state.installCatalog catalogRevision catalog).quarantinedTokenIds ↔
      tokenId ∈ catalog.activeTokens ∧ tokenId ∈ state.quarantinedTokenIds := by
  obtain ⟨_, _, _, _, same⟩ := state.installCatalog_fields catalogRevision catalog
  have scanned := congrArg ScanFields.quarantinedTokenIds
    (state.scanFields_releasedState catalogRevision catalog)
  simp only [scanFields] at scanned
  rw [same]
  simp only [replaceIndexes, scanned, Finset.mem_filter]
  exact and_comm

theorem getElem?_marketRecoveryTokenIds_installCatalog (marketId : String) :
    (state.installCatalog catalogRevision catalog).marketRecoveryTokenIds[marketId]? =
      if catalog.markets.contains marketId = true then
        state.marketRecoveryTokenIds[marketId]?
      else none := by
  obtain ⟨_, _, _, _, same⟩ := state.installCatalog_fields catalogRevision catalog
  have scanned := congrArg ScanFields.marketRecoveryTokenIds
    (state.scanFields_releasedState catalogRevision catalog)
  simp only [scanFields] at scanned
  rw [same]
  simp only [replaceIndexes, scanned]
  rw [getElem?_filterKeys _ fun marketId => catalog.markets.contains marketId]

end Fields

/-! ## Market health after a replacement -/

/-- Retaining a market changes the health of that market only. -/
theorem getElem?_marketHealth_monitorMarket
    (state : CanonicalState) (market : MarketRecord) (marketId : String) :
    (state.monitorMarket catalogRevision market).marketHealth[marketId]? =
      if market.marketId = marketId then
        some (((state.marketHealth[market.marketId]?).getD
          (MarketProjectionHealth.recovering market.marketId state.generation
            (some catalogRevision))).removedFromScan state.generation catalogRevision)
      else state.marketHealth[marketId]? := by
  have copied : ∀ (state : CanonicalState) (outcome : OutcomeToken),
      (fun state : CanonicalState => (state.marketHealth, state.generation))
          (state.monitorBook outcome) = (state.marketHealth, state.generation) := by
    intro state outcome
    unfold monitorBook
    split <;> rfl
  have same := Fallible.foldl_observed
    (fun state : CanonicalState => (state.marketHealth, state.generation)) copied
    market.outcomes.toList state
  obtain ⟨sameHealth, sameGeneration⟩ := Prod.mk.inj same
  unfold monitorMarket upsertHealth
  simp only [sameHealth, sameGeneration, TreeMap.getElem?_insert, compare_eq_iff_eq]

theorem marketHealth_releaseMarket (market : MarketRecord) :
    (state.releaseMarket market).marketHealth = state.marketHealth := by
  unfold releaseMarket
  split <;> rfl

/-- Every record of ready health is an old one. -/
def ReadyWithin (before after : CanonicalState) : Prop :=
  ∀ (marketId : String) (health : MarketProjectionHealth),
    after.marketHealth[marketId]? = some health → health.projectionStatus = .ready →
      before.marketHealth[marketId]? = some health

theorem ReadyWithin.trans (early : ReadyWithin first second) (late : ReadyWithin second third) :
    ReadyWithin first third := fun marketId health present ready =>
  early marketId health (late marketId health present ready) ready

theorem readyWithin_foldl_monitorMarket (state : CanonicalState) :
    ReadyWithin state (markets.foldl (monitorMarket catalogRevision) state) := by
  induction markets generalizing state with
  | nil => exact fun _ _ present _ => present
  | cons market markets ih =>
    refine ReadyWithin.trans ?_ (ih _)
    intro marketId health present ready
    rw [getElem?_marketHealth_monitorMarket] at present
    split at present
    · cases present
      cases ready
    · exact present

/-- The health of a market that no retained market is named after. -/
theorem getElem?_marketHealth_foldl_monitorMarket
    {markets : List MarketRecord} {state : CanonicalState} {marketId : String}
    (others : ∀ market ∈ markets, market.marketId ≠ marketId) :
    (markets.foldl (monitorMarket catalogRevision) state).marketHealth[marketId]? =
      state.marketHealth[marketId]? := by
  induction markets generalizing state with
  | nil => rfl
  | cons market markets ih =>
    rw [foldl_cons, ih fun other mem =>
        others other (by simp [mem]),
      getElem?_marketHealth_monitorMarket, if_neg (others market (by simp))]

/-- Completing the health records keeps those that exist. -/
theorem getElem?_marketHealth_foldl_ensureHealth :
    (markets.foldl ensureHealth state).marketHealth[marketId]? =
      if marketId ∈ markets.map MarketRecord.marketId then
        some ((state.marketHealth[marketId]?).getD
          (MarketProjectionHealth.recovering marketId state.generation state.catalogRevision))
      else state.marketHealth[marketId]? := by
  induction markets generalizing state with
  | nil => simp
  | cons market markets ih =>
    rw [foldl_cons, ih]
    simp only [ensureHealth, upsertHealth, id_eq, TreeMap.getElem?_insert,
      compare_eq_iff_eq, map_cons, mem_cons]
    by_cases later : marketId ∈ markets.map MarketRecord.marketId
    · by_cases here : market.marketId = marketId
      · subst here
        simp [later]
      · simp [later, here]
    · by_cases here : market.marketId = marketId
      · subst here
        simp [later]
      · have ne : ¬marketId = market.marketId := fun same => here same.symm
        simp [later, here, ne]

section Health

variable (state : CanonicalState) (catalogRevision : String) (catalog : CatalogState)

theorem marketHealth_installCatalog :
    (state.installCatalog catalogRevision catalog).marketHealth =
      (((state.releasedState catalogRevision catalog).replaceIndexes catalogRevision
          catalog).activeMarkets.foldl ensureHealth
        ((state.releasedState catalogRevision catalog).replaceIndexes catalogRevision
          catalog)).marketHealth := by
  rw [installCatalog_eq]
  obtain ⟨_, _, pruned⟩ := pruneStaleScopeGaps_eq
    (((state.releasedState catalogRevision catalog).replaceIndexes catalogRevision
        catalog).activeMarkets.foldl ensureHealth
      ((state.releasedState catalogRevision catalog).replaceIndexes catalogRevision
        catalog)).closeCatalogGaps
  rw [pruned]
  rfl

theorem marketHealth_releasedState :
    (state.releasedState catalogRevision catalog).marketHealth =
      ((removedActiveMarkets state catalog.markets).foldl (monitorMarket catalogRevision)
        state).marketHealth :=
  Fallible.foldl_observed CanonicalState.marketHealth marketHealth_releaseMarket _ _

/-- A replacement makes no market ready. -/
theorem readyWithin_installCatalog :
    ReadyWithin state (state.installCatalog catalogRevision catalog) := by
  intro marketId health present ready
  rw [marketHealth_installCatalog, getElem?_marketHealth_foldl_ensureHealth] at present
  have replaced : ((state.releasedState catalogRevision catalog).replaceIndexes
      catalogRevision catalog).marketHealth[marketId]? = some health := by
    split at present
    · cases known : ((state.releasedState catalogRevision catalog).replaceIndexes
        catalogRevision catalog).marketHealth[marketId]? with
      | none =>
        rw [known] at present
        cases present
        cases ready
      | some old =>
        rw [known] at present
        exact present
    · exact present
  have released : (state.releasedState catalogRevision catalog).marketHealth[marketId]? =
      some health := by
    simp only [replaceIndexes] at replaced
    rw [getElem?_filterKeys _ fun marketId =>
      (catalog.markets[marketId]?).any MarketRecord.isActive ||
        (state.releasedState catalogRevision catalog).monitoringMarkets.contains marketId]
      at replaced
    split at replaced
    · exact replaced
    · cases replaced
  rw [marketHealth_releasedState] at released
  exact readyWithin_foldl_monitorMarket catalogRevision _ state marketId health released ready

/-- An active market of the catalog keeps its health record or starts a
recovering one. -/
theorem getElem?_marketHealth_installCatalog
    (listed : catalog.markets[marketId]? = some market) (active : market.isActive = true)
    (keyed : market.marketId = marketId) :
    (state.installCatalog catalogRevision catalog).marketHealth[marketId]? =
      some ((state.marketHealth[marketId]?).getD
        (MarketProjectionHealth.recovering marketId state.generation (some catalogRevision))) := by
  have mem : marketId ∈ ((state.releasedState catalogRevision catalog).replaceIndexes
      catalogRevision catalog).activeMarkets.map MarketRecord.marketId := by
    refine mem_map.mpr ⟨market, ?_, keyed⟩
    unfold activeMarkets
    exact mem_filter.mpr ⟨mem_valueList.mpr ⟨marketId, listed⟩, active⟩
  have sameGeneration := congrArg ScanFields.generation
    (state.scanFields_releasedState catalogRevision catalog)
  have retained : ((state.releasedState catalogRevision catalog).replaceIndexes
      catalogRevision catalog).marketHealth[marketId]? = state.marketHealth[marketId]? := by
    simp only [replaceIndexes]
    rw [getElem?_filterKeys _ fun marketId =>
        (catalog.markets[marketId]?).any MarketRecord.isActive ||
          (state.releasedState catalogRevision catalog).monitoringMarkets.contains marketId,
      if_pos (by simp [listed, active]), marketHealth_releasedState]
    apply getElem?_marketHealth_foldl_monitorMarket
    intro removed inRemoved same
    unfold removedActiveMarkets at inRemoved
    have absent := (mem_filter.mp inRemoved).2
    rw [same] at absent
    simp only [not_eq_true', contains_eq_isSome_getElem?, listed,
      Option.isSome_some, Bool.true_eq_false] at absent
  rw [marketHealth_installCatalog, getElem?_marketHealth_foldl_ensureHealth, if_pos mem, retained]
  simp only [scanFields] at sameGeneration
  simp only [replaceIndexes, sameGeneration]

end Health

end CanonicalState

end MarketCow.Core
