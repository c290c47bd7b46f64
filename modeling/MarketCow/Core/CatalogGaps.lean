import MarketCow.Core.Invariant

/-!
# Gaps after a catalog replacement

A replacement closes the gaps of the catalog itself and the gaps of tokens that
are known only from monitored markets; every other gap stays.
-/

namespace MarketCow.Core

open Library List

namespace CanonicalState

variable (catalogRevision : String)

theorem monitoringMarkets_monitorMarket (state : CanonicalState) (market : MarketRecord) :
    (state.monitorMarket catalogRevision market).monitoringMarkets =
      state.monitoringMarkets.insert market.marketId market := by
  have copied : ∀ (state : CanonicalState) (outcome : OutcomeToken),
      (state.monitorBook outcome).monitoringMarkets = state.monitoringMarkets := by
    intro state outcome
    unfold monitorBook
    split <;> rfl
  have same := Fallible.foldl_observed CanonicalState.monitoringMarkets copied
    market.outcomes.toList state
  unfold monitorMarket
  simp only [upsertHealth, same]

variable {markets : List MarketRecord} {state : CanonicalState}

/-- The monitored markets after the removed ones were added: the last removed
market of a name, or the one before. -/
theorem getElem?_monitoringMarkets_foldl_monitorMarket :
    (markets.foldl (monitorMarket catalogRevision) state).monitoringMarkets[marketId]? =
        some market →
      (market ∈ markets ∧ market.marketId = marketId) ∨
        ((∀ other ∈ markets, other.marketId ≠ marketId) ∧
          state.monitoringMarkets[marketId]? = some market) := by
  induction markets generalizing state with
  | nil => exact fun present => .inr ⟨by simp, present⟩
  | cons first markets ih =>
    intro present
    rcases ih present with ⟨mem, named⟩ | ⟨absent, before⟩
    · exact .inl ⟨mem_cons_of_mem _ mem, named⟩
    · rw [monitoringMarkets_monitorMarket, TreeMap.getElem?_insert] at before
      simp only [compare_eq_iff_eq] at before
      split at before
      · rename_i here
        cases before
        exact .inl ⟨by simp, here⟩
      · rename_i ne
        refine .inr ⟨?_, before⟩
        intro other mem
        rcases mem_cons.mp mem with rfl | later
        · exact ne
        · exact absent other later

theorem isSome_monitoringMarkets_foldl_monitorMarket
    (known : (∃ other ∈ markets, other.marketId = marketId) ∨
      state.monitoringMarkets[marketId]?.isSome = true) :
    (markets.foldl (monitorMarket catalogRevision) state).monitoringMarkets[marketId]?.isSome =
      true := by
  induction markets generalizing state with
  | nil =>
    rcases known with ⟨_, mem, _⟩ | present
    · cases mem
    · exact present
  | cons first markets ih =>
    apply ih
    rw [monitoringMarkets_monitorMarket, TreeMap.getElem?_insert]
    simp only [compare_eq_iff_eq]
    split
    · exact .inr rfl
    · rename_i ne
      rcases known with ⟨other, mem, named⟩ | present
      · rcases mem_cons.mp mem with rfl | later
        · exact absurd named ne
        · exact .inl ⟨other, later, named⟩
      · exact .inr present

theorem getElem?_monitoringMarkets_releaseMarket
    (state : CanonicalState) (market : MarketRecord) (marketId : String) :
    (state.releaseMarket market).monitoringMarkets[marketId]? =
      if market.marketId = marketId then none else state.monitoringMarkets[marketId]? := by
  unfold releaseMarket
  split
  · rename_i absent
    split
    · rename_i here
      rw [← here, absent]
    · rfl
  · simp only [getElem?_erase, compare_eq_iff_eq]

theorem getElem?_monitoringMarkets_foldl_releaseMarket :
    (markets.foldl releaseMarket state).monitoringMarkets[marketId]? =
      if marketId ∈ markets.map MarketRecord.marketId then none
      else state.monitoringMarkets[marketId]? := by
  induction markets generalizing state with
  | nil => simp
  | cons market markets ih =>
    rw [foldl_cons, ih, getElem?_monitoringMarkets_releaseMarket]
    by_cases later : marketId ∈ markets.map MarketRecord.marketId
    · simp [later]
    · by_cases here : market.marketId = marketId
      · simp [later, here]
      · have ne : ¬marketId = market.marketId := fun same => here same.symm
        simp [later, here, ne]

end CanonicalState

namespace CatalogState.Indexes

variable {catalog : CatalogState} {markets : List MarketRecord} {marketId : String}

/-- The index names the markets it was built from. -/
theorem absent_iff (indexes : catalog.Indexes markets) :
    catalog.markets[marketId]? = none ↔ ∀ other ∈ markets, other.marketId ≠ marketId := by
  constructor
  · rintro absent other mem rfl
    rw [(indexes.market _ other).mpr ⟨mem, rfl⟩] at absent
    cases absent
  · intro foreign
    cases known : catalog.markets[marketId]? with
    | none => rfl
    | some other =>
      obtain ⟨mem, named⟩ := (indexes.market marketId other).mp known
      exact absurd named (foreign other mem)

theorem mem_marketIds (indexes : catalog.Indexes markets) :
    marketId ∈ catalog.markets.valueList.map MarketRecord.marketId ↔
      ∃ market, catalog.markets[marketId]? = some market := by
  rw [mem_map]
  constructor
  · rintro ⟨market, mem, rfl⟩
    obtain ⟨key, known⟩ := mem_valueList.mp mem
    rw [((indexes.market key market).mp known).2]
    exact ⟨market, known⟩
  · rintro ⟨market, known⟩
    exact ⟨market, mem_valueList.mpr ⟨marketId, known⟩,
      ((indexes.market marketId market).mp known).2⟩

end CatalogState.Indexes

namespace CanonicalState

/-- A token of a market that a replacement leaves in the monitored markets. -/
def LeavesScope (state : CanonicalState) (listed : List MarketRecord) (tokenId : String) : Prop :=
  ∃ (marketId : String) (market : MarketRecord),
    (∀ other ∈ listed, other.marketId ≠ marketId) ∧ tokenId ∈ market.tokenIds ∧
      (state.markets[marketId]? = some market ∧ market.isActive = true ∨
        state.monitoringMarkets[marketId]? = some market ∧
          ∀ current, state.markets[marketId]? = some current → current.isActive = false)

variable {state : CanonicalState}

/-- The active markets that a new catalog no longer lists, by their records. -/
theorem mem_removedActiveMarkets (keyed : state.Keyed) :
    market ∈ removedActiveMarkets state catalog ↔
      state.markets[market.marketId]? = some market ∧ market.isActive = true ∧
        catalog[market.marketId]? = none := by
  unfold removedActiveMarkets
  rw [mem_filter, mem_activeMarkets, not_eq_true',
    contains_eq_isSome_getElem?, Option.isSome_eq_false_iff,
    isNone_iff_eq_none]
  constructor
  · rintro ⟨⟨⟨key, known⟩, active⟩, absent⟩
    rw [← keyed key market known] at known
    exact ⟨known, active, absent⟩
  · rintro ⟨known, active, absent⟩
    exact ⟨⟨⟨_, known⟩, active⟩, absent⟩

variable {catalog : CatalogState} {markets : List MarketRecord}

section

variable (keyed : state.Keyed) (catalogRevision : String) (indexes : catalog.Indexes markets)
include keyed catalogRevision indexes

/-- The monitored markets after a replacement: an active market that the
catalog drops, or a monitored one that it does not list. -/
theorem getElem?_monitoringMarkets_releasedState
    (marketId : String) (market : MarketRecord) :
    (state.releasedState catalogRevision catalog).monitoringMarkets[marketId]? = some market ↔
      (∀ other ∈ markets, other.marketId ≠ marketId) ∧
        (state.markets[marketId]? = some market ∧ market.isActive = true ∨
          state.monitoringMarkets[marketId]? = some market ∧
            ∀ current, state.markets[marketId]? = some current → current.isActive = false) := by
  unfold releasedState
  constructor
  · intro present
    rw [getElem?_monitoringMarkets_foldl_releaseMarket] at present
    split at present
    · cases present
    · rename_i unlisted
      have absent : catalog.markets[marketId]? = none := by
        cases known : catalog.markets[marketId]? with
        | none => rfl
        | some other => exact absurd (indexes.mem_marketIds.mpr ⟨other, known⟩) unlisted
      refine ⟨indexes.absent_iff.mp absent, ?_⟩
      rcases getElem?_monitoringMarkets_foldl_monitorMarket catalogRevision present with
        ⟨inRemoved, rfl⟩ | ⟨others, before⟩
      · obtain ⟨known, active, _⟩ := (mem_removedActiveMarkets keyed).mp inRemoved
        exact .inl ⟨known, active⟩
      · refine .inr ⟨before, ?_⟩
        intro current known
        rw [← not_eq_true]
        intro active
        have named := keyed marketId current known
        refine others current ((mem_removedActiveMarkets keyed).mpr ?_) named
        rw [named]
        exact ⟨known, active, absent⟩
  · rintro ⟨foreign, source⟩
    have absent := indexes.absent_iff.mpr foreign
    have unlisted : marketId ∉ catalog.markets.valueList.map MarketRecord.marketId := by
      rw [indexes.mem_marketIds]
      rintro ⟨other, known⟩
      rw [absent] at known
      cases known
    have present : ((removedActiveMarkets state catalog.markets).foldl
        (monitorMarket catalogRevision) state).monitoringMarkets[marketId]?.isSome = true := by
      apply isSome_monitoringMarkets_foldl_monitorMarket
      rcases source with ⟨known, active⟩ | ⟨before, _⟩
      · have named := keyed marketId market known
        refine .inl ⟨market, (mem_removedActiveMarkets keyed).mpr ?_, named⟩
        rw [named]
        exact ⟨known, active, absent⟩
      · exact .inr (by rw [before]; rfl)
    obtain ⟨stored, found⟩ := isSome_iff_exists.mp present
    have same : stored = market := by
      rcases getElem?_monitoringMarkets_foldl_monitorMarket catalogRevision found with
        ⟨inRemoved, named⟩ | ⟨others, before⟩
      · obtain ⟨known, active, _⟩ := (mem_removedActiveMarkets keyed).mp inRemoved
        rw [named] at known
        rcases source with ⟨alsoKnown, _⟩ | ⟨_, inactive⟩
        · rw [known] at alsoKnown
          exact some.inj alsoKnown
        · rw [inactive stored known] at active
          cases active
      · rcases source with ⟨known, active⟩ | ⟨alsoBefore, _⟩
        · have named := keyed marketId market known
          refine absurd named (others market ((mem_removedActiveMarkets keyed).mpr ?_))
          rw [named]
          exact ⟨known, active, absent⟩
        · rw [before] at alsoBefore
          exact some.inj alsoBefore
    rw [getElem?_monitoringMarkets_foldl_releaseMarket, if_neg unlisted, found, same]

/-- The tokens of the monitored markets after a replacement. -/
theorem mem_monitoringTokenIds_releasedState
    (tokenId : String) :
    (∃ (marketId : String) (market : MarketRecord),
        (state.releasedState catalogRevision catalog).monitoringMarkets[marketId]? = some market ∧
          tokenId ∈ market.tokenIds) ↔
      state.LeavesScope markets tokenId := by
  unfold LeavesScope
  constructor
  · rintro ⟨marketId, market, present, mem⟩
    obtain ⟨foreign, source⟩ := (getElem?_monitoringMarkets_releasedState keyed
      catalogRevision indexes marketId market).mp present
    exact ⟨marketId, market, foreign, mem, source⟩
  · rintro ⟨marketId, market, foreign, mem, source⟩
    exact ⟨marketId, market, (getElem?_monitoringMarkets_releasedState keyed
      catalogRevision indexes marketId market).mpr ⟨foreign, source⟩, mem⟩

end

theorem mem_configuredTokenIds :
    tokenId ∈ state.configuredTokenIds ↔ ∃ marketId, state.ActiveOn marketId tokenId := by
  unfold configuredTokenIds ActiveOn
  simp only [mem_toFinset, mem_flatMap, mem_activeMarkets]
  constructor
  · rintro ⟨market, ⟨⟨marketId, known⟩, active⟩, mem⟩
    exact ⟨marketId, market, known, active, mem⟩
  · rintro ⟨marketId, market, known, active, mem⟩
    exact ⟨market, ⟨⟨marketId, known⟩, active⟩, mem⟩

theorem mem_monitoringTokenIds :
    tokenId ∈ state.monitoringTokenIds ↔
      ∃ (marketId : String) (market : MarketRecord),
        state.monitoringMarkets[marketId]? = some market ∧ tokenId ∈ market.tokenIds := by
  unfold monitoringTokenIds
  simp only [mem_toFinset, mem_flatMap, mem_valueList]
  constructor
  · rintro ⟨market, ⟨marketId, known⟩, mem⟩
    exact ⟨marketId, market, known, mem⟩
  · rintro ⟨marketId, market, known, mem⟩
    exact ⟨market, ⟨marketId, known⟩, mem⟩

theorem isStaleScopeGap_iff :
    state.isStaleScopeGap gap = true ↔
      gap ∈ state.monitoringTokenIds ∧ gap ∉ state.configuredTokenIds := by
  unfold isStaleScopeGap
  simp only [and_eq_true, decide_eq_true_eq, Finset.mem_union]
  tauto

/-- The gaps that a replacement leaves. -/
theorem mem_unresolvedGaps_installCatalog (keyed : state.Keyed) {catalogRevision : String}
    (indexes : catalog.Indexes markets) (gap : String) :
    gap ∈ (state.installCatalog catalogRevision catalog).unresolvedGaps ↔
      gap ∈ state.unresolvedGaps ∧ isCatalogGap gap = false ∧
        (gap ∈ catalog.activeTokens ∨ ¬state.LeavesScope markets gap) := by
  have leaves := mem_monitoringTokenIds_releasedState keyed catalogRevision indexes gap
  have scanned := congrArg ScanFields.unresolvedGaps
    (state.scanFields_releasedState catalogRevision catalog)
  obtain ⟨marketHealth, shape⟩ := eq_of_withoutHealth (withoutHealth_foldl_ensureHealth
    ((state.releasedState catalogRevision catalog).replaceIndexes catalogRevision
      catalog).activeMarkets
    ((state.releasedState catalogRevision catalog).replaceIndexes catalogRevision catalog))
  rw [installCatalog_eq, shape]
  generalize installed : ({ (state.releasedState catalogRevision catalog).replaceIndexes
    catalogRevision catalog with marketHealth := marketHealth } : CanonicalState) = healthy
  have gaps : healthy.closeCatalogGaps.unresolvedGaps =
      state.unresolvedGaps.filter fun gap => !isCatalogGap gap := by
    rw [← installed]
    exact congrArg (Finset.filter fun gap => (!isCatalogGap gap) = true) scanned
  have configured : gap ∈ healthy.closeCatalogGaps.configuredTokenIds ↔
      gap ∈ catalog.activeTokens := by
    rw [mem_configuredTokenIds, indexes.active, ← installed]
    constructor
    · rintro ⟨marketId, market, known, active, mem⟩
      exact ⟨market, ((indexes.market marketId market).mp known).1, active, mem⟩
    · rintro ⟨market, listed, active, mem⟩
      exact ⟨market.marketId, market, (indexes.market _ market).mpr ⟨listed, rfl⟩, active, mem⟩
  have monitored : gap ∈ healthy.closeCatalogGaps.monitoringTokenIds ↔
      state.LeavesScope markets gap := by
    rw [mem_monitoringTokenIds, ← leaves, ← installed]
    exact Iff.rfl
  obtain ⟨ready, reason, pruned⟩ := pruneStaleScopeGaps_eq healthy.closeCatalogGaps
  rw [pruned, gaps]
  simp only [Finset.mem_filter, not_eq_true', ← not_eq_true (isStaleScopeGap _ _),
    isStaleScopeGap_iff, configured, monitored]
  tauto

end CanonicalState

end MarketCow.Core
