import MarketCow.Core.Platform

/-!
# Market catalogs

Market records, their instrument facts and negative-risk relations, and the
validation of a catalog snapshot. Validation scans the markets once and keeps
every identity seen so far; it fails on the first inconsistent record.
-/

namespace MarketCow.Core

open Library List

inductive MarketLifecycleState
  | active
  | closed
  | resolved
  | invalid
  deriving DecidableEq

structure OutcomeToken where
  tokenId : String
  outcome : String
  instrumentId : String
  deriving DecidableEq

/-- The two outcomes of a binary market, in order. -/
structure OutcomePair where
  first : OutcomeToken
  second : OutcomeToken
  deriving DecidableEq

namespace OutcomePair

def toList (outcomes : OutcomePair) : List OutcomeToken :=
  [outcomes.first, outcomes.second]

end OutcomePair

inductive FeeCalculationStatus
  | executable
  | informationalOnly
  deriving DecidableEq

structure MarketFeeProvenance where
  source : String
  sourceUrl : String
  revision : String
  payloadSha256 : String
  observedAt : DateTime
  fieldPaths : List String
  deriving DecidableEq

structure MarketFeeSchedule where
  scheduleId : String
  revision : String
  scheduleVersion : String
  currency : String
  makerRate : Decimal
  takerRate : Decimal
  formulaId : String
  formula : String
  exponent : Decimal
  quantum : Decimal
  roundingMode : String
  tieSemantics : String
  calculationStatus : FeeCalculationStatus
  effectiveFrom : DateTime
  effectiveTo : Option DateTime
  observedAt : DateTime
  provenance : List MarketFeeProvenance
  deriving DecidableEq

namespace MarketFeeSchedule

def isComplete (schedule : MarketFeeSchedule) : Bool :=
  Text.isDigest schedule.scheduleId &&
  Text.isDigest schedule.revision &&
  !schedule.scheduleVersion.isEmpty &&
  !schedule.currency.isEmpty &&
  decide (0 ≤ schedule.makerRate) &&
  decide (0 ≤ schedule.takerRate) &&
  !schedule.formulaId.isEmpty &&
  !schedule.formula.isEmpty &&
  decide (0 ≤ schedule.exponent) &&
  decide (0 < schedule.quantum) &&
  !schedule.roundingMode.isEmpty &&
  !schedule.tieSemantics.isEmpty &&
  !(schedule.calculationStatus == .executable &&
    (Text.equalsIgnoringCase schedule.roundingMode "UNSPECIFIED" ||
      Text.equalsIgnoringCase schedule.tieSemantics "unspecified")) &&
  schedule.effectiveTo.all (fun effectiveTo =>
    decide (schedule.effectiveFrom < effectiveTo)) &&
  !schedule.provenance.isEmpty &&
  schedule.provenance.all fun item =>
    !item.source.isEmpty &&
    !item.sourceUrl.isEmpty &&
    !item.revision.isEmpty &&
    Text.isDigest item.payloadSha256 &&
    !item.fieldPaths.isEmpty &&
    item.fieldPaths.all fun path => !path.isEmpty

end MarketFeeSchedule

structure MarketInstrumentFacts where
  priceIncrement : Price
  sizeIncrement : Decimal
  minimumOrderSize : Decimal
  settlementCurrency : String
  startAt : DateTime
  endAt : DateTime
  revision : String
  feeSchedule : Option MarketFeeSchedule
  deriving DecidableEq

structure MarketRecord where
  marketId : String
  conditionId : String
  outcomes : OutcomePair
  negativeRiskGroup : Option String
  lifecycleState : MarketLifecycleState
  resolution : Option String
  metadataRevision : String
  observedAt : DateTime
  terminalAt : Option DateTime
  instrumentFacts : Option MarketInstrumentFacts
  deriving DecidableEq

namespace MarketRecord

def isActive (market : MarketRecord) : Bool :=
  market.lifecycleState == .active

/-- The two outcome token identities, in order. -/
def tokenIds (market : MarketRecord) : List String :=
  market.outcomes.toList.map OutcomeToken.tokenId

def hasToken (market : MarketRecord) (tokenId : String) : Bool :=
  market.outcomes.toList.any fun outcome => outcome.tokenId == tokenId

variable {market : MarketRecord}

theorem hasToken_iff : market.hasToken tokenId = true ↔ tokenId ∈ market.tokenIds := by
  simp [hasToken, tokenIds]

theorem mem_tokenIds :
    tokenId ∈ market.tokenIds ↔
      tokenId = market.outcomes.first.tokenId ∨ tokenId = market.outcomes.second.tokenId := by
  simp [tokenIds, OutcomePair.toList]

end MarketRecord

structure NegativeRiskRelation where
  groupId : String
  memberMarketIds : Finset String
  yesTokenIds : Finset String
  revision : String
  complete : Bool
  validTo : Option DateTime
  deriving DecidableEq

/-- The indexes of a valid catalog. -/
structure CatalogState where
  markets : TreeMap String MarketRecord
  conditionToMarket : TreeMap String String
  negativeRiskRelations : TreeMap String NegativeRiskRelation
  activeTokens : Finset String

/-- Everything a catalog scan has collected so far. -/
structure CatalogScan where
  byMarket : TreeMap String MarketRecord
  byCondition : TreeMap String String
  activeTokens : Finset String
  expectedGroups : TreeMap String (Finset String × Finset String)
  allTokens : Finset String
  allInstruments : Finset String

namespace CatalogScan

def empty : CatalogScan where
  byMarket := ∅
  byCondition := ∅
  activeTokens := ∅
  expectedGroups := ∅
  allTokens := ∅
  allInstruments := ∅

/-- Record the identities of one outcome, unless one is empty or known. -/
def insertOutcome (scan : CatalogScan) (outcome : OutcomeToken) : Option CatalogScan :=
  if outcome.tokenId.isEmpty || outcome.outcome.isEmpty || outcome.instrumentId.isEmpty then
    none
  else if outcome.tokenId ∈ scan.allTokens || outcome.instrumentId ∈ scan.allInstruments then
    none
  else
    some { scan with
      allTokens := insert outcome.tokenId scan.allTokens
      allInstruments := insert outcome.instrumentId scan.allInstruments }

/-- The identity checks of one market. -/
def insertIdentity (scan : CatalogScan) (market : MarketRecord) : Option CatalogScan := do
  if market.marketId.isEmpty || market.conditionId.isEmpty ||
      market.metadataRevision.isEmpty ||
      (!market.isActive) != market.terminalAt.isSome ||
      (market.lifecycleState == .resolved &&
        market.resolution.all fun resolution => resolution.isEmpty) ||
      market.outcomes.first.tokenId == market.outcomes.second.tokenId then
    none
  else
    let scan ← scan.insertOutcome market.outcomes.first
    let scan ← scan.insertOutcome market.outcomes.second
    if market.conditionId ∈ scan.byCondition || market.marketId ∈ scan.byMarket then none
    else
      some { scan with
        byCondition := scan.byCondition.insert market.conditionId market.marketId
        byMarket := scan.byMarket.insert market.marketId market }

/-- Add the tokens of an active market. -/
def insertActiveTokens (scan : CatalogScan) (market : MarketRecord) : CatalogScan :=
  if market.isActive then
    { scan with activeTokens := scan.activeTokens ∪ market.tokenIds.toFinset }
  else scan

/-- Extend the expected membership of the market's negative-risk group. -/
def insertGroup (scan : CatalogScan) (market : MarketRecord) : Option CatalogScan :=
  match market.negativeRiskGroup with
  | none => some scan
  | some groupId =>
    if groupId.isEmpty || !market.isActive then some scan
    else
      match market.outcomes.toList.filter fun outcome =>
        Text.equalsIgnoringCase outcome.outcome "yes" with
      | [yes] =>
        let expected := (scan.expectedGroups[groupId]?).getD (∅, ∅)
        some { scan with
          expectedGroups := scan.expectedGroups.insert groupId
            (insert market.marketId expected.1, insert yes.tokenId expected.2) }
      | _ => none

def insertMarket (scan : CatalogScan) (market : MarketRecord) : Option CatalogScan := do
  let scan ← scan.insertIdentity market
  (scan.insertActiveTokens market).insertGroup market

end CatalogScan

/-- Index the relations by group, unless one is incomplete or repeated. -/
def indexRelation
    (byGroup : TreeMap String NegativeRiskRelation) (relation : NegativeRiskRelation) :
    Option (TreeMap String NegativeRiskRelation) :=
  if relation.groupId.isEmpty || relation.revision.isEmpty || !relation.complete ||
      relation.validTo.isSome || relation.memberMarketIds.card < 2 ||
      relation.groupId ∈ byGroup then
    none
  else some (byGroup.insert relation.groupId relation)

/-- Whether the relations are exactly the expected memberships. -/
def groupsMatch (expected : TreeMap String (Finset String × Finset String))
    (byGroup : TreeMap String NegativeRiskRelation) : Bool :=
  expected.size == byGroup.size &&
    expected.toList.all fun entry =>
      match byGroup[entry.1]? with
      | none => false
      | some relation =>
        decide (relation.memberMarketIds = entry.2.1) &&
          decide (relation.yesTokenIds = entry.2.2)

def validatedCatalog
    (markets : List MarketRecord)
    (relations : List NegativeRiskRelation) : Option CatalogState := do
  let scan ← markets.foldlM CatalogScan.insertMarket CatalogScan.empty
  let byGroup ← relations.foldlM indexRelation ∅
  if groupsMatch scan.expectedGroups byGroup then
    some
      { markets := scan.byMarket
        conditionToMarket := scan.byCondition
        negativeRiskRelations := byGroup
        activeTokens := scan.activeTokens }
  else none

/-! ## What validation establishes -/

/-- The indexes of a scan describe exactly the markets seen so far, and no two
of these markets share a token. -/
structure CatalogScan.Covers (scan : CatalogScan) (seen : List MarketRecord) : Prop where
  market : ∀ (marketId : String) (market : MarketRecord),
    scan.byMarket[marketId]? = some market ↔ market ∈ seen ∧ market.marketId = marketId
  condition : ∀ conditionId marketId : String,
    scan.byCondition[conditionId]? = some marketId ↔
      ∃ market ∈ seen, market.conditionId = conditionId ∧ market.marketId = marketId
  active : ∀ tokenId, tokenId ∈ scan.activeTokens ↔
    ∃ market ∈ seen, market.isActive = true ∧ tokenId ∈ market.tokenIds
  token : ∀ tokenId, tokenId ∈ scan.allTokens ↔ ∃ market ∈ seen, tokenId ∈ market.tokenIds
  disjoint : ∀ first ∈ seen, ∀ second ∈ seen, ∀ tokenId,
    tokenId ∈ first.tokenIds → tokenId ∈ second.tokenIds → first = second
  distinct : ∀ market ∈ seen, market.outcomes.first.tokenId ≠ market.outcomes.second.tokenId

namespace CatalogScan

theorem covers_empty : CatalogScan.empty.Covers [] where
  market := by simp [CatalogScan.empty]
  condition := by simp [CatalogScan.empty]
  active := by simp [CatalogScan.empty]
  token := by simp [CatalogScan.empty]
  disjoint := by simp
  distinct := by simp

variable {scan next : CatalogScan}

theorem insertOutcome_eq_some (inserted : scan.insertOutcome outcome = some next) :
    outcome.tokenId ∉ scan.allTokens ∧
      next = { scan with
        allTokens := insert outcome.tokenId scan.allTokens
        allInstruments := insert outcome.instrumentId scan.allInstruments } := by
  unfold insertOutcome at inserted
  split at inserted
  · simp at inserted
  · split at inserted
    · simp at inserted
    · rename_i fresh
      simp only [or_eq_true, decide_eq_true_eq, not_or] at fresh
      exact ⟨fresh.1, (some.inj inserted).symm⟩

variable {market : MarketRecord}

/-- A market whose identity is accepted brings two new and distinct tokens. -/
theorem insertIdentity_eq_some (inserted : scan.insertIdentity market = some next) :
    market.outcomes.first.tokenId ≠ market.outcomes.second.tokenId ∧
      (∀ tokenId ∈ market.tokenIds, tokenId ∉ scan.allTokens) ∧
      market.conditionId ∉ scan.byCondition ∧
      market.marketId ∉ scan.byMarket ∧
      next.byMarket = scan.byMarket.insert market.marketId market ∧
      next.byCondition = scan.byCondition.insert market.conditionId market.marketId ∧
      next.activeTokens = scan.activeTokens ∧
      next.allTokens = scan.allTokens ∪ market.tokenIds.toFinset := by
  unfold insertIdentity at inserted
  split at inserted
  · simp at inserted
  · rename_i wellFormed
    simp only [or_eq_true, beq_iff_eq, not_or] at wellFormed
    have distinct := wellFormed.2
    obtain ⟨afterFirst, insertedFirst, inserted⟩ := bind_eq_some_iff.mp inserted
    obtain ⟨afterSecond, insertedSecond, inserted⟩ := bind_eq_some_iff.mp inserted
    obtain ⟨firstFresh, rfl⟩ := insertOutcome_eq_some insertedFirst
    obtain ⟨secondFresh, rfl⟩ := insertOutcome_eq_some insertedSecond
    split at inserted
    · simp at inserted
    · rename_i fresh
      simp only [or_eq_true, decide_eq_true_eq, not_or] at fresh
      cases inserted
      refine ⟨distinct, ?_, fresh.1, fresh.2, rfl, rfl, rfl, ?_⟩
      · intro tokenId mem
        rcases MarketRecord.mem_tokenIds.mp mem with rfl | rfl
        · exact firstFresh
        · exact fun present => secondFresh (Finset.mem_insert_of_mem present)
      · ext tokenId
        simp only [Finset.mem_insert, Finset.mem_union, mem_toFinset, MarketRecord.mem_tokenIds]
        tauto

theorem insertGroup_eq_some (inserted : scan.insertGroup market = some next) :
    next.byMarket = scan.byMarket ∧ next.byCondition = scan.byCondition ∧
      next.activeTokens = scan.activeTokens ∧ next.allTokens = scan.allTokens := by
  unfold insertGroup at inserted
  split at inserted
  · cases inserted
    exact ⟨rfl, rfl, rfl, rfl⟩
  · split at inserted
    · cases inserted
      exact ⟨rfl, rfl, rfl, rfl⟩
    · split at inserted
      · cases inserted
        exact ⟨rfl, rfl, rfl, rfl⟩
      · simp at inserted

/-- Scanning one more market keeps the description exact. -/
theorem Covers.insertMarket
    (covers : scan.Covers seen) (inserted : scan.insertMarket market = some next) :
    next.Covers (seen ++ [market]) := by
  unfold CatalogScan.insertMarket at inserted
  obtain ⟨identified, identity, grouped⟩ := bind_eq_some_iff.mp inserted
  obtain ⟨distinct, freshTokens, freshCondition, freshMarket, byMarket, byCondition,
    activeTokens, allTokens⟩ := insertIdentity_eq_some identity
  obtain ⟨sameMarkets, sameConditions, sameActive, sameTokens⟩ := insertGroup_eq_some grouped
  have nextMarkets : next.byMarket = scan.byMarket.insert market.marketId market := by
    rw [sameMarkets, ← byMarket]
    unfold insertActiveTokens
    split <;> rfl
  have nextConditions :
      next.byCondition = scan.byCondition.insert market.conditionId market.marketId := by
    rw [sameConditions, ← byCondition]
    unfold insertActiveTokens
    split <;> rfl
  have nextTokens : next.allTokens = scan.allTokens ∪ market.tokenIds.toFinset := by
    rw [sameTokens, ← allTokens]
    unfold insertActiveTokens
    split <;> rfl
  have newTokens : ∀ tokenId ∈ market.tokenIds, ∀ other ∈ seen, tokenId ∉ other.tokenIds := by
    intro tokenId mem other seenOther shared
    exact freshTokens tokenId mem ((covers.token tokenId).mpr ⟨other, seenOther, shared⟩)
  constructor
  · intro marketId other
    rw [nextMarkets, TreeMap.getElem?_insert]
    simp only [compare_eq_iff_eq, mem_append, mem_singleton]
    by_cases same : market.marketId = marketId
    · rw [if_pos same]
      constructor
      · intro equal
        cases equal
        exact ⟨.inr rfl, same⟩
      · rintro ⟨seenOther | rfl, sameId⟩
        · have present := (covers.market marketId other).mpr ⟨seenOther, sameId⟩
          rw [same, mem_iff_isSome_getElem?, present] at freshMarket
          simp at freshMarket
        · rfl
    · rw [if_neg same, covers.market]
      constructor
      · rintro ⟨seenOther, sameId⟩
        exact ⟨.inl seenOther, sameId⟩
      · rintro ⟨seenOther | rfl, sameId⟩
        · exact ⟨seenOther, sameId⟩
        · exact absurd sameId same
  · intro conditionId marketId
    rw [nextConditions, TreeMap.getElem?_insert]
    simp only [compare_eq_iff_eq, mem_append, mem_singleton]
    by_cases same : market.conditionId = conditionId
    · rw [if_pos same]
      constructor
      · intro equal
        exact ⟨market, .inr rfl, same, some.inj equal⟩
      · rintro ⟨other, seenOther | rfl, sameCondition, rfl⟩
        · have present := (covers.condition conditionId other.marketId).mpr
            ⟨other, seenOther, sameCondition, rfl⟩
          rw [same, mem_iff_isSome_getElem?, present] at freshCondition
          simp at freshCondition
        · rfl
    · rw [if_neg same, covers.condition]
      constructor
      · rintro ⟨other, seenOther, rest⟩
        exact ⟨other, .inl seenOther, rest⟩
      · rintro ⟨other, seenOther | rfl, sameCondition, rest⟩
        · exact ⟨other, seenOther, sameCondition, rest⟩
        · exact absurd sameCondition same
  · intro tokenId
    rw [sameActive]
    unfold insertActiveTokens
    by_cases isActive : market.isActive = true
    · rw [if_pos isActive]
      simp only [Finset.mem_union, mem_toFinset, activeTokens, covers.active,
        mem_append, mem_singleton]
      constructor
      · rintro (⟨other, seenOther, rest⟩ | mem)
        · exact ⟨other, .inl seenOther, rest⟩
        · exact ⟨market, .inr rfl, isActive, mem⟩
      · rintro ⟨other, seenOther | rfl, otherActive, mem⟩
        · exact .inl ⟨other, seenOther, otherActive, mem⟩
        · exact .inr mem
    · rw [if_neg isActive, activeTokens, covers.active]
      simp only [mem_append, mem_singleton]
      constructor
      · rintro ⟨other, seenOther, rest⟩
        exact ⟨other, .inl seenOther, rest⟩
      · rintro ⟨other, seenOther | rfl, otherActive, mem⟩
        · exact ⟨other, seenOther, otherActive, mem⟩
        · exact absurd otherActive isActive
  · intro tokenId
    rw [nextTokens]
    simp only [Finset.mem_union, mem_toFinset, covers.token, mem_append, mem_singleton]
    constructor
    · rintro (⟨other, seenOther, mem⟩ | mem)
      · exact ⟨other, .inl seenOther, mem⟩
      · exact ⟨market, .inr rfl, mem⟩
    · rintro ⟨other, seenOther | rfl, mem⟩
      · exact .inl ⟨other, seenOther, mem⟩
      · exact .inr mem
  · intro first firstSeen second secondSeen tokenId inFirst inSecond
    simp only [mem_append, mem_singleton] at firstSeen secondSeen
    rcases firstSeen with firstSeen | rfl <;> rcases secondSeen with secondSeen | rfl
    · exact covers.disjoint first firstSeen second secondSeen tokenId inFirst inSecond
    · exact absurd inFirst (newTokens tokenId inSecond first firstSeen)
    · exact absurd inSecond (newTokens tokenId inFirst second secondSeen)
    · rfl
  · intro other seenOther
    simp only [mem_append, mem_singleton] at seenOther
    rcases seenOther with seenOther | rfl
    · exact covers.distinct other seenOther
    · exact distinct

theorem Covers.foldlM {seen markets : List MarketRecord} (covers : scan.Covers seen)
    (scanned : markets.foldlM CatalogScan.insertMarket scan = some final) :
    final.Covers (seen ++ markets) := by
  induction markets generalizing scan seen with
  | nil =>
    cases scanned
    simpa using covers
  | cons market markets ih =>
    rw [foldlM_cons] at scanned
    obtain ⟨next, inserted, rest⟩ := bind_eq_some_iff.mp scanned
    have extended := ih (covers.insertMarket inserted) rest
    rwa [append_assoc, singleton_append] at extended

end CatalogScan

/-- The state of a valid catalog indexes its markets, by pairwise disjoint
tokens. -/
structure CatalogState.Indexes
    (state : CatalogState) (markets : List MarketRecord) : Prop where
  market : ∀ (marketId : String) (market : MarketRecord),
    state.markets[marketId]? = some market ↔ market ∈ markets ∧ market.marketId = marketId
  condition : ∀ conditionId marketId : String,
    state.conditionToMarket[conditionId]? = some marketId ↔
      ∃ market ∈ markets, market.conditionId = conditionId ∧ market.marketId = marketId
  active : ∀ tokenId, tokenId ∈ state.activeTokens ↔
    ∃ market ∈ markets, market.isActive = true ∧ tokenId ∈ market.tokenIds
  disjoint : ∀ first ∈ markets, ∀ second ∈ markets, ∀ tokenId,
    tokenId ∈ first.tokenIds → tokenId ∈ second.tokenIds → first = second
  distinct : ∀ market ∈ markets, market.outcomes.first.tokenId ≠ market.outcomes.second.tokenId

theorem validatedCatalog_indexes {markets : List MarketRecord} {state : CatalogState}
    (valid : validatedCatalog markets relations = some state) :
    state.Indexes markets := by
  unfold validatedCatalog at valid
  obtain ⟨scan, scanned, valid⟩ := bind_eq_some_iff.mp valid
  obtain ⟨byGroup, _, valid⟩ := bind_eq_some_iff.mp valid
  have covers := CatalogScan.covers_empty.foldlM scanned
  rw [nil_append] at covers
  split at valid
  · cases valid
    exact ⟨covers.market, covers.condition, covers.active, covers.disjoint, covers.distinct⟩
  · simp at valid

end MarketCow.Core
