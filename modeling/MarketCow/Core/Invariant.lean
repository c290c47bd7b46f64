import MarketCow.Core.BookInvariant
import MarketCow.Core.CatalogInstall
import MarketCow.Core.Step
import MarketCow.Core.Writer

/-!
# Invariants of a projection

The indexes of the catalog describe the stored markets, which share no token;
every active market has a health record; with a catalog installed only tokens
of active markets have books; and every book is well formed. A step preserves
all of this from the empty scope on.
-/

namespace MarketCow.Core

open Library Option MarketRecord
open CanonicalState (markets_installCatalog)

/-- A market that a catalog lists as active on a token. -/
def CanonicalState.ActiveOn (state : CanonicalState) (marketId tokenId : String) : Prop :=
  ∃ market, state.markets[marketId]? = some market ∧ market.isActive = true ∧
    tokenId ∈ market.tokenIds

structure Invariant (state : CanonicalState) : Prop where
  keyed : state.Keyed
  disjoint : ∀ (firstId secondId : String) (first second : MarketRecord) (tokenId : String),
    state.markets[firstId]? = some first → state.markets[secondId]? = some second →
      tokenId ∈ first.tokenIds → tokenId ∈ second.tokenIds → firstId = secondId
  distinct : ∀ (marketId : String) (market : MarketRecord),
    state.markets[marketId]? = some market →
      market.outcomes.first.tokenId ≠ market.outcomes.second.tokenId
  condition : ∀ conditionId marketId : String,
    state.conditionToMarket[conditionId]? = some marketId ↔
      ∃ market, state.markets[marketId]? = some market ∧ market.conditionId = conditionId
  bare : state.catalogRevision = none → ∀ marketId : String, state.markets[marketId]? = none
  health : ∀ (marketId : String) (market : MarketRecord),
    state.markets[marketId]? = some market → market.isActive = true →
      state.marketHealth[marketId]?.isSome = true
  booksActive : state.catalogRevision.isSome = true →
    ∀ (tokenId : String) (book : Book), state.books[tokenId]? = some book →
      ∃ marketId, state.ActiveOn marketId tokenId
  booksWellFormed : ∀ (tokenId : String) (book : Book),
    state.books[tokenId]? = some book → book.WellFormed

theorem invariant_bootstrap (scopeId : String) : Invariant (.bootstrap scopeId) := by
  constructor <;> simp [CanonicalState.bootstrap, CanonicalState.Keyed]

variable {market : MarketRecord}

/-- Records with one identity agree on everything but their facts. -/
theorem exists_of_identity_eq {before after : TreeMap String MarketRecord}
    (identity : ∀ marketId : String,
      after[marketId]?.map MarketRecord.identity = before[marketId]?.map MarketRecord.identity)
    {marketId : String}
    (present : after[marketId]? = some market) :
    ∃ original, before[marketId]? = some original ∧ original.identity = market.identity := by
  have same := identity marketId
  rw [present] at same
  cases original : before[marketId]? with
  | none => rw [original] at same; cases same
  | some record =>
    rw [original] at same
    exact ⟨record, rfl, (some.inj same).symm⟩

namespace MarketRecord

variable {first second : MarketRecord}

theorem tokenIds_of_outcomes (same : first.outcomes = second.outcomes) :
    first.tokenIds = second.tokenIds := by
  unfold tokenIds
  rw [same]

section

variable (same : first.identity = second.identity)
include same

theorem tokenIds_of_identity :
    first.tokenIds = second.tokenIds := by
  have observed := congrArg MarketRecord.tokenIds same
  exact observed

theorem isActive_of_identity :
    first.isActive = second.isActive := by
  have observed := congrArg MarketRecord.isActive same
  exact observed

theorem marketId_of_identity :
    first.marketId = second.marketId := by
  have observed := congrArg MarketRecord.marketId same
  exact observed

theorem outcomes_of_identity :
    first.outcomes = second.outcomes := by
  have observed := congrArg MarketRecord.outcomes same
  exact observed

theorem isSome_facts_of_identity :
    first.instrumentFacts.isSome = second.instrumentFacts.isSome := by
  have observed := congrArg (fun market => market.instrumentFacts.isSome) same
  simpa [MarketRecord.identity] using observed

theorem conditionId_of_identity :
    first.conditionId = second.conditionId := by
  have observed := congrArg MarketRecord.conditionId same
  exact observed

end

end MarketRecord

variable {before after : CanonicalState}

theorem expectedTokens_of_identity
    (identity : ∀ marketId : String,
      after.markets[marketId]?.map MarketRecord.identity =
        before.markets[marketId]?.map MarketRecord.identity)
    (marketId : String) :
    expectedTokens after marketId = expectedTokens before marketId := by
  have same := identity marketId
  unfold expectedTokens
  cases known : after.markets[marketId]? with
  | none =>
    rw [known, map_none, eq_comm, map_eq_none_iff] at same
    rw [same]
  | some market =>
    obtain ⟨original, stored, equal⟩ := exists_of_identity_eq identity known
    rw [stored, elim_some, elim_some, tokenIds_of_identity equal]

variable {state : CanonicalState}

/-- Tokens of other markets are no tokens of this one. -/
theorem Invariant.notMem_expectedTokens
    (invariant : Invariant state) {marketId other tokenId : String}
    (known : state.markets[other]? = some market) (mem : tokenId ∈ market.tokenIds)
    (ne : other ≠ marketId) :
    tokenId ∉ expectedTokens state marketId := by
  unfold expectedTokens
  cases owner : state.markets[marketId]? with
  | none => simp
  | some record =>
    rw [elim_some, List.mem_toFinset]
    intro shared
    exact ne (invariant.disjoint other marketId market record tokenId known owner
      mem shared)

/-- The invariant only reads the catalog, the identities of its markets, the
books, and which markets have a health record. -/
theorem Invariant.congr
    (invariant : Invariant before) (sameCatalog : after.catalogRevision = before.catalogRevision)
    (sameConditions : after.conditionToMarket = before.conditionToMarket)
    (sameIdentity : ∀ marketId : String,
      after.markets[marketId]?.map MarketRecord.identity =
        before.markets[marketId]?.map MarketRecord.identity)
    (sameBooks : after.books = before.books)
    (healthKept : ∀ marketId : String, before.marketHealth[marketId]?.isSome = true →
      after.marketHealth[marketId]?.isSome = true) :
    Invariant after := by
  have symmetric : ∀ marketId : String,
      before.markets[marketId]?.map MarketRecord.identity =
        after.markets[marketId]?.map MarketRecord.identity :=
    fun marketId => (sameIdentity marketId).symm
  constructor
  · intro marketId market present
    obtain ⟨original, known, same⟩ := exists_of_identity_eq sameIdentity present
    rw [← marketId_of_identity same]
    exact invariant.keyed marketId original known
  · intro firstId secondId first second tokenId inFirst inSecond firstToken secondToken
    obtain ⟨one, knownFirst, sameFirst⟩ := exists_of_identity_eq sameIdentity inFirst
    obtain ⟨other, knownSecond, sameSecond⟩ := exists_of_identity_eq sameIdentity inSecond
    rw [← tokenIds_of_identity sameFirst] at firstToken
    rw [← tokenIds_of_identity sameSecond] at secondToken
    exact invariant.disjoint firstId secondId one other tokenId knownFirst knownSecond
      firstToken secondToken
  · intro marketId market present
    obtain ⟨original, known, same⟩ := exists_of_identity_eq sameIdentity present
    rw [← outcomes_of_identity same]
    exact invariant.distinct marketId original known
  · intro conditionId marketId
    rw [sameConditions, invariant.condition]
    constructor
    · rintro ⟨market, present, named⟩
      obtain ⟨copy, known, same⟩ := exists_of_identity_eq symmetric present
      exact ⟨copy, known, (conditionId_of_identity same).trans named⟩
    · rintro ⟨market, present, named⟩
      obtain ⟨original, known, same⟩ := exists_of_identity_eq sameIdentity present
      exact ⟨original, known, (conditionId_of_identity same).trans named⟩
  · intro bare marketId
    rw [sameCatalog] at bare
    cases present : after.markets[marketId]? with
    | none => rfl
    | some market =>
      obtain ⟨original, known, _⟩ := exists_of_identity_eq sameIdentity present
      rw [invariant.bare bare] at known
      cases known
  · intro marketId market present active
    obtain ⟨original, known, same⟩ := exists_of_identity_eq sameIdentity present
    rw [← isActive_of_identity same] at active
    exact healthKept marketId (invariant.health marketId original known active)
  · intro installed tokenId book present
    rw [sameCatalog] at installed
    rw [sameBooks] at present
    obtain ⟨marketId, market, known, active, mem⟩ :=
      invariant.booksActive installed tokenId book present
    obtain ⟨copy, copied, same⟩ := exists_of_identity_eq symmetric known
    refine ⟨marketId, copy, copied, ?_, ?_⟩
    · rw [isActive_of_identity same]
      exact active
    · rw [tokenIds_of_identity same]
      exact mem
  · intro tokenId book present
    rw [sameBooks] at present
    exact invariant.booksWellFormed tokenId book present

/-! ## Phases -/

theorem Invariant.marketLocal {marketId tokenId : String}
    (invariant : Invariant before) (frame : MarketLocal marketId tokenId before after) :
    Invariant after :=
  invariant.congr frame.catalogRevision frame.conditionToMarket
    (fun _ => by rw [frame.markets]) frame.books frame.healthKept

theorem Invariant.reconciliation
    (invariant : Invariant state) (reconciliation : Reconciliation state consistent reconciled) :
    Invariant reconciled := by
  have shape := reconciliation.onlyMarkets
  refine invariant.congr ?_ ?_ reconciliation.identity ?_ ?_
  · rw [shape]
  · rw [shape]
  · rw [shape]
  · intro marketId present
    rw [shape]
    exact present

theorem Invariant.admitted (invariant : Invariant state) (event : CanonicalEvent) :
    Invariant (admittedState state event) := by
  have started : Invariant (state.advance event) :=
    invariant.congr rfl rfl (fun _ => rfl) rfl fun _ present => present
  unfold admittedState
  dsimp only
  cases eventMarketId (state.advance event) event.kind with
  | none => exact started
  | some marketId =>
    simp only [elim_some]
    unfold CanonicalState.admitExecutableMarket
    split
    · refine started.congr rfl rfl (fun _ => rfl) rfl ?_
      intro other present
      simp only [TreeMap.getElem?_insert]
      split
      · rfl
      · exact present
    · exact started

/-- Opening a gap keeps the invariant. -/
theorem Invariant.reject (invariant : Invariant state) (gap reason : String) :
    Invariant (Decision.reject state gap reason).state :=
  invariant.congr rfl rfl (fun _ => rfl) rfl fun _ present => present

variable {tokenId : String}

/-- Storing a well-formed book of an active token keeps the invariant. -/
theorem Invariant.withBook
    (invariant : Invariant state) (wellFormed : book.WellFormed)
    (active : state.catalogRevision.isSome = true → ∃ marketId, state.ActiveOn marketId tokenId)
    (unresolvedGaps : Finset String) :
    Invariant { state.withBook tokenId book with unresolvedGaps := unresolvedGaps } := by
  refine ⟨invariant.keyed, invariant.disjoint, invariant.distinct, invariant.condition, invariant.bare,
    invariant.health, ?_, ?_⟩
  · intro installed other stored present
    simp only [CanonicalState.withBook, TreeMap.getElem?_insert, compare_eq_iff_eq] at present
    by_cases here : tokenId = other
    · subst here
      exact active installed
    · rw [if_neg here] at present
      exact invariant.booksActive installed other stored present
  · intro other stored present
    simp only [CanonicalState.withBook, TreeMap.getElem?_insert, compare_eq_iff_eq] at present
    by_cases here : tokenId = other
    · rw [if_pos here] at present
      cases present
      exact wellFormed
    · rw [if_neg here] at present
      exact invariant.booksWellFormed other stored present

/-- A token that a full book may name belongs to an active market. -/
theorem exists_activeOn_of_tokenIsActive (active : state.tokenIsActive tokenId = true)
    (installed : state.catalogRevision.isSome = true) :
    ∃ marketId, state.ActiveOn marketId tokenId := by
  unfold CanonicalState.tokenIsActive at active
  have bare : state.catalogRevision.isNone = false := by
    rw [isNone_eq_false_iff]
    exact installed
  rw [bare, Bool.false_or, List.any_eq_true] at active
  obtain ⟨market, listed, owns⟩ := active
  obtain ⟨⟨marketId, known⟩, isActive⟩ := mem_activeMarkets.mp listed
  exact ⟨marketId, market, known, isActive, hasToken_iff.mp owns⟩

/-- The fields that a resolution changes. -/
theorem resolveMarket_eq (platform : Platform) (event : CanonicalEvent) (conditionId : String)
    (winningTokenId winningOutcome : Option String) (state : CanonicalState) (marketId : String)
    (market : MarketRecord) :
    ∃ relations gaps,
      state.resolveMarket platform event conditionId winningTokenId winningOutcome marketId market =
        { state with
          markets := state.markets.insert marketId
            (resolvedMarket platform event winningTokenId winningOutcome market)
          books := (state.books.erase market.outcomes.first.tokenId).erase
            market.outcomes.second.tokenId
          negativeRiskRelations := relations
          unresolvedGaps := gaps } := by
  unfold CanonicalState.resolveMarket
  cases market.negativeRiskGroup with
  | none | some groupId => exact ⟨_, _, rfl⟩

/-- The books that a resolution leaves. -/
theorem getElem?_erase_outcomes
    (books : TreeMap String Book) (market : MarketRecord) (tokenId : String) :
    ((books.erase market.outcomes.first.tokenId).erase market.outcomes.second.tokenId)[tokenId]? =
      if tokenId ∈ market.tokenIds then none else books[tokenId]? := by
  rw [getElem?_erase, getElem?_erase]
  simp only [compare_eq_iff_eq, mem_tokenIds]
  by_cases second : market.outcomes.second.tokenId = tokenId
  · simp [second]
  · by_cases first : market.outcomes.first.tokenId = tokenId
    · simp [first]
    · have notFirst : ¬tokenId = market.outcomes.first.tokenId := fun same => first same.symm
      have notSecond : ¬tokenId = market.outcomes.second.tokenId := fun same => second same.symm
      simp [first, second, notFirst, notSecond]

variable {platform : Platform} {event : CanonicalEvent}

theorem Invariant.resolveMarket (invariant : Invariant state) {conditionId marketId : String}
    (known : state.markets[marketId]? = some market) :
    Invariant (state.resolveMarket platform event conditionId winningTokenId winningOutcome
      marketId market) := by
  obtain ⟨relations, gaps, shape⟩ := resolveMarket_eq platform event conditionId
    winningTokenId winningOutcome state marketId market
  -- The record under the resolved name changes; every other record stays.
  have lookup : ∀ (otherId : String) (other : MarketRecord),
      (state.markets.insert marketId
          (resolvedMarket platform event winningTokenId winningOutcome market))[otherId]? =
        some other →
      (∃ original, state.markets[otherId]? = some original ∧
        other.marketId = original.marketId ∧ other.conditionId = original.conditionId ∧
        other.outcomes = original.outcomes ∧
        (other.isActive = true → otherId ≠ marketId ∧ original.isActive = true)) := by
    intro otherId other present
    simp only [TreeMap.getElem?_insert, compare_eq_iff_eq] at present
    by_cases here : marketId = otherId
    · subst here
      rw [if_pos rfl] at present
      cases present
      exact ⟨market, known, rfl, rfl, rfl, fun active => by
        simp [MarketRecord.isActive, resolvedMarket] at active⟩
    · rw [if_neg here] at present
      exact ⟨other, present, rfl, rfl, rfl, fun active => ⟨Ne.symm here, active⟩⟩
  rw [shape]
  constructor
  · intro otherId other present
    obtain ⟨original, stored, sameId, _⟩ := lookup otherId other present
    rw [sameId]
    exact invariant.keyed otherId original stored
  · intro firstId secondId first second tokenId inFirst inSecond firstToken secondToken
    obtain ⟨one, knownFirst, _, _, sameFirst, _⟩ := lookup firstId first inFirst
    obtain ⟨other, knownSecond, _, _, sameSecond, _⟩ := lookup secondId second inSecond
    rw [tokenIds_of_outcomes sameFirst] at firstToken
    rw [tokenIds_of_outcomes sameSecond] at secondToken
    exact invariant.disjoint firstId secondId one other tokenId knownFirst knownSecond
      firstToken secondToken
  · intro otherId other present
    obtain ⟨original, stored, _, _, sameOutcomes, _⟩ := lookup otherId other present
    rw [sameOutcomes]
    exact invariant.distinct otherId original stored
  · intro condition otherId
    rw [invariant.condition]
    constructor
    · rintro ⟨other, present, named⟩
      by_cases here : marketId = otherId
      · subst here
        rw [known] at present
        cases present
        exact ⟨_, getElem?_insert_self, named⟩
      · refine ⟨other, ?_, named⟩
        simp [TreeMap.getElem?_insert, here, present]
    · rintro ⟨other, present, named⟩
      obtain ⟨original, stored, _, sameCondition, _⟩ := lookup otherId other present
      exact ⟨original, stored, sameCondition.symm.trans named⟩
  · intro bare
    have absent := invariant.bare bare marketId
    rw [known] at absent
    cases absent
  · intro otherId other present active
    obtain ⟨original, stored, _, _, _, wasActive⟩ := lookup otherId other present
    exact invariant.health otherId original stored (wasActive active).2
  · intro installed tokenId book present
    rw [getElem?_erase_outcomes] at present
    split at present
    · cases present
    · rename_i outside
      obtain ⟨otherId, other, stored, active, mem⟩ :=
        invariant.booksActive installed tokenId book present
      have ne : ¬marketId = otherId := by
        rintro rfl
        rw [known] at stored
        cases stored
        exact outside mem
      exact ⟨otherId, other, by simp [TreeMap.getElem?_insert, ne, stored], active, mem⟩
  · intro tokenId book present
    rw [getElem?_erase_outcomes] at present
    split at present
    · cases present
    · exact invariant.booksWellFormed tokenId book present

theorem Invariant.installCatalog (invariant : Invariant state)
    (indexes : catalog.Indexes markets) :
    Invariant (state.installCatalog catalogRevision catalog) := by
  constructor
  · intro marketId market present
    rw [markets_installCatalog] at present
    exact ((indexes.market marketId market).mp present).2
  · intro firstId secondId first second tokenId inFirst inSecond firstToken secondToken
    rw [markets_installCatalog] at inFirst inSecond
    obtain ⟨firstListed, rfl⟩ := (indexes.market firstId first).mp inFirst
    obtain ⟨secondListed, rfl⟩ := (indexes.market secondId second).mp inSecond
    rw [indexes.disjoint first firstListed second secondListed tokenId firstToken secondToken]
  · intro marketId market present
    rw [markets_installCatalog] at present
    exact indexes.distinct market ((indexes.market marketId market).mp present).1
  · intro conditionId marketId
    rw [CanonicalState.conditionToMarket_installCatalog, markets_installCatalog, indexes.condition]
    constructor
    · rintro ⟨market, listed, named, rfl⟩
      exact ⟨market, (indexes.market _ market).mpr ⟨listed, rfl⟩, named⟩
    · rintro ⟨market, present, named⟩
      obtain ⟨listed, keyed⟩ := (indexes.market _ market).mp present
      exact ⟨market, listed, named, keyed⟩
  · intro bare
    rw [CanonicalState.catalogRevision_installCatalog] at bare
    cases bare
  · intro marketId market present active
    rw [markets_installCatalog] at present
    rw [state.getElem?_marketHealth_installCatalog catalogRevision catalog present active
      ((indexes.market marketId market).mp present).2]
    rfl
  · intro _ tokenId book present
    rw [CanonicalState.getElem?_books_installCatalog] at present
    split at present
    · rename_i listed
      obtain ⟨market, inCatalog, active, mem⟩ := (indexes.active tokenId).mp listed
      refine ⟨market.marketId, market, ?_, active, mem⟩
      rw [markets_installCatalog]
      exact (indexes.market _ market).mpr ⟨inCatalog, rfl⟩
    · cases present
  · intro tokenId book present
    rw [CanonicalState.getElem?_books_installCatalog] at present
    split at present
    · exact invariant.booksWellFormed tokenId book present
    · cases present

theorem Invariant.kindEffect
    (invariant : Invariant state) (effect : KindEffect platform state event decision) :
    Invariant decision.state := by
  cases effect with
  | catalogRejected => exact invariant.reject _ ""
  | catalogInstalled _ _ valid => exact invariant.installCatalog (validatedCatalog_indexes valid)
  | newMarket => exact invariant.congr rfl rfl (fun _ => rfl) rfl fun _ present => present
  | resolutionRejected => exact invariant.reject _ ""
  | resolved _ _ known => exact invariant.resolveMarket known
  | tokenRejected => exact invariant.reject _ ""
  | fullBook _ active aligned uncrossed =>
    exact invariant.withBook (Book.wellFormed_refreshedBook aligned uncrossed)
      (exists_activeOn_of_tokenIsActive active) _
  | @bookChanged tokenId before after _ _ present changed =>
    exact invariant.withBook ((invariant.booksWellFormed tokenId before present).change
      changed) (fun installed => invariant.booksActive installed tokenId before present) _

variable {enforce : Bool}

theorem Invariant.decision {decision : Decision}
    (invariant : Invariant state) (effect : DecisionEffect platform enforce state event decision) :
    Invariant decision.state := by
  cases effect with
  | sourceRejected => exact invariant.reject _ ""
  | superseded => exact invariant
  | decided _ _ kindEffect => exact invariant.kindEffect kindEffect

/-! ## Steps and runs -/

namespace Phases

variable {platform : Platform} {enforce : Bool} {state next : CanonicalState}
  {event : CanonicalEvent} {persisted : PersistedEvent}
  (phases : Phases platform enforce state event next persisted)

section

variable (invariant : Invariant state)
include invariant

theorem invariant_decision :
    Invariant phases.decision.state :=
  (invariant.admitted event).decision phases.decided

theorem invariant_localized :
    Invariant phases.localized.state := by
  have localization := phases.localization
  cases attributed : attribution state event with
  | none =>
    rw [attributed] at localization
    rw [state_of_localization_none localization]
    exact phases.invariant_decision invariant
  | some market =>
    rw [attributed] at localization
    exact (phases.invariant_decision invariant).marketLocal
      (marketLocal_of_localization localization)

theorem invariant_reconciled :
    Invariant phases.reconciled :=
  (phases.invariant_localized invariant).reconciliation phases.reconciliation

theorem invariant_settled :
    Invariant phases.settled.state := by
  cases attributed : attribution state event with
  | none =>
    rw [phases.unattributed attributed]
    exact phases.invariant_reconciled invariant
  | some market =>
    exact (phases.invariant_reconciled invariant).marketLocal
      (marketLocal_of_settlement (phases.settlement market attributed))

end

/-- A step preserves the invariant. -/
theorem invariant_next
    (phases : Phases platform enforce state event next persisted) (invariant : Invariant state) :
    Invariant next := by
  have settled := phases.invariant_settled invariant
  rw [phases.next_eq]
  refine settled.congr ?_ ?_ ?_ ?_ ?_ <;> unfold recordAttributed
  · cases attribution state event <;> rfl
  · cases attribution state event <;> rfl
  · cases attribution state event <;> exact fun _ => rfl
  · cases attribution state event <;> rfl
  · cases attribution state event with
    | none => exact fun _ present => present
    | some market =>
      exact (marketLocal_upsertHealth _ market.marketId event.kind.tokenId _ _).healthKept

end Phases

/-- Every state of a run from the empty scope satisfies the invariant. -/
theorem EvaluationRun.invariant
    (run : EvaluationRun platform enforce (.bootstrap scopeId) labels state) :
    Invariant state := by
  refine Run.preserves ?_ run (invariant_bootstrap scopeId)
  rintro before label after invariant ⟨validateRawPayload, evaluated⟩
  obtain ⟨phases⟩ := phases_of_evaluateEvent evaluated
  exact phases.invariant_next invariant

end MarketCow.Core
