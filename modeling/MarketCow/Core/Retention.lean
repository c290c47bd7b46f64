import MarketCow.Core.Sequences

/-!
# Identities and books of markets that leave

A run promises the identity of every market that it has listed as active, and
the books of every market that left the catalog while active. The promises are
a history kept beside the state; the writer keeps them exactly as long as its
snapshots treat the promised markets in the ways named by `KeepsRetained`.
-/

namespace MarketCow.Core

open Library List
open Option (map_eq_some_iff map_some)

/-- The name of a market and its tokens. -/
structure MarketIdentity where
  marketId : String
  tokenIds : Finset String

def MarketRecord.stableIdentity (market : MarketRecord) : MarketIdentity where
  marketId := market.marketId
  tokenIds := market.tokenIds.toFinset

/-- The last book of a token of a market that left the catalog. -/
structure RetainedBook where
  marketId : String
  tokenId : String
  book : Book

/-- What a run has promised so far. -/
structure Retention where
  identities : Set MarketIdentity
  books : Set RetainedBook

namespace Retention

def empty : Retention where
  identities := ∅
  books := ∅

/-- No market of a list has the name. -/
def Unlisted (listed : List MarketRecord) (marketId : String) : Prop :=
  ∀ market ∈ listed, market.marketId ≠ marketId

/-- The books of the active markets that a snapshot leaves out. -/
def leavingBooks (state : CanonicalState) (listed : List MarketRecord) : Set RetainedBook :=
  fun retained => ∃ market,
    state.markets[retained.marketId]? = some market ∧ market.isActive = true ∧
      Unlisted listed retained.marketId ∧ retained.tokenId ∈ market.tokenIds ∧
      state.books[retained.tokenId]? = some retained.book

/-- The promises after an applied snapshot: identities of its active markets
are added, books of markets that leave are added, books of listed markets end. -/
def install
    (retention : Retention) (state : CanonicalState) (listed : List MarketRecord) : Retention where
  identities := retention.identities ∪
    fun identity => ∃ market ∈ listed, market.isActive = true ∧ market.stableIdentity = identity
  books := (fun retained =>
      retained ∈ retention.books ∧ Unlisted listed retained.marketId) ∪
    leavingBooks state listed

/-- The promises after one event. -/
def record (retention : Retention) (state : CanonicalState) (label : EvaluatedEvent) : Retention :=
  label.snapshot?.elim retention (retention.install state)

end Retention

/-- A market is present under a name with exactly some tokens. -/
def HasIdentity (markets : TreeMap String MarketRecord) (identity : MarketIdentity) : Prop :=
  ∃ market, markets[identity.marketId]? = some market ∧ market.tokenIds.toFinset = identity.tokenIds

/-- A state keeps what was promised. -/
structure Retains (retention : Retention) (state : CanonicalState) : Prop where
  identities : ∀ identity ∈ retention.identities,
    HasIdentity state.markets identity ∨ HasIdentity state.monitoringMarkets identity
  books : ∀ retained ∈ retention.books,
    state.monitoringBooks[retained.tokenId]? = some retained.book

/-- How a snapshot that passes the checks has to treat promised markets. -/
structure ListingKeeps
    (retention : Retention) (state : CanonicalState) (listed : List MarketRecord) : Prop where
  /-- A promised market is listed with the same tokens. -/
  sameTokens : ∀ identity ∈ retention.identities, ∀ market ∈ listed,
    market.marketId = identity.marketId → market.tokenIds.toFinset = identity.tokenIds
  /-- A promised market of the catalog that is neither active nor resolved is
  listed. -/
  listsEnded : ∀ identity ∈ retention.identities,
    Retention.Unlisted listed identity.marketId →
      ∀ market, state.markets[identity.marketId]? = some market →
        market.isActive = true ∨ market.lifecycleState = .resolved
  /-- No listed market had a monitored copy with the token of a retained book. -/
  notReleased : ∀ retained ∈ (retention.install state listed).books,
    ¬state.Releases listed retained.tokenId
  /-- No market that leaves has another book of the token of a retained one. -/
  notReplaced : ∀ retained ∈ retention.books,
    Retention.Unlisted listed retained.marketId →
      state.Removes listed retained.tokenId →
        ∀ book, state.books[retained.tokenId]? = some book → book = retained.book

/-- An event that is an applied snapshot keeps the promises. -/
def KeepsRetained (enforce : Bool) (retention : Retention) (state : CanonicalState)
    (event : CanonicalEvent) : Prop :=
  ∀ listed, appliedListing enforce state event = some listed → ListingKeeps retention state listed

/-! ## One step -/

variable {before after : TreeMap String MarketRecord}

theorem HasIdentity.congr
    (same : ∀ marketId : String, after[marketId]?.map MarketRecord.stableIdentity =
      before[marketId]?.map MarketRecord.stableIdentity)
    (has : HasIdentity before identity) :
    HasIdentity after identity := by
  obtain ⟨market, known, tokens⟩ := has
  have present := same identity.marketId
  rw [known, map_some] at present
  obtain ⟨record, stored, sameIdentity⟩ := map_eq_some_iff.mp present
  exact ⟨record, stored, (congrArg MarketIdentity.tokenIds sameIdentity).trans tokens⟩

theorem stableIdentity_of_identity
    {first second : MarketRecord} (same : first.identity = second.identity) :
    first.stableIdentity = second.stableIdentity := by
  unfold MarketRecord.stableIdentity
  rw [MarketRecord.marketId_of_identity same, MarketRecord.tokenIds_of_identity same]

/-- Equal identities are equal stable identities. -/
theorem map_stableIdentity_of_identity
    (same : ∀ marketId : String, after[marketId]?.map MarketRecord.identity =
      before[marketId]?.map MarketRecord.identity)
    (marketId : String) :
    after[marketId]?.map MarketRecord.stableIdentity =
      before[marketId]?.map MarketRecord.stableIdentity := by
  have here := same marketId
  cases known : before[marketId]? with
  | none =>
    rw [known, Option.map_none, map_eq_none_iff] at here
    rw [here]
  | some market =>
    rw [known, map_some] at here
    obtain ⟨record, stored, sameIdentity⟩ := map_eq_some_iff.mp here
    rw [stored, map_some, map_some, stableIdentity_of_identity sameIdentity]

section Installed

variable {state next : CanonicalState} {listed : List MarketRecord} {catalog : CatalogState}
  {identity : MarketIdentity}

/-- A listed market is present as it is listed. -/
theorem hasIdentity_listed_iff
    (indexes : catalog.Indexes (listed ++ retainedResolvedMarkets state listed))
    (installed : ∀ marketId : String, next.markets[marketId]?.map MarketRecord.identity =
      catalog.markets[marketId]?.map MarketRecord.identity)
    (monitored : ∀ (marketId : String) (market : MarketRecord),
      next.monitoringMarkets[marketId]? = some market →
        ∀ other ∈ listed ++ retainedResolvedMarkets state listed, other.marketId ≠ marketId)
    (mem : market ∈ listed)
    (named : market.marketId = identity.marketId) :
    HasIdentity next.markets identity ∨ HasIdentity next.monitoringMarkets identity ↔
      market.tokenIds.toFinset = identity.tokenIds := by
  have stored : catalog.markets[identity.marketId]? = some market :=
    (indexes.market _ market).mpr ⟨mem_append_left _ mem, named⟩
  have present := map_stableIdentity_of_identity installed identity.marketId
  rw [stored, map_some] at present
  obtain ⟨record, known, sameIdentity⟩ := map_eq_some_iff.mp present
  have sameTokens : record.tokenIds.toFinset = market.tokenIds.toFinset :=
    congrArg MarketIdentity.tokenIds sameIdentity
  constructor
  · rintro (⟨other, alsoKnown, tokens⟩ | ⟨other, copied, _⟩)
    · rw [known] at alsoKnown
      cases alsoKnown
      exact sameTokens.symm.trans tokens
    · exact absurd named (monitored _ other copied market (mem_append_left _ mem))
  · intro tokens
    exact .inl ⟨record, known, sameTokens.trans tokens⟩

/-- A market that is not listed stays while it is active, monitored or
resolved, and is forgotten otherwise. -/
theorem hasIdentity_unlisted_iff (invariant : Invariant state) (separate : state.Separate)
    (indexes : catalog.Indexes (listed ++ retainedResolvedMarkets state listed))
    (installed : ∀ marketId : String, next.markets[marketId]?.map MarketRecord.identity =
      catalog.markets[marketId]?.map MarketRecord.identity)
    (monitored : ∀ (marketId : String) (market : MarketRecord),
      next.monitoringMarkets[marketId]? = some market ↔
        (∀ other ∈ listed ++ retainedResolvedMarkets state listed, other.marketId ≠ marketId) ∧
          (state.markets[marketId]? = some market ∧ market.isActive = true ∨
            state.monitoringMarkets[marketId]? = some market ∧
              ∀ current, state.markets[marketId]? = some current → current.isActive = false))
    (has : HasIdentity state.markets identity ∨ HasIdentity state.monitoringMarkets identity)
    (unlisted : Retention.Unlisted listed identity.marketId) :
    HasIdentity next.markets identity ∨ HasIdentity next.monitoringMarkets identity ↔
      ∀ market, state.markets[identity.marketId]? = some market →
        market.isActive = true ∨ market.lifecycleState = .resolved := by
  have retained_iff : ∀ market, state.markets[identity.marketId]? = some market →
      (market ∈ retainedResolvedMarkets state listed ↔ market.lifecycleState = .resolved) := by
    intro market known
    have named := invariant.keyed _ market known
    unfold retainedResolvedMarkets
    rw [mem_filter, mem_valueList]
    simp only [and_eq_true, beq_iff_eq, not_eq_true', any_eq_false, named]
    exact ⟨fun both => both.2.1, fun resolved => ⟨⟨_, known⟩, resolved, unlisted⟩⟩
  cases known : state.markets[identity.marketId]? with
  | none =>
    -- Monitored before, and left alone.
    obtain ⟨market, copied, tokens⟩ : HasIdentity state.monitoringMarkets identity := by
      rcases has with ⟨market, present, _⟩ | monitoredBefore
      · rw [known] at present
        cases present
      · exact monitoredBefore
    have foreign : ∀ other ∈ listed ++ retainedResolvedMarkets state listed,
        other.marketId ≠ identity.marketId := by
      intro other mem same
      rcases mem_append.mp mem with inListed | resolved
      · exact unlisted other inListed same
      · obtain ⟨key, present⟩ := mem_valueList.mp (mem_filter.mp resolved).1
        rw [(invariant.keyed key other present).symm.trans same, known] at present
        cases present
    constructor
    · rintro _ other present
      cases present
    · intro _
      refine .inr ⟨market, (monitored _ market).mpr ⟨foreign, .inr ⟨copied, ?_⟩⟩, tokens⟩
      intro current present
      rw [known] at present
      cases present
  | some market =>
    have named := invariant.keyed _ market known
    have tokens : market.tokenIds.toFinset = identity.tokenIds := by
      rcases has with ⟨other, present, tokens⟩ | ⟨other, copied, _⟩
      · rw [known] at present
        cases present
        exact tokens
      · rw [separate _ market known] at copied
        cases copied
    have stored_iff : ∀ record, catalog.markets[identity.marketId]? = some record →
        record = market ∧ market.lifecycleState = .resolved := by
      intro record stored
      obtain ⟨mem, sameId⟩ := (indexes.market _ record).mp stored
      rcases mem_append.mp mem with inListed | resolved
      · exact absurd sameId (unlisted record inListed)
      · obtain ⟨key, present⟩ := mem_valueList.mp (mem_filter.mp resolved).1
        rw [(invariant.keyed key record present).symm.trans sameId, known] at present
        cases present
        exact ⟨rfl, (retained_iff market known).mp resolved⟩
    constructor
    · rintro (⟨record, present, _⟩ | ⟨record, copied, _⟩) other same
      · cases same
        have stored := installed identity.marketId
        rw [present, map_some] at stored
        obtain ⟨original, inCatalog, _⟩ := map_eq_some_iff.mp stored.symm
        exact .inr (stored_iff original inCatalog).2
      · cases same
        obtain ⟨_, ⟨present, active⟩ | ⟨before, _⟩⟩ := (monitored _ record).mp copied
        · rw [known] at present
          cases present
          exact .inl active
        · rw [separate _ market known] at before
          cases before
    · intro survives
      rcases survives market rfl with active | resolved
      · refine .inr ⟨market, (monitored _ market).mpr ⟨?_, .inl ⟨known, active⟩⟩, tokens⟩
        rw [← indexes.absent_iff]
        cases stored : catalog.markets[identity.marketId]? with
        | none => rfl
        | some record =>
          have resolved := (stored_iff record stored).2
          simp [MarketRecord.isActive, resolved] at active
      · have inCatalog : catalog.markets[identity.marketId]? = some market :=
          (indexes.market _ market).mpr
            ⟨mem_append_right _ ((retained_iff market known).mpr resolved), named⟩
        have present := map_stableIdentity_of_identity installed identity.marketId
        rw [inCatalog, map_some] at present
        obtain ⟨record, stored, sameIdentity⟩ := map_eq_some_iff.mp present
        exact .inl ⟨record, stored, (congrArg MarketIdentity.tokenIds sameIdentity).trans tokens⟩

/-- The copies after a snapshot, for the books promised before and by it. -/
theorem retainedBooks_install_iff (copies : ∀ tokenId, state.MonitoredBooks next listed tokenId)
    (retains : Retains retention state) :
    (∀ retained ∈ (retention.install state listed).books,
        next.monitoringBooks[retained.tokenId]? = some retained.book) ↔
      (∀ retained ∈ (retention.install state listed).books,
          ¬state.Releases listed retained.tokenId) ∧
        ∀ retained ∈ retention.books, Retention.Unlisted listed retained.marketId →
          state.Removes listed retained.tokenId →
            ∀ book, state.books[retained.tokenId]? = some book → book = retained.book := by
  constructor
  · intro kept
    have unreleased : ∀ retained ∈ (retention.install state listed).books,
        ¬state.Releases listed retained.tokenId := by
      intro retained mem released
      have present := kept retained mem
      rw [(copies retained.tokenId).released released] at present
      cases present
    refine ⟨unreleased, ?_⟩
    intro retained mem unlisted removes book known
    have promised : retained ∈ (retention.install state listed).books := .inl ⟨mem, unlisted⟩
    have present := kept retained promised
    rw [(copies retained.tokenId).removed (unreleased retained promised) removes, known] at present
    exact some.inj present
  · rintro ⟨unreleased, unreplaced⟩ retained mem
    have free := unreleased retained mem
    rcases mem with ⟨before, unlisted⟩ | ⟨market, known, active, unlisted, named, book⟩
    · have copied := retains.books retained before
      by_cases removes : state.Removes listed retained.tokenId
      · rw [(copies retained.tokenId).removed free removes, copied]
        cases present : state.books[retained.tokenId]? with
        | none => rfl
        | some book =>
          rw [unreplaced retained before unlisted removes book present]
          rfl
      · rw [(copies retained.tokenId).kept free removes]
        exact copied
    · have removes : state.Removes listed retained.tokenId :=
        ⟨retained.marketId, market, known, active, unlisted, named⟩
      rw [(copies retained.tokenId).removed free removes, book]
      rfl

end Installed

/-- What a run of the writer keeps besides its promises. -/
structure Orderly (state : CanonicalState) : Prop where
  invariant : Invariant state
  separate : state.Separate

/-- A step of the writer together with the promises of its run. -/
def RetentionStep (platform : Platform) (enforce : Bool) (before : CanonicalState × Retention)
    (label : EvaluatedEvent) (after : CanonicalState × Retention) : Prop :=
  Evaluates platform enforce before.1 label after.1 ∧ after.2 = before.2.record before.1 label

section Step

variable {platform : Platform} {enforce : Bool}
  {state next : CanonicalState} {label : EvaluatedEvent}

section

variable (evaluates : Evaluates platform enforce state label next)
include evaluates

theorem Evaluates.invariant (invariant : Invariant state) :
    Invariant next := by
  obtain ⟨_, evaluated⟩ := evaluates
  obtain ⟨phases⟩ := phases_of_evaluateEvent evaluated
  exact phases.invariant_next invariant

theorem Evaluates.orderly (orderly : Orderly state) :
    Orderly next := by
  refine ⟨evaluates.invariant orderly.invariant, ?_⟩
  have of_identity : ∀ before after : TreeMap String MarketRecord,
      (∀ marketId : String, after[marketId]?.map MarketRecord.identity =
        before[marketId]?.map MarketRecord.identity) →
      ∀ (marketId : String) (market : MarketRecord), after[marketId]? = some market →
        ∃ original, before[marketId]? = some original :=
    fun before after identity marketId market known =>
      (exists_of_identity_eq identity known).imp fun _ both => both.1
  intro marketId market known
  cases evaluates.indexStep orderly.invariant.keyed with
  | @installed catalogRevision listed relations catalog _ _ _ indexes identity monitored _ =>
    obtain ⟨original, stored⟩ := of_identity _ _ identity marketId market known
    obtain ⟨mem, named⟩ := (indexes.market marketId original).mp stored
    cases copied : next.monitoringMarkets[marketId]? with
    | none => rfl
    | some copy => exact absurd named (((monitored marketId copy).mp copied).1 original mem)
  | @resolved conditionId otherId winningTokenId winningOutcome other _ _ _ _ otherKnown
      identity sameMonitored _ =>
      rw [sameMonitored]
      obtain ⟨original, stored⟩ := of_identity _ _ identity marketId market known
      rw [TreeMap.getElem?_insert] at stored
      split at stored
      · rename_i same
        rw [← compare_eq_iff_eq.mp same]
        exact orderly.separate otherId other otherKnown
      · exact orderly.separate marketId original stored
  | kept _ identity sameMonitored _ =>
    rw [sameMonitored]
    obtain ⟨original, stored⟩ := of_identity _ _ identity marketId market known
    exact orderly.separate marketId original stored

/-- A step keeps what was promised exactly if its snapshot does. -/
theorem Evaluates.retains_iff (orderly : Orderly state) (retains : Retains retention state) :
    Retains (retention.record state label) next ↔
      KeepsRetained enforce retention state label.event := by
  have listing := evaluates.appliedListing_eq
  have unchanged : appliedListing enforce state label.event = none →
      (∀ identity, HasIdentity state.markets identity → HasIdentity next.markets identity) →
      next.monitoringMarkets = state.monitoringMarkets →
      next.monitoringBooks = state.monitoringBooks →
      (Retains (retention.record state label) next ↔
        KeepsRetained enforce retention state label.event) := by
    intro unlisted hasKept sameMarkets sameBooks
    have same : retention.record state label = retention := by
      rw [listing] at unlisted
      rw [Retention.record, unlisted]
      rfl
    rw [same]
    constructor
    · rintro _ listed applied
      rw [unlisted] at applied
      cases applied
    · intro _
      refine ⟨fun identity mem => ?_, fun retained mem => ?_⟩
      · rw [sameMarkets]
        exact (retains.identities identity mem).imp_left (hasKept identity)
      · rw [sameBooks]
        exact retains.books retained mem
  cases evaluates.indexStep orderly.invariant.keyed with
  | @installed catalogRevision listed relations catalog applied _ _ indexes identity monitored
      copies =>
      have same : retention.record state label = retention.install state listed := by
        rw [Retention.record, ← listing, applied]
        rfl
      have only : ∀ marketId market, next.monitoringMarkets[marketId]? = some market →
          ∀ other ∈ listed ++ retainedResolvedMarkets state listed, other.marketId ≠ marketId :=
        fun marketId market copied => ((monitored marketId market).mp copied).1
      have books := retainedBooks_install_iff (copies orderly.separate) retains
      rw [same]
      constructor
      · intro kept other alsoApplied
        rw [applied] at alsoApplied
        cases alsoApplied
        obtain ⟨unreleased, unreplaced⟩ := books.mp kept.books
        refine ⟨?_, ?_, unreleased, unreplaced⟩
        · intro promised mem market inListed named
          exact (hasIdentity_listed_iff indexes identity only inListed named).mp
            (kept.identities promised (.inl mem))
        · intro promised mem unlisted
          exact (hasIdentity_unlisted_iff orderly.invariant orderly.separate indexes identity
            monitored (retains.identities promised mem) unlisted).mp
              (kept.identities promised (.inl mem))
      · intro keeps
        have listingKeeps := keeps listed applied
        refine ⟨?_, books.mpr ⟨listingKeeps.notReleased, listingKeeps.notReplaced⟩⟩
        rintro promised (mem | ⟨market, inListed, _, rfl⟩)
        · by_cases unlisted : Retention.Unlisted listed promised.marketId
          · exact (hasIdentity_unlisted_iff orderly.invariant orderly.separate indexes identity
              monitored (retains.identities promised mem) unlisted).mpr
                (listingKeeps.listsEnded promised mem unlisted)
          · unfold Retention.Unlisted at unlisted
            push Not at unlisted
            obtain ⟨market, inListed, named⟩ := unlisted
            exact (hasIdentity_listed_iff indexes identity only inListed named).mpr
              (listingKeeps.sameTokens promised mem market inListed named)
        · exact (hasIdentity_listed_iff indexes identity only inListed rfl).mpr rfl
  | @resolved conditionId marketId winningTokenId winningOutcome market unlisted _ _ _ known
      identity sameMarkets sameBooks =>
      refine unchanged unlisted (fun promised has => ?_) sameMarkets sameBooks
      refine HasIdentity.congr (fun otherId => ?_) has
      rw [map_stableIdentity_of_identity identity otherId, TreeMap.getElem?_insert]
      split
      · rename_i same
        rw [← compare_eq_iff_eq.mp same, known]
        rfl
      · rfl
  | kept unlisted identity sameMarkets sameBooks =>
    exact unchanged unlisted
      (fun promised has => has.congr (map_stableIdentity_of_identity identity))
      sameMarkets sameBooks

end

end Step

theorem retentionStep_deterministic (platform : Platform) (enforce : Bool) :
    Run.Deterministic (RetentionStep platform enforce) := by
  rintro before label after other ⟨evaluates, promised⟩ ⟨again, promisedAgain⟩
  exact Prod.ext (evaluates_deterministic _ _ _ _ _ _ evaluates again)
    (promised.trans promisedAgain.symm)

/-- In every run, the writer keeps all identities and books it has promised, in
every state it passes through, exactly when each of its applied snapshots
treats the promised markets as `ListingKeeps` says. -/
theorem retains_iff_keepsRetained
    (platform : Platform) (enforce : Bool) (scopeId : String) (labels : List EvaluatedEvent)
    (final : CanonicalState × Retention)
    (run : Run (RetentionStep platform enforce) (.bootstrap scopeId, .empty) labels final) :
    Run.Throughout (RetentionStep platform enforce) (fun reached => Retains reached.2 reached.1)
        (.bootstrap scopeId, .empty) labels ↔
      Run.EachStep (RetentionStep platform enforce)
        (fun _ before label =>
          KeepsRetained enforce before.2 before.1 label.event)
        (.bootstrap scopeId, .empty) labels := by
  have orderlyKept : ∀ before label after, Orderly before.1 →
      RetentionStep platform enforce before label after → Orderly after.1 :=
    fun before label after orderly taken => taken.1.orderly orderly
  have orderlyAtStart : Orderly (.bootstrap scopeId) := by
    refine ⟨invariant_bootstrap scopeId, ?_⟩
    intro marketId market known
    simp [CanonicalState.bootstrap] at known
  have retainsAtStart : Retains .empty (.bootstrap scopeId) :=
    ⟨fun _ member => absurd member (Set.notMem_empty _),
      fun _ member => absurd member (Set.notMem_empty _)⟩
  refine Run.throughout_iff_eachStep (retentionStep_deterministic _ _) orderlyKept ?_
    orderlyAtStart retainsAtStart run
  intro before label after orderly retains taken
  rw [taken.2]
  exact taken.1.retains_iff orderly retains

/-! ## A market that closes and leaves -/

section Promises

variable {platform : Platform} {enforce : Bool}
  {start final : CanonicalState} {labels : List EvaluatedEvent}

/-- Every run of the writer makes its promises. -/
theorem exists_retentionRun
    (run : EvaluationRun platform enforce start labels final) (promised : Retention) :
    ∃ retention, Run (RetentionStep platform enforce) (start, promised) labels
      (final, retention) := by
  induction run with
  | nil => exact ⟨promised, .nil⟩
  | @snoc labels middle label finish _ evaluates ih =>
    obtain ⟨retention, before⟩ := ih
    have taken : RetentionStep platform enforce (middle, retention) label
        (finish, retention.record middle label) := ⟨evaluates, rfl⟩
    exact ⟨_, .snoc before taken⟩

/-- The identities of the active markets of an applied snapshot are promised. -/
theorem mem_identities_of_run {before after : CanonicalState × Retention}
    (run : Run (RetentionStep platform enforce) before labels after) (taken : label ∈ labels)
    {listed : List MarketRecord} (applied : label.snapshot? = some listed) {market : MarketRecord}
    (mem : market ∈ listed) (active : market.isActive = true) :
    market.stableIdentity ∈ after.2.identities := by
  induction run with
  | nil => cases taken
  | @snoc labels middle other finish _ step ih =>
    rw [step.2, Retention.record]
    rcases mem_append.mp taken with earlier | last
    · have promised := ih earlier
      cases other.snapshot? with
      | none => exact promised
      | some _ => exact .inl promised
    · obtain rfl := mem_singleton.mp last
      rw [applied]
      exact .inr ⟨market, mem, active, rfl⟩

end Promises

def sampleForgotten : List EvaluatedEvent × CanonicalState :=
  (evaluateAll samplePlatform true (CanonicalState.bootstrap "scope")
    (sampleEvents [.catalogSnapshot "r1" [sampleMarket "m" "t1" "t2"] [],
      .catalogSnapshot "r2" [sampleClosed (sampleMarket "m" "t1" "t2")] [],
      .catalogSnapshot "r3" [sampleMarket "n" "t3" "t4"] []])).get (by decide +kernel)

theorem sampleForgotten_run :
    EvaluationRun samplePlatform true (.bootstrap "scope") sampleForgotten.1
      sampleForgotten.2 :=
  evaluateAll_run (fun _ mem => sampleEvents_valid mem) (some_get _).symm

/-- A market that is listed as closed before it leaves is forgotten. -/
theorem closed_market_forgotten :
    ¬∀ (labels : List EvaluatedEvent) (final : CanonicalState × Retention),
      Run (RetentionStep samplePlatform true) (.bootstrap "scope", .empty) labels final →
        Run.Throughout (RetentionStep samplePlatform true)
          (fun reached => Retains reached.2 reached.1)
          (.bootstrap "scope", .empty) labels := by
  intro retained
  obtain ⟨retention, run⟩ := exists_retentionRun sampleForgotten_run .empty
  have kept := retained _ _ run sampleForgotten.1 [] _ (by simp) run
  obtain ⟨label, taken, applied⟩ : ∃ label ∈ sampleForgotten.1,
      label.snapshot? = some [sampleMarket "m" "t1" "t2"] := by decide +kernel
  have promised := mem_identities_of_run run taken applied (mem_singleton_self _) rfl
  have absent : sampleForgotten.2.markets["m"]? = none ∧
      sampleForgotten.2.monitoringMarkets["m"]? = none := by decide +kernel
  rcases kept.identities _ promised with ⟨market, known, _⟩ | ⟨market, known, _⟩
  · exact absurd (known.symm.trans absent.1) (by simp)
  · exact absurd (known.symm.trans absent.2) (by simp)

theorem retains_iff_keepsRetained_sample :
    Run.Throughout (RetentionStep samplePlatform true) (fun reached => Retains reached.2 reached.1)
        (.bootstrap "scope", .empty) sampleForgotten.1 ↔
      Run.EachStep (RetentionStep samplePlatform true)
        (fun _ before label => KeepsRetained true before.2 before.1 label.event)
        (.bootstrap "scope", .empty) sampleForgotten.1 := by
  obtain ⟨retention, run⟩ := exists_retentionRun sampleForgotten_run .empty
  exact retains_iff_keepsRetained samplePlatform true "scope" sampleForgotten.1 _ run

end MarketCow.Core
