import MarketCow.Core.CatalogStep

/-!
# Sequence numbers of a market

The counter of a market lives in its health record. A step gives the event of
a market the next number and stores it there; only an applied catalog can drop
the record, and with it the counter. The numbers published for a market are
gap-free exactly when no event reaches a market that lost its counter.
-/

namespace MarketCow.Core

open Library List Option CanonicalState

/-- The last sequence number of a market, zero without a health record. -/
def CanonicalState.lastSequence (state : CanonicalState) (marketId : String) : Nat :=
  (state.marketHealth[marketId]?).elim 0 MarketProjectionHealth.lastMarketSequence

namespace CanonicalState

variable {marketId : String}

theorem lastSequence_of_none
    {state : CanonicalState} (absent : state.marketHealth[marketId]? = none) :
    state.lastSequence marketId = 0 := by
  rw [lastSequence, absent]
  rfl

theorem lastSequence_congr {before after : CanonicalState}
    (same : after.marketHealth[marketId]? = before.marketHealth[marketId]?) :
    after.lastSequence marketId = before.lastSequence marketId := by
  unfold lastSequence
  rw [same]

variable (state : CanonicalState)

/-- A change of health that leaves the counter alone. -/
theorem lastSequence_upsertHealth (marketId other : String) (catalogRevision : Option String)
    {change : MarketProjectionHealth → MarketProjectionHealth}
    (kept : ∀ health, (change health).lastMarketSequence = health.lastMarketSequence) :
    (state.upsertHealth marketId catalogRevision change).lastSequence other =
      state.lastSequence other := by
  unfold lastSequence
  rw [getElem?_marketHealth_upsertHealth]
  by_cases same : marketId = other
  · subst same
    rw [if_pos rfl, elim_some, kept]
    cases state.marketHealth[marketId]? with
    | none | some health => rfl
  · rw [if_neg same]

variable (catalogRevision : String)

theorem lastSequence_monitorMarket
    (marketId : String) (state : CanonicalState) (market : MarketRecord) :
    (state.monitorMarket catalogRevision market).lastSequence marketId =
      state.lastSequence marketId := by
  have copied : (market.outcomes.toList.foldl monitorBook state).marketHealth =
      state.marketHealth := by
    refine Fallible.foldl_observed CanonicalState.marketHealth (fun state outcome => ?_) _ _
    unfold monitorBook
    cases state.books[outcome.tokenId]? with
    | none | some book => rfl
  have counted : ∀ health : MarketProjectionHealth,
      (health.removedFromScan state.generation catalogRevision).lastMarketSequence =
        health.lastMarketSequence := fun _ => rfl
  exact (lastSequence_upsertHealth (market.outcomes.toList.foldl monitorBook state)
    market.marketId marketId (some catalogRevision) counted).trans
      (lastSequence_congr (by rw [copied]))

/-- A snapshot keeps the health record of a market that it lists as active, and of one that
it does not list and that the writer keeps for monitoring: an active market of the catalog,
or a monitored one that has not resolved since. -/
def KeepsCounter (state : CanonicalState) (listed : List MarketRecord) (marketId : String) : Prop :=
  (∃ market ∈ listed, market.marketId = marketId ∧ market.isActive = true) ∨
    (∀ market ∈ listed, market.marketId ≠ marketId) ∧
      ∃ market, state.markets[marketId]? = some market ∧ market.isActive = true ∨
        state.monitoringMarkets[marketId]? = some market ∧
          ∀ current, state.markets[marketId]? = some current →
            current.isActive = false ∧ current.lifecycleState ≠ .resolved

variable {state} {listed : List MarketRecord}

theorem isActive_of_resolved
    {market : MarketRecord} (resolved : market.lifecycleState = .resolved) :
    market.isActive = false := by
  unfold MarketRecord.isActive
  rw [resolved]
  rfl

theorem mem_retainedResolvedMarkets (keyed : state.Keyed) :
    market ∈ retainedResolvedMarkets state listed ↔
      state.markets[market.marketId]? = some market ∧ market.lifecycleState = .resolved ∧
        ∀ other ∈ listed, other.marketId ≠ market.marketId := by
  unfold retainedResolvedMarkets
  rw [mem_filter, mem_valueList]
  simp only [and_eq_true, beq_iff_eq, not_eq_true', List.any_eq_false]
  constructor
  · rintro ⟨⟨key, known⟩, resolved, unlisted⟩
    rw [← keyed key market known] at known
    exact ⟨known, resolved, unlisted⟩
  · rintro ⟨known, resolved, unlisted⟩
    exact ⟨⟨_, known⟩, resolved, unlisted⟩

/-- The health records that the filter of an installation keeps. -/
theorem keepsCounter_iff (keyed : state.Keyed) {catalog : CatalogState}
    (indexes : catalog.Indexes (listed ++ retainedResolvedMarkets state listed))
    (marketId : String) :
    state.KeepsCounter listed marketId ↔
      (catalog.markets[marketId]?).any MarketRecord.isActive = true ∨
        ((state.releasedState catalogRevision catalog).monitoringMarkets[marketId]?).isSome =
          true := by
  have active : (catalog.markets[marketId]?).any MarketRecord.isActive = true ↔
      ∃ market ∈ listed, market.marketId = marketId ∧ market.isActive = true := by
    rw [Option.any_eq_true]
    constructor
    · rintro ⟨market, known, active⟩
      obtain ⟨mem, named⟩ := (indexes.market marketId market).mp known
      rcases mem_append.mp mem with inListed | retained
      · exact ⟨market, inListed, named, active⟩
      · rw [isActive_of_resolved ((mem_retainedResolvedMarkets keyed).mp retained).2.1] at active
        cases active
    · rintro ⟨market, mem, named, active⟩
      exact ⟨market, (indexes.market marketId market).mpr ⟨mem_append_left _ mem, named⟩, active⟩
  have foreign_iff : (∀ other ∈ listed ++ retainedResolvedMarkets state listed,
      other.marketId ≠ marketId) ↔ (∀ other ∈ listed, other.marketId ≠ marketId) ∧
        ∀ current, state.markets[marketId]? = some current →
          current.lifecycleState ≠ .resolved := by
    constructor
    · intro foreign
      have unlisted : ∀ other ∈ listed, other.marketId ≠ marketId :=
        fun other mem => foreign other (mem_append_left _ mem)
      refine ⟨unlisted, fun current known resolved => ?_⟩
      have named := keyed marketId current known
      refine foreign current (mem_append_right _ ((mem_retainedResolvedMarkets keyed).mpr ?_)) named
      rw [named]
      exact ⟨known, resolved, unlisted⟩
    · rintro ⟨unlisted, unresolved⟩ other mem named
      rcases mem_append.mp mem with inListed | retained
      · exact unlisted other inListed named
      · obtain ⟨known, resolved, _⟩ := (mem_retainedResolvedMarkets keyed).mp retained
        exact unresolved other (named ▸ known) resolved
  unfold KeepsCounter
  simp only [active, isSome_iff_exists, foreign_iff,
    getElem?_monitoringMarkets_releasedState keyed catalogRevision indexes]
  refine or_congr_right ⟨?_, ?_⟩
  · rintro ⟨unlisted, market, ⟨known, isActive⟩ | ⟨copied, ended⟩⟩
    · refine ⟨market, ⟨unlisted, fun current present resolved => ?_⟩, .inl ⟨known, isActive⟩⟩
      rw [known] at present
      cases present
      rw [isActive_of_resolved resolved] at isActive
      cases isActive
    · exact ⟨market, ⟨unlisted, fun current present => (ended current present).2⟩,
        .inr ⟨copied, fun current present => (ended current present).1⟩⟩
  · rintro ⟨market, ⟨unlisted, unresolved⟩, source⟩
    exact ⟨unlisted, market, source.imp_right fun ⟨copied, inactive⟩ =>
      ⟨copied, fun current present => ⟨inactive current present, unresolved current present⟩⟩⟩

/-- A catalog keeps the counter of a market or drops its record. -/
theorem lastSequence_installCatalog (keyed : state.Keyed) {catalog : CatalogState}
    (indexes : catalog.Indexes (listed ++ retainedResolvedMarkets state listed))
    (marketId : String) :
    (state.KeepsCounter listed marketId →
        (state.installCatalog catalogRevision catalog).lastSequence marketId =
          state.lastSequence marketId) ∧
      (¬state.KeepsCounter listed marketId →
        (state.installCatalog catalogRevision catalog).lastSequence marketId = 0) := by
  rw [keepsCounter_iff catalogRevision keyed indexes]
  by_cases active : (catalog.markets[marketId]?).any MarketRecord.isActive = true
  · obtain ⟨market, known, isActive⟩ := Option.any_eq_true _ _ |>.mp active
    have named : market.marketId = marketId := ((indexes.market marketId market).mp known).2
    refine ⟨fun _ => ?_, fun dropped => absurd (.inl active) dropped⟩
    unfold lastSequence
    rw [getElem?_marketHealth_installCatalog state catalogRevision catalog known isActive named]
    cases state.marketHealth[marketId]? with
    | none | some health => rfl
  · -- The filter decides about every other market, and no fresh record replaces it.
    have unensured : marketId ∉ ((state.releasedState catalogRevision catalog).replaceIndexes
        catalogRevision catalog).activeMarkets.map MarketRecord.marketId := by
      intro mem
      obtain ⟨market, inActive, sameId⟩ := mem_map.mp mem
      obtain ⟨⟨otherId, known⟩, isActive⟩ := mem_activeMarkets.mp inActive
      have named : market.marketId = otherId := ((indexes.market otherId market).mp known).2
      rw [sameId] at named
      subst named
      have known : catalog.markets[marketId]? = some market := known
      exact active (by rw [known]; exact isActive)
    have installed : (state.installCatalog catalogRevision catalog).marketHealth[marketId]? =
        ((state.releasedState catalogRevision catalog).replaceIndexes catalogRevision
          catalog).marketHealth[marketId]? := by
      rw [marketHealth_installCatalog, getElem?_marketHealth_foldl_ensureHealth, if_neg unensured]
    simp only [replaceIndexes] at installed
    rw [getElem?_filterKeys _ fun marketId =>
        (catalog.markets[marketId]?).any MarketRecord.isActive ||
          (state.releasedState catalogRevision catalog).monitoringMarkets.contains
            marketId] at installed
    rw [← contains_eq_isSome_getElem?, ← or_eq_true]
    refine ⟨fun kept => ?_, fun dropped => ?_⟩
    · rw [if_pos kept, marketHealth_releasedState] at installed
      rw [lastSequence_congr installed]
      exact Fallible.foldl_observed (fun state : CanonicalState => state.lastSequence marketId)
        (lastSequence_monitorMarket catalogRevision marketId) _ _
    · rw [if_neg dropped] at installed
      exact lastSequence_of_none installed

end CanonicalState

/-! ## The counter in one step -/

theorem lastSequence_admittedState
    (state : CanonicalState) (event : CanonicalEvent) (marketId : String) :
    (admittedState state event).lastSequence marketId = state.lastSequence marketId := by
  unfold admittedState
  dsimp only
  cases eventMarketId (state.advance event) event.kind with
  | none => rfl
  | some other =>
    rw [elim_some, CanonicalState.admitExecutableMarket]
    split
    · rename_i fresh
      unfold CanonicalState.lastSequence
      rw [TreeMap.getElem?_insert]
      split
      · rename_i same
        obtain rfl := compare_eq_iff_eq.mp same
        simp only [and_eq_true, not_eq_true', contains_eq_isSome_getElem?, isSome_eq_false_iff,
          isNone_iff_eq_none] at fresh
        have absent : state.marketHealth[other]? = none := fresh.1
        rw [absent]
        rfl
      · rfl
    · rfl

variable {state : CanonicalState} {event : CanonicalEvent}

/-- The number of an event is the one after the last number of its market. -/
theorem marketSequence_of_attribution
    (attributed : attribution state event = some market) :
    market.marketSequence = state.lastSequence market.marketId + 1 := by
  obtain ⟨marketId, _, rfl⟩ := attribution_eq_some_iff.mp attributed
  rw [← lastSequence_admittedState state event]
  unfold attributeTo CanonicalState.lastSequence
  cases (admittedState state event).marketHealth[marketId]? with
  | none | some health => rfl

/-- A decision about anything but a snapshot keeps every counter. -/
theorem lastSequence_of_decision
    (effect : DecisionEffect platform enforce state event decision)
    (plain : ∀ catalogRevision markets relations,
      event.kind ≠ .catalogSnapshot catalogRevision markets relations) (marketId : String) :
    decision.state.lastSequence marketId = state.lastSequence marketId := by
  cases effect with
  | sourceRejected | superseded => rfl
  | decided _ _ kindEffect =>
    cases kindEffect with
    | catalogInstalled kind =>
      exact absurd (EventKind.eq_of_rewriteEvent_kind kind rfl) (plain _ _ _)
    | @resolved conditionId otherId winningTokenId winningOutcome market _ _ _ =>
      obtain ⟨relations, gaps, shape⟩ := resolveMarket_eq platform
        (rewriteEvent enforce state event) conditionId winningTokenId
        winningOutcome state otherId market
      rw [Decision.accept, shape]
      rfl
    | _ => rfl

/-- An event is a snapshot that is applied to a state and keeps no record of a market that
has published events. -/
def LosesCounter
    (enforce : Bool) (state : CanonicalState) (event : CanonicalEvent) (marketId : String) : Prop :=
  0 < state.lastSequence marketId ∧
    ∃ listed, appliedListing enforce state event = some listed ∧
      ¬state.KeepsCounter listed marketId

section Step

variable {platform : Platform} {enforce : Bool} {state next : CanonicalState}
  {label : EvaluatedEvent} {marketId : String}

section

variable (evaluates : Evaluates platform enforce state label next)
include evaluates

/-- The market of an event takes the next number. -/
theorem Evaluates.sequence_attributed
    (named : eventMarketId state label.event.kind = some marketId) :
    next.lastSequence marketId = state.lastSequence marketId + 1 ∧
      ∃ metadata, label.persisted.market = some metadata ∧ metadata.marketId = marketId ∧
        metadata.marketSequence = state.lastSequence marketId + 1 := by
  obtain ⟨_, evaluated⟩ := evaluates
  obtain ⟨phases⟩ := phases_of_evaluateEvent evaluated
  have attributed : attribution state label.event =
      some (attributeTo (admittedState state label.event) marketId) :=
    attribution_eq_some_iff.mpr ⟨marketId, named, rfl⟩
  have number := marketSequence_of_attribution attributed
  obtain ⟨health, present, counted⟩ := phases.sequence_next attributed
  refine ⟨?_, ?_⟩
  · have present : next.marketHealth[marketId]? = some health := present
    rw [CanonicalState.lastSequence, present, elim_some, counted]
    exact number
  · have stored := phases.market_eq
    rw [attributed, map_some] at stored
    exact ⟨_, stored, rfl, number⟩

/-- No other market is named by the stored metadata. -/
theorem Evaluates.metadata_unattributed
    (unnamed : eventMarketId state label.event.kind ≠ some marketId)
    (stored : label.persisted.market = some metadata) :
    metadata.marketId ≠ marketId := by
  obtain ⟨_, evaluated⟩ := evaluates
  obtain ⟨phases⟩ := phases_of_evaluateEvent evaluated
  rw [phases.market_eq] at stored
  obtain ⟨market, attributed, rfl⟩ := map_eq_some_iff.mp stored
  obtain ⟨named, isNamed, rfl⟩ := attribution_eq_some_iff.mp attributed
  rintro rfl
  exact unnamed isNamed

/-- Every other market keeps its counter, unless the event is a snapshot that loses it. -/
theorem Evaluates.lastSequence_unattributed
    (keyed : state.Keyed) (unnamed : eventMarketId state label.event.kind ≠ some marketId) :
    (¬LosesCounter enforce state label.event marketId →
        next.lastSequence marketId = state.lastSequence marketId) ∧
      (LosesCounter enforce state label.event marketId → next.lastSequence marketId = 0) := by
  obtain ⟨_, evaluated⟩ := evaluates
  obtain ⟨phases⟩ := phases_of_evaluateEvent evaluated
  have same : next.lastSequence marketId = phases.decision.state.lastSequence marketId :=
    lastSequence_congr (phases.afterDecision.marketHealth marketId fun market attributed named => by
      obtain ⟨_, isNamed, rfl⟩ := attribution_eq_some_iff.mp attributed
      exact unnamed (named ▸ isNamed))
  rw [same]
  unfold LosesCounter
  by_cases snapshot : ∃ catalogRevision markets relations,
      label.event.kind = .catalogSnapshot catalogRevision markets relations
  · obtain ⟨catalogRevision, markets, relations, kind⟩ := snapshot
    have decided := phases.decision_eq
    rw [admittedState_catalogSnapshot kind] at decided
    have listing : appliedListing enforce (state.advance label.event) label.event =
        appliedListing enforce state label.event := rfl
    have advanced : (state.advance label.event).lastSequence marketId =
        state.lastSequence marketId := rfl
    rcases decision_of_catalogSnapshot kind decided with
      ⟨catalog, listed, valid, decision⟩ | ⟨refused, gap, reason, decision⟩
    · have keyedNow : (state.advance label.event).Keyed := keyed
      obtain ⟨kept, dropped⟩ :=
        lastSequence_installCatalog catalogRevision keyedNow (validatedCatalog_indexes valid) marketId
      rw [decision, Decision.accept, ← listing, listed]
      constructor
      · intro unlost
        by_cases keeps : (state.advance label.event).KeepsCounter markets marketId
        · exact kept keeps
        · refine (dropped keeps).trans (Eq.symm ?_)
          by_contra used
          exact unlost ⟨Nat.pos_of_ne_zero used, markets, rfl, keeps⟩
      · rintro ⟨_, _, named, lost⟩
        exact dropped (some.inj named ▸ lost)
    · rw [decision, ← listing, refused]
      refine ⟨fun _ => advanced, ?_⟩
      rintro ⟨_, _, named, _⟩
      cases named
  · have unlisted : appliedListing enforce state label.event = none := by
      unfold appliedListing
      cases kind : label.event.kind with
      | catalogSnapshot revision markets relations =>
        exact absurd ⟨revision, markets, relations, kind⟩ snapshot
      | _ => rfl
    rw [unlisted, ← lastSequence_admittedState state label.event]
    constructor
    · refine fun _ => lastSequence_of_decision phases.decided ?_ marketId
      intro revision markets relations kind
      exact snapshot ⟨revision, markets, relations, kind⟩
    · rintro ⟨_, _, named, _⟩
      cases named

end

end Step

/-! ## Runs -/

/-- The numbers published for a market, in cursor order. -/
def marketSequences (labels : List EvaluatedEvent) (marketId : String) : List Nat :=
  labels.filterMap fun label =>
    label.persisted.market.bind fun metadata =>
      if metadata.marketId = marketId then some metadata.marketSequence else none

/-- The numbers of every market are one, two, three and so on. -/
def SequencesContiguous (labels : List EvaluatedEvent) : Prop :=
  ∀ marketId, ∃ count, marketSequences labels marketId = List.range' 1 count

/-- Some event of a run lost the counter of a market. -/
def CounterLost
    (platform : Platform) (enforce : Bool) (start : CanonicalState) (labels : List EvaluatedEvent)
    (marketId : String) : Prop :=
  ∃ earlier label later before,
    labels = earlier ++ label :: later ∧ EvaluationRun platform enforce start earlier before ∧
      LosesCounter enforce before label.event marketId

section Run

variable {platform : Platform} {enforce : Bool}
  {start state next : CanonicalState} {labels : List EvaluatedEvent} {label : EvaluatedEvent}

theorem marketSequences_snoc
    (labels : List EvaluatedEvent) (label : EvaluatedEvent) (marketId : String) :
    marketSequences (labels ++ [label]) marketId =
      marketSequences labels marketId ++ marketSequences [label] marketId :=
  filterMap_append

/-- A counter is lost in a run or by its last event. -/
theorem counterLost_snoc_iff
    (run : EvaluationRun platform enforce start labels state) (marketId : String) :
    CounterLost platform enforce start (labels ++ [label]) marketId ↔
      CounterLost platform enforce start labels marketId ∨
        LosesCounter enforce state label.event marketId := by
  constructor
  · rintro ⟨earlier, lost, later, before, split, reached, loses⟩
    rcases eq_nil_or_concat later with rfl | ⟨front, last, rfl⟩
    · obtain ⟨rfl, same⟩ := append_inj' split rfl
      obtain rfl := singleton_inj.mp same
      obtain rfl := reached.deterministic (evaluates_deterministic _ _) run
      exact .inr loses
    · rw [concat_eq_append, ← cons_append, ← append_assoc] at split
      obtain ⟨split, _⟩ := append_inj' split rfl
      exact .inl ⟨earlier, lost, front, before, split, reached, loses⟩
  · rintro (⟨earlier, lost, later, before, split, reached, loses⟩ | loses)
    · exact ⟨earlier, lost, later ++ [label], before, by simp [split], reached, loses⟩
    · exact ⟨labels, label, [], state, rfl, run, loses⟩

/-- The published numbers of a market by its counter, lost or not. -/
structure SequencesHeld
    (platform : Platform) (enforce : Bool) (start : CanonicalState) (labels : List EvaluatedEvent)
    (state : CanonicalState) : Prop where
  kept : ∀ marketId, ¬CounterLost platform enforce start labels marketId →
    marketSequences labels marketId = List.range' 1 (state.lastSequence marketId)
  lost : ∀ marketId, CounterLost platform enforce start labels marketId →
    state.lastSequence marketId = 0 ∧
      ∃ count, marketSequences labels marketId = List.range' 1 (count + 1)

/-- The event of a step belongs to a market that has not lost its counter. -/
def CounterKept
    (platform : Platform) (enforce : Bool) (start : CanonicalState) (earlier : List EvaluatedEvent)
    (state : CanonicalState) (event : CanonicalEvent) : Prop :=
  ∀ marketId, eventMarketId state event.kind = some marketId →
    ¬CounterLost platform enforce start earlier marketId

/-- No event of a run belongs to a market that has lost its counter. -/
def CountersKept (platform : Platform) (enforce : Bool) (start : CanonicalState)
    (labels : List EvaluatedEvent) : Prop :=
  Run.EachStep (Evaluates platform enforce)
    (fun earlier before label =>
      CounterKept platform enforce start earlier before label.event)
    start labels

variable {marketId : String}

section

variable (evaluates : Evaluates platform enforce state label next)
include evaluates

theorem marketSequences_attributed (named : eventMarketId state label.event.kind = some marketId) :
    marketSequences [label] marketId = [state.lastSequence marketId + 1] := by
  obtain ⟨_, metadata, stored, sameId, number⟩ := evaluates.sequence_attributed named
  simp [marketSequences, stored, sameId, number]

theorem marketSequences_unattributed
    (unnamed : eventMarketId state label.event.kind ≠ some marketId) :
    marketSequences [label] marketId = [] := by
  cases stored : label.persisted.market with
  | none => simp [marketSequences, stored]
  | some metadata => simp [marketSequences, stored, evaluates.metadata_unattributed unnamed stored]

end

/-- A snapshot belongs to no market. -/
theorem LosesCounter.unnamed (lost : LosesCounter enforce state event marketId) :
    eventMarketId state event.kind ≠ some marketId := by
  obtain ⟨_, listed, applied, _⟩ := lost
  unfold appliedListing at applied
  cases kind : event.kind with
  | catalogSnapshot => exact fun named => by cases named
  | _ => rw [kind] at applied; cases applied

section

variable (held : SequencesHeld platform enforce start labels state)
include held

/-- A step of a market with its counter keeps the account. -/
theorem SequencesHeld.snoc
    (keyed : state.Keyed)
    (run : EvaluationRun platform enforce start labels state)
    (evaluates : Evaluates platform enforce state label next)
    (counted : CounterKept platform enforce start labels state label.event) :
    SequencesHeld platform enforce start (labels ++ [label]) next := by
  constructor
  · intro marketId intact
    rw [counterLost_snoc_iff run, not_or] at intact
    rw [marketSequences_snoc, held.kept marketId intact.1]
    by_cases named : eventMarketId state label.event.kind = some marketId
    · rw [marketSequences_attributed evaluates named, (evaluates.sequence_attributed named).1,
        range'_1_concat, Nat.add_comm 1]
    · rw [marketSequences_unattributed evaluates named, append_nil,
        (evaluates.lastSequence_unattributed keyed named).1 intact.2]
  · intro marketId lost
    rw [counterLost_snoc_iff run] at lost
    rw [marketSequences_snoc]
    by_cases earlier : CounterLost platform enforce start labels marketId
    · obtain ⟨zero, count, published⟩ := held.lost marketId earlier
      have unnamed : eventMarketId state label.event.kind ≠ some marketId :=
        fun named => counted marketId named earlier
      have kept := (evaluates.lastSequence_unattributed keyed unnamed).1
        fun loses => absurd loses.1 (by omega)
      rw [marketSequences_unattributed evaluates unnamed, append_nil, kept]
      exact ⟨zero, count, published⟩
    · have loses := lost.resolve_left earlier
      rw [marketSequences_unattributed evaluates loses.unnamed, append_nil,
        held.kept marketId earlier]
      exact ⟨(evaluates.lastSequence_unattributed keyed loses.unnamed).2 loses,
        state.lastSequence marketId - 1, by rw [Nat.sub_add_cancel loses.1]⟩

theorem SequencesHeld.contiguous :
    SequencesContiguous labels := by
  intro marketId
  by_cases lost : CounterLost platform enforce start labels marketId
  · obtain ⟨_, count, published⟩ := held.lost marketId lost
    exact ⟨count + 1, published⟩
  · exact ⟨_, held.kept marketId lost⟩

end

/-- A contiguous run of numbers was contiguous before its last step. -/
theorem SequencesContiguous.of_snoc (contiguous : SequencesContiguous (labels ++ [label])) :
    SequencesContiguous labels := by
  intro marketId
  obtain ⟨count, published⟩ := contiguous marketId
  rw [marketSequences_snoc] at published
  obtain ⟨earlier, _, front, _⟩ := range'_eq_append_iff.mp published.symm
  exact ⟨earlier, front⟩

/-- An event of a market that lost its counter repeats a number. -/
theorem SequencesHeld.counterKept (held : SequencesHeld platform enforce start labels state)
    (evaluates : Evaluates platform enforce state label next)
    (contiguous : SequencesContiguous (labels ++ [label])) :
    CounterKept platform enforce start labels state label.event := by
  intro marketId named lost
  obtain ⟨zero, count, published⟩ := held.lost marketId lost
  obtain ⟨total, whole⟩ := contiguous marketId
  rw [marketSequences_snoc, published, marketSequences_attributed evaluates named, zero] at whole
  obtain ⟨earlier, _, front, last⟩ := range'_eq_append_iff.mp whole.symm
  have length := congrArg List.length front
  rw [length_range', length_range'] at length
  have repeated := (range'_eq_singleton_iff.mp last.symm).1
  omega

/-- The account of a whole run, and its condition, by induction on the run. -/
theorem sequencesHeld_of_run (scopeId : String)
    (run : EvaluationRun platform enforce (.bootstrap scopeId) labels state)
    (kept : SequencesContiguous labels ∨
      CountersKept platform enforce (.bootstrap scopeId) labels) :
    SequencesHeld platform enforce (.bootstrap scopeId) labels state ∧
      CountersKept platform enforce (.bootstrap scopeId)
        labels := by
  induction run with
  | nil =>
    refine ⟨⟨fun marketId _ => rfl, ?_⟩, Run.eachStep_nil⟩
    rintro marketId ⟨earlier, label, later, _, split, _⟩
    simp at split
  | @snoc labels middle label finish run evaluates ih =>
    rcases kept with contiguous | kept
    · obtain ⟨held, earlier⟩ := ih (.inl contiguous.of_snoc)
      have counted := held.counterKept evaluates contiguous
      exact ⟨held.snoc (EvaluationRun.invariant run).keyed run evaluates counted,
        (Run.eachStep_snoc_iff (evaluates_deterministic _ _) run).mpr ⟨earlier, counted⟩⟩
    · obtain ⟨earlier, counted⟩ := (Run.eachStep_snoc_iff (evaluates_deterministic _ _) run).mp kept
      exact ⟨(ih (.inr earlier)).1.snoc (EvaluationRun.invariant run).keyed run evaluates counted,
        kept⟩

end Run

/-- The numbers published for every market are gap-free and never reused
exactly when no event of the run is attributed to a market whose counter an
earlier snapshot of the run has lost. -/
theorem marketSequences_contiguous_iff
    (platform : Platform) (enforce : Bool) (scopeId : String) (labels : List EvaluatedEvent)
    (state : CanonicalState)
    (run : EvaluationRun platform enforce (.bootstrap scopeId) labels state) :
    SequencesContiguous labels ↔
      CountersKept platform enforce (.bootstrap scopeId)
        labels := by
  constructor
  · intro contiguous
    exact (sequencesHeld_of_run scopeId run (.inl contiguous)).2
  · intro kept
    exact (sequencesHeld_of_run scopeId run (.inr kept)).1.contiguous

/-! ## A market that closes and comes back -/

/-- A market as a catalog lists it after its end. -/
def sampleClosed (market : MarketRecord) : MarketRecord :=
  { market with
    lifecycleState := .closed
    terminalAt := some 0 }

def sampleRelistedKinds : List EventKind :=
  [.catalogSnapshot "r1" [sampleMarket "m" "t1" "t2"] [], .sourceGap "t1" "lost",
   .catalogSnapshot "r2" [sampleClosed (sampleMarket "m" "t1" "t2")] [],
   .catalogSnapshot "r3" [sampleMarket "m" "t1" "t2"] [],
   .sourceGap "t1" "lost"]

def sampleRelisted : List EvaluatedEvent × CanonicalState :=
  (evaluateAll samplePlatform true (CanonicalState.bootstrap "scope")
    (sampleEvents sampleRelistedKinds)).get (by decide +kernel)

theorem sampleRelisted_run :
    EvaluationRun samplePlatform true (.bootstrap "scope")
      sampleRelisted.1 sampleRelisted.2 :=
  evaluateAll_run (fun _ mem => sampleEvents_valid mem) (some_get _).symm

/-- The market publishes the number one twice. -/
theorem relisted_market_repeats_sequence :
    ¬∀ (labels : List EvaluatedEvent) (state : CanonicalState),
      EvaluationRun samplePlatform true (.bootstrap "scope") labels state →
        SequencesContiguous labels := by
  intro contiguous
  obtain ⟨count, published⟩ := contiguous _ _ sampleRelisted_run "m"
  have repeated : marketSequences sampleRelisted.1 "m" = [1, 1] := by decide +kernel
  rw [repeated] at published
  obtain ⟨_, _, rest⟩ := range'_eq_cons_iff.mp published.symm
  obtain ⟨wrong, _⟩ := range'_eq_cons_iff.mp rest.symm
  exact absurd wrong (by decide)

/-- Two events of a market that stays listed. -/
def sampleListed : List EvaluatedEvent × CanonicalState :=
  (evaluateAll samplePlatform true (CanonicalState.bootstrap "scope")
    (sampleEvents [.catalogSnapshot "r1" [sampleMarket "m" "t1" "t2"] [],
      .sourceGap "t1" "lost", .sourceGap "t2" "lost"])).get (by decide +kernel)

theorem marketSequences_contiguous_sample :
    SequencesContiguous sampleListed.1 ↔
      CountersKept samplePlatform true (.bootstrap "scope") sampleListed.1 :=
  marketSequences_contiguous_iff samplePlatform true "scope" sampleListed.1 sampleListed.2
    (evaluateAll_run (fun _ member => sampleEvents_valid member) (some_get _).symm)

end MarketCow.Core
