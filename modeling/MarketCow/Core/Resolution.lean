import MarketCow.Core.CatalogStep

/-!
# Resolved markets

A resolved market stays in the catalog, resolved, until a snapshot lists it
again; what it resolved to changes with a resolution of its condition only.
-/

namespace MarketCow.Core

open Library List

/-- An applied snapshot lists a market. -/
def listsMarket (label : EvaluatedEvent) (marketId : String) : Bool :=
  label.snapshot?.any fun listed => listed.any fun market => market.marketId == marketId

/-- An applied resolution of a condition, and what it resolves to. -/
def ResolvesTo
    (label : EvaluatedEvent) (conditionId : String) (resolution : Option String) : Prop :=
  label.persisted.applied = true ∧
    ∃ winningTokenId winningOutcome,
      label.event.kind = .marketResolved conditionId winningTokenId winningOutcome ∧
        resolution = winningOutcome.or (winningTokenId.or (some "resolved"))

/-- The record of a market that has resolved, seen from an earlier record. -/
structure StaysResolved
    (labels : List EvaluatedEvent) (before after : MarketRecord) : Prop where
  lifecycle : after.lifecycleState = .resolved
  condition : after.conditionId = before.conditionId
  resolution : after.resolution = before.resolution ∨
    ∃ label ∈ labels, ResolvesTo label before.conditionId after.resolution

theorem MarketRecord.fields_of_identity
    {first second : MarketRecord} (same : first.identity = second.identity) :
    first.lifecycleState = second.lifecycleState ∧ first.resolution = second.resolution ∧
      first.conditionId = second.conditionId := by
  simp only [identity, MarketRecord.mk.injEq] at same
  exact ⟨same.2.2.2.2.1, same.2.2.2.2.2.1, same.2.1⟩

/-- One step keeps a resolved market that it does not list. -/
theorem Evaluates.staysResolved {enforce : Bool} {state next : CanonicalState}
    (evaluates : Evaluates platform enforce state label next) (invariant : Invariant state)
    {marketId : String} {market : MarketRecord}
    (known : state.markets[marketId]? = some market) (resolved : market.lifecycleState = .resolved)
    (unlisted : listsMarket label marketId = false) :
    ∃ record, next.markets[marketId]? = some record ∧ StaysResolved [label] market record := by
  have of_identity : ∀ after : TreeMap String MarketRecord, ∀ original : MarketRecord,
      after[marketId]?.map MarketRecord.identity = some original.identity →
      StaysResolved [label] market original →
      ∃ record, after[marketId]? = some record ∧ StaysResolved [label] market record := by
    intro after original same stays
    obtain ⟨record, present, sameIdentity⟩ := map_eq_some_iff.mp same
    obtain ⟨lifecycle, resolution, condition⟩ := MarketRecord.fields_of_identity sameIdentity
    refine ⟨record, present, lifecycle.trans stays.lifecycle, condition.trans stays.condition, ?_⟩
    rw [resolution]
    exact stays.resolution
  cases evaluates.indexStep invariant.keyed with
  | @installed catalogRevision listed relations catalog _ kind applied indexes identity _ _ =>
    have absent : ∀ other ∈ listed, other.marketId ≠ marketId := by
      simpa [listsMarket, EvaluatedEvent.snapshot?, applied, kind] using unlisted
    have named := invariant.keyed marketId market known
    have retained : market ∈ retainedResolvedMarkets state listed := by
      refine mem_filter.mpr ⟨mem_valueList.mpr ⟨marketId, known⟩, ?_⟩
      simp only [resolved, beq_self_eq_true, Bool.true_and, not_eq_true',
        any_eq_false, beq_iff_eq, named]
      exact absent
    have stored : catalog.markets[marketId]? = some market :=
      (indexes.market marketId market).mpr ⟨mem_append_right _ retained, named⟩
    refine of_identity _ market ?_ ⟨resolved, rfl, .inl rfl⟩
    rw [identity marketId, stored, map_some]
  | @resolved conditionId otherId winningTokenId winningOutcome other _ kind applied indexed
      otherKnown identity _ _ =>
      by_cases here : otherId = marketId
      · subst here
        rw [known] at otherKnown
        cases otherKnown
        obtain ⟨record, alsoKnown, sameCondition⟩ :=
          (invariant.condition conditionId otherId).mp indexed
        rw [known] at alsoKnown
        cases alsoKnown
        refine of_identity _
          (resolvedMarket platform label.event winningTokenId winningOutcome market) ?_ ?_
        · rw [identity otherId, getElem?_insert_self, map_some]
        · exact ⟨rfl, rfl, .inr ⟨label, mem_singleton_self _, applied, winningTokenId,
            winningOutcome, sameCondition ▸ kind, rfl⟩⟩
      · refine of_identity _ market ?_ ⟨resolved, rfl, .inl rfl⟩
        rw [identity marketId, TreeMap.getElem?_insert]
        simp only [compare_eq_iff_eq, here, if_false, known, map_some]
  | kept _ identity _ _ =>
    refine of_identity _ market ?_ ⟨resolved, rfl, .inl rfl⟩
    rw [identity marketId, known, map_some]

theorem StaysResolved.snoc
    {labels : List EvaluatedEvent} {label : EvaluatedEvent} {before middle after : MarketRecord}
    (earlier : StaysResolved labels before middle) (last : StaysResolved [label] middle after) :
    StaysResolved (labels ++ [label]) before after := by
  refine ⟨last.lifecycle, last.condition.trans earlier.condition, ?_⟩
  rcases last.resolution with same | ⟨other, mem, resolves⟩
  · rw [same]
    rcases earlier.resolution with original | ⟨other, mem, resolves⟩
    · exact .inl original
    · exact .inr ⟨other, mem_append_left _ mem, resolves⟩
  · rw [earlier.condition] at resolves
    exact .inr ⟨other, mem_append_right _ mem, resolves⟩

/-- In every run, a market that has resolved stays in the catalog and resolved
until an applied snapshot lists it; until then only an applied resolution of
its condition changes what it resolved to. -/
theorem resolved_until_listed
    (platform : Platform) (enforce : Bool) (scopeId : String) (earlier labels : List EvaluatedEvent)
    (state final : CanonicalState) (marketId : String) (market : MarketRecord)
    (reached : EvaluationRun platform enforce (.bootstrap scopeId) earlier state)
    (known : state.markets[marketId]? = some market)
    (resolved : market.lifecycleState = .resolved)
    (run : EvaluationRun platform enforce state labels final)
    (unlisted : ∀ label ∈ labels, listsMarket label marketId = false) :
    ∃ record, final.markets[marketId]? = some record ∧ StaysResolved labels market record := by
  induction run with
  | nil => exact ⟨market, known, resolved, rfl, .inl rfl⟩
  | @snoc labels middle label finish before evaluates ih =>
    obtain ⟨between, present, stays⟩ := ih fun other member =>
      unlisted other (mem_append_left _ member)
    have invariant := EvaluationRun.invariant (reached.append before)
    obtain ⟨record, final, last⟩ := evaluates.staysResolved invariant present stays.lifecycle
      (unlisted label (mem_append_right _ (mem_singleton_self _)))
    exact ⟨record, final, stays.snoc last⟩

/-! ## A market that is listed again -/

/-- A market resolves in favour of its first outcome. -/
def sampleResolved : List EvaluatedEvent × CanonicalState :=
  (evaluateAll samplePlatform true (CanonicalState.bootstrap "scope")
    (sampleEvents [.catalogSnapshot "r1" [sampleMarket "m" "t1" "t2"] [],
      .marketResolved "m-condition" none (some "Yes")])).get (by decide +kernel)

/-- The record of the resolved market. -/
def sampleResolvedMarket : MarketRecord :=
  (sampleResolved.2.markets["m"]?).get (by decide +kernel)

theorem sampleResolved_run :
    EvaluationRun samplePlatform true (.bootstrap "scope") sampleResolved.1
      sampleResolved.2 :=
  evaluateAll_run (fun _ mem => sampleEvents_valid mem) (some_get _).symm

/-- The next snapshot lists it as active. -/
def sampleReopened : List EvaluatedEvent × CanonicalState :=
  (evaluateAll samplePlatform true sampleResolved.2
    (sampleEventsFrom 3 [.catalogSnapshot "r2" [sampleMarket "m" "t1" "t2"] []])).get
      (by decide +kernel)

/-- The condition resolves once more, in favour of the other outcome. -/
def sampleResolvedAgain : List EvaluatedEvent × CanonicalState :=
  (evaluateAll samplePlatform true sampleResolved.2
    (sampleEventsFrom 3 [.marketResolved "m-condition" none (some "No")])).get (by decide +kernel)

/-- What holds of every resolved market as long as no event is excepted. -/
def FinalUnless
    (excepted : EvaluatedEvent → String → Bool) (keeps : MarketRecord → MarketRecord → Prop) :
    Prop :=
  ∀ (earlier labels : List EvaluatedEvent) (state final : CanonicalState)
    (marketId : String) (market : MarketRecord),
    EvaluationRun samplePlatform true (.bootstrap "scope") earlier state →
    state.markets[marketId]? = some market → market.lifecycleState = .resolved →
    EvaluationRun samplePlatform true state labels final →
    (∀ label ∈ labels, excepted label marketId = false) →
      ∃ record, final.markets[marketId]? = some record ∧ keeps market record

/-- A snapshot takes a resolved market back, and where no snapshot lists it a second
resolution replaces the outcome of the first. -/
theorem resolved_market_reopens :
    ¬FinalUnless (fun _ _ => false) (fun _ record => record.lifecycleState ≠ .active) ∧
      ¬FinalUnless listsMarket (fun market record => record.resolution = market.resolution) := by
  constructor
  · intro isFinal
    have reopens : EvaluationRun samplePlatform true sampleResolved.2 sampleReopened.1
        sampleReopened.2 :=
      evaluateAll_run (fun _ member => sampleEvents_valid member) (some_get _).symm
    obtain ⟨record, present, inactive⟩ := isFinal _ _ _ _ "m" sampleResolvedMarket
      sampleResolved_run (some_get _).symm (by decide +kernel) reopens fun _ _ => rfl
    have listed : sampleReopened.2.markets["m"]?.map MarketRecord.lifecycleState =
        some .active := by decide +kernel
    rw [present, map_some] at listed
    exact inactive (some.inj listed)
  · intro isFinal
    have resolves : EvaluationRun samplePlatform true sampleResolved.2 sampleResolvedAgain.1
        sampleResolvedAgain.2 :=
      evaluateAll_run (fun _ member => sampleEvents_valid member) (some_get _).symm
    obtain ⟨record, present, same⟩ := isFinal _ _ _ _ "m" sampleResolvedMarket
      sampleResolved_run (some_get _).symm (by decide +kernel) resolves (by decide +kernel)
    have replaced : sampleResolvedAgain.2.markets["m"]?.map MarketRecord.resolution =
        some (some "No") := by decide +kernel
    rw [present, map_some, same] at replaced
    exact absurd replaced (by decide +kernel)

/-- A catalog without the market, after its resolution. -/
def sampleUnlisted : List EvaluatedEvent × CanonicalState :=
  (evaluateAll samplePlatform true sampleResolved.2
    (sampleEventsFrom 3 [.catalogSnapshot "r2" [sampleMarket "n" "t3" "t4"] []])).get
      (by decide +kernel)

theorem resolved_until_listed_sample :
    ∃ record, sampleUnlisted.2.markets["m"]? = some record ∧
      StaysResolved sampleUnlisted.1 sampleResolvedMarket record := by
  exact resolved_until_listed samplePlatform true "scope" sampleResolved.1 sampleUnlisted.1
    sampleResolved.2 sampleUnlisted.2 "m" sampleResolvedMarket sampleResolved_run
    (some_get _).symm (by decide +kernel)
    (evaluateAll_run (fun _ member => sampleEvents_valid member) (some_get _).symm)
    (by decide +kernel)

end MarketCow.Core
