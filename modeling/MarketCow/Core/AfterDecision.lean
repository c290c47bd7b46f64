import MarketCow.Core.Step

/-!
# What a step keeps of its decision

After the decision a step edits the health, the recovery and the gaps of one
market and the price increments of active markets. Books, indexes, monitored
markets and the identities of all markets are those of the decided state.
-/

namespace MarketCow.Core

open Library

/-- The fields of a decided state that the rest of its step leaves alone. -/
structure AfterDecision
    (attribution : Option Attribution) (decided after : CanonicalState) : Prop where
  books : after.books = decided.books
  catalogRevision : after.catalogRevision = decided.catalogRevision
  conditionToMarket : after.conditionToMarket = decided.conditionToMarket
  monitoringMarkets : after.monitoringMarkets = decided.monitoringMarkets
  monitoringBooks : after.monitoringBooks = decided.monitoringBooks
  identity : ∀ marketId : String,
    after.markets[marketId]?.map MarketRecord.identity =
      decided.markets[marketId]?.map MarketRecord.identity
  marketHealth : ∀ other : String,
    (∀ market, attribution = some market → market.marketId ≠ other) →
      after.marketHealth[other]? = decided.marketHealth[other]?

namespace AfterDecision

variable {attribution : Option Attribution} {first second third : CanonicalState}

theorem refl (state : CanonicalState) : AfterDecision attribution state state where
  books := rfl
  catalogRevision := rfl
  conditionToMarket := rfl
  monitoringMarkets := rfl
  monitoringBooks := rfl
  identity := fun _ => rfl
  marketHealth := fun _ _ => rfl

theorem trans (early : AfterDecision attribution first second)
    (late : AfterDecision attribution second third) :
    AfterDecision attribution first third where
  books := late.books.trans early.books
  catalogRevision := late.catalogRevision.trans early.catalogRevision
  conditionToMarket := late.conditionToMarket.trans early.conditionToMarket
  monitoringMarkets := late.monitoringMarkets.trans early.monitoringMarkets
  monitoringBooks := late.monitoringBooks.trans early.monitoringBooks
  identity := fun marketId => (late.identity marketId).trans (early.identity marketId)
  marketHealth := fun other unattributed =>
    (late.marketHealth other unattributed).trans (early.marketHealth other unattributed)

theorem of_marketLocal (frame : MarketLocal market.marketId tokenId first second) :
    AfterDecision (some market) first second :=
  { frame with
    identity := fun marketId => by rw [frame.markets]
    marketHealth := fun other unattributed =>
      frame.marketHealth other fun same => unattributed market rfl same.symm }

theorem of_reconciliation (reconciliation : Reconciliation first consistent second) :
    AfterDecision attribution first second := by
  rw [reconciliation.onlyMarkets]
  exact
    { books := rfl
      catalogRevision := rfl
      conditionToMarket := rfl
      monitoringMarkets := rfl
      monitoringBooks := rfl
      identity := reconciliation.identity
      marketHealth := fun _ _ => rfl }

/-- Readiness, market metadata and the duplicate window. -/
theorem of_conclusion
    (concluded : after = (recordAttributed attribution event
      (state.assessReadiness consistent rejected)).remember event) :
    AfterDecision attribution state after := by
  subst concluded
  cases attribution with
  | none => exact ⟨rfl, rfl, rfl, rfl, rfl, fun _ => rfl, fun _ _ => rfl⟩
  | some market =>
    refine ⟨rfl, rfl, rfl, rfl, rfl, fun _ => rfl, ?_⟩
    intro other unattributed
    exact (getElem?_marketHealth_upsertHealth _ _ _ _ _).trans (if_neg (unattributed market rfl))

end AfterDecision

namespace Phases

variable {platform : Platform} {enforce : Bool}
  {state next : CanonicalState} {event : CanonicalEvent} {persisted : PersistedEvent}

section

variable (phases : Phases platform enforce state event next persisted)
include phases

/-- The end of a step keeps what the decision left. -/
theorem afterDecision :
    AfterDecision (attribution state event) phases.decision.state next := by
  have localized : AfterDecision (attribution state event) phases.decision.state
      phases.localized.state := by
    have localization := phases.localization
    cases attributed : attribution state event with
    | none =>
      rw [attributed] at localization
      rw [state_of_localization_none localization]
      exact .refl _
    | some market =>
      rw [attributed] at localization
      exact .of_marketLocal (marketLocal_of_localization localization)
  have settled : AfterDecision (attribution state event) phases.reconciled
      phases.settled.state := by
    cases attributed : attribution state event with
    | none =>
      rw [phases.unattributed attributed]
      exact .refl _
    | some market =>
      exact .of_marketLocal (marketLocal_of_settlement (phases.settlement market attributed))
  have concluded : AfterDecision (attribution state event) phases.settled.state next :=
    .of_conclusion phases.next_eq
  exact ((localized.trans (.of_reconciliation phases.reconciliation)).trans settled).trans concluded

/-- The health record of an attributed market carries the sequence number of
the event, which the stored record repeats. -/
theorem sequence_next
    (attributed : attribution state event = some market) :
    ∃ health, next.marketHealth[market.marketId]? = some health ∧
      health.lastMarketSequence = market.marketSequence := by
  have recorded : ∀ base after : CanonicalState,
      after = (recordAttributed (attribution state event) persisted.event
        base).remember persisted.event →
      ∃ health, after.marketHealth[market.marketId]? = some health ∧
        health.lastMarketSequence = market.marketSequence := by
    rintro base after rfl
    rw [attributed]
    exact ⟨_, (getElem?_marketHealth_upsertHealth _ _ _ _ _).trans (if_pos rfl), rfl⟩
  exact recorded _ next phases.next_eq

end

end Phases

end MarketCow.Core
