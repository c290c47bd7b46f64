import MarketCow.Core.TickReconciliation

/-!
# One step by its phases

`Phases` collects what a successful evaluation went through, each phase by its
inversion. The invariants of later modules take a step apart with it.
-/

namespace MarketCow.Core

open Library

/-- The records that a step writes for the market of its event. -/
def recordAttributed (attribution : Option Attribution) (event : CanonicalEvent)
    (state : CanonicalState) : CanonicalState :=
  attribution.elim state fun market => recordMarketEvent market event state

/-- What a successful evaluation went through. -/
structure Phases
    (platform : Platform) (enforce : Bool) (state : CanonicalState) (event : CanonicalEvent)
    (next : CanonicalState)
    (persisted : PersistedEvent) where
  decision : Decision
  localized : Assessment
  consistent : Bool
  reconciled : CanonicalState
  settled : Assessment
  schemaVersion : event.schemaVersion = contractVersion
  scopeId : event.scopeId = state.scopeId
  cursor : event.cursor = state.cursor + 1
  evidence : event.source.isValid = true
  stored : persisted.event = rewriteEvent enforce (admittedState state event) event
  decision_eq : decideEvent platform enforce (admittedState state event) event = .ok decision
  decided : DecisionEffect platform enforce (admittedState state event) event decision
  position : decision.state.position = (admittedState state event).position
  localization :
    Localization (attribution state event) persisted.event decision localized
  reconciliation : Reconciliation localized.state consistent reconciled
  unattributed : attribution state event = none → settled = { localized with state := reconciled }
  settlement : ∀ market, attribution state event = some market →
    Settlement market persisted.event { localized with state := reconciled } settled
  next_eq : next =
    (recordAttributed (attribution state event) persisted.event
      (settled.state.assessReadiness consistent settled.rejected)).remember persisted.event
  applied_eq : persisted.applied = decision.applied
  rejected_eq : persisted.failClosedReason = settled.rejected
  market_eq : persisted.market =
    (attribution state event).map fun market =>
      marketMetadata market persisted.event settled
        (recordAttributed (attribution state event) persisted.event
          (settled.state.assessReadiness consistent settled.rejected))

variable {event : CanonicalEvent} {decision : Decision}

/-- Only applied events are left without a rejection. -/
theorem DecisionEffect.applied (effect : DecisionEffect platform enforce state event decision)
    (accepted : decision.rejected = none) :
    decision.applied = true := by
  cases effect with
  | sourceRejected => cases accepted
  | superseded => rfl
  | decided _ _ kindEffect =>
    cases kindEffect with
    | catalogInstalled | resolved | fullBook | bookChanged | newMarket => rfl
    | _ => cases accepted

theorem phases_of_evaluateEvent
    (evaluated :
      evaluateEvent platform validateRawPayload validateDuplicate enforce
        state event = .ok (next, persisted)) :
    Nonempty (Phases platform enforce state event next persisted) := by
  have stored := persisted_event_of_evaluateEvent evaluated
  obtain ⟨valid, decision, consistent, reconciled, decided, reconcile, concluded⟩ :=
    evaluateEvent_ok_iff.mp evaluated
  obtain ⟨schemaVersion, scopeId, evidence, _, cursor⟩ := validate_ok_iff.mp valid
  have effect := decisionEffect_of_decideEvent decided
  rw [← stored] at reconcile concluded
  have localization := localization_of_localizeRejection (attribution state event)
    persisted.event decision
  generalize localizedEq : localizeRejection (attribution state event) persisted.event
    decision = localized at reconcile concluded localization
  obtain ⟨nextEq, persistedEq⟩ := Prod.mk.inj concluded
  have appliedOpen : ({ localized with state := reconciled } : Assessment).isOpen = true →
      decision.applied = true := by
    intro opened
    apply effect.applied
    have bothNone : localized.rejected = none ∧ localized.reasonCode = none := by
      simpa [Assessment.isOpen] using opened
    cases localization with
    | fault => cases bothNone.2
    | passed => exact bothNone.1
  have sourceValid : event.source.isValid = true := by
    simp only [evidenceIsValid, and_eq_true] at evidence
    exact evidence.1.2
  exact ⟨
    { decision := decision
      localized := localized
      consistent := consistent
      reconciled := reconciled
      settled := settleMarket (attribution state event) persisted.event decision.applied
        { localized with state := reconciled }
      schemaVersion := schemaVersion
      scopeId := scopeId
      cursor := cursor
      evidence := sourceValid
      stored := stored
      decision_eq := decided
      decided := effect
      position := position_of_decideEvent decided
      localization := localization
      reconciliation := reconciliation reconcile
      unattributed := by
        intro none
        rw [none]
        rfl
      settlement := by
        intro market some
        rw [some]
        exact settlement_of_settleMarket market persisted.event decision.applied _ appliedOpen
      next_eq := nextEq
      applied_eq := by rw [persistedEq]
      rejected_eq := by rw [persistedEq]
      market_eq := by
        conv_lhs => rw [persistedEq]
        rfl }⟩

/-! ## Frames of the phases -/

variable {market : Attribution}

theorem marketLocal_of_localization
    (localization : Localization (some market) event decision localized) :
    MarketLocal market.marketId event.kind.tokenId decision.state localized.state := by
  cases localization with
  | fault attributed _ _ =>
    cases attributed
    exact marketLocal_quarantineMarket _ _ _ _ _ _
  | passed _ => exact MarketLocal.refl _

theorem state_of_localization_none (localization : Localization none event decision localized) :
    localized.state = decision.state := by
  cases localization with
  | fault attributed _ _ => cases attributed
  | passed _ => rfl

theorem marketLocal_of_settlement (settlement : Settlement market event before after) :
    MarketLocal market.marketId event.kind.tokenId before.state after.state := by
  cases settlement with
  | unchanged _ => exact MarketLocal.refl _
  | excluded => exact marketLocal_quarantineMarket _ _ _ _ _ _
  | kept => exact (marketLocal_closeRecovery _ _ _).trans (marketLocal_upsertHealth _ _ _ _ _)
  | dropped =>
    exact (marketLocal_closeRecovery _ _ _).trans (marketLocal_quarantineMarket _ _ _ _ _ _)
  | @recovered tokenId opened fullBook _ _ _ =>
    have named : event.kind.tokenId = tokenId := by
      cases kind : event.kind with
      | fullBook token bids asks tickSize tickVersion =>
        rw [kind] at fullBook
        exact some.inj fullBook
      | _ => rw [kind] at fullBook; cases fullBook
    rw [named]
    exact (marketLocal_observeToken _ _ _).trans
      ((marketLocal_closeRecovery _ _ _).trans (marketLocal_upsertHealth _ _ _ _ _))
  | @awaiting tokenId observed opened fullBook _ state =>
    have named : event.kind.tokenId = tokenId := by
      cases kind : event.kind with
      | fullBook token bids asks tickSize tickVersion =>
        rw [kind] at fullBook
        exact some.inj fullBook
      | _ => rw [kind] at fullBook; cases fullBook
    rw [named]
    rcases state with ⟨rfl, _⟩ | ⟨rfl, _, _⟩
    · exact (marketLocal_observeToken _ _ _).trans (marketLocal_upsertHealth _ _ _ _ _)
    · exact (marketLocal_observeToken _ _ _).trans
        ((marketLocal_closeRecovery _ _ _).trans (marketLocal_upsertHealth _ _ _ _ _))

/-- The position after a step. -/
def Position.advance (position : Position) (event : CanonicalEvent) : Position where
  generation := position.generation + 1
  cursor := event.cursor
  persistedCursor := event.cursor
  scopeId := position.scopeId
  recentEventIds := pushRecent position.recentEventIds event.eventId

namespace Phases

variable {platform : Platform} {enforce : Bool}
  {state next : CanonicalState} {event : CanonicalEvent} {persisted : PersistedEvent}

section

variable (phases : Phases platform enforce state event next persisted)
include phases

/-- The stored event is the event up to the changes of an atomic delta. -/
theorem exists_withChanges :
    ∃ changes, persisted.event = event.withChanges changes := by
  rw [phases.stored]
  exact exists_rewriteEvent_eq_withChanges _ _ _

theorem stored_tokenId :
    persisted.event.kind.tokenId = event.kind.tokenId := by
  obtain ⟨changes, same⟩ := phases.exists_withChanges
  rw [same]
  exact EventKind.tokenId_withChanges _ _

theorem stored_cursor :
    persisted.event.cursor = event.cursor := by
  obtain ⟨changes, same⟩ := phases.exists_withChanges
  rw [same]
  rfl

/-- The settled state by the frames of the phases before it. -/
theorem settled_position :
    phases.settled.state.position = (admittedState state event).position := by
  have reconciled : phases.reconciled.position = phases.localized.state.position := by
    rw [phases.reconciliation.onlyMarkets]
    rfl
  cases attributed : attribution state event with
  | none =>
    have localization := phases.localization
    rw [attributed] at localization
    rw [phases.unattributed attributed]
    rw [reconciled, state_of_localization_none localization, phases.position]
  | some market =>
    have localization := phases.localization
    rw [attributed] at localization
    rw [(marketLocal_of_settlement (phases.settlement market attributed)).position]
    rw [reconciled, (marketLocal_of_localization localization).position, phases.position]

/-- A step advances the position by its event. -/
theorem next_position :
    next.position = state.position.advance event := by
  have admitted : (admittedState state event).position = (state.advance event).position := by
    unfold admittedState
    dsimp only
    cases eventMarketId (state.advance event) event.kind with
    | none => rfl
    | some marketId => exact CanonicalState.position_admitExecutableMarket _ _
  have settled := phases.settled_position.trans admitted
  have recorded : (recordAttributed (attribution state event) persisted.event
      (phases.settled.state.assessReadiness phases.consistent
        phases.settled.rejected)).position = phases.settled.state.position := by
    unfold recordAttributed
    cases attribution state event <;> rfl
  obtain ⟨changes, same⟩ := phases.exists_withChanges
  have sameId : persisted.event.eventId = event.eventId := by rw [same]; rfl
  have fields := recorded.trans settled
  rw [phases.next_eq]
  simp only [CanonicalState.position, CanonicalState.remember, CanonicalState.advance,
    Position.advance, Position.mk.injEq] at fields ⊢
  obtain ⟨generation, cursor, _, scopeId, recent⟩ := fields
  exact ⟨generation, cursor, phases.stored_cursor, scopeId, by rw [recent, sameId]⟩

end

end Phases

end MarketCow.Core
