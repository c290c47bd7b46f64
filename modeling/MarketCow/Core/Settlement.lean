import MarketCow.Core.MarketFrame

/-!
# The end of a step by cases

Inversions of the phases that follow a decision, and the frame of all of them
together: they edit the records of the market an event is attributed to, and
the instrument facts of active markets.
-/

namespace MarketCow.Core

open Library

/-! ## Localized rejections -/

/-- What becomes of a decision: a fault of the market, or itself. -/
inductive Localization
    (attribution : Option Attribution) (event : CanonicalEvent)
    (decision : Decision) : Assessment → Prop
  | fault
      {market : Attribution}
      {reason : String} :
      attribution = some market →
      decision.rejected = some reason →
      event.kind.isLocallyRecoverable = true →
      Localization attribution event decision
        { state := quarantineMarket decision.state market.marketId event.kind.tokenId
            market.marketSequence reason event
          rejected := none
          transition := some .quarantined
          reasonCode := some reason }
  | passed :
      attribution = none ∨ decision.rejected = none ∨ event.kind.isLocallyRecoverable = false →
      Localization attribution event decision
        { state := decision.state
          rejected := decision.rejected
          transition := none
          reasonCode := none }

theorem localization_of_localizeRejection
    (attribution : Option Attribution) (event : CanonicalEvent) (decision : Decision) :
    Localization attribution event decision (localizeRejection attribution event decision) := by
  unfold localizeRejection
  cases attributed : attribution with
  | none => exact .passed (.inl rfl)
  | some market =>
    cases rejected : decision.rejected with
    | none =>
      have passed : Localization (some market) event decision _ := .passed (.inr (.inl rejected))
      rwa [rejected] at passed
    | some reason =>
      dsimp only
      split
      · rename_i recoverable
        exact .fault rfl rejected recoverable
      · rename_i global
        have passed : Localization (some market) event decision _ :=
          .passed (.inr (.inr (by simpa using global)))
        rwa [rejected] at passed

/-! ## Settlement -/

/-- An event is a full book of a token. -/
def EventKind.fullBookToken? : EventKind → Option String
  | .fullBook tokenId _ _ _ _ => some tokenId
  | _ => none

@[simp] theorem EventKind.fullBookToken?_withChanges
    (kind : EventKind) (changes : List SideLevels) :
    (kind.withChanges changes).fullBookToken? = kind.fullBookToken? := by
  cases kind <;> rfl

/-- Nothing has rejected the event so far. -/
def Assessment.isOpen (assessment : Assessment) : Bool :=
  assessment.rejected.isNone && assessment.reasonCode.isNone

/-- What the recovery phases make of the market of an event. -/
inductive Settlement
    (market : Attribution) (event : CanonicalEvent) (before : Assessment) : Assessment → Prop
  | unchanged :
      (before.isOpen = true → event.kind.fullBookToken? = none ∧
        (market.previousMarketStatus = some .ready → event.kind.isLocallyRecoverable = true →
          marketBooksAreExecutable before.state market.marketId = true)) →
      Settlement market event before before
  | excluded :
      before.isOpen = true →
      event.kind.fullBookToken? = none →
      market.previousMarketStatus = some .ready →
      event.kind.isLocallyRecoverable = true →
      marketBooksAreExecutable before.state market.marketId = false →
      Settlement market event before
        (before.quarantine market event "market_book_not_executable")
  | kept
      {tokenId : String} :
      before.isOpen = true →
      event.kind.fullBookToken? = some tokenId →
      market.previousMarketStatus = some .ready →
      marketBooksAreExecutable (closeRecovery before.state market.marketId)
        market.marketId = true →
      Settlement market event before
        { before with
          state := (closeRecovery before.state market.marketId).upsertHealth
            market.marketId before.state.catalogRevision
            (MarketProjectionHealth.recover event) }
  | dropped
      {tokenId : String} :
      before.isOpen = true →
      event.kind.fullBookToken? = some tokenId →
      market.previousMarketStatus = some .ready →
      marketBooksAreExecutable (closeRecovery before.state market.marketId)
        market.marketId = false →
      Settlement market event before
        ({ before with state := closeRecovery before.state market.marketId }.quarantine
          market event "market_book_not_executable")
  | recovered
      {tokenId : String} :
      before.isOpen = true →
      event.kind.fullBookToken? = some tokenId →
      market.previousMarketStatus ≠ some .ready →
      recoveryIsComplete (observeToken before.state market.marketId tokenId)
        market.marketId = true →
      marketBooksAreExecutable
        (closeRecovery (observeToken before.state market.marketId tokenId) market.marketId)
        market.marketId = true →
      Settlement market event before
        { before with
          state :=
            (closeRecovery (observeToken before.state market.marketId tokenId)
              market.marketId).upsertHealth market.marketId before.state.catalogRevision
              (MarketProjectionHealth.recover event)
          transition := some .recovered }
  | awaiting
      {tokenId : String}
      {observed : CanonicalState} :
      before.isOpen = true →
      event.kind.fullBookToken? = some tokenId →
      market.previousMarketStatus ≠ some .ready →
      (observed = observeToken before.state market.marketId tokenId ∧
          recoveryIsComplete observed market.marketId = false ∨
        observed = closeRecovery (observeToken before.state market.marketId tokenId)
            market.marketId ∧
          recoveryIsComplete (observeToken before.state market.marketId tokenId)
            market.marketId = true ∧
          marketBooksAreExecutable observed market.marketId = false) →
      Settlement market event before
        { before with
          state := observed.upsertHealth market.marketId before.state.catalogRevision
            MarketProjectionHealth.awaitSnapshot
          transition := some .recoveryStarted
          reasonCode := some "atomic_market_snapshot_incomplete" }

variable {event : CanonicalEvent} {market : Attribution} {before : Assessment} {tokenId : String}

/-- A full book that nothing rejected enters the recovery phase. -/
theorem recoverMarket_fullBook
    (opened : before.isOpen = true) (fullBook : event.kind.fullBookToken? = some tokenId) :
    recoverMarket market event true before = recoverFromFullBook market tokenId event before := by
  unfold recoverMarket
  cases kind : event.kind with
  | fullBook token bids asks tickSize tickVersion =>
    rw [kind] at fullBook
    cases fullBook
    simp only [Assessment.isOpen] at opened
    simp only [Bool.true_and, opened, if_true]
  | _ => rw [kind] at fullBook; cases fullBook

theorem recoverMarket_unchanged (other : before.isOpen = false ∨ event.kind.fullBookToken? = none) :
    recoverMarket market event applied before = before := by
  unfold recoverMarket
  cases kind : event.kind with
  | fullBook token bids asks tickSize tickVersion =>
    rcases other with closed | other
    · simp only [Assessment.isOpen] at closed
      simp only [Bool.and_assoc, closed, Bool.and_false, false_eq_true, if_false]
    · rw [kind] at other
      cases other
  | _ => rfl

theorem fullBookToken?_isLocallyRecoverable
    {kind : EventKind} (fullBook : kind.fullBookToken? = some tokenId) :
    kind.isLocallyRecoverable = true := by
  cases kind <;> first | rfl | cases fullBook

theorem excludeUnexecutable_of_executable
    (executable : marketBooksAreExecutable assessment.state market.marketId = true) :
    excludeUnexecutable market event assessment = assessment := by
  unfold excludeUnexecutable
  simp only [executable, Bool.not_true, Bool.and_false, false_eq_true, if_false]

theorem settlement_of_settleMarket
    (market : Attribution) (event : CanonicalEvent) (applied : Bool) (before : Assessment)
    (appliedOpen : before.isOpen = true → applied = true) :
    Settlement market event before
      (excludeUnexecutable market event (recoverMarket market event applied before)) := by
  cases opened : before.isOpen with
  | false =>
    rw [recoverMarket_unchanged (.inl opened)]
    have closed : (before.reasonCode.isNone && before.rejected.isNone) = false := by
      rw [Bool.and_comm]
      exact opened
    unfold excludeUnexecutable
    simp only [closed, Bool.false_and, false_eq_true, if_false]
    exact .unchanged (by simp [opened])
  | true =>
    obtain rfl := appliedOpen opened
    have bothNone : before.rejected = none ∧ before.reasonCode = none := by
      simpa [Assessment.isOpen] using opened
    cases fullBook : event.kind.fullBookToken? with
    | none =>
      rw [recoverMarket_unchanged (.inr fullBook)]
      unfold excludeUnexecutable
      simp only [bothNone.1, bothNone.2, Option.isNone_none, Bool.true_and,
        and_eq_true, beq_iff_eq, not_eq_true']
      split
      · rename_i condition
        exact .excluded opened fullBook condition.1.1 condition.1.2 condition.2
      · rename_i condition
        refine .unchanged fun _ => ⟨fullBook, fun ready recoverable => ?_⟩
        by_contra unexecutable
        exact condition ⟨⟨ready, recoverable⟩, by simpa using unexecutable⟩
    | some tokenId =>
      have recoverable := fullBookToken?_isLocallyRecoverable fullBook
      rw [recoverMarket_fullBook opened fullBook]
      by_cases ready : market.previousMarketStatus = some .ready
      · have notRecovering : (market.previousMarketStatus != some .ready) = false := by simp [ready]
        unfold recoverFromFullBook
        simp only [notRecovering, false_eq_true, if_false, Bool.not_false,
          Bool.true_or, Bool.true_and, if_true]
        split
        · rename_i executable
          rw [excludeUnexecutable_of_executable]
          · exact .kept opened fullBook ready executable
          · exact executable
        · rename_i unexecutable
          unfold excludeUnexecutable
          rw [if_pos]
          · exact .dropped opened fullBook ready (by simpa using unexecutable)
          · simp only [not_eq_true] at unexecutable
            simp [bothNone.1, bothNone.2, ready, recoverable, unexecutable]
      · have recovering : (market.previousMarketStatus != some .ready) = true := by
          simpa using ready
        have notExcluded : ∀ after : Assessment,
            excludeUnexecutable market event after = after := by
          intro after
          have notReady : (market.previousMarketStatus == some .ready) = false := by
            simpa using ready
          unfold excludeUnexecutable
          simp only [notReady, Bool.and_false, Bool.false_and, false_eq_true, if_false]
        rw [notExcluded]
        unfold recoverFromFullBook
        simp only [recovering, if_true, Bool.not_true, Bool.false_or]
        cases complete : recoveryIsComplete
            (observeToken before.state market.marketId tokenId) market.marketId with
        | false =>
          simp only [Bool.false_and, false_eq_true, if_false]
          exact .awaiting opened fullBook ready (.inl ⟨rfl, complete⟩)
        | true =>
          simp only [Bool.true_and, if_true]
          split
          · rename_i executable
            exact .recovered opened fullBook ready complete executable
          · rename_i unexecutable
            exact .awaiting opened fullBook ready
              (.inr ⟨rfl, complete, by simpa using unexecutable⟩)

end MarketCow.Core
