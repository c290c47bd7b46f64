import MarketCow.Core.AtomicChanges
import MarketCow.Core.Evaluate

/-!
# Evaluating the stored event

The log stores the rewritten event. Rewriting only touches the changes of an
atomic delta, no other observation of the step reads them, and rewriting twice
is rewriting once; so the stored event evaluates in the same state to the same
step.
-/

namespace MarketCow.Core

open Library

namespace EventKind

variable (kind : EventKind)

@[simp] theorem tokenId_withChanges (changes : List SideLevels) :
    (kind.withChanges changes).tokenId = kind.tokenId := by
  cases kind <;> rfl

@[simp] theorem isLocallyRecoverable_withChanges (changes : List SideLevels) :
    (kind.withChanges changes).isLocallyRecoverable = kind.isLocallyRecoverable := by
  cases kind <;> rfl

@[simp] theorem withChanges_withChanges (first second : List SideLevels) :
    (kind.withChanges first).withChanges second = kind.withChanges second := by
  cases kind <;> rfl

end EventKind

@[simp] theorem eventMarketId_withChanges
    (state : CanonicalState) (kind : EventKind) (changes : List SideLevels) :
    eventMarketId state (kind.withChanges changes) = eventMarketId state kind := by
  cases kind <;> rfl

/-- An event with other changes of its atomic delta. -/
def CanonicalEvent.withChanges
    (event : CanonicalEvent) (changes : List SideLevels) : CanonicalEvent :=
  { event with kind := event.kind.withChanges changes }

section WithChanges

variable (state : CanonicalState) (event : CanonicalEvent) (changes : List SideLevels)

@[simp] theorem incrementalSupersededByBook_withChanges :
    incrementalSupersededByBook state (event.withChanges changes) =
      incrementalSupersededByBook state event := by
  rcases event with ⟨_, _, _, _, _, _, _, _, _, _, kind⟩
  cases kind <;> rfl

@[simp] theorem sourceRejected_withChanges (enforce : Bool) :
    sourceRejected enforce state (event.withChanges changes) =
      sourceRejected enforce state event := by
  unfold sourceRejected
  rw [incrementalSupersededByBook_withChanges]
  rfl

@[simp] theorem validate_withChanges
    (platform : Platform) (validateRawPayload validateDuplicate : Bool) :
    validate platform validateRawPayload validateDuplicate state (event.withChanges changes) =
      validate platform validateRawPayload validateDuplicate state event := rfl

@[simp] theorem rejectSource_withChanges :
    rejectSource state (event.withChanges changes) = rejectSource state event := by
  rcases event with ⟨_, _, _, _, _, _, _, _, _, _, kind⟩
  cases kind <;> rfl

@[simp] theorem admittedState_withChanges :
    admittedState state (event.withChanges changes) = admittedState state event := by
  simp [admittedState, CanonicalEvent.withChanges, CanonicalState.advance]

@[simp] theorem attribution_withChanges :
    attribution state (event.withChanges changes) = attribution state event := by
  unfold attribution
  rw [admittedState_withChanges]
  simp [CanonicalEvent.withChanges, CanonicalState.advance]

end WithChanges

/-- Only atomic deltas have changes to replace. -/
theorem EventKind.eq_of_withChanges_eq {kind other : EventKind}
    (same : kind.withChanges changes = other) (plain : other.isAtomicDelta = false) :
    kind = other := by
  cases kind with
  | atomicDelta tokenId old bestBid bestAsk =>
    rw [← same] at plain
    cases plain
  | _ => exact same

/-! ## Rewriting twice -/

/-- Rewriting only replaces changes. -/
theorem exists_rewriteEvent_eq_withChanges
    (enforce : Bool) (state : CanonicalState) (event : CanonicalEvent) :
    ∃ changes, rewriteEvent enforce state event = event.withChanges changes := by
  have completed : ∃ changes,
      completeAtomicChanges enforce state event = event.kind.withChanges changes := by
    unfold completeAtomicChanges
    cases kind : event.kind with
    | atomicDelta tokenId changes bestBid bestAsk =>
      dsimp only
      cases state.books[tokenId]? with
      | none => exact ⟨changes, rfl⟩
      | some book =>
        dsimp only
        split
        · exact ⟨book.replayCompleteAtomicChanges changes bestBid bestAsk, rfl⟩
        · exact ⟨changes, rfl⟩
    | _ => exact ⟨[], rfl⟩
  obtain ⟨changes, rewritten⟩ := completed
  unfold rewriteEvent
  simp only [rewritten]
  split
  · exact ⟨changes, rfl⟩
  · split
    · exact ⟨[], by simp [CanonicalEvent.withChanges]⟩
    · exact ⟨changes, rfl⟩

variable {enforce : Bool} {state : CanonicalState} {event : CanonicalEvent}

/-- Completion leaves an event alone that its source rejects. -/
theorem completeAtomicChanges_of_sourceRejected
    (rejected : sourceRejected enforce state event = true) :
    completeAtomicChanges enforce state event = event.kind := by
  unfold completeAtomicChanges
  cases kind : event.kind with
  | atomicDelta tokenId changes bestBid bestAsk =>
    dsimp only
    cases state.books[tokenId]? with
    | none => rfl
    | some book =>
      dsimp only
      rw [if_neg]
      intro fresh
      simp only [sourceRejected, or_eq_true, and_eq_true, not_eq_true'] at rejected fresh
      rcases rejected with missing | ⟨⟨enforced, delayed⟩, _⟩
      · simp [missing] at fresh
      · simp [enforced, delayed] at fresh
  | _ => rfl

/-- Completion leaves an overtaken event alone. -/
theorem completeAtomicChanges_of_superseded
    (superseded : incrementalSupersededByBook state event = true) :
    completeAtomicChanges enforce state event = event.kind := by
  unfold completeAtomicChanges
  cases kind : event.kind with
  | atomicDelta tokenId changes bestBid bestAsk =>
    dsimp only
    cases state.books[tokenId]? with
    | none => rfl
    | some book => simp [superseded]
  | _ => rfl

/-- What is stored of an event that its source rejects: the event. -/
theorem rewriteEvent_of_sourceRejected (rejected : sourceRejected enforce state event = true) :
    rewriteEvent enforce state event = event := by
  unfold rewriteEvent
  rw [if_pos rejected, completeAtomicChanges_of_sourceRejected rejected]

section

variable (fresh : sourceRejected enforce state event = false)
include fresh

/-- What is stored of an overtaken event: no changes. -/
theorem rewriteEvent_of_superseded (superseded : incrementalSupersededByBook state event = true) :
    rewriteEvent enforce state event = event.withChanges [] := by
  unfold rewriteEvent
  rw [if_neg (by simp [fresh]), if_pos superseded, completeAtomicChanges_of_superseded superseded]
  rfl

section

variable (current : incrementalSupersededByBook state event = false)
include current

/-- What is stored of an event that its kind decides: its completion. -/
theorem rewriteEvent_of_fresh :
    rewriteEvent enforce state event =
      { event with kind := completeAtomicChanges enforce state event } := by
  unfold rewriteEvent
  rw [if_neg (by simp [fresh]), if_neg (by simp [current])]

/-- A fresh atomic delta of the second normalizer is stored with the completed
changes. -/
theorem completeAtomicChanges_atomicDelta
    (kind : event.kind = .atomicDelta tokenId changes bestBid bestAsk)
    (present : state.books[tokenId]? = some book) :
    completeAtomicChanges enforce state event =
      if event.normalizerVersion = normalizerV2 then
        .atomicDelta tokenId (book.replayCompleteAtomicChanges changes bestBid bestAsk)
          bestBid bestAsk
      else .atomicDelta tokenId changes bestBid bestAsk := by
  unfold completeAtomicChanges
  simp only [kind, present]
  simp only [sourceRejected, current, Bool.or_eq_false_iff, Bool.not_false,
    Bool.and_true, Bool.and_eq_false_iff] at fresh
  have accepted : (!event.source.missing && (!event.source.delayed || !enforce)) = true := by
    rcases fresh with ⟨missing, enforced | delayed⟩
    · simp [missing, enforced]
    · simp [missing, delayed]
  simp [accepted, current]

end

end

/-- Completing the changes of a completed event changes nothing. -/
theorem completeAtomicChanges_idempotent
    (enforce : Bool) (state : CanonicalState) (event : CanonicalEvent) :
    completeAtomicChanges enforce state
        { event with
          kind := completeAtomicChanges enforce state event } =
      completeAtomicChanges enforce state event := by
  cases rejected : sourceRejected enforce state event with
  | true => rw [completeAtomicChanges_of_sourceRejected rejected]; exact
      completeAtomicChanges_of_sourceRejected rejected
  | false =>
    cases superseded : incrementalSupersededByBook state event with
    | true => rw [completeAtomicChanges_of_superseded superseded]; exact
        completeAtomicChanges_of_superseded superseded
    | false =>
      cases kind : event.kind with
      | atomicDelta tokenId changes bestBid bestAsk =>
        cases present : state.books[tokenId]? with
        | none => simp [completeAtomicChanges, kind, present]
        | some book =>
          rw [completeAtomicChanges_atomicDelta rejected superseded kind present]
          split
          · rename_i corrected
            have sameFlags := incrementalSupersededByBook_withChanges state event
              (book.replayCompleteAtomicChanges changes bestBid bestAsk)
            have sameSource := sourceRejected_withChanges state event
              (book.replayCompleteAtomicChanges changes bestBid bestAsk)
              enforce
            simp only [CanonicalEvent.withChanges, kind,
              EventKind.withChanges] at sameFlags sameSource
            rw [completeAtomicChanges_atomicDelta
              (by rw [sameSource, rejected]) (by rw [sameFlags, superseded]) rfl
              present]
            simp only [corrected, if_true]
            rw [Book.replayCompleteAtomicChanges_idempotent]
          · rename_i legacy
            have unchanged :
                { event with
                  kind := .atomicDelta tokenId changes bestBid bestAsk } = event := by
              rw [← kind]
            rw [unchanged, completeAtomicChanges_atomicDelta rejected superseded
              kind present, if_neg legacy]
      | _ => simp [completeAtomicChanges, kind]

/-- Rewriting the stored event changes nothing. -/
theorem rewriteEvent_idempotent (enforce : Bool) (state : CanonicalState) (event : CanonicalEvent) :
    rewriteEvent enforce state (rewriteEvent enforce state event) =
      rewriteEvent enforce state event := by
  obtain ⟨changes, rewritten⟩ := exists_rewriteEvent_eq_withChanges enforce state event
  have sameFlags := incrementalSupersededByBook_withChanges state event changes
  have sameSource := sourceRejected_withChanges state event changes enforce
  rw [← rewritten] at sameFlags sameSource
  cases rejected : sourceRejected enforce state event with
  | true => rw [rewriteEvent_of_sourceRejected rejected, rewriteEvent_of_sourceRejected rejected]
  | false =>
    rw [rejected] at sameSource
    cases superseded : incrementalSupersededByBook state event with
    | true =>
      rw [superseded] at sameFlags
      rw [rewriteEvent_of_superseded sameSource sameFlags,
        rewriteEvent_of_superseded rejected superseded]
      simp [CanonicalEvent.withChanges]
    | false =>
      rw [superseded] at sameFlags
      rw [rewriteEvent_of_fresh sameSource sameFlags,
        rewriteEvent_of_fresh rejected superseded, completeAtomicChanges_idempotent]

/-! ## Evaluating twice -/

variable (platform : Platform)

/-- The stored event decides like the event. -/
theorem decideEvent_rewriteEvent
    (enforce : Bool) (state : CanonicalState) (event : CanonicalEvent) :
    decideEvent platform enforce state (rewriteEvent enforce state event) =
      decideEvent platform enforce state event := by
  obtain ⟨changes, rewritten⟩ := exists_rewriteEvent_eq_withChanges enforce state event
  have twice := rewriteEvent_idempotent enforce state event
  unfold decideEvent
  rw [twice]
  rw [rewritten, sourceRejected_withChanges, rejectSource_withChanges,
    incrementalSupersededByBook_withChanges]

/-- The stored event evaluates like the event. -/
theorem evaluateEvent_rewriteEvent
    (validateRawPayload validateDuplicate enforce : Bool) (state : CanonicalState)
    (event : CanonicalEvent) :
    evaluateEvent platform validateRawPayload validateDuplicate enforce state
        (rewriteEvent enforce (admittedState state event) event) =
      evaluateEvent platform validateRawPayload validateDuplicate enforce
        state event := by
  obtain ⟨changes, rewritten⟩ :=
    exists_rewriteEvent_eq_withChanges enforce (admittedState state event) event
  have sameAdmission : admittedState state
      (rewriteEvent enforce (admittedState state event) event) = admittedState state event := by
    rw [rewritten, admittedState_withChanges]
  have sameAttribution : attribution state
      (rewriteEvent enforce (admittedState state event) event) = attribution state event := by
    rw [rewritten, attribution_withChanges]
  have sameChecks : validate platform validateRawPayload validateDuplicate state
      (rewriteEvent enforce (admittedState state event) event) =
        validate platform validateRawPayload validateDuplicate state event := by
    rw [rewritten, validate_withChanges]
  unfold evaluateEvent
  rw [sameAdmission, sameAttribution, sameChecks]
  dsimp only
  rw [rewriteEvent_idempotent, decideEvent_rewriteEvent]

end MarketCow.Core
