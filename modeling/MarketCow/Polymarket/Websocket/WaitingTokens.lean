import MarketCow.Polymarket.Websocket.IsolatedFrame

/-!
# Tokens that wait

While a token waits, no frame but a full book of it ends the wait, and
increments publish nothing about it.
-/

namespace MarketCow.Websocket

open Library MarketCow.Core Polymarket
open Adapter (apply applyIsolated completeRecovery invalidateAffected isKind)

section Frames

variable {externals : Externals} {now received : DateTime} {raw : Json} {position : Nat}
  {adapter after : Adapter}

/-- The same tokens are subscribed to, and none has stopped to wait. -/
def Keeps (before after : Adapter) : Prop :=
  after.identities = before.identities ∧ ∀ token ∈ before.waiting, token ∈ after.waiting

instance : Std.Refl Keeps := ⟨fun _ => ⟨rfl, fun _ waits => waits⟩⟩

instance : IsTrans Adapter Keeps where
  trans _ _ _ one two :=
    ⟨two.1.trans one.1, fun token waits => two.2 token (one.2 token waits)⟩

/-- Closing a recovery makes no token stop to wait. -/
theorem moves_completeRecovery :
    Effect.Moves Keeps (completeRecovery externals received events) := by
  unfold completeRecovery
  split
  · exact .of_pure _
  · refine .bind (.of_need _ _) fun token => .bind (.of_need _ _) fun cursor =>
      .bind .of_get fun adapter => ?_
    split
    · exact .of_pure _
    · exact .bind (.of_modify fun _ => ⟨rfl, fun _ waits => waits⟩) fun _ =>
        .bind (.of_need _ _) fun _ => .bind (.of_lift _) fun _ => .of_pure _

/-- Neither does the invalidation of the tokens of a frame. -/
theorem moves_invalidateAffected :
    Effect.Moves (Blocks (· ∈ affected))
      (invalidateAffected externals sourceGap affected received position cause) := by
  refine .bind (.of_ensure _ _) fun _ => .bind .of_get fun adapter => moves_invalidateAll ?_
  intro token listed
  exact Std.ExtTreeSet.mem_toList.mp (List.mem_of_mem_filter listed)

variable {result : Except AdapterError (List Json)}

section

variable (waits : token ∈ adapter.waiting)
include waits

/-- While a token waits, a frame leaves it alone that is no full book of it. -/
theorem silent_apply (noGap : isKind raw "source_gap" = false)
    (noBook : isKind raw "book" = true → bookToken raw ≠ some token)
    (ran : apply externals now raw received position adapter = (result, after)) :
    SameAt token adapter after ∧ Silent token (outputOf result) adapter after := by
  rcases apply_cases noGap ran with ⟨rfl, quiet⟩ | ⟨kind, events, typed, normalized, ran⟩
  · refine ⟨.refl _, ?_, fun _ mem _ => mem⟩
    rw [quiet]
    intro _ mem
    cases mem
  · obtain ⟨verified, normalized⟩ := normalizeFrame_ok normalized
    refine silent_applyEvents waits ?_ (fun _ mem => by cases mem) ran
    intro event mem named
    by_cases book : kind = "book"
    · rw [book] at typed
      obtain ⟨found, bookOf, tick, rfl, reads⟩ := fullBook_of_normalize typed normalized
      obtain rfl := List.mem_singleton.mp mem
      obtain ⟨bids, asks, version, fullBook⟩ := reads.full
      obtain ⟨fields, shape, aliased, _⟩ := reads.fields
      have same : bookOf = token := by
        rw [fullBook] at named
        exact named
      refine absurd ?_ (noBook (isKind_iff.mpr typed))
      rw [shape, ← same]
      exact aliased
    · exact increments_of_normalize typed book normalized event mem

/-- No frame subscribes to a token, and none but a full book of a token ends its
wait. -/
theorem waits_applyIsolated
    (ran : applyIsolated externals now raw received position adapter = (result, after)) :
    after.identities = adapter.identities ∧
      ((isKind raw "book" = true → bookToken raw ≠ some token) →
        token ∈ after.waiting) := by
  cases isolated_of_applyIsolated ran with
  | passed => exact ⟨rfl, fun _ => waits⟩
  | @settled affected reduced _ middle _ read subscribed current reduce settle =>
    have still : middle.identities = adapter.identities ∧
        ((isKind raw "book" = true → bookToken raw ≠ some token) →
          token ∈ middle.waiting) := by
      cases gap : isKind raw "source_gap" with
      | true =>
        rw [gap, if_pos rfl] at reduce
        cases reduce
        exact ⟨rfl, fun _ => waits⟩
      | false =>
        rw [gap, if_neg Bool.false_ne_true] at reduce
        have moved : Within (fun _ => True) adapter middle :=
          within_apply gap (fun _ _ _ _ _ => trivial) reduce
        exact ⟨moved.identities,
          fun noBook => (silent_apply waits gap noBook reduce).1.waiting.mpr waits⟩
    have kept : Keeps middle after := by
      rcases settleFrame_cases settle with ⟨events, _, ended⟩ | ⟨_, _, rfl⟩ | ⟨cause, ended⟩
      · split at ended
        · have kept : Keeps (Adapter.rememberConflated
                (Adapter.conflatedSourceHashes externals raw) middle)
              (completeRecovery externals received events (Adapter.rememberConflated
                (Adapter.conflatedSourceHashes externals raw) middle)).2 :=
            moves_completeRecovery _
          rw [ended] at kept
          exact kept
        · cases ended
          exact ⟨rfl, fun _ waits => waits⟩
      · exact ⟨rfl, fun _ waits => waits⟩
      · have blocks : Blocks (· ∈ affected) middle (invalidateAffected externals
            (isKind raw "source_gap") affected received position cause middle).2 :=
          moves_invalidateAffected middle
        rw [ended] at blocks
        exact ⟨blocks.within.identities, blocks.waiting⟩
    exact ⟨kept.1.trans still.1, fun noBook => kept.2 token (still.2 noBook)⟩

/-- Increments publish nothing about a token that waits. -/
theorem silent_applyIsolated
    (noBook : isKind raw "book" = false) (noGap : isKind raw "source_gap" = false)
    (ran : applyIsolated externals now raw received position adapter = (result, after)) :
    Silent token (outputOf result) adapter after := by
  cases isolated_of_applyIsolated ran with
  | passed quiet =>
    rw [quiet]
    exact ⟨fun _ mem => (by cases mem), fun _ mem _ => mem⟩
  | @settled affected reduced _ middle _ read subscribed current reduce settle =>
    have outside : token ∉ affected := fun mem => current noBook noGap token mem waits
    rw [noGap, if_neg Bool.false_ne_true] at reduce
    rw [noGap, noBook] at settle
    obtain ⟨same, silent⟩ := silent_apply waits noGap (fun book => by
      rw [noBook] at book
      cases book) reduce
    rcases settleFrame_cases settle with ⟨events, rfl, ended⟩ | ⟨_, rfl, rfl⟩ | ⟨cause, ended⟩
    · rw [if_neg Bool.false_ne_true] at ended
      cases ended
      exact ⟨silent.events, silent.confirmations⟩
    · exact ⟨fun _ mem => (by cases mem), silent.confirmations⟩
    · have blocks : Blocks (· ∈ affected) middle (invalidateAffected externals false
          affected received position cause middle).2 := moves_invalidateAffected middle
      rw [ended] at blocks
      refine ⟨?_, ?_⟩
      · cases result with
        | error cause => exact fun _ mem => by cases mem
        | ok events =>
          unfold invalidateAffected at ended
          obtain ⟨_, ended⟩ := Effect.ensure_bind_ok.mp ended
          rw [Effect.get_bind] at ended
          intro event mem named
          obtain ⟨other, present, otherNamed⟩ := names_of_invalidateAll
            (fun listed inList => Std.ExtTreeSet.mem_toList.mp (List.mem_of_mem_filter inList))
            (fun _ never => by cases never) ended event mem
          rw [some.inj (named.symm.trans otherNamed)] at outside
          exact outside present
      · intro confirmation mem named
        rcases blocks.within.confirmations confirmation mem with earlier | new
        · exact silent.confirmations confirmation earlier named
        · rw [named] at new
          exact absurd new outside

end

end Frames

end MarketCow.Websocket
