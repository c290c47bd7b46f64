import MarketCow.Polymarket.Websocket.AcceptedBooks
import MarketCow.Polymarket.Websocket.WaitingTokens

/-!
# REST recoveries

A REST recovery reduces the book of each token and closes the recoveries that it
was asked for. It keeps a state consistent when it was asked for every open
recovery of its tokens, and when the codec accepts the books.
-/

namespace MarketCow.Websocket

open Library MarketCow.Core Polymarket List
open Adapter (completeAttempt isKind recoverToken recoverTokens setField)
open Effect (bind_cases ensure_bind_cases get_bind lift_bind_cases lift_ok_bind modify_bind
  need_bind_cases)

/-! ## One token -/

/-- The book frame that a raw book is reduced as. -/
def bookFrame (raw : Json) : Json :=
  setField raw "event_type" (.string "book")

/-- A raw book that a recovery can take in: the recovery was asked for the open
one of its token, its last trade is on its tick, and the codec accepts it. -/
structure BookFits
    (externals : Externals) (adapter : Adapter) (recovery : Adapter.Recovery)
    (raw : Json) : Prop where
  asked : ∀ token attempt, (field raw "asset_id").asString? = some token →
    adapter.recoveries[token]? = some attempt → recovery.attempts[token]? = some attempt
  traded : ∃ lastTrade, readLastTrade externals (bookFrame raw) = .ok lastTrade ∧
    ∀ fields verified tick, bookFrame raw = .object fields →
      readBookTick externals.parsers verified fields = .ok tick →
      lastTrade.all (fun price => (Decimal.rem price tick).isZero) = true
  accepted : ∀ token attempt market condition cursor,
    (field raw "asset_id").asString? = some token →
    adapter.recoveries[token]? = some attempt →
    adapter.identities[token]? = some (market, condition) →
    0 < cursor → ∃ book, checkBook externals raw
      { marketId := market
        conditionId := condition
        tokenId := token
        recoveryId := attempt
        cursor
        receivedAt := recovery.received } = .ok book

section Tokens

variable {externals : Externals} {recovery : Adapter.Recovery} {raw : Json} {token : String}
  {adapter after : Adapter}

theorem get?_setField (ne : other ≠ name) :
    (setField raw name content).get? other = raw.get? other := by
  have skipped : ∀ fields : List (String × Json),
      ((fields.filter fun entry => entry.1 != name) ++ [(name, content)]).lookup other =
        fields.lookup other := by
    intro fields
    induction fields with
    | nil =>
      change List.lookup other [(name, content)] = none
      rw [lookup_cons, beq_false_of_ne ne]
      rfl
    | cons entry fields ih =>
      obtain ⟨key, value⟩ := entry
      rw [filter_cons]
      by_cases same : other = key
      · have kept : (key != name) = true := by
          rw [bne_iff_ne, ← same]
          exact ne
        rw [if_pos kept, cons_append, same, lookup_cons_self, lookup_cons_self]
      · rw [lookup_cons, beq_false_of_ne same]
        split
        · rw [cons_append, lookup_cons, beq_false_of_ne same]
          exact ih
        · exact ih
  cases raw with
  | object fields => exact skipped fields
  | _ => exact skipped []

theorem isKind_bookFrame : isKind (bookFrame raw) "book" = true := by
  have found : ∀ fields : List (String × Json),
      ((fields.filter fun entry => entry.1 != "event_type") ++
        [("event_type", Json.string "book")]).lookup "event_type" = some (.string "book") := by
    intro fields
    induction fields with
    | nil => rfl
    | cons entry fields ih =>
      obtain ⟨key, value⟩ := entry
      rw [filter_cons]
      split
      · rename_i kept
        have ne : "event_type" ≠ key := (bne_iff_ne.mp kept).symm
        rw [cons_append, lookup_cons, beq_false_of_ne ne]
        exact ih
      · exact ih
  apply isKind_iff.mpr
  change ((((_ : List (String × Json)).lookup "event_type")).getD .null).asString? = _
  rw [found]
  rfl

/-- The book frame of a raw book is about the token that the raw book names. -/
theorem bookToken_bookFrame (named : (field raw "asset_id").asString? = some token)
    (read : bookToken (bookFrame raw) = some other) : other = token := by
  have kept : (bookFrame raw).get? "asset_id" = raw.get? "asset_id" := get?_setField (by decide)
  refine bookToken_of_named ?_ read
  unfold field at named ⊢
  rw [kept]
  exact named

variable {result : Except AdapterError (List Json)} {now received : DateTime}

/-- Reducing a raw book publishes it, or leaves its token alone. -/
theorem apply_bookFrame (consistent : Consistent externals adapter)
    (named : (field raw "asset_id").asString? = some token)
    (fits : BookFits externals adapter recovery raw)
    (ran : Adapter.apply externals now (bookFrame raw) received 0 adapter = (result, after)) :
    Consistent externals after ∧ (∀ events, result = .ok events → events.length ≠ 1) ∨
      ∃ snapshot, result = .ok [snapshot] ∧
        Elsewhere token adapter after ∧ Ready externals after token ∧ token ∉ after.waiting ∧
        after.recoveries[token]? = adapter.recoveries[token]? := by
  have isBook : isKind (bookFrame raw) "book" = true := isKind_bookFrame
  cases result with
  | ok events =>
    cases bookLeft_of_apply consistent isBook ran with
    | nothing same =>
      refine .inl ⟨consistent.congr same, ?_⟩
      intro events same
      rw [← ok.inj same]
      decide
    | @alone other read moved same =>
      refine .inl ⟨consistent.of_elsewhere moved ?_ ?_, ?_⟩
      · intro mem
        exact (consistent.settled _ mem).congr same
      · intro attempt opened
        rw [same.recovery] at opened
        exact consistent.subscribed _ attempt opened
      · intro events same
        rw [← ok.inj same]
        decide
    | @published other snapshot read subscribed moved ready released recovered names =>
      obtain rfl := bookToken_bookFrame named read
      exact .inr ⟨snapshot, rfl, moved, ready, released, recovered⟩
  | error cause =>
    left
    refine ⟨?_, by simp⟩
    rcases apply_cases (noGap_of_book isBook) ran with
      ⟨rfl, _⟩ | ⟨kind, events, typed, normalized, ran⟩
    · exact consistent
    · obtain rfl : kind = "book" := some.inj (typed.symm.trans (isKind_iff.mp isBook))
      obtain ⟨verified, normalized⟩ := normalizeFrame_ok normalized
      obtain ⟨event, bookOf, tick, rfl, reads⟩ := fullBook_of_normalize typed normalized
      obtain ⟨fields, shape, aliased, ticked⟩ := reads.fields
      obtain ⟨lastTrade, traded, onTick⟩ := fits.traded
      unfold Adapter.applyEvents at ran
      rw [Effect.bind_apply] at ran
      rcases taken : Adapter.applyEvent externals (frameOf externals now (bookFrame raw) received 0
        "book") 0 event adapter with ⟨failure | emitted, middle⟩
      · rw [length_nil, taken] at ran
        cases ran
        obtain ⟨bids, asks, version, fullBook⟩ := reads.full
        have eventToken : event.kind.tokenId = bookOf := by rw [fullBook]; rfl
        have position : 0 + (0 + 1) < 2 ^ 64 := by decide
        rcases applyEvent_of_traded rfl position reads traded
          (onTick fields verified tick shape ticked) taken with ⟨_, never⟩ | ⟨same, _⟩
        · cases never
        · have moved := elsewhere_applyEvent taken
          rw [eventToken] at moved
          refine consistent.of_elsewhere moved ?_ ?_
          · intro mem
            exact (consistent.settled _ mem).congr same
          · intro attempt opened
            rw [same.recovery] at opened
            exact consistent.subscribed _ attempt opened
      · rw [length_nil, taken] at ran
        cases (Prod.mk.inj ran).1

/-- The recoveries of a state are those of another, or closed. -/
def Shrinks (before after : Adapter) : Prop :=
  after.identities = before.identities ∧
    ∀ token attempt : String, after.recoveries[token]? = some attempt →
      before.recoveries[token]? = some attempt

/-- A raw book fits as well once recoveries have been closed. -/
theorem BookFits.mono (fits : BookFits externals adapter recovery raw)
    (shrinks : Shrinks adapter after) : BookFits externals after recovery raw where
  asked := fun token attempt named opened =>
    fits.asked token attempt named (shrinks.2 token attempt opened)
  traded := fits.traded
  accepted := by
    intro token attempt market condition cursor named opened known positive
    rw [shrinks.1] at known
    exact fits.accepted token attempt market condition cursor named
      (shrinks.2 token attempt opened) known positive

/-- A book keeps its other clocks when it takes the epoch of the codec. -/
theorem Ready.withEpoch {epoch : String} {sequence : Nat} (ready : Ready externals adapter token) :
    Ready externals
      { adapter with
        epochs := adapter.epochs.insert token epoch
        sequences := adapter.sequences.insert token sequence } token :=
  ⟨ready.checksum, ⟨epoch, getElem?_insert_token _ _⟩, ⟨sequence, getElem?_insert_token _ _⟩,
    ready.received, ready.source⟩

/-- The codec writes a book that it has checked, with its epoch. -/
theorem snapshotEvent_of_checked
    (checked : checkBook externals raw boundary = .ok book) :
    ∃ snapshot epoch, snapshotEvent externals raw boundary = .ok snapshot ∧
      (field (field snapshot "canonical_payload") "book_epoch").asString? = some epoch := by
  unfold snapshotEvent
  rw [checked]
  exact ⟨_, _, rfl, rfl⟩

/-- A token with a published book and without a recovery is settled. -/
theorem Consistent.of_published
    (consistent : Consistent externals adapter) (subscribed : token ∈ adapter.identities)
    (moved : Elsewhere token adapter after) (ready : Ready externals after token)
    (unopened : after.recoveries[token]? = none) : Consistent externals after := by
  refine consistent.of_elsewhere moved (fun _ => ⟨?_, fun _ => ready⟩) fun _ _ => subscribed
  intro attempt opened
  rw [unopened] at opened
  cases opened

theorem Elsewhere.withEpoch (adapter : Adapter) (epoch : String) (sequence : Nat) :
    Elsewhere token adapter
      { adapter with
        epochs := adapter.epochs.insert token epoch
        sequences := adapter.sequences.insert token sequence } :=
  ⟨rfl, fun _ ne => ⟨.rfl, rfl, getElem?_insert_other _ _ ne,
    getElem?_insert_other _ _ ne, rfl, rfl, rfl, rfl⟩, fun _ mem => .inl mem⟩

variable {output : List Json}

/-- Closing the recovery of a token is to be taken up with its attempt. -/
theorem completeAttempt_state
    (ran : completeAttempt externals token market condition attempt received position cursor
      output adapter = (result, after)) :
    after = closed adapter token ∧
      ∀ events, result = .ok events → events.length = output.length + 1 := by
  unfold completeAttempt at ran
  rw [modify_bind] at ran
  rcases lift_bind_cases ran with ⟨⟨cause, rfl⟩, rfl⟩ | ⟨counted, _, ran⟩
  · exact ⟨rfl, by simp⟩
  · cases ran
    refine ⟨rfl, ?_⟩
    intro events same
    rw [← ok.inj same, length_append]
    rfl

/-- What recovering a token leaves where it succeeds. -/
structure Recovered
    (before after : Adapter) (output : List Json) (result : String × List Json) : Prop where
  shrinks : Shrinks before after
  length : result.2.length ≤ output.length + 2

variable {market? : Option String}

theorem recoverToken_spec {result : Except AdapterError (String × List Json)}
    (consistent : Consistent externals adapter) (fits : BookFits externals adapter recovery raw)
    (bounded : recovery.after + (output.length + 2) < 2 ^ 64)
    (ran : recoverToken externals recovery market? output raw adapter = (result, after)) :
    Consistent externals after ∧
      ∀ success, result = .ok success → Recovered adapter after output success := by
  unfold recoverToken at ran
  rw [get_bind] at ran
  rcases need_bind_cases ran with ⟨⟨cause, rfl⟩, rfl⟩ | ⟨token, named, ran⟩
  · exact ⟨consistent, by simp⟩
  rcases need_bind_cases ran with ⟨⟨cause, rfl⟩, rfl⟩ | ⟨⟨market, condition⟩, known, ran⟩
  · exact ⟨consistent, by simp⟩
  rcases ensure_bind_cases ran with ⟨⟨cause, rfl⟩, rfl⟩ | ⟨_, ran⟩
  · exact ⟨consistent, by simp⟩
  rcases ensure_bind_cases ran with ⟨⟨cause, rfl⟩, rfl⟩ | ⟨_, ran⟩
  · exact ⟨consistent, by simp⟩
  have mem : token ∈ adapter.identities := mem_iff_isSome_getElem?.mpr (by rw [known]; rfl)
  rcases bind_cases ran with ⟨cause, applied, rfl⟩ | ⟨events, middle, applied, ran⟩
  · rcases apply_bookFrame consistent named fits applied with ⟨kept, _⟩ | ⟨_, never, _⟩
    · exact ⟨kept, by simp⟩
    · cases never
  rcases apply_bookFrame consistent named fits applied with
    ⟨kept, ne⟩ | ⟨snapshot, emitted, moved, ready, released, recovered⟩
  · rcases ensure_bind_cases ran with ⟨⟨cause, rfl⟩, rfl⟩ | ⟨single, _⟩
    · exact ⟨kept, by simp⟩
    · exact absurd (beq_iff_eq.mp single) (ne events rfl)
  cases emitted
  have single : ([snapshot].length == 1) = true := rfl
  rw [single, Effect.ensure_true_bind, get_bind] at ran
  have shrinks : Shrinks adapter middle := by
    refine ⟨moved.identities, ?_⟩
    intro other attempt opened
    by_cases same : other = token
    · rw [same] at opened ⊢
      rw [← recovered]
      exact opened
    · rw [← (moved.others other same).recovery]
      exact opened
  cases opened : middle.recoveries[token]? with
  | none =>
    -- Without an open recovery no later fault matters.
    have consistentMiddle := consistent.of_published mem moved ready opened
    have noAttempt : ((recovery.attempts[token]?).filter fun attempt =>
        middle.recoveries[token]? == some attempt) = none := by
      rw [opened]
      cases recovery.attempts[token]? <;> rfl
    rw [noAttempt] at ran
    rcases lift_bind_cases ran with ⟨⟨cause, rfl⟩, rfl⟩ | ⟨cursor, _, ran⟩
    · exact ⟨consistentMiddle, by simp⟩
    rcases lift_bind_cases ran with ⟨⟨cause, rfl⟩, rfl⟩ | ⟨event, _, ran⟩
    · exact ⟨consistentMiddle, by simp⟩
    rcases need_bind_cases ran with ⟨⟨cause, rfl⟩, rfl⟩ | ⟨epoch, _, ran⟩
    · exact ⟨consistentMiddle, by simp⟩
    rw [modify_bind] at ran
    cases ran
    refine ⟨consistent.of_published mem (IsTrans.trans _ _ _ moved
      (Elsewhere.withEpoch middle epoch 1)) ready.withEpoch opened, ?_⟩
    intro success same
    rw [← ok.inj same]
    exact ⟨shrinks, by simp⟩
  | some attempt =>
    -- The recovery was asked for this one, and nothing fails before it is closed.
    have wasOpen : adapter.recoveries[token]? = some attempt := recovered.symm.trans opened
    have asked := fits.asked token attempt named wasOpen
    have chosen : ((recovery.attempts[token]?).filter fun attempt =>
        middle.recoveries[token]? == some attempt) = some attempt := by
      rw [opened, asked, Option.filter_some, if_pos (beq_self_eq_true _)]
    rw [chosen] at ran
    have counted : checkedAdd recovery.after (output.length + 1) "cursor overflow" =
        .ok (recovery.after + (output.length + 1)) :=
      checkedAdd_ok_iff.mpr ⟨by omega, rfl⟩
    obtain ⟨book, checked⟩ := fits.accepted token attempt market condition
      (recovery.after + (output.length + 1)) named wasOpen known (by omega)
    obtain ⟨event, epoch, written, epochText⟩ := snapshotEvent_of_checked checked
    rw [counted, lift_ok_bind] at ran
    rw [getD_some, written, lift_ok_bind, epochText, Effect.need_some_bind,
      modify_bind] at ran
    have published : Elsewhere token adapter
        { middle with
          epochs := middle.epochs.insert token epoch
          sequences := middle.sequences.insert token 1 } :=
      IsTrans.trans _ _ _ moved (Elsewhere.withEpoch middle epoch 1)
    have done : ∀ completed next, completeAttempt externals token market condition attempt
          recovery.received recovery.after (recovery.after + (output.length + 1))
          (output ++ [event])
          { middle with
            epochs := middle.epochs.insert token epoch
            sequences := middle.sequences.insert token 1 } = (completed, next) →
        Consistent externals next ∧ Shrinks adapter next ∧
          ∀ events, completed = .ok events → events.length = output.length + 2 := by
      intro completed next complete
      obtain ⟨rfl, length⟩ := completeAttempt_state complete
      refine ⟨consistent.of_published mem (IsTrans.trans _ _ _ published (elsewhere_close _))
        (Ready.closed ready.withEpoch) (closed_recovery token), ?_, ?_⟩
      · refine ⟨shrinks.1, fun other attempt opened => shrinks.2 other attempt ?_⟩
        by_cases same : other = token
        · rw [same, closed_recovery] at opened
          cases opened
        · exact (getElem?_erase_other _ same).symm.trans opened
      · intro events same
        rw [length events same, length_append]
        rfl
    rcases bind_cases ran with ⟨cause, complete, rfl⟩ | ⟨completed, next, complete, ran⟩
    · exact ⟨(done _ _ complete).1, by simp⟩
    · cases ran
      obtain ⟨kept, closedShrinks, length⟩ := done _ _ complete
      refine ⟨kept, ?_⟩
      intro success same
      rw [← ok.inj same]
      exact ⟨closedShrinks, (length completed rfl).le⟩

/-! ## Both tokens of a market -/

/-- A REST recovery that fits: where it does anything, the positions of its
records and all of its books fit. -/
def RestFits (externals : Externals) (adapter : Adapter) (recovery : Adapter.Recovery)
    (rawBooks : List Json) : Prop :=
  (∃ token attempt : String, recovery.attempts[token]? = some attempt ∧
    adapter.recoveries[token]? = some attempt) →
  recovery.after + 4 < 2 ^ 64 ∧ ∀ raw ∈ rawBooks, BookFits externals adapter recovery raw

variable {rawBooks : List Json}

theorem consistent_recoverTokens (consistent : Consistent externals adapter)
    (fits : ∀ raw ∈ rawBooks, BookFits externals adapter recovery raw)
    (bounded : recovery.after + (output.length + 2 * rawBooks.length) < 2 ^ 64)
    (ran : recoverTokens externals recovery market? output rawBooks adapter =
      (result, after)) : Consistent externals after := by
  induction rawBooks generalizing market? output adapter with
  | nil =>
    cases ran
    exact consistent
  | cons raw rawBooks ih =>
    rw [length_cons] at bounded
    have first := fits raw mem_cons_self
    rcases bind_cases ran with ⟨cause, recovered, rfl⟩ | ⟨success, middle, recovered, ran⟩
    · exact (recoverToken_spec consistent first (by omega) recovered).1
    · obtain ⟨kept, spec⟩ := recoverToken_spec consistent first (by omega) recovered
      have done := spec success rfl
      have short := done.length
      refine ih kept ?_ ?_ ran
      · intro other later
        exact (fits other (mem_cons_of_mem raw later)).mono done.shrinks
      · omega

/-- A REST recovery that fits keeps a state consistent. -/
theorem Consistent.applyRestRecovery (consistent : Consistent externals adapter)
    (fits : RestFits externals adapter recovery rawBooks)
    (ran : Adapter.applyRestRecovery externals recovery rawBooks adapter = (result, after)) :
    Consistent externals after := by
  unfold Adapter.applyRestRecovery at ran
  rw [get_bind] at ran
  split at ran
  · cases ran
    exact consistent
  · rename_i current
    rcases ensure_bind_cases ran with ⟨_, rfl⟩ | ⟨pair, ran⟩
    · exact consistent
    · have some_ : ∃ token attempt : String, recovery.attempts[token]? = some attempt ∧
          adapter.recoveries[token]? = some attempt := by
        rw [all_eq_true] at current
        push Not at current
        obtain ⟨⟨token, attempt⟩, listed, matched⟩ := current
        refine ⟨token, attempt, mem_toList_iff_getElem?_eq_some.mp listed, ?_⟩
        simpa using matched
      obtain ⟨bounded, books⟩ := fits some_
      have two : (rawBooks.insertionSort fun left right => Adapter.tokenBefore left right).length = 2 := by
        rw [length_insertionSort]
        exact beq_iff_eq.mp pair
      refine consistent_recoverTokens consistent (fun raw listed => ?_) ?_ ran
      · exact books raw ((mem_insertionSort _).mp listed)
      · rw [two]
        exact bounded

/-! ## A token that waits -/

/-- The same tokens are subscribed to, and a token waits if it did, unless it is
among those that may stop to wait. -/
structure KeepsBut (released : String → Prop) (before after : Adapter) : Prop where
  identities : after.identities = before.identities
  waiting : ∀ token ∈ before.waiting, ¬released token → token ∈ after.waiting

instance (released : String → Prop) : Std.Refl (KeepsBut released) :=
  ⟨fun _ => ⟨rfl, fun _ waits _ => waits⟩⟩

instance (released : String → Prop) : IsTrans Adapter (KeepsBut released) where
  trans _ _ _ one two :=
    ⟨two.identities.trans one.identities,
      fun token waits kept => two.waiting token (one.waiting token waits kept) kept⟩

variable {released : String → Prop}

/-- Reducing a raw book ends no wait but the one of its token. -/
theorem moves_apply_bookFrame
    (named : (field raw "asset_id").asString? = some token) (mem : released token) :
    Effect.Moves (KeepsBut released) (Adapter.apply externals now (bookFrame raw) received 0) := by
  intro adapter
  have noGap : isKind (bookFrame raw) "source_gap" = false := noGap_of_book isKind_bookFrame
  have moved : Within (fun _ => True) adapter
      (Adapter.apply externals now (bookFrame raw) received 0 adapter).2 :=
    within_apply noGap (fun _ _ _ _ _ => trivial) rfl
  refine ⟨moved.identities, fun other waits kept => ?_⟩
  refine (silent_apply waits noGap ?_ rfl).1.waiting.mpr waits
  intro _ read
  rw [bookToken_bookFrame named read] at kept
  exact kept mem

/-- Recovering a token ends no other wait. -/
theorem moves_recoverToken
    (mem : ∀ token, (field raw "asset_id").asString? = some token → released token) :
    Effect.Moves (KeepsBut released)
      (recoverToken externals recovery market? output raw) := by
  unfold recoverToken
  refine .bind .of_get fun adapter => ?_
  cases named : (field raw "asset_id").asString? with
  | none =>
    rw [Effect.need_none_bind]
    exact .of_fail _
  | some token =>
    rw [Effect.need_some_bind]
    refine .bind (.of_need _ _) fun identity => .bind (.of_ensure _ _) fun _ =>
      .bind (.of_ensure _ _) fun _ => .bind (moves_apply_bookFrame named (mem token named))
      fun events => .bind (.of_ensure _ _) fun _ => .bind .of_get fun middle =>
      .bind (.of_lift _) fun cursor => .bind (.of_lift _) fun snapshot =>
      .bind (.of_need _ _) fun epoch => .bind (.of_modify fun _ => ⟨rfl, fun _ waits _ => waits⟩)
      fun _ => ?_
    split
    · exact .of_pure _
    · refine .bind ?_ fun _ => .of_pure _
      exact .bind (.of_modify fun _ => ⟨rfl, fun _ waits _ => waits⟩) fun _ =>
        .bind (.of_lift _) fun _ => .of_pure _

section

variable (mem : ∀ raw ∈ rawBooks, ∀ token, (field raw "asset_id").asString? = some token →
      released token)
include mem

theorem moves_recoverTokens :
    Effect.Moves (KeepsBut released)
      (recoverTokens externals recovery market? output rawBooks) := by
  induction rawBooks generalizing market? output with
  | nil => exact .of_pure _
  | cons raw rawBooks ih =>
    refine .bind (moves_recoverToken (mem raw mem_cons_self)) fun success => ?_
    exact ih fun other later => mem other (mem_cons_of_mem raw later)

/-- A REST recovery ends the wait of no token but those of its books. -/
theorem moves_applyRestRecovery :
    Effect.Moves (KeepsBut released) (Adapter.applyRestRecovery externals recovery rawBooks) := by
  refine .bind .of_get fun adapter => ?_
  split
  · exact .of_pure _
  · refine .bind (.of_ensure _ _) fun _ => moves_recoverTokens ?_
    intro raw listed
    exact mem raw ((mem_insertionSort _).mp listed)

end

end Tokens

end MarketCow.Websocket
