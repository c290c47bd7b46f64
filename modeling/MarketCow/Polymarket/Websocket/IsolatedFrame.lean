import MarketCow.Polymarket.Websocket.Invalidation

/-!
# One frame as a unit

A frame keeps a state consistent when it names the tokens of its events and the
positions of the records of a failure fit in 64 bits.
-/

namespace MarketCow.Websocket

open Library MarketCow.Core Polymarket List
open Effect (bind_apply get_bind lift_apply need_some_bind)
open Adapter (apply applyIsolated completeRecovery isKind rememberConflated settleFrame)
open IsTrans (trans)
open Std.ExtTreeSet (isEmpty_iff length_toList mem_toList not_mem_empty)

/-- The token of a book frame. -/
def bookToken (raw : Json) : Option String :=
  raw.asObject?.bind fun fields => nonemptyAlias fields ["asset_id", "token_id"]

/-- A book frame is about the token that its first alias names. -/
theorem bookToken_of_named (named : (field raw "asset_id").asString? = some token)
    (read : bookToken raw = some other) : other = token := by
  unfold bookToken nonemptyAlias at read
  obtain ⟨fields, shape, read⟩ := bind_eq_some_iff.mp read
  have object : raw = .object fields := by
    cases raw with
    | object others => exact congrArg Json.object (some.inj shape)
    | _ => cases shape
  rw [object] at named
  rw [stringAlias_of_text named] at read
  exact (some.inj (Option.filter_eq_some_iff.mp read).1).symm

/-- A frame whose failure can be contained: the positions of the records fit, and
the frame names the tokens of its events. -/
structure FrameFits
    (externals : Externals) (adapter : Adapter) (raw : Json) (received : DateTime)
    (position : Nat) : Prop where
  cursors : ∀ affected, adapter.affectedTokens raw = .ok affected →
    position + affected.size < 2 ^ 64
  named : ∀ affected events, adapter.affectedTokens raw = .ok affected →
    adapter.normalizeFrame externals raw received = .ok events →
    ∀ event ∈ events, event.kind.tokenId ∈ adapter.identities → event.kind.tokenId ∈ affected

section Frames

variable {externals : Externals} {now received : DateTime} {raw : Json} {position : Nat}
  {adapter after : Adapter}

theorem isKind_iff :
    isKind raw kind = true ↔ (field raw "event_type").asString? = some kind := by
  unfold isKind
  rw [beq_iff_eq]
  constructor
  · intro same
    rw [same]
    rfl
  · intro text
    cases content : field raw "event_type" with
    | string found =>
      rw [content] at text
      exact congrArg Json.string (some.inj text)
    | _ =>
      rw [content] at text
      cases text

theorem noGap_of_book
    (isBook : isKind raw "book" = true) : isKind raw "source_gap" = false := by
  rw [Bool.eq_false_iff]
  intro gap
  have same := (isKind_iff.mp isBook).symm.trans (isKind_iff.mp gap)
  exact absurd (some.inj same) (by decide)

/-- The frame that events belong to. -/
def frameOf
    (externals : Externals) (now : DateTime) (raw : Json) (received : DateTime) (position : Nat)
    (kind : String) : Frame where
  raw := raw
  received := received
  after := position
  kind := kind
  sourceHash := sourceHashOf externals raw
  now := now

variable {result : Except AdapterError (List Json)}

/-- A frame that is no gap changes nothing, or goes on with its events. -/
theorem apply_cases (noGap : isKind raw "source_gap" = false)
    (ran : apply externals now raw received position adapter = (result, after)) :
    after = adapter ∧ outputOf result = [] ∨
      ∃ kind events, (field raw "event_type").asString? = some kind ∧
        adapter.normalizeFrame externals raw received = .ok events ∧
        Adapter.applyEvents externals (frameOf externals now raw received position kind) []
          events adapter = (result, after) := by
  unfold apply at ran
  rw [get_bind, bind_apply, lift_apply] at ran
  cases checked : checkConflation externals adapter raw received with
  | error cause =>
    rw [checked] at ran
    cases ran
    exact .inl ⟨rfl, rfl⟩
  | ok _ =>
    rw [checked] at ran
    dsimp only at ran
    rw [bind_apply] at ran
    cases typed : (field raw "event_type").asString? with
    | none =>
      rw [typed] at ran
      cases ran
      exact .inl ⟨rfl, rfl⟩
    | some kind =>
      rw [typed] at ran
      change (if kind = "source_gap" then _ else _ : Action (List Json)) adapter = _ at ran
      have ne : kind ≠ "source_gap" := by
        rintro rfl
        rw [isKind_iff.mpr typed] at noGap
        cases noGap
      rw [if_neg ne] at ran
      split at ran
      · cases ran
        exact .inl ⟨rfl, rfl⟩
      · rw [bind_apply] at ran
        cases open_ : (kind != "market_resolved") with
        | false =>
          rw [open_] at ran
          cases ran
          exact .inl ⟨rfl, rfl⟩
        | true =>
          rw [open_] at ran
          change (Effect.lift _ >>= _) adapter = _ at ran
          rw [bind_apply, lift_apply] at ran
          cases normalized : adapter.normalizeFrame externals raw received with
          | error cause =>
            rw [normalized] at ran
            cases ran
            exact .inl ⟨rfl, rfl⟩
          | ok events =>
            rw [normalized] at ran
            exact .inr ⟨kind, events, rfl, rfl, ran⟩

theorem normalizeFrame_ok
    (normalized : adapter.normalizeFrame externals raw received = .ok events) :
    ∃ verified, normalizeFrameWithBookTick externals.platform externals.parsers adapter.config raw
      received 1 verified = .ok events := by
  unfold Adapter.normalizeFrame at normalized
  dsimp only at normalized
  split at normalized
  · rename_i found taken
    exact ⟨_, taken.trans (congrArg _ (ok.inj normalized))⟩
  · cases normalized

variable {tokens : String → Prop}

/-- A frame changes the subscribed tokens of its events only. -/
theorem within_apply (noGap : isKind raw "source_gap" = false)
    (covered : ∀ events, adapter.normalizeFrame externals raw received = .ok events →
      ∀ event ∈ events, event.kind.tokenId ∈ adapter.identities → tokens event.kind.tokenId)
    (ran : apply externals now raw received position adapter = (result, after)) :
    Within tokens adapter after := by
  rcases apply_cases noGap ran with ⟨same, _⟩ | ⟨kind, events, _, normalized, ran⟩
  · rw [same]
    exact Std.Refl.refl adapter
  · exact within_applyEvents (covered events normalized) ran

variable {results : List Json}

/-- Frames that are no books succeed with a consistent state. -/
theorem Consistent.applyIncrement
    (consistent : Consistent externals adapter) (noGap : isKind raw "source_gap" = false)
    (noBook : isKind raw "book" = false)
    (ran : apply externals now raw received position adapter = (.ok results, after)) :
    Consistent externals after := by
  rcases apply_cases noGap ran with ⟨same, _⟩ | ⟨kind, events, typed, normalized, ran⟩
  · rw [same]
    exact consistent
  · obtain ⟨verified, normalized⟩ := normalizeFrame_ok normalized
    have ne : kind ≠ "book" := by
      rintro rfl
      rw [isKind_iff.mpr typed] at noBook
      cases noBook
    exact consistent.applyEvents (increments_of_normalize typed ne normalized) ran

/-- What a book that succeeds leaves: the state as it was, possibly with another
engine of its token, or a published book. -/
inductive BookLeft
    (externals : Externals) (raw : Json) (before after : Adapter) : List Json → Prop
  | nothing : Within (fun _ => False) before after → BookLeft externals raw before after []
  | alone
      {token : String} :
      bookToken raw = some token →
      Elsewhere token before after →
      SameAt token before after →
      BookLeft externals raw before after []
  | published
      {token : String}
      {snapshot : Json} :
      bookToken raw = some token →
      token ∈ before.identities →
      Elsewhere token before after →
      Ready externals after token →
      token ∉ after.waiting →
      after.recoveries[token]? = before.recoveries[token]? →
      Names snapshot token →
      BookLeft externals raw before after [snapshot]

theorem bookLeft_of_apply
    (consistent : Consistent externals adapter) (isBook : isKind raw "book" = true)
    (ran : apply externals now raw received position adapter = (.ok results, after)) :
    BookLeft externals raw adapter after results := by
  have typed := isKind_iff.mp isBook
  rcases apply_cases (noGap_of_book isBook) ran with ⟨same, quiet⟩ | ⟨kind, events, kindTyped, normalized, ran⟩
  · rw [same, show results = [] from quiet]
    exact .nothing (Std.Refl.refl adapter)
  · obtain rfl : kind = "book" := some.inj (kindTyped.symm.trans typed)
    obtain ⟨verified, normalized⟩ := normalizeFrame_ok normalized
    obtain ⟨event, token, tick, rfl, reads⟩ := fullBook_of_normalize typed normalized
    obtain ⟨bids, asks, version, kind⟩ := reads.full
    obtain ⟨fields, rawFields, named, _⟩ := reads.fields
    have tokenOf : bookToken raw = some token := by
      rw [rawFields]
      exact named
    obtain ⟨emitted, middle, taken, ran⟩ := Effect.bind_ok.mp ran
    obtain ⟨results_eq, rfl⟩ := Prod.mk.inj ran
    have eventToken : event.kind.tokenId = token := by rw [kind]; rfl
    have mem := subscribed_of_applyEvent taken
    have left := left_of_applyEvent (fun _ => rfl) (consistent.settled _ mem).ready taken
    have moved := elsewhere_applyEvent taken
    rw [← ok.inj results_eq, nil_append]
    cases left with
    | alone same =>
      rw [eventToken] at same moved
      exact .alone tokenOf moved same
    | published ready released recovery emits wasReleased =>
      obtain ⟨snapshot, rfl⟩ := isSome_iff_exists.mp (emits (by rw [kind]; rfl))
      have names := names_of_applyEvent taken
      rw [eventToken] at ready released recovery names moved mem
      exact .published tokenOf mem moved ready released recovery names

/-! ## The outcome of a frame -/

/-- Remembering frames concerns no token. -/
theorem within_rememberConflated (hashes : List String)
    (adapter : Adapter) : Within tokens adapter (rememberConflated hashes adapter) :=
  ⟨rfl, fun _ _ => ⟨.rfl, rfl, rfl, rfl, rfl, rfl, rfl, rfl⟩, fun _ mem => .inl mem⟩

variable {middle : Adapter}

/-- What changes no token may follow a book. -/
theorem BookLeft.congr (left : BookLeft externals raw adapter middle results)
    (moved : Within (fun _ => False) middle after) :
    BookLeft externals raw adapter after results := by
  have elsewhere : ∀ token, Elsewhere token middle after :=
    fun token => moved.mono fun _ never => absurd never id
  cases left with
  | nothing same => exact .nothing (trans _ _ _ same moved)
  | @alone token named before same =>
    exact .alone named (trans _ _ _ before (elsewhere token))
      (same.trans (moved.others token id))
  | @published token snapshot named subscribed before ready released recovery names =>
    have same := moved.others token id
    exact .published named subscribed (trans _ _ _ before (elsewhere token))
      (ready.congr same) (fun waits => released (same.waiting.mp waits))
      (same.recovery.trans recovery) names

/-- A state without the recovery of a token. -/
def closed (adapter : Adapter) (token : String) : Adapter :=
  { adapter with recoveries := adapter.recoveries.erase token }

theorem Ready.closed
    (ready : Ready externals adapter token) : Ready externals (closed adapter token) token :=
  ⟨ready.checksum, ready.epoch, ready.sequence, ready.received, ready.source⟩

@[simp] theorem closed_recovery (token : String) : (closed adapter token).recoveries[token]? = none :=
  getElem?_erase_token _

/-- After a full book the recovery of its token is closed. -/
theorem completeRecovery_state (names : Names snapshot token)
    (ran : completeRecovery externals received [snapshot] adapter = (result, after)) :
    after = closed adapter token ∨ after = adapter ∧ adapter.recoveries[token]? = none := by
  obtain ⟨cursor, positioned⟩ := names.cursor
  unfold completeRecovery at ran
  rw [head?_cons] at ran
  dsimp only at ran
  rw [names.token, positioned, need_some_bind, need_some_bind, get_bind] at ran
  cases opened : adapter.recoveries[token]? with
  | none =>
    rw [opened] at ran
    exact .inr ⟨(Prod.mk.inj ran).2.symm, rfl⟩
  | some attempt =>
    rw [opened] at ran
    dsimp only at ran
    rw [Effect.modify_bind] at ran
    cases known : adapter.identities[token]? with
    | none =>
      rw [known, Effect.need_none_bind] at ran
      exact .inl (Prod.mk.inj ran).2.symm
    | some identity =>
      rw [known, need_some_bind, bind_apply, lift_apply] at ran
      cases counted : checkedAdd cursor 1 "cursor overflow" with
      | error cause | ok next =>
        rw [counted] at ran
        exact .inl (Prod.mk.inj ran).2.symm

/-- A book that succeeds and closes the recovery of its token keeps a state
consistent. -/
theorem Consistent.completeRecovery (consistent : Consistent externals adapter)
    (left : BookLeft externals raw adapter middle events)
    (ran : completeRecovery externals received events middle = (result, after)) :
    Consistent externals after := by
  cases left with
  | nothing same =>
    cases ran
    exact consistent.congr same
  | alone _ moved same =>
    cases ran
    refine consistent.of_elsewhere moved ?_ ?_
    · intro mem
      exact (consistent.settled _ mem).congr same
    · intro attempt opened
      rw [same.recovery] at opened
      exact consistent.subscribed _ attempt opened
  | published _ subscribed moved ready released recovery names =>
    rcases completeRecovery_state names ran with rfl | ⟨rfl, unopened⟩
    · refine consistent.of_elsewhere (trans _ _ _ moved (elsewhere_close middle)) ?_
        fun _ _ => subscribed
      intro _
      refine ⟨?_, fun _ => ready.closed⟩
      intro attempt opened
      rw [closed_recovery] at opened
      cases opened
    · refine consistent.of_elsewhere moved ?_ fun _ _ => subscribed
      intro _
      refine ⟨?_, fun _ => ready⟩
      intro attempt opened
      rw [unopened] at opened
      cases opened

/-- A frame that fails is made up for by the invalidation of its tokens. -/
theorem Consistent.invalidateAffected
    (consistent : Consistent externals adapter) (moved : Within (· ∈ affected) adapter middle)
    (untouched : sourceGap = true → middle = adapter)
    (subscribed : ∀ token ∈ affected, token ∈ adapter.identities)
    (bounded : position + affected.size < 2 ^ 64)
    (ran : Adapter.invalidateAffected externals sourceGap affected received position cause middle =
      (result, after)) :
    Consistent externals after ∧ Within (· ∈ affected) adapter after ∧
      ∀ token ∈ affected, token ∈ after.waiting := by
  unfold Adapter.invalidateAffected at ran
  rw [bind_apply] at ran
  cases nonempty : (!affected.isEmpty) with
  | false =>
    rw [nonempty] at ran
    cases ran
    have absent : ∀ token, token ∉ affected := by
      intro token mem
      rw [Bool.not_eq_false'] at nonempty
      rw [isEmpty_iff.mp nonempty] at mem
      exact not_mem_empty mem
    exact ⟨consistent.within moved (fun token _ mem => absurd mem (absent token))
      fun token mem => absurd mem (absent token), moved,
      fun token mem => absurd mem (absent token)⟩
  | true =>
    rw [nonempty] at ran
    change (Effect.get >>= _) middle = _ at ran
    rw [get_bind] at ran
    have mem : ∀ token ∈ affected.toList.filter (fun token =>
        !sourceGap || !middle.recoveries.contains token), token ∈ affected := by
      intro token listed
      exact mem_toList.mp (mem_of_mem_filter listed)
    have short : (affected.toList.filter fun token =>
        !sourceGap || !middle.recoveries.contains token).length ≤ affected.size := by
      rw [← length_toList]
      exact length_filter_le _ _
    have blocked : sourceGap = true → ∀ token ∈ affected, ∀ attempt,
        middle.recoveries[token]? = some attempt → token ∈ middle.waiting := by
      intro gap token present attempt opened
      rw [untouched gap] at opened ⊢
      exact (consistent.settled token (subscribed token present)).blocked attempt opened
    have fits : position + (([] : List Json).length + (affected.toList.filter fun token =>
        !sourceGap || !middle.recoveries.contains token).length) < 2 ^ 64 := by
      rw [length_nil]
      omega
    have known : ∀ token ∈ affected.toList.filter (fun token =>
        !sourceGap || !middle.recoveries.contains token), token ∈ middle.identities := by
      intro token listed
      rw [moved.identities]
      exact subscribed token (mem token listed)
    obtain ⟨events, next, invalidated, waits⟩ := invalidateAll_of_subscribed
      externals (Adapter.invalidationReason sourceGap cause) received [] fits known
      fun gap token listed => blocked gap token (mem token listed)
    obtain ⟨_, rfl⟩ := Prod.mk.inj (ran.symm.trans invalidated)
    have blocks : Blocks (· ∈ affected) middle
        (Adapter.invalidateAll externals sourceGap (Adapter.invalidationReason sourceGap cause)
          received position [] (affected.toList.filter fun token =>
            !sourceGap || !middle.recoveries.contains token) middle).2 :=
      moves_invalidateAll mem middle
    rw [invalidated] at blocks
    have allWait : ∀ token ∈ affected, token ∈ after.waiting := by
      intro token present
      by_cases listed : (!sourceGap || !middle.recoveries.contains token) = true
      · exact waits token (mem_filter.mpr ⟨mem_toList.mpr present, listed⟩)
      · simp only [or_eq_true, not_eq_true', not_or, Bool.not_eq_false] at listed
        obtain ⟨attempt, opened⟩ := isSome_iff_exists.mp
          ((contains_eq_isSome_getElem?.symm).trans listed.2)
        exact blocks.waiting token (blocked listed.1 token present attempt opened)
    have whole := trans _ _ _ moved blocks.within
    exact ⟨consistent.within whole (fun token _ present => .of_waiting (allWait token present))
      fun token present _ _ => subscribed token present, whole, allWait⟩

/-- How a frame is taken as a unit: it is passed over, or it is reduced and its
outcome settled. A gap is not reduced. -/
inductive Isolated
    (externals : Externals) (now : DateTime) (raw : Json) (received : DateTime) (position : Nat)
    (before : Adapter) : Except AdapterError (List Json) → Adapter → Prop
  | passed
      {result : Except AdapterError (List Json)} :
      outputOf result = [] →
      Isolated externals now raw received position before result before
  | settled
      {affected : TreeSet String}
      {reduced result : Except AdapterError (List Json)}
      {middle after : Adapter} :
      before.affectedTokens raw = .ok affected →
      (∀ token ∈ affected, token ∈ before.identities) →
      (isKind raw "book" = false → isKind raw "source_gap" = false →
        ∀ token ∈ affected, token ∉ before.waiting) →
      (if isKind raw "source_gap" then
          Effect.fail (.context "source_connection_gap")
        else apply externals now raw received position) before = (reduced, middle) →
      settleFrame externals (isKind raw "book") (isKind raw "source_gap")
        affected (Adapter.conflatedSourceHashes externals raw) received position reduced middle =
          (result, after) →
      Isolated externals now raw received position before result after

/-- How the outcome of a frame is settled. -/
theorem settleFrame_cases
    (settle : settleFrame externals full sourceGap affected hashes received position
      reduced adapter = (result, after)) :
    (∃ events, reduced = .ok events ∧
      (if full then completeRecovery externals received events else pure events)
        (rememberConflated hashes adapter) = (result, after)) ∨
      (∃ message, result = .error (.panic message) ∧ after = adapter) ∨
      ∃ cause, Adapter.invalidateAffected externals sourceGap affected received position cause
        adapter = (result, after) := by
  cases reduced with
  | ok events => exact .inl ⟨events, rfl, settle⟩
  | error cause =>
    cases cause with
    | panic message =>
      cases settle
      exact .inr (.inl ⟨message, rfl, rfl⟩)
    | _ => exact .inr (.inr ⟨_, settle⟩)

theorem isolated_of_applyIsolated
    (ran : applyIsolated externals now raw received position adapter = (result, after)) :
    Isolated externals now raw received position adapter result after := by
  unfold applyIsolated at ran
  rw [get_bind] at ran
  split at ran
  · cases ran
    exact .passed rfl
  · rw [bind_apply, lift_apply] at ran
    cases read : adapter.affectedTokens raw with
    | error cause =>
      rw [read] at ran
      cases ran
      exact .passed rfl
    | ok affected =>
      rw [read] at ran
      dsimp only at ran
      rw [bind_apply] at ran
      cases known : affected.toList.all adapter.identities.contains with
      | false =>
        rw [known] at ran
        cases ran
        exact .passed rfl
      | true =>
        rw [known] at ran
        have subscribed : ∀ token ∈ affected, token ∈ adapter.identities := by
          intro token mem
          exact TreeMap.mem_iff_contains.mpr
            (all_eq_true.mp known token (mem_toList.mpr mem))
        change (if (!isKind raw "book" && !isKind raw "source_gap" &&
            affected.toList.any adapter.waiting.contains) = true then
              (pure [] : Action (List Json)) else _) adapter = _ at ran
        split at ran
        · cases ran
          exact .passed rfl
        · rename_i current
          rw [Effect.attempt_bind] at ran
          refine .settled read subscribed ?_ rfl ran
          intro noBook noGap token mem waits
          refine current ?_
          rw [noBook, noGap, Bool.not_false, Bool.true_and, Bool.true_and]
          exact any_eq_true.mpr ⟨token, mem_toList.mpr mem,
            Std.ExtTreeSet.mem_iff_contains.mp waits⟩

/-- A frame that fits keeps a state consistent, unless it ends in a panic. -/
theorem Consistent.applyIsolated (consistent : Consistent externals adapter)
    (fits : FrameFits externals adapter raw received position)
    (calm : ∀ message, result ≠ .error (.panic message))
    (ran : applyIsolated externals now raw received position adapter = (result, after)) :
    Consistent externals after := by
  cases isolated_of_applyIsolated ran with
  | passed => exact consistent
  | @settled affected reduced _ middle _ read subscribed _ reduce settle =>
    cases gap : isKind raw "source_gap" with
    | true =>
      rw [gap, if_pos rfl] at reduce
      rw [gap] at settle
      cases reduce
      exact (consistent.invalidateAffected (Std.Refl.refl _) (fun _ => rfl) subscribed
        (fits.cursors affected read) settle).1
    | false =>
      rw [gap, if_neg Bool.false_ne_true] at reduce
      rw [gap] at settle
      have moved : Within (· ∈ affected) adapter middle :=
        within_apply gap (fun events normalized => fits.named affected events read normalized)
          reduce
      rcases settleFrame_cases settle with
        ⟨events, rfl, ended⟩ | ⟨message, rfl, _⟩ | ⟨cause, ended⟩
      · have remembered : Within (fun _ => False) middle (rememberConflated
            (Adapter.conflatedSourceHashes externals raw) middle) :=
          within_rememberConflated _ middle
        cases book : isKind raw "book" with
        | true =>
          rw [book, if_pos rfl] at ended
          exact consistent.completeRecovery
            ((bookLeft_of_apply consistent book reduce).congr remembered) ended
        | false =>
          rw [book, if_neg Bool.false_ne_true] at ended
          cases ended
          exact (consistent.applyIncrement gap book reduce).congr remembered
      · exact absurd rfl (calm message)
      · exact (consistent.invalidateAffected moved (fun never => by cases never)
          subscribed (fits.cursors affected read) ended).1

end Frames

end MarketCow.Websocket
