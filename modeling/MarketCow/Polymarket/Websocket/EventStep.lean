import MarketCow.Polymarket.Websocket.FullBooks

/-!
# One event

An event that succeeds leaves its token alone, or leaves it with a published
book. A token that waits is left alone by everything but a full book of it.
-/

namespace MarketCow.Websocket

open Library MarketCow.Core Polymarket
open Effect (bind_apply bind_ok ensure_bind_ok get_bind lift_bind_ok modify_bind need_bind_ok)
open Adapter (applyEvent confirmBook isFullBook publishBook settleBook startFullBook)
open Prod (mk.inj)

/-- What always holds of a subscribed token: an open recovery makes it wait, and
while it does not wait it has a published book. -/
structure Settled (externals : Externals) (adapter : Adapter) (token : String) : Prop where
  blocked : ∀ attempt, adapter.recoveries[token]? = some attempt → token ∈ adapter.waiting
  ready : token ∉ adapter.waiting → Ready externals adapter token

theorem Settled.congr (same : SameAt token before after)
    (settled : Settled externals before token) : Settled externals after token where
  blocked := by
    intro attempt opened
    rw [same.recovery] at opened
    exact same.waiting.mpr (settled.blocked attempt opened)
  ready := by
    intro released
    exact (settled.ready fun waits => released (same.waiting.mpr waits)).congr same

/-- A waiting token is settled. -/
theorem Settled.of_waiting (waits : token ∈ adapter.waiting) : Settled externals adapter token where
  blocked := fun _ _ => waits
  ready := fun released => absurd waits released

/-- An event that names a token and has a position. -/
structure Names (event : Json) (token : String) : Prop where
  token : (field event "token_id").asString? = some token
  cursor : ∃ cursor, (field event "cursor").asU64? = some cursor

section Parts

variable {externals : Externals} {frame : Frame} {token market condition : String}
  {observed : DateTime} {emitted : Nat} {full : Bool} {book : Book} {tick : Price}
  {checksum : String} {stored : EventKind} {adapter after : Adapter}

theorem checkedAdd_ok_iff :
    checkedAdd first second message = .ok result ↔
      first + second < 2 ^ 64 ∧ result = first + second := by
  unfold checkedAdd
  split
  · rename_i bounded
    constructor
    · intro counted
      exact ⟨bounded, (ok.inj counted).symm⟩
    · rintro ⟨_, rfl⟩
      rfl
  · rename_i overflow
    constructor
    · intro never
      cases never
    · rintro ⟨bounded, _⟩
      exact absurd bounded overflow

/-- What precedes the publication of a book leaves its depth alone. -/
structure SameDepth (token : String) (before after : Adapter) : Prop where
  book : after.engineBook token = before.engineBook token
  source : after.bookSource[token]? = before.bookSource[token]?
  recovery : after.recoveries[token]? = before.recoveries[token]?

/-- After its start a full book does not wait. -/
theorem startFullBook_of_ok
    (ran : startFullBook externals frame token emitted full adapter = (.ok (), after)) :
    SameDepth token adapter after ∧
      (token ∈ after.waiting ↔ token ∈ adapter.waiting ∧ full = false) := by
  unfold startFullBook at ran
  cases full with
  | false =>
    cases ran
    exact ⟨⟨rfl, rfl, rfl⟩, (and_iff_left rfl).symm⟩
  | true =>
    unfold Adapter.startEpoch at ran
    rw [if_pos rfl, modify_bind] at ran
    obtain ⟨cursor, _, ran⟩ := lift_bind_ok.mp ran
    cases ran
    refine ⟨⟨rfl, rfl, rfl⟩, ?_⟩
    constructor
    · intro waits
      exact absurd Std.ReflCmp.compare_self (Std.ExtTreeSet.mem_erase.mp waits).1
    · rintro ⟨_, never⟩
      cases never

/-- Recording a last trade changes last trades only. -/
theorem recordLastTrade_of_ok
    (ran : Adapter.recordLastTrade externals frame token full tick book adapter = (.ok (), after)) :
    ∃ lastTrades, after = { adapter with lastTrades } := by
  unfold Adapter.recordLastTrade at ran
  split at ran
  · obtain ⟨lastTrade, _, ran⟩ := lift_bind_ok.mp ran
    obtain ⟨_, ran⟩ := ensure_bind_ok.mp ran
    exact ⟨_, (mk.inj ran).2.symm⟩
  · generalize (if frame.kind = "last_trade_price" then book.lastTradePrice else none) = traded at ran
    cases traded with
    | some price => exact ⟨_, (mk.inj ran).2.symm⟩
    | none => exact ⟨adapter.lastTrades, (mk.inj ran).2.symm⟩

/-- A confirmed book has all of its clocks but the one of its quotes, which a
confirmation does not look at. -/
theorem ready_of_confirmBook
    (engine : adapter.engineBook token = some book) (ticked : book.tickSize = some tick)
    (published : adapter.depthChecksums[token]? = some (depthChecksum externals token book tick))
    (quoted : ∃ source, adapter.bookSource[token]? = some source)
    (ran : confirmBook frame token market condition observed checksum adapter =
      (.ok (), after)) :
    Ready externals after token ∧ ∃ confirmations, after = { adapter with confirmations } := by
  unfold confirmBook at ran
  rw [get_bind] at ran
  obtain ⟨epoch, epochKnown, ran⟩ := need_bind_ok.mp ran
  obtain ⟨sequence, sequenceKnown, ran⟩ := need_bind_ok.mp ran
  obtain ⟨received, receivedKnown, ran⟩ := need_bind_ok.mp ran
  cases ran
  exact ⟨⟨⟨book, tick, engine, ticked, published⟩, ⟨epoch, epochKnown⟩,
    ⟨sequence, sequenceKnown⟩, ⟨received, receivedKnown⟩, quoted⟩, _, rfl⟩

/-- The event of a published book names its token. -/
theorem names_identified
    {sequence cursor : Nat} (replay : List (String × Json)) (bounded : cursor < 2 ^ 64) :
    Names (identified externals (bookFields externals frame token market condition epoch sequence
      cursor observed quoteSource bookAt book tick lastTrade checksum ++ replay)) token where
  token := rfl
  cursor := ⟨cursor, Json.asU64?_integer bounded⟩

variable {event : Json}

theorem names_of_publishBook
    (ran : publishBook externals frame token market condition observed emitted book tick
      checksum stored adapter = (.ok event, after)) : Names event token := by
  unfold publishBook at ran
  rw [modify_bind, get_bind] at ran
  obtain ⟨source, _, ran⟩ := need_bind_ok.mp ran
  obtain ⟨received, _, ran⟩ := need_bind_ok.mp ran
  obtain ⟨before, _, ran⟩ := need_bind_ok.mp ran
  obtain ⟨sequence, _, ran⟩ := lift_bind_ok.mp ran
  rw [modify_bind] at ran
  obtain ⟨epoch, _, ran⟩ := need_bind_ok.mp ran
  obtain ⟨cursor, counted, ran⟩ := lift_bind_ok.mp ran
  obtain ⟨replay, _, ran⟩ := lift_bind_ok.mp ran
  obtain ⟨bounded, rfl⟩ := checkedAdd_ok_iff.mp counted
  rw [← ok.inj (mk.inj ran).1]
  exact names_identified replay bounded

/-- A published book has all of its clocks. -/
theorem ready_of_publishBook
    (engine : adapter.engineBook token = some book) (ticked : book.tickSize = some tick)
    (ran : publishBook externals frame token market condition observed emitted book tick
      (depthChecksum externals token book tick) stored adapter = (.ok event, after)) :
    Ready externals after token ∧ after.waiting = adapter.waiting ∧
      after.recoveries = adapter.recoveries := by
  unfold publishBook at ran
  rw [modify_bind, get_bind] at ran
  obtain ⟨source, sourceKnown, ran⟩ := need_bind_ok.mp ran
  obtain ⟨received, receivedKnown, ran⟩ := need_bind_ok.mp ran
  obtain ⟨before, _, ran⟩ := need_bind_ok.mp ran
  obtain ⟨sequence, _, ran⟩ := lift_bind_ok.mp ran
  rw [modify_bind] at ran
  obtain ⟨epoch, epochKnown, ran⟩ := need_bind_ok.mp ran
  obtain ⟨cursor, _, ran⟩ := lift_bind_ok.mp ran
  obtain ⟨replay, _, ran⟩ := lift_bind_ok.mp ran
  cases ran
  exact ⟨⟨⟨book, tick, engine, ticked, getElem?_insert_token _ _⟩, ⟨epoch, epochKnown⟩,
    ⟨sequence, getElem?_insert_token _ _⟩, ⟨received, receivedKnown⟩, ⟨source, sourceKnown⟩⟩,
    rfl, rfl⟩

/-- What goes out for an event names the token of the event. -/
theorem names_of_settleBook
    (ran : settleBook externals frame token market condition observed emitted full book
      stored adapter = (.ok (some event), after)) : Names event token := by
  unfold settleBook at ran
  obtain ⟨_, started, _, ran⟩ := bind_ok.mp ran
  obtain ⟨tick, _, ran⟩ := need_bind_ok.mp ran
  rw [modify_bind] at ran
  obtain ⟨_, recorded, _, ran⟩ := bind_ok.mp ran
  rw [get_bind] at ran
  split at ran
  · obtain ⟨_, confirmed, _, ran⟩ := bind_ok.mp ran
    simp at ran
  · obtain ⟨found, published, publish, ran⟩ := bind_ok.mp ran
    obtain rfl := some.inj (ok.inj (mk.inj ran).1)
    exact names_of_publishBook publish

/-- A book that has been settled is published. -/
theorem ready_of_settleBook
    (engine : adapter.engineBook token = some book) (kinds : full = true → frame.kind = "book")
    (quoted : full = false → ∃ source, adapter.bookSource[token]? = some source)
    (ran : settleBook externals frame token market condition observed emitted full book
      stored adapter = (.ok output, after)) :
    Ready externals after token ∧ (token ∈ after.waiting ↔ token ∈ adapter.waiting ∧ full = false) ∧
      after.recoveries[token]? = adapter.recoveries[token]? ∧
      (full = true → output.isSome = true) := by
  unfold settleBook at ran
  obtain ⟨_, started, start, ran⟩ := bind_ok.mp ran
  obtain ⟨depth, waiting⟩ := startFullBook_of_ok start
  obtain ⟨tick, ticked, ran⟩ := need_bind_ok.mp ran
  rw [modify_bind] at ran
  obtain ⟨_, recorded, record, ran⟩ := bind_ok.mp ran
  obtain ⟨lastTrades, shape⟩ := recordLastTrade_of_ok record
  rw [get_bind] at ran
  have recordedBook : recorded.engineBook token = some book := by
    rw [shape]
    exact depth.book.trans engine
  have recordedWaiting : recorded.waiting = started.waiting := by rw [shape]
  have recordedRecoveries : recorded.recoveries = started.recoveries := by rw [shape]
  split at ran
  · rename_i unchanged
    have increment : full = false := by
      cases full with
      | false => rfl
      | true =>
        rw [kinds rfl] at unchanged
        exact absurd unchanged.1 (by decide)
    obtain ⟨source, known⟩ := quoted increment
    have recordedSource : recorded.bookSource[token]? = some source := by
      rw [shape]
      exact depth.source.trans known
    obtain ⟨_, confirmed, confirm, ran⟩ := bind_ok.mp ran
    obtain ⟨ready, confirmations, confirmedShape⟩ :=
      ready_of_confirmBook recordedBook ticked unchanged.2 ⟨source, recordedSource⟩ confirm
    cases ran
    refine ⟨ready, ?_, ?_, ?_⟩
    · rw [confirmedShape, ← waiting, ← recordedWaiting]
    · rw [confirmedShape]
      exact (congrArg (fun map => map[token]?) recordedRecoveries).trans depth.recovery
    · intro never
      rw [increment] at never
      cases never
  · obtain ⟨event, published, publish, ran⟩ := bind_ok.mp ran
    obtain ⟨ready, sameWaiting, sameRecoveries⟩ := ready_of_publishBook recordedBook ticked publish
    obtain ⟨output_eq, rfl⟩ := mk.inj ran
    refine ⟨ready, ?_, ?_, ?_⟩
    · rw [sameWaiting, recordedWaiting, waiting]
    · rw [sameRecoveries, recordedRecoveries, depth.recovery]
    · intro _
      rw [← ok.inj output_eq]
      rfl

end Parts

/-! ## Events that succeed -/

section Events

variable {externals : Externals} {frame : Frame} {emitted : Nat} {event : CanonicalEvent}
  {output : Option Json} {adapter after : Adapter}

/-- What a successful event leaves of its token. -/
inductive Left
    (externals : Externals) (event : CanonicalEvent) (before after : Adapter) : Option Json → Prop
  | alone : SameAt event.kind.tokenId before after → Left externals event before after none
  | published
      {output : Option Json} :
      Ready externals after event.kind.tokenId →
      event.kind.tokenId ∉ after.waiting →
      after.recoveries[event.kind.tokenId]? = before.recoveries[event.kind.tokenId]? →
      (isFullBook event.kind = true → output.isSome = true) →
      (isFullBook event.kind = false → event.kind.tokenId ∉ before.waiting) →
      Left externals event before after output

theorem left_of_applyEvent (kinds : isFullBook event.kind = true → frame.kind = "book")
    (ready : event.kind.tokenId ∉ adapter.waiting → Ready externals adapter event.kind.tokenId)
    (ran : applyEvent externals frame emitted event adapter = (.ok output, after)) :
    Left externals event adapter after output := by
  unfold applyEvent at ran
  rw [get_bind] at ran
  obtain ⟨identity, _, ran⟩ := need_bind_ok.mp ran
  obtain ⟨_, ran⟩ := ensure_bind_ok.mp ran
  split at ran
  · obtain ⟨output_eq, rfl⟩ := mk.inj ran
    rw [← ok.inj output_eq]
    exact .alone (.refl adapter)
  · rename_i current
    have released : isFullBook event.kind = false →
        event.kind.tokenId ∉ adapter.waiting := by
      intro increment waits
      refine current ?_
      rw [increment, Bool.not_false, Bool.and_true]
      exact Std.ExtTreeSet.mem_iff_contains.mp waits
    obtain ⟨outcome, reduced, reduce, ran⟩ := bind_ok.mp ran
    obtain ⟨engine, rfl, shape⟩ := reduceEvent_spec reduce
    cases outcome with
    | none =>
      obtain ⟨output_eq, rfl⟩ := mk.inj ran
      rw [← ok.inj output_eq]
      rcases shape with ⟨outcome, _, never, _⟩ | ⟨_, same⟩
      · simp at never
      · exact .alone (sameAt_withEngine same)
    | some outcome =>
      obtain ⟨book, accepted, ran⟩ := lift_bind_ok.mp ran
      have engineBook : (adapter.withEngine event.kind.tokenId engine).engineBook
          event.kind.tokenId = some book := by
        rw [engineBook_withEngine]
        rcases shape with ⟨found, _, same, current, _⟩ | ⟨ne, _⟩
        · obtain rfl := some.inj (ok.inj same)
          rw [current]
          unfold Adapter.acceptedBook at accepted
          split at accepted
          · split at accepted
            · rename_i known
              rw [known, ok.inj accepted]
            · cases accepted
          · split at accepted <;> cases accepted
        · exact absurd rfl (ne outcome)
      have quoted : isFullBook event.kind = false →
          ∃ source, (adapter.withEngine event.kind.tokenId engine).bookSource[
            event.kind.tokenId]? = some source :=
        fun increment => (ready (released increment)).source
      obtain ⟨readyAfter, waiting, recovery, emits⟩ :=
        ready_of_settleBook engineBook kinds quoted ran
      refine .published readyAfter ?_ recovery emits released
      intro waits
      obtain ⟨waited, increment⟩ := waiting.mp waits
      exact released increment waited

/-- A state in which increments cannot cross a gap. -/
structure Consistent (externals : Externals) (adapter : Adapter) : Prop where
  subscribed : ∀ token attempt, adapter.recoveries[token]? = some attempt →
    token ∈ adapter.identities
  settled : ∀ token ∈ adapter.identities, Settled externals adapter token

section

variable (consistent : Consistent externals adapter)
include consistent

/-- A change of some tokens keeps a state consistent that leaves them settled and
opens recoveries of subscribed ones only. -/
theorem Consistent.within {tokens : String → Prop} (moved : Within tokens adapter after)
    (settled : ∀ token ∈ adapter.identities, tokens token → Settled externals after token)
    (subscribed : ∀ token, tokens token → ∀ attempt, after.recoveries[token]? = some attempt →
      token ∈ adapter.identities) : Consistent externals after where
  subscribed := by
    intro token attempt opened
    rw [moved.identities]
    by_cases named : tokens token
    · exact subscribed token named attempt opened
    · rw [(moved.others token named).recovery] at opened
      exact consistent.subscribed token attempt opened
  settled := by
    intro token mem
    rw [moved.identities] at mem
    by_cases named : tokens token
    · exact settled token mem named
    · exact (consistent.settled token mem).congr (moved.others token named)

theorem Consistent.of_elsewhere (moved : Elsewhere token adapter after)
    (settled : token ∈ adapter.identities → Settled externals after token)
    (subscribed : ∀ attempt, after.recoveries[token]? = some attempt →
      token ∈ adapter.identities) : Consistent externals after := by
  refine consistent.within moved ?_ ?_
  · rintro _ mem rfl
    exact settled mem
  · rintro _ rfl attempt opened
    exact subscribed attempt opened

theorem Consistent.congr
    (moved : Within (fun _ => False) adapter after) : Consistent externals after :=
  consistent.within moved (fun _ _ never => absurd never id)
    fun _ never => absurd never id

end

theorem subscribed_of_applyEvent
    (ran : applyEvent externals frame emitted event adapter = (.ok output, after)) :
    event.kind.tokenId ∈ adapter.identities := by
  unfold applyEvent at ran
  rw [get_bind] at ran
  obtain ⟨identity, known, _⟩ := need_bind_ok.mp ran
  exact mem_iff_isSome_getElem?.mpr (by rw [known]; rfl)

variable {result : Except AdapterError (Option Json)}

theorem elsewhere_applyEvent
    (ran : applyEvent externals frame emitted event adapter = (result, after)) :
    Elsewhere event.kind.tokenId adapter after := by
  have moved : Elsewhere event.kind.tokenId adapter
      (applyEvent externals frame emitted event adapter).2 := moves_applyEvent event adapter
  rw [ran] at moved
  exact moved

/-- An increment that succeeds keeps a state consistent. -/
theorem Consistent.applyEvent
    (consistent : Consistent externals adapter) (increment : isFullBook event.kind = false)
    (ran : applyEvent externals frame emitted event adapter = (.ok output, after)) :
    Consistent externals after := by
  have mem := subscribed_of_applyEvent ran
  have settled := consistent.settled _ mem
  have kinds : isFullBook event.kind = true → frame.kind = "book" := by
    intro never
    rw [increment] at never
    cases never
  refine consistent.of_elsewhere (elsewhere_applyEvent ran) (fun _ => ?_) (fun _ _ => mem)
  cases left_of_applyEvent kinds settled.ready ran with
  | alone same => exact settled.congr same
  | published ready released recovery emits wasReleased =>
    refine ⟨?_, fun _ => ready⟩
    intro attempt opened
    rw [recovery] at opened
    exact absurd (settled.blocked attempt opened) (wasReleased increment)

/-- What goes out for an event names the token of the event. -/
theorem names_of_applyEvent
    (ran : applyEvent externals frame emitted event adapter =
      (.ok (some emission), after)) : Names emission event.kind.tokenId := by
  unfold applyEvent at ran
  rw [get_bind] at ran
  obtain ⟨identity, _, ran⟩ := need_bind_ok.mp ran
  obtain ⟨_, ran⟩ := ensure_bind_ok.mp ran
  split at ran
  · simp at ran
  · obtain ⟨outcome, reduced, _, ran⟩ := bind_ok.mp ran
    cases outcome with
    | none => simp at ran
    | some outcome =>
      obtain ⟨book, _, ran⟩ := lift_bind_ok.mp ran
      exact names_of_settleBook ran

/-- A token that waits is left alone by everything but a full book of it. -/
theorem sameAt_of_waiting (waits : token ∈ adapter.waiting)
    (increment : event.kind.tokenId = token → isFullBook event.kind = false)
    (ran : applyEvent externals frame emitted event adapter = (result, after)) :
    SameAt token adapter after ∧
      (∀ confirmation ∈ after.confirmations, confirmation.tokenId = token →
        confirmation ∈ adapter.confirmations) ∧
      ∀ emission, result = .ok (some emission) →
        (field emission "token_id").asString? ≠ some token := by
  by_cases own : event.kind.tokenId = token
  · have skipped : after = adapter ∧ ∀ emission, result ≠ .ok (some emission) := by
      unfold applyEvent at ran
      rw [get_bind, bind_apply] at ran
      cases known : adapter.identities[event.kind.tokenId]? with
      | none =>
        rw [known] at ran
        cases ran
        exact ⟨rfl, by simp⟩
      | some identity =>
        rw [known] at ran
        change (Effect.ensure _ _ >>= _) adapter = _ at ran
        rw [bind_apply] at ran
        generalize ((field frame.raw "market").asString? == some identity.2) = named at ran
        cases named with
        | false =>
          cases ran
          exact ⟨rfl, by simp⟩
        | true =>
          have skip : (adapter.waiting.contains event.kind.tokenId &&
              !isFullBook event.kind) = true := by
            rw [increment own, own, Bool.not_false, Bool.and_true]
            exact Std.ExtTreeSet.mem_iff_contains.mp waits
          rw [if_pos skip] at ran
          cases ran
          exact ⟨rfl, by simp⟩
    rw [skipped.1]
    exact ⟨.refl adapter, fun _ mem _ => mem,
      fun emission emitted => absurd emitted (skipped.2 emission)⟩
  · have moved := elsewhere_applyEvent ran
    refine ⟨moved.others token (Ne.symm own), ?_, ?_⟩
    · intro confirmation mem named
      rcases moved.confirmations confirmation mem with earlier | new
      · exact earlier
      · exact absurd (new.symm.trans named) own
    · intro emission emitted named
      rw [emitted] at ran
      exact own (some.inj ((names_of_applyEvent ran).token.symm.trans named))

end Events

end MarketCow.Websocket
