import MarketCow.Library.Hash
import MarketCow.Library.JsonText
import MarketCow.Polymarket.Websocket.RestRecovery

/-!
# Gaps

The state of a market over any sequence of calls. While every call fits, a token
with an open recovery waits and a token that does not wait has a published book;
and after a gap that names a token, increments say nothing about it until a full
book of it was applied.
-/

namespace MarketCow.Websocket

open Library MarketCow.Core Polymarket
open Adapter (allWaiting applyIsolated applyRestRecovery isKind)
open TreeSet (mem_ofElements ofElements)

/-- The calls on the state of a market. -/
inductive Call
  | frame (now : DateTime) (raw : Json) (received : DateTime) (position : Nat)
  | restRecovery (recovery : Adapter.Recovery) (rawBooks : List Json)
  | invalidate (token reason : String) (received : DateTime) (position : Nat)
  | resetConnection

namespace Call

/-- Run a call. -/
def perform (externals : Externals) : Call → Action (List Json)
  | .frame now raw received position =>
    applyIsolated externals now raw received position
  | .restRecovery recovery rawBooks => applyRestRecovery externals recovery rawBooks
  | .invalidate token reason received position => do
    let event ← Adapter.invalidate externals token reason received position
    pure [event]
  | .resetConnection => do
    Effect.modify Adapter.resetConnection
    pure []

/-- A call whose failure can be contained. -/
def Fits (externals : Externals) (adapter : Adapter) : Call → Prop
  | .frame _ raw received position => FrameFits externals adapter raw received position
  | .restRecovery recovery rawBooks => RestFits externals adapter recovery rawBooks
  | .invalidate .. => True
  | .resetConnection => True

/-- A call with a full book of a token. -/
def Brings (token : String) : Call → Prop
  | .frame _ raw _ _ => isKind raw "book" = true ∧ bookToken raw = some token
  | .restRecovery _ rawBooks => ∃ raw ∈ rawBooks, (field raw "asset_id").asString? = some token
  | .invalidate .. => False
  | .resetConnection => False

/-- An increment is a frame that is neither a full book nor a gap. -/
def IsIncrement : Call → Prop
  | .frame _ raw _ _ =>
    isKind raw "book" = false ∧ isKind raw "source_gap" = false
  | _ => False

/-- A gap that names a token, and subscribed tokens only. -/
def IsGap (adapter : Adapter) (token : String) : Call → Prop
  | .frame _ raw _ _ =>
    isKind raw "source_gap" = true ∧
      ∃ affected, adapter.affectedTokens raw = .ok affected ∧ token ∈ affected ∧
        ∀ other ∈ affected, other ∈ adapter.identities
  | _ => False

end Call

section Calls

variable {externals : Externals} {adapter after : Adapter} {call : Call} {token : String}
  {result : Except AdapterError (List Json)}

/-! ## Every state -/

theorem mem_allWaiting : token ∈ allWaiting identities ↔ token ∈ identities := by
  unfold allWaiting
  rw [mem_ofElements, TreeMap.mem_keyList, mem_iff_isSome_getElem?, isSome_iff_exists]

theorem consistent_marketActor (owner : Adapter) (market : String) :
    Consistent externals (owner.marketActor market) := by
  refine ⟨?_, fun token mem => .of_waiting (mem_allWaiting.mpr mem)⟩
  intro token attempt opened
  unfold Adapter.marketActor at opened
  rw [getElem?_filterKeys] at opened
  split at opened
  · rename_i subscribed
    exact TreeMap.mem_iff_contains.mpr subscribed
  · cases opened

/-- A connection that is reset has no books, and recoveries of subscribed tokens
only. -/
theorem Consistent.resetConnection (consistent : Consistent externals adapter) :
    Consistent externals adapter.resetConnection := by
  refine ⟨consistent.subscribed, fun token mem => .of_waiting ?_⟩
  exact mem_allWaiting.mpr mem

/-- A call that fits keeps a state consistent. -/
theorem Consistent.perform
    (consistent : Consistent externals adapter) (fits : call.Fits externals adapter)
    (calm : ∀ message, result ≠ .error (.panic message))
    (ran : call.perform externals adapter = (result, after)) : Consistent externals after := by
  cases call with
  | frame now raw received position => exact consistent.applyIsolated fits calm ran
  | restRecovery recovery rawBooks => exact consistent.applyRestRecovery fits ran
  | invalidate token reason received position =>
    by_cases subscribed : token ∈ adapter.identities
    · obtain ⟨event, attempt, invalidated, _⟩ :=
        invalidate_of_subscribed externals reason received position subscribed
      obtain ⟨_, rfl⟩ := Prod.mk.inj (ran.symm.trans (Effect.bind_of_ok invalidated))
      exact consistent.forget subscribed attempt
    · obtain ⟨_, rfl⟩ := Prod.mk.inj
        (ran.symm.trans (Effect.bind_of_error (invalidate_of_unsubscribed subscribed)))
      exact consistent
  | resetConnection =>
    cases ran
    exact consistent.resetConnection

/-- The states that calls reach which all fit. A panic ends a run. -/
inductive Run (externals : Externals) (start : Adapter) : List Call → Adapter → Prop
  | nil : Run externals start [] start
  | snoc
      {calls : List Call}
      {adapter after : Adapter}
      {call : Call}
      {result : Except AdapterError (List Json)} :
      Run externals start calls adapter →
      call.Fits externals adapter →
      call.perform externals adapter = (result, after) →
      (∀ message, result ≠ .error (.panic message)) →
      Run externals start (calls ++ [call]) after

variable {start : Adapter}

theorem Run.consistent (run : Run externals start calls adapter)
    (initial : Consistent externals start) : Consistent externals adapter := by
  induction run with
  | nil => exact initial
  | snoc _ fits performed calm ih => exact ih.perform fits calm performed

/-! ## After a gap -/

/-- The states after a gap, until a full book of a token was applied: a call with
a book of the token leaves it waiting. -/
inductive Gapped (externals : Externals) (token : String) (start : Adapter) : Adapter → Prop
  | start : Gapped externals token start start
  | step
      {adapter after : Adapter}
      {call : Call}
      {result : Except AdapterError (List Json)} :
      Gapped externals token start adapter →
      call.perform externals adapter = (result, after) →
      (call.Brings token → token ∈ after.waiting) →
      Gapped externals token start after

variable {position : Nat}

/-- A gap is not reduced, it invalidates the tokens that it names. -/
theorem applyIsolated_gap (gap : isKind raw "source_gap" = true)
    (read : adapter.affectedTokens raw = .ok affected)
    (subscribed : ∀ other ∈ affected, other ∈ adapter.identities) :
    applyIsolated externals now raw received position adapter =
      Adapter.invalidateAffected externals true affected received position
        (.context "source_connection_gap") adapter := by
  have noChange : ¬(isKind raw "price_change" = true ∧
      externals.canonicalHash raw ∈ adapter.conflatedRawHashes) := by
    rintro ⟨change, _⟩
    have same := (isKind_iff.mp gap).symm.trans (isKind_iff.mp change)
    exact absurd (some.inj same) (by decide)
  have known : affected.toList.all adapter.identities.contains = true := by
    rw [List.all_eq_true]
    intro other listed
    exact TreeMap.mem_iff_contains.mp (subscribed other (Std.ExtTreeSet.mem_toList.mp listed))
  unfold applyIsolated
  rw [Effect.get_bind, if_neg noChange, read, Effect.lift_ok_bind, known, Effect.ensure_true_bind,
    gap, Bool.not_true, Bool.and_false, Bool.false_and, if_neg Bool.false_ne_true, if_pos rfl,
    Effect.attempt_bind]
  rfl

/-- A token waits after a gap that names it. -/
theorem waits_of_gap
    (consistent : Consistent externals adapter) (fits : call.Fits externals adapter)
    (gap : call.IsGap adapter token) (ran : call.perform externals adapter = (result, after)) :
    token ∈ after.waiting ∧ token ∈ after.identities := by
  cases call with
  | frame now raw received position =>
    obtain ⟨isGap, affected, read, mem, subscribed⟩ := gap
    have invalidated := (applyIsolated_gap isGap read subscribed).symm.trans ran
    obtain ⟨_, moved, waits⟩ := consistent.invalidateAffected (Std.Refl.refl adapter)
      (fun _ => rfl) subscribed (fits.cursors affected read) invalidated
    refine ⟨waits token mem, ?_⟩
    rw [moved.identities]
    exact subscribed token mem
  | restRecovery | invalidate | resetConnection => cases gap

/-- A token waits until a full book of it was applied. -/
theorem waits_perform (waits : token ∈ adapter.waiting) (subscribed : token ∈ adapter.identities)
    (unapplied : call.Brings token → token ∈ after.waiting)
    (ran : call.perform externals adapter = (result, after)) :
    token ∈ after.waiting ∧ token ∈ after.identities := by
  cases call with
  | frame now raw received position =>
    obtain ⟨same, kept⟩ := waits_applyIsolated waits ran
    rw [same]
    refine ⟨?_, subscribed⟩
    by_cases brings : isKind raw "book" = true ∧ bookToken raw = some token
    · exact unapplied brings
    · exact kept fun book named => brings ⟨book, named⟩
  | restRecovery recovery rawBooks =>
    have kept : KeepsBut (fun other => ∃ raw ∈ rawBooks,
        (field raw "asset_id").asString? = some other) adapter
        (applyRestRecovery externals recovery rawBooks adapter).2 :=
      moves_applyRestRecovery (fun raw listed other named => ⟨raw, listed, named⟩) adapter
    rw [show applyRestRecovery externals recovery rawBooks adapter = _ from ran] at kept
    rw [kept.identities]
    refine ⟨?_, subscribed⟩
    by_cases brings : ∃ raw ∈ rawBooks, (field raw "asset_id").asString? = some token
    · exact unapplied brings
    · exact kept.waiting token waits brings
  | invalidate other reason received position =>
    have blocks : Blocks (fun _ => True) adapter
        ((Adapter.invalidate externals other reason received position >>= fun event =>
          pure [event]) adapter).2 :=
      Effect.Moves.bind (moves_invalidate_blocks trivial) (fun _ => .of_pure _) adapter
    rw [show (Adapter.invalidate externals other reason received position >>= fun event =>
      pure [event]) adapter = _ from ran] at blocks
    rw [blocks.within.identities]
    exact ⟨blocks.waiting token waits, subscribed⟩
  | resetConnection =>
    cases ran
    exact ⟨mem_allWaiting.mpr subscribed, subscribed⟩

theorem Gapped.waits (gapped : Gapped externals token start adapter) (waits : token ∈ start.waiting)
    (subscribed : token ∈ start.identities) :
    token ∈ adapter.waiting ∧ token ∈ adapter.identities := by
  induction gapped with
  | start => exact ⟨waits, subscribed⟩
  | step _ performed unapplied ih => exact waits_perform ih.1 ih.2 unapplied performed

/-- In every state that fitting calls reach, a token with an open recovery waits
and a token that does not wait has a published book. After a gap that names a
token, increments say nothing about it until a full book of it was applied. -/
theorem no_increment_crosses_gap
    (externals : Externals) (owner : Adapter) (market : String) (calls : List Call)
    (adapter : Adapter) (run : Run externals (owner.marketActor market) calls adapter) :
    (∀ token attempt : String, adapter.recoveries[token]? = some attempt →
        token ∈ adapter.waiting) ∧
      (∀ token ∈ adapter.identities, token ∉ adapter.waiting → Ready externals adapter token) ∧
      ∀ (gap : Call) (token : String) (result : Except AdapterError (List Json))
        (gapped later : Adapter),
        gap.IsGap adapter token → gap.Fits externals adapter →
        gap.perform externals adapter = (result, gapped) →
        Gapped externals token gapped later →
        ∀ (increment : Call) (outcome : Except AdapterError (List Json)) (after : Adapter),
          increment.IsIncrement →
          increment.perform externals later = (outcome, after) →
          Silent token (outputOf outcome) later after := by
  have consistent := run.consistent (consistent_marketActor owner market)
  refine ⟨?_, fun token member => (consistent.settled token member).ready, ?_⟩
  · intro token attempt opened
    exact (consistent.settled token (consistent.subscribed token attempt opened)).blocked attempt
      opened
  · intro gap token result gapped later isGap fits performed path increment outcome after
      isIncrement incremented
    obtain ⟨waits, subscribed⟩ := waits_of_gap consistent fits isGap performed
    obtain ⟨stillWaits, _⟩ := path.waits waits subscribed
    cases increment with
    | frame now raw received position =>
      exact silent_applyIsolated stillWaits isIncrement.1 isIncrement.2 incremented
    | restRecovery | invalidate | resetConnection => cases isIncrement

/-- A book frame that names its token as the venue does fits. -/
theorem frameFits_of_book (isBook : isKind raw "book" = true)
    (named : (field raw "asset_id").asString? = some token)
    (unchanged : (field raw "price_changes").asArray? = none)
    (bounded : position + 1 < 2 ^ 64) : FrameFits externals adapter raw received position := by
  have read : adapter.affectedTokens raw = .ok (ofElements [token]) := by
    unfold Adapter.affectedTokens
    rw [unchanged, named]
    rfl
  refine ⟨?_, ?_⟩
  · intro affected same
    obtain rfl := ok.inj (same.symm.trans read)
    rw [TreeSet.size_ofElements (List.nodup_singleton token)]
    exact bounded
  · intro affected events same normalized event mem _
    obtain rfl := ok.inj (same.symm.trans read)
    obtain ⟨verified, normalized⟩ := normalizeFrame_ok normalized
    obtain ⟨found, bookOf, tick, rfl, reads⟩ :=
      fullBook_of_normalize (isKind_iff.mp isBook) normalized
    obtain ⟨bids, asks, version, fullBook⟩ := reads.full
    obtain ⟨fields, shape, aliased, _⟩ := reads.fields
    have same : bookOf = token := by
      refine bookToken_of_named named ?_
      rw [shape]
      exact aliased
    rw [List.mem_singleton.mp mem, fullBook, same]
    exact mem_ofElements.mpr (List.mem_singleton_self token)

end Calls

/-! ## A recovery that was not asked for -/

/-- The texts of the decimals below. -/
def sampleTexts : List (Decimal × String) :=
  [((1 : ℚ) / 4, "0.25"), (3 / 4, "0.75"), (1, "1")]

def sampleExternals : Externals where
  platform :=
    { sha256 := Sha256.hash
      toVec := Json.print
      decimalText := fun value => (sampleTexts.lookup value).getD ""
      dateTimeText := fun _ => "1970-01-01T00:00:00Z" }
  parsers := sampleParsers
  exactDecimal := fun text => (sampleParsers.decimal text).map fun value => { value, text }
  timeText := fun _ useZ =>
    if useZ then "1970-01-01T00:00:00Z" else "1970-01-01T00:00:00+00:00"

/-- An owner of one market, with an open recovery of each of its tokens. -/
def sampleOwner : Adapter where
  config := sampleConfig
  identities := TreeMap.collect [("t1", ("m", "c")), ("t2", ("m", "c"))]
  ticks := ∅
  engines := ∅
  epochs := ∅
  sequences := ∅
  waiting := ∅
  bookReceived := ∅
  bookSource := ∅
  depthChecksums := ∅
  lastTrades := ∅
  recoveries := TreeMap.collect [("t1", "r1"), ("t2", "r2")]
  confirmations := []
  conflatedRawHashes := ∅
  conflatedRawOrder := []

def sampleRawBook (token : String) : Json :=
  .object
    [("asset_id", .string token), ("market", .string "c"), ("tick_size", .string "0.25"),
     ("timestamp", .string "0"), ("hash", .string "h"), ("event_type", .string "book"),
     ("bids", .array [sampleLevel "0.25"]), ("asks", .array [sampleLevel "0.75"])]

def sampleGap (token : String) : Json :=
  .object [("event_type", .string "source_gap"), ("asset_id", .string token)]

def sampleChange (token : String) : Json :=
  .object
    [("event_type", .string "price_change"), ("market", .string "c"), ("timestamp", .string "0"),
     ("price_changes", .array [.object
       [("asset_id", .string token), ("side", .string "BUY"), ("price", .string "0.25"),
        ("size", .string "0.75")]])]

/-- A REST recovery of both tokens is asked for the recovery of the first one
only. Then there is a gap of the second token. -/
def sampleCalls : List Call :=
  [.restRecovery
     { attempts := TreeMap.collect [("t1", "r1")], boundary := "b", received := 0, after := 2
       now := 0 }
     [sampleRawBook "t1", sampleRawBook "t2"],
   .frame 0 (sampleGap "t2") 0 10]

/-- The state after some calls. -/
def performAll (externals : Externals) (calls : List Call) (adapter : Adapter) : Adapter :=
  calls.foldl (fun adapter call => (call.perform externals adapter).2) adapter

/-- A gap that names its token fits when it is not read as an event of another
one. -/
theorem frameFits_of_gap
    {externals : Externals} {adapter : Adapter} {token : String} {received : DateTime}
    {position : Nat} (bounded : position + 1 < 2 ^ 64)
    (own : ∀ event ∈ outputOf (adapter.normalizeFrame externals (sampleGap token) received),
      event.kind.tokenId = token) :
    adapter.affectedTokens (sampleGap token) = .ok (ofElements [token]) ∧
      FrameFits externals adapter (sampleGap token) received position := by
  have read : adapter.affectedTokens (sampleGap token) = .ok (ofElements [token]) := rfl
  refine ⟨read, ?_, ?_⟩
  · intro affected same
    obtain rfl := ok.inj (same.symm.trans read)
    rw [TreeSet.size_ofElements (List.nodup_singleton token)]
    exact bounded
  · intro affected events same normalized event mem _
    obtain rfl := ok.inj (same.symm.trans read)
    rw [normalized] at own
    rw [own event mem]
    exact mem_ofElements.mpr (List.mem_singleton_self token)

/-- After its book a token is not waiting and has its checksum. A gap of it is
followed by an increment, which says nothing about it. -/
theorem no_increment_crosses_gap_sample :
    let call := Call.frame 0 (sampleRawBook "t1") 0 1
    let reached := (call.perform sampleExternals (sampleOwner.marketActor "m")).2
    let gapped := ((Call.frame 0 (sampleGap "t1") 0 10).perform sampleExternals reached).2
    let increment := (Call.frame 0 (sampleChange "t1") 0 20).perform sampleExternals gapped
    reached.waiting.contains "t1" = false ∧ Ready sampleExternals reached "t1" ∧
      Silent "t1" (outputOf increment.1) gapped increment.2 := by
  intro call reached gapped increment
  have fits : call.Fits sampleExternals (sampleOwner.marketActor "m") :=
    frameFits_of_book (by decide) rfl rfl (by decide)
  have facts : ((call.perform sampleExternals (sampleOwner.marketActor "m")).1.toOption.isSome &&
      (!reached.waiting.contains "t1" && reached.identities.contains "t1")) = true := by
    decide +kernel
  rw [and_eq_true, and_eq_true, not_eq_true'] at facts
  obtain ⟨succeeded, released, subscribed⟩ := facts
  have calm : ∀ message, (call.perform sampleExternals (sampleOwner.marketActor "m")).1 ≠
      .error (.panic message) := by
    intro message failed
    rw [failed] at succeeded
    cases succeeded
  have member : "t1" ∈ reached.identities := TreeMap.mem_iff_contains.mpr subscribed
  have run : Run sampleExternals (sampleOwner.marketActor "m") [call] reached :=
    .snoc .nil fits Prod.mk.eta.symm calm
  obtain ⟨_, ready, crosses⟩ :=
    no_increment_crosses_gap sampleExternals sampleOwner "m" [call] reached run
  have free : "t1" ∉ reached.waiting := by
    intro waits
    rw [Std.ExtTreeSet.mem_iff_contains, released] at waits
    cases waits
  obtain ⟨read, gapFits⟩ := @frameFits_of_gap sampleExternals reached "t1" 0 10 (by decide)
    (by decide +kernel)
  have gap : (Call.frame 0 (sampleGap "t1") 0 10).IsGap reached "t1" := by
    refine ⟨by decide, _, read, mem_ofElements.mpr (List.mem_singleton_self "t1"), ?_⟩
    intro other listed
    rw [List.mem_singleton.mp (mem_ofElements.mp listed)]
    exact member
  exact ⟨released, ready "t1" member free, crosses _ "t1" _ gapped gapped gap gapFits
    Prod.mk.eta.symm .start (.frame 0 (sampleChange "t1") 0 20) _ _ ⟨by decide, by decide⟩
    Prod.mk.eta.symm⟩

/-- The recovery of the second token stays open while the token does not wait,
the gap is passed over, and an increment of the token goes out after it. -/
theorem increment_crosses_gap :
    let reached := performAll sampleExternals sampleCalls (sampleOwner.marketActor "m")
    reached.recoveries.contains "t2" = true ∧ reached.waiting.contains "t2" = false ∧
      (match ((Call.frame 0 (sampleChange "t2") 0 20).perform sampleExternals reached).1 with
        | .ok [event] => (field event "token_id").asString? == some "t2"
        | _ => false) = true := by
  decide +kernel

end MarketCow.Websocket
