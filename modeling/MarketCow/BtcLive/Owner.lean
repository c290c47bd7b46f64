import MarketCow.BtcLive.Points

/-!
# The owner of the live trades

The owner is unavailable until a snapshot of recent trades is committed, then
it takes one trade after the other. Every change has a serial number, and a
stream keeps its name from one snapshot to the next one.
-/

namespace MarketCow.BtcLive

open Library
open Sdk (Trade PriceFrame Payload Source priceSchema)

def instrument : String := "BTCUSDT.BINANCE"

def maxTrades : Nat := 4096

def snapshotTrades : Nat := 256

def maxFrameBytes : Nat := 4 * 1024 * 1024

/-- The greatest unsigned integer of 64 bits. -/
def maxSerial : Nat := 2 ^ 64 - 1

inductive Phase
  | unavailable
  | live
  deriving DecidableEq

/-- The epochs and the streams carry the numbers of their identifiers. -/
@[ext]
structure State where
  epoch : Nat
  phase : Phase
  reason : String
  serial : Nat
  sequence : Nat
  lastId : Option Nat
  trades : List Trade
  typedGeneration : Nat
  twap : TradeTwap
  deriving DecidableEq

def State.new : State where
  epoch := 1
  phase := .unavailable
  reason := "bootstrap_not_started"
  serial := 0
  sequence := 0
  lastId := none
  trades := []
  typedGeneration := 0
  twap := .empty

/-! ## Changes -/

/-- Start a new epoch without trades. -/
def State.invalidate (state : State) (reason : String) : State :=
  { state with
    epoch := state.epoch + 1
    phase := .unavailable
    reason
    sequence := 0
    serial := min (state.serial + 1) maxSerial
    lastId := none
    trades := []
    twap := .empty }

/-- The price of each trade in turn joins an average. -/
def takeAll (setting : Setting) : TradeTwap → List Trade → Except Failure TradeTwap
  | twap, [] => .ok twap
  | twap, trade :: trades => do
    let taken ← twap.take setting trade
    takeAll setting taken trades

/-- The last trades, a number of them at most. -/
def newest (limit : Nat) (trades : List Trade) : List Trade :=
  trades.drop (trades.length - limit)

theorem newest_suffix (limit : Nat) (trades : List Trade) : newest limit trades <:+ trades :=
  List.drop_suffix _ _

theorem newest_ne_nil (some : trades ≠ []) (positive : 0 < limit) : newest limit trades ≠ [] := by
  have shorter := List.length_pos_iff.mpr some
  apply List.ne_nil_of_length_pos
  rw [newest, List.length_drop]
  omega

/-- The successor of a number of 64 bits, as an unchecked sum gives it. -/
def wrappingSucc (value : Nat) : Nat := (value + 1) % 2 ^ 64

/-- The state with a snapshot of trades, before its publication. -/
def State.commitSnapshot (setting : Setting) (state : State) (trades : List Trade) :
    Except Failure State := do
  let twap ← takeAll setting .empty trades
  .ok
    { state with
      phase := .live
      reason := ""
      lastId := trades.getLast?.map Trade.tradeId
      trades
      typedGeneration := state.epoch
      twap
      serial := wrappingSucc state.serial
      sequence := wrappingSucc state.sequence }

/-- The state with one more trade, before its publication. -/
def State.commitTrade (setting : Setting) (state : State) (point : Trade) :
    Except Failure State := do
  ensure (decide (state.phase = .live)) "BTC trade source not joined"
  let twap ← state.twap.take setting point
  let serial ← need (Sdk.checkedSucc state.serial) "BTC trade serial overflow"
  let sequence ← need (Sdk.checkedSucc state.sequence) "BTC trade sequence overflow"
  .ok
    { state with
      twap
      serial
      sequence
      lastId := some point.tradeId
      trades := newest maxTrades (state.trades ++ [point]) }

/-! ## Publications -/

/-- What a subscriber is told of a state when nothing more special happened. -/
def State.payload (state : State) : Payload :=
  match state.phase with
  | .live =>
    let trades := newest snapshotTrades state.trades
    .snapshot
      { trades
        observations := []
        truncated := decide (snapshotTrades < state.trades.length)
        retainedCount := state.trades.length
        firstTradeId := trades.head?.map Trade.tradeId
        lastTradeId := trades.getLast?.map Trade.tradeId }
  | .unavailable => .status { phase := 2, reason := some state.reason }

variable {state : State}

/-- A live owner shows its newest trades. -/
theorem State.payload_of_live (live : state.phase = .live) :
    ∃ snapshot, state.payload = .snapshot snapshot ∧
      snapshot.trades = newest snapshotTrades state.trades ∧
        snapshot.firstTradeId = snapshot.trades.head?.map Trade.tradeId := by
  unfold State.payload
  rw [live]
  refine ⟨_, rfl, ?_, ?_⟩
  · dsimp only
  · dsimp only

/-- A frame at the reading of a clock. -/
def State.typedFrame
    (setting : Setting) (state : State) (payload : Option Payload)
    (now : Option Int) : Except Failure PriceFrame := do
  let publishedAtNs ← need now "clock_unavailable"
  .ok
    { schemaVersion := priceSchema
      producerInstanceId := setting.producerInstanceId
      streamId := setting.uuid state.typedGeneration
      streamSequence := state.serial
      source := Source.binanceSpotTrade.number
      instrumentId := instrument
      sourceSequence := state.lastId
      publishedAtNs
      latestSourceAgeMsAtEmit :=
        state.trades.getLast?.map fun trade => publishedAtNs / 1000000 - trade.tradeTimeMs
      payload := some (payload.getD state.payload) }

/-- A frame goes out encoded, within a budget. -/
def published
    (setting : Setting) (state : State) (payload : Option Payload)
    (now : Option Int) : Except Failure PriceFrame := do
  let frame ← state.typedFrame setting payload now
  ensure (decide (setting.encodedLen frame ≤ maxFrameBytes)) "typed message byte budget"
  .ok frame

theorem of_published (sent : published setting state payload now = .ok frame) :
    frame.streamId = setting.uuid state.typedGeneration ∧ frame.streamSequence = state.serial ∧
      frame.payload = some (payload.getD state.payload) := by
  unfold published State.typedFrame at sent
  obtain ⟨made, typed, sent⟩ := bind_ok.mp sent
  obtain ⟨_, sent⟩ := ensure_bind_ok.mp sent
  obtain ⟨_, _, typed⟩ := need_bind_ok.mp typed
  cases sent
  rw [← ok.inj typed]
  exact ⟨rfl, rfl, rfl⟩

/-! ## What a change does -/

/-- A snapshot replaces the trades and starts the stream of its epoch. -/
structure SnapshotCommitted (state : State) (trades : List Trade) (after : State) : Prop where
  epoch : after.epoch = state.epoch
  phase : after.phase = .live
  lastId : after.lastId = trades.getLast?.map Trade.tradeId
  trades : after.trades = trades
  generation : after.typedGeneration = state.epoch
  serial : after.serial = wrappingSucc state.serial

variable {state after : State}

theorem snapshotCommitted_of_commitSnapshot
    (committed : state.commitSnapshot setting trades = .ok after) :
    SnapshotCommitted state trades after := by
  unfold State.commitSnapshot at committed
  obtain ⟨_, _, committed⟩ := bind_ok.mp committed
  rw [← ok.inj committed]
  exact ⟨rfl, rfl, rfl, rfl, rfl, rfl⟩

/-- A trade is appended to the retained trades of its stream. -/
structure TradeCommitted (state : State) (point : Trade) (after : State) : Prop where
  epoch : after.epoch = state.epoch
  wasLive : state.phase = .live
  phase : after.phase = .live
  lastId : after.lastId = some point.tradeId
  trades : after.trades = newest maxTrades (state.trades ++ [point])
  generation : after.typedGeneration = state.typedGeneration
  serial : after.serial = state.serial + 1

theorem tradeCommitted_of_commitTrade (committed : state.commitTrade setting point = .ok after) :
    TradeCommitted state point after := by
  unfold State.commitTrade at committed
  obtain ⟨live, committed⟩ := ensure_bind_ok.mp committed
  obtain ⟨twap, _, committed⟩ := bind_ok.mp committed
  obtain ⟨serial, counted, committed⟩ := need_bind_ok.mp committed
  obtain ⟨sequence, _, committed⟩ := need_bind_ok.mp committed
  have wasLive := of_decide_eq_true live
  rw [← ok.inj committed]
  refine ⟨rfl, wasLive, wasLive, rfl, ?_, rfl, Sdk.eq_succ_of_checkedSucc counted⟩
  dsimp only

end MarketCow.BtcLive
