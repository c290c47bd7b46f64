import MarketCow.Library.Transition
import MarketCow.Live.MarketState

/-!
# The live tail of a price stream

A client of a price stream keeps the last trade or observation, the serial of
the last publication and whether the data prefix is unbroken. A frame is
checked as a whole before anything is kept of it.
-/

namespace MarketCow.Sdk

open Library
open MarketCow.Core (Decimal)
open Live (Codec)

def priceSchema : String := "marketcow.btc-price-stream.v3"

/-! ## Messages -/

inductive Source
  | unspecified
  | binanceSpotTrade
  | chainlinkBtcUsd
  | chainlinkBtcUsdTwap60
  deriving DecidableEq

/-- The number of a source on the wire. -/
def Source.number : Source → Int
  | .unspecified => 0
  | .binanceSpotTrade => 1
  | .chainlinkBtcUsd => 2
  | .chainlinkBtcUsdTwap60 => 3

inductive Phase
  | unspecified
  | connecting
  | unavailable
  | recovering
  | live
  deriving DecidableEq

/-- The phase with a number, if there is one. -/
def Phase.ofNumber? (number : Int) : Option Phase :=
  [(0, unspecified), (1, connecting), (2, unavailable), (3, recovering), (4, live)].lookup number

structure EvidenceReference where
  evidenceId : String
  rowIndex : Option Nat
  deriving DecidableEq

structure Trade where
  tradeId : Nat
  tradeTimeMs : Int
  eventTimeMs : Option Int
  price : String
  quantity : String
  buyerIsMaker : Option Bool
  receivedAtNs : Option Int
  evidence : Option EvidenceReference
  deriving DecidableEq

structure Observation where
  sourceTimeMs : Int
  price : String
  sourceSequence : Option Nat
  rowIndex : Option Nat
  receivedAtNs : Option Int
  evidence : Option EvidenceReference
  deriving DecidableEq

structure PriceSnapshot where
  trades : List Trade
  observations : List Observation
  truncated : Bool
  retainedCount : Nat
  firstTradeId : Option Nat
  lastTradeId : Option Nat
  deriving DecidableEq

structure Status where
  phase : Int
  reason : Option String
  deriving DecidableEq

structure RemoteError where
  code : String
  retryable : Bool
  retryAfterMs : Option Nat
  detail : Option String
  deriving DecidableEq

inductive Payload
  | snapshot (snapshot : PriceSnapshot)
  | trade (trade : Option Trade)
  | observations (observations : List Observation)
  | status (status : Status)
  | error (error : RemoteError)
  deriving DecidableEq

structure PriceFrame where
  schemaVersion : String
  producerInstanceId : String
  streamId : String
  streamSequence : Nat
  source : Int
  instrumentId : String
  sourceSequence : Option Nat
  publishedAtNs : Int
  latestSourceAgeMsAtEmit : Option Int
  payload : Option Payload
  deriving DecidableEq

/-! ## Checks -/

inductive PriceError
  | protocol (message : String)
  | remote (error : RemoteError)
  deriving DecidableEq

def require (condition : Bool) (message : String) : Except PriceError Unit :=
  if condition then .ok () else .error (.protocol message)

theorem require_ok : require condition message = .ok value ↔ condition = true := by
  cases condition <;> simp [require]

/-- A value, or an error in its absence. -/
def need {α : Type} (value : Option α) (message : String) : Except PriceError α :=
  match value with
  | some value => .ok value
  | none => .error (.protocol message)

theorem need_ok : need value message = .ok found ↔ value = some found := by
  cases value <;> simp [need]

/-- The successor of a 64-bit number, unless it overflows. -/
def checkedSucc (value : Nat) : Option Nat :=
  if value + 1 < 2 ^ 64 then some (value + 1) else none

theorem eq_succ_of_checkedSucc (succeeds : checkedSucc value = some next) :
    next = value + 1 := by
  unfold checkedSucc at succeeds
  split at succeeds
  · exact (some.inj succeeds).symm
  · cases succeeds

def decimal (codec : Codec) (value : String) (positive : Bool) : Except PriceError Decimal :=
  (Live.clientDecimal codec value positive).mapError .protocol

def validateTrade (codec : Codec) (trade : Trade) : Except PriceError Unit := do
  require (decide (0 < trade.tradeId) && decide (0 < trade.tradeTimeMs) &&
    trade.buyerIsMaker.isSome && trade.eventTimeMs.all fun time => decide (0 < time))
    "trade identity/time/maker presence"
  let _ ← decimal codec trade.price true
  let _ ← decimal codec trade.quantity true
  .ok ()

/-- One trade of a snapshot after the one before it. -/
def checkContinuity (previous : Option Trade) (trade : Trade) : Except PriceError Unit :=
  require (previous.all fun before =>
    checkedSucc before.tradeId == some trade.tradeId &&
      decide (before.tradeTimeMs ≤ trade.tradeTimeMs)) "snapshot trade continuity"

def checkTrades (codec : Codec) : Option Trade → List Trade → Except PriceError Unit
  | _, [] => .ok ()
  | previous, trade :: trades => do
    validateTrade codec trade
    checkContinuity previous trade
    checkTrades codec (some trade) trades

/-- What every observation must have. -/
def validateObservation (codec : Codec) (point : Observation) : Except PriceError Unit := do
  require (decide (0 < point.sourceTimeMs) &&
    point.sourceSequence.any (fun sequence => decide (0 < sequence)) && point.rowIndex.isSome)
    "observation presence/time"
  let _ ← decimal codec point.price true
  .ok ()

/-- The rows of one supplier frame are numbered and share its sequence. -/
def checkRow (snapshot : Bool) (first : Observation) (index : Nat) (point : Observation) :
    Except PriceError Unit :=
  if snapshot then .ok ()
  else
    require (point.rowIndex == some (index % 2 ^ 32) &&
      point.sourceSequence == first.sourceSequence) "observation frame rows"

/-- The observations of a payload in their order, from a row and a time on. -/
def checkPoints (codec : Codec) (snapshot : Bool) (first : Observation) :
    Nat → Option Int → List Observation → Except PriceError Unit
  | _, _, [] => .ok ()
  | index, previous, point :: points => do
    validateObservation codec point
    require (previous.all fun time => decide (time ≤ point.sourceTimeMs))
      "observation time regression"
    checkRow snapshot first index point
    checkPoints codec snapshot first (index + 1) (some point.sourceTimeMs) points

/-! ## The state -/

@[ext]
structure PriceState where
  source : Source
  instrument : String
  streamId : Option String
  sequence : Option Nat
  available : Bool
  latestTrade : Option Trade
  latestObservation : Option Observation
  signedAgeMs : Option Int
  initialSequence : Option Nat
  producer : Option String
  deriving DecidableEq

def instrumentOf : Source → String
  | .binanceSpotTrade => "BTCUSDT.BINANCE"
  | .chainlinkBtcUsdTwap60 => "BTCUSD.CHAINLINK.TWAP60"
  | _ => "BTCUSD.CHAINLINK"

namespace PriceState

/-- A state before its first frame. -/
def initial (source : Source) : PriceState where
  source
  instrument := instrumentOf source
  streamId := none
  sequence := none
  available := false
  latestTrade := none
  latestObservation := none
  signedAgeMs := none
  initialSequence := none
  producer := none

def new (source : Source) : Except PriceError PriceState := do
  require (source != .unspecified) "source required"
  .ok (initial source)

/-- A new physical subscription establishes its own first serial. -/
def resetTransport (state : PriceState) : PriceState :=
  { state with
    available := false
    sequence := none
    initialSequence := none
    producer := none
    streamId := none }

variable (codec : Codec) (state : PriceState)

def observations (values : List Observation) (snapshot : Bool) : Except PriceError Unit :=
  match values with
  | [] => .error (.protocol "empty observation payload")
  | first :: points =>
    let previous :=
      if snapshot then none else state.latestObservation.map Observation.sourceTimeMs
    checkPoints codec snapshot first 0 previous (first :: points)

variable (frame : PriceFrame)

/-- A snapshot of trades. -/
def takeTrades
    (snapshot : PriceSnapshot) : Except PriceError PriceState := do
  require (snapshot.observations.isEmpty && !snapshot.trades.isEmpty) "Binance snapshot shape"
  checkTrades codec none snapshot.trades
  let first ← need snapshot.trades.head? "Binance snapshot shape"
  let last ← need snapshot.trades.getLast? "Binance snapshot shape"
  require (snapshot.firstTradeId == some first.tradeId &&
    snapshot.lastTradeId == some last.tradeId && frame.sourceSequence == some last.tradeId)
    "snapshot tail binding"
  .ok { state with latestTrade := some last, available := true }

/-- A snapshot of observations. -/
def takePoints
    (snapshot : PriceSnapshot) : Except PriceError PriceState := do
  require snapshot.trades.isEmpty "mixed observation snapshot"
  state.observations codec snapshot.observations true
  require (frame.sourceSequence ==
    snapshot.observations.getLast?.bind Observation.sourceSequence) "observation tail binding"
  .ok { state with latestObservation := snapshot.observations.getLast?, available := true }

/-- One new trade. -/
def takeTrade
    (trade : Option Trade) : Except PriceError PriceState := do
  require (decide (state.source = .binanceSpotTrade) && state.available) "trade before snapshot"
  let trade ← need trade "missing trade"
  validateTrade codec trade
  let previous ← need state.latestTrade "missing previous trade"
  require (checkedSucc previous.tradeId == some trade.tradeId &&
    decide (previous.tradeTimeMs ≤ trade.tradeTimeMs) &&
    frame.sourceSequence == some trade.tradeId) "trade ID/time/source binding"
  .ok { state with latestTrade := some trade }

/-- The observations of one supplier frame. -/
def takeObservations
    (values : List Observation) : Except PriceError PriceState := do
  require (decide (state.source ≠ .binanceSpotTrade) && state.available)
    "observations before snapshot"
  state.observations codec values false
  let last ← need values.getLast? "empty observation payload"
  require ((state.latestObservation.bind Observation.sourceSequence).all
      (fun sequence => last.sourceSequence.any fun next => decide (sequence < next)) &&
    frame.sourceSequence == last.sourceSequence) "observation sequence"
  .ok { state with latestObservation := some last }

/-- A live status alone cannot repair an unavailable data prefix. -/
def takeStatus (state : PriceState) (status : Status) : Except PriceError PriceState := do
  let phase ← need (Phase.ofNumber? status.phase) "unknown source phase"
  require (phase != .unspecified) "missing source phase"
  .ok { state with available := state.available && phase == .live }

def takePayload
    (frame : PriceFrame) : Payload → Except PriceError PriceState
  | .snapshot snapshot =>
    if state.source = .binanceSpotTrade then state.takeTrades codec frame snapshot
    else state.takePoints codec frame snapshot
  | .trade trade => state.takeTrade codec frame trade
  | .observations values => state.takeObservations codec frame values
  | .status status => state.takeStatus status
  | .error error => .error (.remote error)

/-- A publication follows the one before it, from the same producer. -/
def checkSuccession (state : PriceState) (frame : PriceFrame) : Except PriceError Unit :=
  match state.sequence with
  | none => .ok ()
  | some previous => do
    require (checkedSucc previous == some frame.streamSequence) "price publication gap"
    require (state.producer == some frame.producerInstanceId)
      "producer changed without reconnect"

/-- Only a snapshot starts a new source generation. -/
def checkGeneration (state : PriceState) (frame : PriceFrame) : Payload → Except PriceError Unit
  | .snapshot _ => .ok ()
  | _ => require (state.streamId.all (· == frame.streamId)) "generation requires snapshot"

def checkIdentity (state : PriceState) (frame : PriceFrame) : Except PriceError Unit :=
  require (frame.schemaVersion == priceSchema && decide (frame.source = state.source.number) &&
    frame.instrumentId == state.instrument && !frame.producerInstanceId.isEmpty &&
    !frame.streamId.isEmpty) "price schema/source/identity"

/-- A publication queued before the initial snapshot. -/
def isQueued (state : PriceState) (frame : PriceFrame) : Bool :=
  state.initialSequence.any fun first => decide (frame.streamSequence ≤ first)

/-- What a state keeps of the envelope of a frame. -/
def keepEnvelope (state : PriceState) (frame : PriceFrame) : PriceState :=
  { state with
    initialSequence := some (state.initialSequence.getD frame.streamSequence)
    sequence := some frame.streamSequence
    producer := some frame.producerInstanceId
    streamId := some frame.streamId
    signedAgeMs := frame.latestSourceAgeMsAtEmit }

/-- A frame that is not queued from before the initial one. -/
def applyFrame (codec : Codec) (state : PriceState) (frame : PriceFrame) :
    Except PriceError PriceState := do
  state.checkSuccession frame
  let payload ← need frame.payload "missing price payload"
  state.checkGeneration frame payload
  let taken ← state.takePayload codec frame payload
  .ok (taken.keepEnvelope frame)

/-- Take one frame: whether it was applied, and the state after it. -/
def apply (codec : Codec) (state : PriceState) (frame : PriceFrame) :
    Except PriceError (Bool × PriceState) := do
  state.checkIdentity frame
  if state.isQueued frame then .ok (false, state)
  else (state.applyFrame codec frame).map fun after => (true, after)

end PriceState

/-! ## Runs -/

/-- What happens to the state of a subscription: the transport is connected
anew, it is lost, or a frame arrives. -/
inductive PriceEvent
  | connected
  | lost
  | received (frame : PriceFrame)

/-- A frame that is refused leaves the state as it was, apart from the
transport being lost. -/
def PriceState.step (codec : Codec) (before : PriceState) : PriceEvent → PriceState → Prop
  | .connected, after => after = before.resetTransport
  | .lost, after => after = { before with available := false }
  | .received frame, after => ∃ applied, before.apply codec frame = .ok (applied, after)

end MarketCow.Sdk
