import MarketCow.BtcLive.Owner

/-!
# The attempts of the owner

The owner connects, joins the recent trades to the frames of the socket and
follows the frames until something fails, over and over. Subscribers come and
go at any time, each with a snapshot of the owner and a channel of the frames
after it, which drops the oldest frame when it is full.
-/

namespace MarketCow.BtcLive

open Library
open Sdk (Trade PriceFrame Payload checkedSucc)

def broadcastFrames : Nat := 1024

/-! ## Failures -/

/-- A text has another one in it. -/
def mentions (text part : String) : Bool :=
  (text.splitOn part).length != 1

/-- Why the owner is unavailable after a failure. -/
def Failure.reason (failure : Failure) : String :=
  let detail := Text.asciiLowercase failure.text
  if mentions detail "id gap" || mentions detail "id discontinuity" ||
      mentions detail "overlap missing" then "source_trade_id_gap"
  else if mentions detail "ingress capacity" then "source_ingress_dropped"
  else if failure.parse || mentions detail "identity differs" ||
      mentions detail "duplicate trade" || mentions detail "invalid" ||
      mentions detail "unexpected" || mentions detail "wrong event" ||
      mentions detail "too large" then "source_bad_frame"
  else "source_read_failed"

/-- The error of a reader that has stopped is kept before that of the consumer. -/
def finishReader (outcome : Failure) (reader : Option String) : Failure :=
  match reader with
  | none => outcome
  | some error =>
    failure ("BTC reader failure; consumer outcome: " ++ outcome.text ++ ": " ++ error)

/-! ## The join -/

/-- Where the attempts of the owner are. -/
inductive Task
  | waiting
  | connecting
  | joining (trades : List Trade) (restLast : Nat)
  | joined (lastId : Nat)
  | failed (cause : Failure)
  deriving DecidableEq

/-- What a trade of the socket makes of the state of the owner. -/
inductive Consumed
  | nothing
  | commit (after : State) (payload : Option Payload) (lastId : Nat)

variable (setting : Setting)

/-- Only the last of the recent trades, seen again, proves an overlap. -/
def join (owner : State) (trades : List Trade) (restLast : Nat)
    (point : Trade) : Except Failure Consumed :=
  if restLast < point.tradeId then .error (failure "BTC trade REST/WS overlap missing")
  else if point.tradeId = restLast then do
    ensure (trades.getLast?.any fun last => sameTrade setting.codec point last)
      "BTC trade REST/WS identity differs"
    let after ← owner.commitSnapshot setting trades
    .ok (.commit after none restLast)
  else .ok .nothing

/-- A trade that was seen must be seen again as it was, a new one must be the
next one. -/
def follow (owner : State) (lastId : Nat) (point : Trade) : Except Failure Consumed :=
  if point.tradeId ≤ lastId then do
    let prior ← need
      (owner.trades.reverse.find? fun candidate => candidate.tradeId == point.tradeId)
      "BTC duplicate trade outside retained identity window"
    ensure (sameTrade setting.codec point prior) "BTC duplicate trade identity changed"
    .ok .nothing
  else do
    let expected ← need (checkedSucc lastId) "BTC trade ID overflow"
    ensure (point.tradeId == expected)
      ("BTC trade ID gap: expected=" ++ toString expected ++ " received=" ++ toString point.tradeId)
    let after ← owner.commitTrade setting point
    .ok (.commit after (some (.trade (some point))) point.tradeId)

/-- The trade of a frame. -/
def readFrame
    (row : Except String WsTrade) (receivedAtNs : Option Int) : Except Failure Trade := do
  let trade ← row.mapError fun message => ⟨"BTC trade WS parse failed: " ++ message, true⟩
  ensure (trade.e == "trade" && trade.s == "BTCUSDT") "BTC trade wrong event or symbol"
  wsPoint setting trade receivedAtNs

/-! ## The system -/

/-- What has been received starts with the frame of the subscription. -/
structure Subscriber where
  received : List PriceFrame
  pending : List PriceFrame
  lagged : Bool
  deriving DecidableEq

def Subscriber.new (frame : PriceFrame) : Subscriber where
  received := [frame]
  pending := []
  lagged := false

/-- A frame enters the channel of a subscriber. -/
def Subscriber.deliver (frame : PriceFrame) (subscriber : Subscriber) : Subscriber :=
  if subscriber.pending.length < broadcastFrames then
    { subscriber with pending := subscriber.pending ++ [frame] }
  else
    { subscriber with
      pending := subscriber.pending.drop 1 ++ [frame]
      lagged := true }

/-- The runs are the history of the trades of each stream: no operation reads
them. -/
structure System where
  owner : State
  task : Task
  subscribers : List Subscriber
  runs : Nat → List Trade

def System.initial : System where
  owner := .new
  task := .waiting
  subscribers := []
  runs := fun _ => []

/-- What a change adds to the run of its stream: a trade, or a whole snapshot. -/
def record (runs : Nat → List Trade) (after : State) (payload : Option Payload) :
    Nat → List Trade :=
  match after.phase, payload with
  | .unavailable, _ => runs
  | .live, some (.trade (some point)) =>
    Function.update runs after.typedGeneration (runs after.typedGeneration ++ [point])
  | .live, _ => Function.update runs after.typedGeneration after.trades

/-- A changed state is in effect before its publication, which may fail. -/
def System.publish (system : System) (after : State) (payload : Option Payload)
    (now : Option Int) : Except Failure Unit × System :=
  let moved := { system with owner := after, runs := record system.runs after payload }
  if system.subscribers.isEmpty then (.ok (), moved)
  else
    match published setting after payload now with
    | .ok frame =>
      (.ok (), { moved with subscribers := system.subscribers.map (Subscriber.deliver frame) })
    | .error cause => (.error cause, moved)

/-- What happens: the owner starts an attempt, the recent trades arrive, a
frame or a heartbeat arrives, the attempt is stopped from outside, a failed
attempt ends; and subscribers subscribe, receive a frame or leave. The clock is
read where a frame is made. -/
inductive Label
  | start (now : Option Int)
  | recent (rows : List RestTrade) (receivedAtNs : Option Int)
  | frame (row : Except String WsTrade) (receivedAtNs : Option Int) (now : Option Int)
  | heartbeat
  | stop (cause : Failure)
  | settle (reader : Option String) (now : Option Int)
  | subscribe (now : Option Int)
  | receive (index : Nat)
  | leave (index : Nat)

/-- What the owner does. -/
inductive Action
  | quiet (task : Task)
  | invalidate (reason : String) (now : Option Int) (task : Task)
  | commit (after : State) (payload : Option Payload) (now : Option Int) (lastId : Nat)

/-- The attempt reads frames. -/
def Task.reads : Task → Bool
  | .joining _ _ => true
  | .joined _ => true
  | _ => false

def consume (setting : Setting) (system : System) (point : Trade) : Except Failure Consumed :=
  match system.task with
  | .joining trades restLast => join setting system.owner trades restLast point
  | .joined lastId => follow setting system.owner lastId point
  | _ => .ok .nothing

/-- What a frame makes the owner do. -/
def take (system : System) (row : Except String WsTrade) (receivedAtNs now : Option Int) : Action :=
  match readFrame setting row receivedAtNs >>= consume setting system with
  | .error cause => .quiet (.failed cause)
  | .ok .nothing => .quiet system.task
  | .ok (.commit after payload lastId) => .commit after payload now lastId

/-- What the owner does, where it does anything. -/
def act (setting : Setting) (system : System) : Label → Option Action
  | .start now =>
    if system.task = .waiting then some (.invalidate "source_reconnecting" now .connecting)
    else none
  | .recent rows receivedAtNs =>
    if system.task = .connecting then
      match recentTrades setting receivedAtNs rows with
      | .ok (trades, restLast) => some (.quiet (.joining trades restLast))
      | .error cause => some (.quiet (.failed cause))
    else none
  | .frame row receivedAtNs now =>
    if system.task.reads then some (take setting system row receivedAtNs now) else none
  | .heartbeat => if system.task.reads then some (.quiet system.task) else none
  | .stop cause =>
    if system.task.reads || decide (system.task = .connecting) then
      some (.quiet (.failed cause))
    else none
  | .settle reader now =>
    match system.task with
    | .failed cause => some (.invalidate (finishReader cause reader).reason now .waiting)
    | _ => none
  | _ => none

/-- An invalidation goes on when its publication fails, a commit does not. -/
def perform (setting : Setting) (system : System) : Action → System
  | .quiet task => { system with task }
  | .invalidate reason now task =>
    { (system.publish setting (system.owner.invalidate reason) none now).2 with task }
  | .commit after payload now lastId =>
    match system.publish setting after payload now with
    | (.ok (), sent) => { sent with task := .joined lastId }
    | (.error cause, sent) => { sent with task := .failed cause }

/-- A subscriber takes the oldest frame out of its channel. -/
def Subscriber.receive (subscriber : Subscriber) : Option Subscriber :=
  match subscriber.pending with
  | [] => none
  | frame :: pending =>
    some { subscriber with received := subscriber.received ++ [frame], pending }

def step (setting : Setting) (system : System) : Label → Option System
  | .subscribe now =>
    match published setting system.owner none now with
    | .ok frame =>
      some { system with subscribers := system.subscribers ++ [Subscriber.new frame] }
    | .error _ => some system
  | .receive index => do
    let subscriber ← system.subscribers[index]?
    let received ← subscriber.receive
    some { system with subscribers := system.subscribers.set index received }
  | .leave index =>
    if index < system.subscribers.length then
      some { system with subscribers := system.subscribers.eraseIdx index }
    else none
  | label => (act setting system label).map (perform setting system)

/-- One step of the system. -/
def Steps (setting : Setting) : System → Label → System → Prop :=
  fun before label after => step setting before label = some after

end MarketCow.BtcLive
