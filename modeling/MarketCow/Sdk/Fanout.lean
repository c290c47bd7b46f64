import MarketCow.Library.MapValues
import MarketCow.Library.Transition
import MarketCow.Source.MarketReplay

/-!
# Fan-out to local consumers

A hub hands every value it is sent to its consumers, each through a bounded
queue of its own. The bytes in a queue are counted for the consumer and for all
hubs of a client together, in machine words that are changed atomically. A
consumer that cannot take a value is told so by a signal beside its queue.

The holder of a hub's lock and each receiver act in atomic steps, which
interleave in any order. The step that an enqueue has come to is kept with the
consumer it is for.
-/

namespace MarketCow.Sdk.Fanout

open Library
open MarketCow.Source (fetchSub)

/-- Bytes that all queues of a client may hold. -/
def globalLimit : Nat := 64 * 1024 * 1024

/-- Bytes that one queue may hold. -/
def localLimit : Nat := 16 * 1024 * 1024

def maxConsumers : Nat := 128

variable {T : Type}

structure Queued (T : Type) where
  value : T
  bytes : Nat
  deriving DecidableEq

/-- How far an enqueue has come. -/
inductive Stage
  | start
  | globalTaken
  | localTaken
  /-- The queue did not take the item, and it is dropped. -/
  | dropping
  /-- The bytes are given back to the client. -/
  | returning (reason : String)
  | refused (reason : String)
  deriving DecidableEq

/-- A queue and its counter. -/
structure Channel (T : Type) where
  bytes : Nat
  queue : List (Queued T)
  closed : Bool
  deriving DecidableEq

/-- One atomic step of an enqueue: the bytes of the client, the queue, and how
far it comes, where nothing means that the item is in the queue. -/
def enqueueStep (capacity : Nat) (item : Queued T) (total : Nat) (channel : Channel T) :
    Stage → Nat × Channel T × Option Stage
  | .start =>
    if total + item.bytes ≤ globalLimit then
      (total + item.bytes, channel, some .globalTaken)
    else (total, channel, some (.refused "client_event_byte_budget"))
  | .globalTaken =>
    if channel.bytes + item.bytes ≤ localLimit then
      (total, { channel with bytes := channel.bytes + item.bytes }, some .localTaken)
    else (total, channel, some (.returning "slow_consumer_byte_budget"))
  | .localTaken =>
    if channel.queue.length < capacity ∧ channel.closed = false then
      (total, { channel with queue := channel.queue ++ [item] }, none)
    else (total, channel, some .dropping)
  | .dropping =>
    (total, { channel with bytes := fetchSub channel.bytes item.bytes },
      some (.returning "slow_consumer_item_budget"))
  | .returning reason => (fetchSub total item.bytes, channel, some (.refused reason))
  | .refused reason => (total, channel, some (.refused reason))

/-- What a receiver is doing. -/
inductive Task (T : Type)
  | idle
  /-- No error was there, and the signal is polled. -/
  | selecting
  /-- There was no signal, and the queue is polled. -/
  | receiving
  /-- The receiver waits for the lock of its hub to leave it. -/
  | closing
  | draining
  /-- An item left the queue and its bytes are given back. -/
  | refunding (item : Queued T) (localDone draining : Bool)
  deriving DecidableEq

/-- A consumer and its receiver. What it is due and what it was given are kept
for the record. -/
structure Receiver (T : Type) where
  hub : Nat
  channel : Channel T
  inbound : Option (Queued T × Stage)
  terminal : Option String
  signalled : Bool
  returned : Bool
  closed : Bool
  task : Task T
  expected : List T
  delivered : List T
  deriving DecidableEq

/-- What the holder of the lock of a hub is doing. -/
inductive HubTask (T : Type)
  | idle
  | sending (item : Queued T) (rest : List Nat)
  | attaching (place : Nat) (seed : Option (Queued T))
  | finishing (reason : Option String) (rest : List Nat)
  deriving DecidableEq

/-- The two kinds of hubs differ in the length of their queues and in where the
seed of a new consumer comes from. -/
inductive HubKind
  | market
  | price
  deriving DecidableEq

def HubKind.capacity : HubKind → Nat
  | .market => 64
  | .price => 4096

/-- Consumers are known by their places and listed in the order of their
numbers. -/
structure Hub (T : Type) where
  kind : HubKind
  consumers : List Nat
  next : Nat
  seed : Option (Queued T)
  stopped : Bool
  task : HubTask T

def Hub.new (kind : HubKind) : Hub T where
  kind
  consumers := []
  next := 1
  seed := none
  stopped := false
  task := .idle

structure State (T : Type) where
  total : Nat
  hubs : Nat → Hub T
  receivers : List (Receiver T)

/-- The hubs of a client before their first consumers. -/
def State.new (kinds : Nat → HubKind) : State T where
  total := 0
  hubs := fun hub => Hub.new (kinds hub)
  receivers := []

/-- What happens next: an operation begins, or the holder of a lock or a
receiver takes its next step. -/
inductive Action (T : Type)
  | attach (hub : Nat) (seed : Except String (Option (Queued T)))
  | send (hub : Nat) (item : Queued T) (seed : Option (Queued T))
  | clearSeed (hub : Nat)
  | finish (hub : Nat) (reason : Option String)
  | active (hub : Nat)
  | hubStep (hub : Nat)
  | next (place : Nat)
  | close (place : Nat)
  | receiverStep (place : Nat)

namespace State

def setHub (state : State T) (hub : Nat) (value : Hub T) : State T :=
  { state with hubs := Function.update state.hubs hub value }

def setReceiver (state : State T) (place : Nat) (value : Receiver T) : State T :=
  { state with receivers := state.receivers.set place value }

/-! ## Operations that take the lock -/

/-- A consumer before its seed. -/
def newReceiver (hub : Nat) (seed : Option (Queued T)) : Receiver T where
  hub
  channel := { bytes := 0, queue := [], closed := false }
  inbound := none
  terminal := none
  signalled := false
  returned := false
  closed := false
  task := .idle
  expected := (seed.map Queued.value).toList
  delivered := []

/-- A price hub seeds a consumer from what it keeps, a market hub from what its
caller reads. -/
def seedOf (hub : Hub T) (given : Except String (Option (Queued T))) :
    Except String (Option (Queued T)) :=
  match hub.kind with
  | .market => given
  | .price => .ok hub.seed

/-- Begin to attach a consumer. A stopped or a full hub takes none. -/
def attach (state : State T) (index : Nat) (given : Except String (Option (Queued T))) : State T :=
  let hub := state.hubs index
  if hub.stopped ∨ maxConsumers ≤ hub.consumers.length then state
  else
    match seedOf hub given with
    | .error _ => state
    | .ok seed =>
      { state.setHub index { hub with task := .attaching state.receivers.length seed } with
        receivers := state.receivers ++ [newReceiver index seed] }

/-- Record a value for all consumers that were attached to a hub. -/
def expect (index : Nat) (value : T) (receiver : Receiver T) : Receiver T :=
  if receiver.hub = index then { receiver with expected := receiver.expected ++ [value] }
  else receiver

/-- Begin to send a value. A price hub may keep a new seed. -/
def send (state : State T) (index : Nat) (item : Queued T) (seed : Option (Queued T)) : State T :=
  let hub := state.hubs index
  { state.setHub index
      { hub with
        seed := seed.or hub.seed
        task := .sending item hub.consumers } with
    receivers := state.receivers.map (expect index item.value) }

def finish (state : State T) (index : Nat) (reason : Option String) : State T :=
  let hub := state.hubs index
  state.setHub index { hub with stopped := true, task := .finishing reason hub.consumers }

/-- The owner asks whether anybody is left, and stops the hub if not. -/
def active (state : State T) (index : Nat) : State T :=
  let hub := state.hubs index
  if hub.consumers = [] then state.setHub index { hub with stopped := true } else state

/-! ## Steps of the holder of a lock -/

/-- One step of an enqueue for a consumer. -/
def enqueue (capacity : Nat) (item : Queued T) (total : Nat) (receiver : Receiver T) :
    Nat × Receiver T :=
  let stage := (receiver.inbound.map Prod.snd).getD .start
  let (total, channel, next) := enqueueStep capacity item total receiver.channel stage
  (total, { receiver with channel, inbound := next.map fun stage => (item, stage) })

/-- A consumer that is told why it is left. -/
def signal (reason : Option String) (receiver : Receiver T) : Receiver T :=
  { receiver with terminal := reason, signalled := true, inbound := none }

/-- Visit the next consumer of a value: a refused one is told and left. -/
def sendStep (state : State T) (index : Nat) (item : Queued T) (place : Nat) (rest : List Nat)
    (receiver : Receiver T) : State T :=
  let hub := state.hubs index
  match receiver.inbound with
  | some (_, .refused reason) =>
    (state.setHub index
      { hub with
        consumers := hub.consumers.erase place
        task := .sending item rest }).setReceiver place (signal (some reason) receiver)
  | _ =>
    let (total, after) := enqueue hub.kind.capacity item state.total receiver
    let task := if after.inbound = none then .sending item rest else .sending item (place :: rest)
    { (state.setHub index { hub with task }).setReceiver place after with total }

/-- The seed of a new consumer: a refused one ends the attempt. -/
def seedStep (state : State T) (index : Nat) (item : Queued T) (place : Nat)
    (receiver : Receiver T) : State T :=
  let hub := state.hubs index
  match receiver.inbound with
  | some (_, .refused _) =>
    (state.setHub index { hub with task := .idle }).setReceiver place
      { receiver with closed := true, inbound := none }
  | _ =>
    let (total, after) := enqueue hub.kind.capacity item state.total receiver
    let seed := if after.inbound = none then none else some item
    { (state.setHub index { hub with task := .attaching place seed }).setReceiver place after with
      total }

/-- Give a consumer its number. When the numbers run out its seed is dropped. -/
def insertStep (state : State T) (index : Nat) (place : Nat) (receiver : Receiver T) : State T :=
  let hub := state.hubs index
  if hub.next + 1 < 2 ^ 64 then
    (state.setHub index
      { hub with
        consumers := hub.consumers ++ [place]
        next := hub.next + 1
        task := .idle }).setReceiver place { receiver with returned := true }
  else
    match receiver.channel.queue with
    | [] =>
      (state.setHub index { hub with task := .idle }).setReceiver place
        { receiver with closed := true }
    | item :: queue =>
      (state.setHub index { hub with task := .attaching place (some item) }).setReceiver place
        { receiver with
          channel := { receiver.channel with queue }
          inbound := some (item, .dropping) }

def hubStep (state : State T) (index : Nat) : Option (State T) :=
  let hub := state.hubs index
  match hub.task with
  | .idle => none
  | .sending _ [] => some (state.setHub index { hub with task := .idle })
  | .sending item (place :: rest) =>
    (state.receivers[place]?).map (sendStep state index item place rest)
  | .attaching place (some item) =>
    (state.receivers[place]?).map (seedStep state index item place)
  | .attaching place none => (state.receivers[place]?).map (insertStep state index place)
  | .finishing _ [] => some (state.setHub index { hub with consumers := [], task := .idle })
  | .finishing reason (place :: rest) =>
    (state.receivers[place]?).map fun receiver =>
      (state.setHub index { hub with task := .finishing reason rest }).setReceiver place
        (signal reason receiver)

/-! ## Receivers -/

/-- Begin to receive: a closed receiver ends, an error closes it. -/
def next (receiver : Receiver T) : Receiver T :=
  if receiver.closed then receiver
  else if receiver.terminal.isSome then { receiver with closed := true, task := .closing }
  else { receiver with task := .selecting }

/-- Take the oldest item out of the queue. -/
def take (receiver : Receiver T) (draining : Bool) : Receiver T :=
  match receiver.channel.queue with
  | [] => { receiver with task := .idle }
  | item :: queue =>
    { receiver with
      channel := { receiver.channel with queue }
      delivered :=
        if draining then receiver.delivered else receiver.delivered ++ [item.value]
      task := .refunding item false draining }

/-- The next step of a receiver. Leaving a hub waits for its lock. -/
def receiverStep (state : State T) (place : Nat) (receiver : Receiver T) : Option (State T) :=
  let hub := state.hubs receiver.hub
  match receiver.task with
  | .idle => none
  | .selecting =>
    if receiver.signalled ∨ place ∉ hub.consumers then
      some (state.setReceiver place { receiver with closed := true, task := .closing })
    else some (state.setReceiver place { receiver with task := .receiving })
  | .receiving => some (state.setReceiver place (take receiver false))
  | .refunding item false draining =>
    some (state.setReceiver place
      { receiver with
        channel :=
          { receiver.channel with bytes := fetchSub receiver.channel.bytes item.bytes }
        task := .refunding item true draining })
  | .refunding item true draining =>
    some { state.setReceiver place
        { receiver with task := if draining then .draining else .idle } with
      total := fetchSub state.total item.bytes }
  | .closing =>
    match hub.task with
    | .idle =>
      some ((state.setHub receiver.hub
        { hub with consumers := hub.consumers.erase place }).setReceiver place
          { receiver with
            channel := { receiver.channel with closed := true }
            task := .draining })
    | _ => none
  | .draining => some (state.setReceiver place (take receiver true))

/-! ## Runs -/

/-- Operations on a hub begin when its lock is free. -/
def locked (state : State T) (index : Nat) (after : State T) : Option (State T) :=
  match (state.hubs index).task with
  | .idle => some after
  | _ => none

/-- A caller has a receiver once it is returned, and does one thing with it at a
time. -/
def held (state : State T) (place : Nat) (change : Receiver T → Receiver T) : Option (State T) :=
  match state.receivers[place]? with
  | none => none
  | some receiver =>
    if receiver.returned = true ∧ receiver.task matches .idle then
      some (state.setReceiver place (change receiver))
    else none

def act (state : State T) : Action T → Option (State T)
  | .attach hub seed => state.locked hub (state.attach hub seed)
  | .send hub item seed => state.locked hub (state.send hub item seed)
  | .clearSeed hub => state.locked hub (state.setHub hub { state.hubs hub with seed := none })
  | .finish hub reason => state.locked hub (state.finish hub reason)
  | .active hub => state.locked hub (state.active hub)
  | .hubStep hub => state.hubStep hub
  | .next place => state.held place next
  | .close place =>
    state.held place fun receiver => { receiver with closed := true, task := .closing }
  | .receiverStep place => (state.receivers[place]?).bind (state.receiverStep place)

def step (before : State T) (action : Action T) (after : State T) : Prop :=
  before.act action = some after

end State

end MarketCow.Sdk.Fanout
