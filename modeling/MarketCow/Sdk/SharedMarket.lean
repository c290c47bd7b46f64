import MarketCow.Library.Transition
import MarketCow.Live.MarketState

/-!
# Shared markets

All consumers of a market stream share one owner, which takes the frames of a
connection into a state and then hands them out. A consumer that joins while the
owner is connected is given the state as a frame, and afterwards leaves out the
frames that are not newer than this one.

The owner does not hold the lock of its consumers while it takes a frame or
notes that a connection was lost, so a consumer may join in between.
-/

namespace MarketCow.Sdk.SharedMarket

open Library
open Live

/-- What a consumer is handed. The state of the owner after a frame is kept for
the record. -/
inductive MarketDelivery
  | frame (frame : MarketFrame) (owner : MarketState)
  | recovering (reason : String) (retryAfterMs : Nat)

/-! ## Consumers -/

/-- A consumer that joined, and what it is due since then. -/
structure Consumer where
  seedSequence : Option Nat
  due : List MarketDelivery

/-- What a consumer remembers between two deliveries. -/
structure Receiver where
  seedSequence : Option Nat
  seedPending : Bool

/-- What becomes of the next event: it is left out, or it is returned. -/
def Receiver.next (receiver : Receiver) (event : MarketDelivery) :
    Receiver × Option MarketDelivery :=
  match event with
  | .recovering _ _ => (receiver, some event)
  | .frame frame _ =>
    if !receiver.seedPending && receiver.seedSequence.any fun sequence =>
        frame.stateSequence ≤ sequence then (receiver, none)
    else ({ receiver with seedPending := false }, some event)

/-- A consumer that folds what it is returned into a state of its own, and begins
again with a blank state when the stream recovers. -/
structure Follower where
  receiver : Receiver
  state : MarketState

def Follower.start (blank : MarketState) (seedSequence : Option Nat) : Follower where
  receiver := { seedSequence, seedPending := seedSequence.isSome }
  state := blank

def Follower.take (codec : Codec) (blank state : MarketState) :
    MarketDelivery → Except String MarketState
  | .frame frame _ => state.apply codec frame
  | .recovering _ _ => .ok blank

def Follower.follow (codec : Codec) (blank : MarketState) (follower : Follower)
    (event : MarketDelivery) : Except String Follower :=
  match follower.receiver.next event with
  | (receiver, none) => .ok { follower with receiver }
  | (receiver, some event) =>
    (Follower.take codec blank follower.state event).map fun state => { receiver, state }

/-! ## The owner -/

/-- How far the owner is. -/
inductive Phase
  | idle
  | streaming
  /-- The state has taken a frame. -/
  | applied (frame : MarketFrame)
  /-- The owner has noted that it is connected. -/
  | flagged (frame : MarketFrame)
  /-- The connection is lost, and the state is no longer available. -/
  | lost (reason : String) (retryAfterMs : Nat)
  /-- The owner has noted that it is not connected. -/
  | recovering (reason : String) (retryAfterMs : Nat)
  /-- The owner is about to stop. -/
  | stopping
  | finished

/-- A hub. A consumer that is joining holds the lock of the channel, and has read
whether the owner is connected. -/
structure Hub where
  state : MarketState
  connected : Bool
  phase : Phase
  joining : Option Bool
  consumers : List Consumer

def Hub.new (state : MarketState) : Hub where
  state
  connected := false
  phase := .idle
  joining := none
  consumers := []

inductive Action
  | connect
  /-- The connection cannot be made. -/
  | refuse (reason : String) (retryAfterMs : Nat)
  | receive (frame : MarketFrame) (retryAfterMs : Nat)
  | lose (reason : String) (retryAfterMs : Nat)
  | flag
  | send
  | unflag
  | recover
  | stop
  | darken
  | finish
  | attach
  | seed
  /-- The queue of a new consumer does not take its seed. -/
  | abandon

namespace Hub

/-- The owner hands out a delivery under the lock of the channel. -/
def hand (hub : Hub) (event : MarketDelivery) (phase : Phase) : Option Hub :=
  match hub.joining with
  | some _ => none
  | none =>
    some
      { hub with
        phase
        consumers := hub.consumers.map fun consumer =>
          { consumer with due := consumer.due ++ [event] } }

/-- The state is shown as unavailable. -/
def unavailable (state : MarketState) : MarketState := { state with sourceStatus := "unavailable" }

/-- A frame is taken, or ends the connection. -/
def receive (codec : Codec) (hub : Hub) (frame : MarketFrame) (retryAfterMs : Nat) : Hub :=
  match hub.state.apply codec frame with
  | .ok state => { hub with state, phase := .applied frame }
  | .error reason =>
    { hub with state := unavailable hub.state, phase := .lost reason retryAfterMs }

/-- The seed of a consumer that joins. -/
def seedOf (hub : Hub) (connected : Bool) : Consumer :=
  match connected, hub.state.snapshot with
  | true, some frame =>
    { seedSequence := some frame.stateSequence, due := [.frame frame hub.state] }
  | _, _ => { seedSequence := none, due := [] }

/-- A consumer joins with a seed, or is given up. -/
def join (hub : Hub) (change : Bool → Hub) : Option Hub :=
  hub.joining.map change

/-- The owner stops for good, under the lock of the channel. -/
def finish (hub : Hub) : Option Hub :=
  match hub.joining with
  | some _ => none
  | none => some { hub with phase := .finished }

def act (codec : Codec) (hub : Hub) : Action → Option Hub
  | .connect =>
    match hub.phase with
    | .idle =>
      some
        { hub with
          state := unavailable { hub.state with sequence := none }
          phase := .streaming }
    | _ => none
  | .refuse reason retryAfterMs =>
    match hub.phase with
    | .idle => hub.hand (.recovering reason retryAfterMs) .idle
    | _ => none
  | .receive frame retryAfterMs =>
    match hub.phase with
    | .streaming => some (hub.receive codec frame retryAfterMs)
    | _ => none
  | .lose reason retryAfterMs =>
    match hub.phase with
    | .streaming =>
      some { hub with state := unavailable hub.state, phase := .lost reason retryAfterMs }
    | _ => none
  | .flag =>
    match hub.phase with
    | .applied frame => some { hub with connected := true, phase := .flagged frame }
    | _ => none
  | .send =>
    match hub.phase with
    | .flagged frame => hub.hand (.frame frame hub.state) .streaming
    | _ => none
  | .unflag =>
    match hub.phase with
    | .lost reason retryAfterMs =>
      some { hub with connected := false, phase := .recovering reason retryAfterMs }
    | _ => none
  | .recover =>
    match hub.phase with
    | .recovering reason retryAfterMs => hub.hand (.recovering reason retryAfterMs) .idle
    | _ => none
  | .stop =>
    match hub.phase with
    | .idle => some { hub with connected := false, phase := .stopping }
    | .streaming => some { hub with connected := false, phase := .stopping }
    | _ => none
  | .darken =>
    match hub.phase with
    | .stopping => some { hub with state := unavailable hub.state }
    | _ => none
  | .finish =>
    match hub.phase with
    | .idle => hub.finish
    | .recovering _ _ => hub.finish
    | .stopping => hub.finish
    | _ => none
  | .attach =>
    match hub.phase, hub.joining with
    | .finished, _ => none
    | _, some _ => none
    | _, none => some { hub with joining := some hub.connected }
  | .seed =>
    hub.join fun connected =>
      { hub with joining := none, consumers := hub.consumers ++ [hub.seedOf connected] }
  | .abandon => hub.join fun _ => { hub with joining := none }

def step (codec : Codec) (before : Hub) (action : Action) (after : Hub) : Prop :=
  before.act codec action = some after

end Hub

end MarketCow.Sdk.SharedMarket
