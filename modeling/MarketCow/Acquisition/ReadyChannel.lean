import MarketCow.Library.Transition

/-!
# The readiness of lanes

Every socket has a lane of its own for its batches, and all lanes share one
channel for the identifiers of lanes that have some. A flag of the lane says
that its identifier is on its way; producers set it after they have sent, the
owner clears it before it receives. Identifiers of lanes that are gone stay in
the channel until the owner purges it.
-/

namespace MarketCow.Acquisition

open Library

/-- A lane the owner knows. `unsignalled` counts the producers that have sent
and not yet looked at the flag, `delivering` those that have set it and not yet
used the channel. -/
structure ReadyLane where
  id : Nat
  batches : Nat
  queued : Bool
  unsignalled : Nat
  delivering : Nat
  cooling : Bool
  ended : Bool
  deriving DecidableEq

def ReadyLane.fresh (id : Nat) (recovering : Bool) : ReadyLane where
  id
  batches := 0
  queued := false
  unsignalled := 0
  delivering := 0
  cooling := recovering
  ended := false

/-- Where the owner is: taking a batch from a lane, noticing the ends of tasks,
or purging the channel. -/
inductive Coordinator
  | idle
  | popped (id : Nat)
  | consumed (id : Nat)
  | received (id : Nat)
  | signalling (id : Nat)
  | delivering (id : Nat)
  | noticing
  | purging (retained : List Nat)
  | restoring (retained : List Nat)
  deriving DecidableEq

structure ReadyChannel where
  maximumShards : Nat
  nextId : Nat
  lanes : List ReadyLane
  channel : List Nat
  coordinator : Coordinator

namespace ReadyChannel

def empty (maximumShards : Nat) : ReadyChannel where
  maximumShards
  nextId := 0
  lanes := []
  channel := []
  coordinator := .idle

def setLane (ready : ReadyChannel) (position : Nat) (lane : ReadyLane) : ReadyChannel :=
  { ready with lanes := ready.lanes.set position lane }

/-- A lane with this identifier is in use. -/
def Live (ready : ReadyChannel) (id : Nat) : Prop :=
  id ∈ ready.lanes.map ReadyLane.id

instance (ready : ReadyChannel) (id : Nat) : Decidable (ready.Live id) :=
  inferInstanceAs (Decidable (id ∈ _))

/-- The channel takes no more. -/
def Full (ready : ReadyChannel) : Prop :=
  ready.maximumShards ≤ ready.channel.length

instance (ready : ReadyChannel) : Decidable ready.Full :=
  inferInstanceAs (Decidable (_ ≤ _))

/-- Add a lane; the identifiers never run out. -/
def spawn (ready : ReadyChannel) (recovering : Bool) : ReadyChannel :=
  { ready with
    nextId := ready.nextId + 1
    lanes := ready.lanes ++ [ReadyLane.fresh ready.nextId recovering] }

end ReadyChannel

inductive ReadyAction
  | add
  | start (position : Nat)
  | send (position : Nat)
  | signal (position : Nat)
  | deliver (position : Nat)
  | overflow (position : Nat)
  | exit (position : Nat)
  | pop
  | miss
  | consume
  | receive
  | check
  | resignal
  | redeliver
  | refuse
  | notice
  | replace (position : Nat)
  | remove (position : Nat)
  | purge
  | drain
  | drained
  | restore
  | differ
  | restored
  deriving DecidableEq

/-- The steps of producers, of the owner and of ending tasks. A lane that
replaces a failed one pauses for a second before its socket connects; the owner
has purged the channel by then. -/
inductive ReadyStep : ReadyChannel → ReadyAction → ReadyChannel → Prop
  | added
      {ready : ReadyChannel}
      (idle : ready.coordinator = .idle)
      (room : ready.lanes.length < ready.maximumShards) :
      ReadyStep ready .add (ready.spawn false)
  | started
      {ready : ReadyChannel}
      {position : Nat}
      {lane : ReadyLane}
      (there : ready.lanes[position]? = some lane)
      (noticed : ready.coordinator ≠ .noticing)
      (purged : ∀ retained, ready.coordinator ≠ .purging retained) :
      ReadyStep ready (.start position) (ready.setLane position { lane with cooling := false })
  | sent
      {ready : ReadyChannel}
      {position : Nat}
      {lane : ReadyLane}
      (there : ready.lanes[position]? = some lane)
      (started : lane.cooling = false)
      (running : lane.ended = false)
      (room : lane.batches < 2048) :
      ReadyStep ready (.send position)
        (ready.setLane position
          { lane with batches := lane.batches + 1, unsignalled := lane.unsignalled + 1 })
  | signalled
      {ready : ReadyChannel}
      {position unsignalled : Nat}
      {lane : ReadyLane}
      (there : ready.lanes[position]? = some lane)
      (signalling : lane.unsignalled = unsignalled + 1) :
      ReadyStep ready (.signal position)
        (ready.setLane position
          { lane with
            queued := true
            unsignalled
            delivering := if lane.queued then lane.delivering else lane.delivering + 1 })
  | delivered
      {ready : ReadyChannel}
      {position delivering : Nat}
      {lane : ReadyLane}
      (there : ready.lanes[position]? = some lane)
      (holds : lane.delivering = delivering + 1)
      (room : ¬ready.Full) :
      ReadyStep ready (.deliver position)
        { ready.setLane position { lane with delivering } with
          channel := ready.channel ++ [lane.id] }
  | overflowed
      {ready : ReadyChannel}
      {position delivering : Nat}
      {lane : ReadyLane}
      (there : ready.lanes[position]? = some lane)
      (holds : lane.delivering = delivering + 1)
      (full : ready.Full) :
      ReadyStep ready (.overflow position)
        (ready.setLane position { lane with queued := false, delivering })
  | exited
      {ready : ReadyChannel}
      {position : Nat}
      {lane : ReadyLane}
      (there : ready.lanes[position]? = some lane)
      (signalled : lane.unsignalled = 0)
      (delivered : lane.delivering = 0) :
      ReadyStep ready (.exit position) (ready.setLane position { lane with ended := true })
  | popped
      {ready : ReadyChannel}
      {id : Nat}
      {channel : List Nat}
      (idle : ready.coordinator = .idle)
      (front : ready.channel = id :: channel) :
      ReadyStep ready .pop { ready with channel, coordinator := .popped id }
  | missed
      {ready : ReadyChannel}
      {id : Nat}
      (holds : ready.coordinator = .popped id)
      (gone : ¬ready.Live id) :
      ReadyStep ready .miss { ready with coordinator := .idle }
  | consumed
      {ready : ReadyChannel}
      {position : Nat}
      {lane : ReadyLane}
      (holds : ready.coordinator = .popped lane.id)
      (there : ready.lanes[position]? = some lane) :
      ReadyStep ready .consume
        { ready.setLane position { lane with queued := false } with
          coordinator := .consumed lane.id }
  | received
      {ready : ReadyChannel}
      {position : Nat}
      {lane : ReadyLane}
      (holds : ready.coordinator = .consumed lane.id)
      (there : ready.lanes[position]? = some lane) :
      ReadyStep ready .receive
        { ready.setLane position { lane with batches := lane.batches - 1 } with
          coordinator := .received lane.id }
  | checked
      {ready : ReadyChannel}
      {position : Nat}
      {lane : ReadyLane}
      (holds : ready.coordinator = .received lane.id)
      (there : ready.lanes[position]? = some lane) :
      ReadyStep ready .check
        { ready with
          coordinator := if lane.batches = 0 then .idle else .signalling lane.id }
  | resignalled
      {ready : ReadyChannel}
      {position : Nat}
      {lane : ReadyLane}
      (holds : ready.coordinator = .signalling lane.id)
      (there : ready.lanes[position]? = some lane) :
      ReadyStep ready .resignal
        { ready.setLane position { lane with queued := true } with
          coordinator := if lane.queued then .idle else .delivering lane.id }
  | redelivered
      {ready : ReadyChannel}
      {id : Nat}
      (holds : ready.coordinator = .delivering id)
      (room : ¬ready.Full) :
      ReadyStep ready .redeliver
        { ready with channel := ready.channel ++ [id], coordinator := .idle }
  | refused
      {ready : ReadyChannel}
      {position : Nat}
      {lane : ReadyLane}
      (holds : ready.coordinator = .delivering lane.id)
      (there : ready.lanes[position]? = some lane)
      (full : ready.Full) :
      ReadyStep ready .refuse
        { ready.setLane position { lane with queued := false } with coordinator := .idle }
  | noticing
      {ready : ReadyChannel}
      (idle : ready.coordinator = .idle) :
      ReadyStep ready .notice { ready with coordinator := .noticing }
  | replaced
      {ready : ReadyChannel}
      {position : Nat}
      {lane : ReadyLane}
      (notices : ready.coordinator = .noticing)
      (there : ready.lanes[position]? = some lane)
      (ended : lane.ended = true) :
      ReadyStep ready (.replace position)
        ({ ready with lanes := ready.lanes.eraseIdx position }.spawn true)
  | removed
      {ready : ReadyChannel}
      {position : Nat}
      {lane : ReadyLane}
      (notices : ready.coordinator = .noticing)
      (there : ready.lanes[position]? = some lane)
      (ended : lane.ended = true) :
      ReadyStep ready (.remove position)
        { ready with lanes := ready.lanes.eraseIdx position }
  | purging
      {ready : ReadyChannel}
      (notices : ready.coordinator = .noticing) :
      ReadyStep ready .purge { ready with coordinator := .purging [] }
  | drained
      {ready : ReadyChannel}
      {id : Nat}
      {channel retained : List Nat}
      (purges : ready.coordinator = .purging retained)
      (front : ready.channel = id :: channel) :
      ReadyStep ready .drain
        { ready with
          channel
          coordinator := .purging (if ready.Live id then retained ++ [id] else retained) }
  | emptied
      {ready : ReadyChannel}
      {retained : List Nat}
      (purges : ready.coordinator = .purging retained)
      (empty : ready.channel = []) :
      ReadyStep ready .drained { ready with coordinator := .restoring retained }
  | restored
      {ready : ReadyChannel}
      {id : Nat}
      {retained : List Nat}
      (restores : ready.coordinator = .restoring (id :: retained))
      (room : ¬ready.Full) :
      ReadyStep ready .restore
        { ready with channel := ready.channel ++ [id], coordinator := .restoring retained }
  | differed
      {ready : ReadyChannel}
      {id : Nat}
      {retained : List Nat}
      (restores : ready.coordinator = .restoring (id :: retained))
      (full : ready.Full) :
      ReadyStep ready .differ { ready with coordinator := .idle }
  | purged
      {ready : ReadyChannel}
      (restores : ready.coordinator = .restoring []) :
      ReadyStep ready .restored { ready with coordinator := .idle }

abbrev ReadyRun (maximumShards : Nat) : List ReadyAction → ReadyChannel → Prop :=
  Run ReadyStep (ReadyChannel.empty maximumShards)

end MarketCow.Acquisition
