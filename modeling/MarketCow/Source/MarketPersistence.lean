import MarketCow.Library.Fallible
import MarketCow.Library.Transition
import MarketCow.Source.MarketReplay

/-!
# The persistence queue

A group that waits for the disk is pending in the lane of its market, and the
market is scheduled for a turn. A writer takes the market in front and looks at
its lane. Two budgets, one of the lane and one of all lanes, count the work
until the writer lets go of it.
-/

namespace MarketCow.Source

open Library

/-! ## Budgets -/

structure Limits where
  batches : UInt64
  bytes : UInt64
  deriving DecidableEq

/-- Who counts a part of a charge. -/
inductive Scope
  | market
  | aggregate
  deriving DecidableEq

inductive Measure
  | batches
  | bytes
  deriving DecidableEq

/-- A part of a charge, which its own budget counts in one atomic operation. -/
abbrev Part := Scope × Measure

def Scope.name : Scope → String
  | .market => "market"
  | .aggregate => "aggregate"

/-- What an item adds to a counter. -/
def Measure.amount (size : Nat) : Measure → Nat
  | .batches => 1
  | .bytes => size

structure Budget where
  limits : Limits
  batches : Nat
  bytes : Nat
  someBatches : 0 < limits.batches.toNat
  someBytes : 0 < limits.bytes.toNat

namespace Budget

def new (limits : Limits) : Except SourceError Budget :=
  if valid : 0 < limits.batches.toNat ∧ 0 < limits.bytes.toNat then
    .ok ⟨limits, 0, 0, valid.1, valid.2⟩
  else .error (.message "persistence queue limits")

def used (budget : Budget) : Measure → Nat
  | .batches => budget.batches
  | .bytes => budget.bytes

def set (budget : Budget) (measure : Measure) (value : Nat) : Budget :=
  match measure with
  | .batches => { budget with batches := value }
  | .bytes => { budget with bytes := value }

def rejected (budget : Budget) (limiter : String) (size : Nat) : SourceError :=
  .capacityExhausted
    { limiter
      requestedBytes := size
      usedBytes := budget.bytes
      limitBytes := budget.limits.bytes.toNat
      usedBatches := some budget.batches
      limitBatches := some budget.limits.batches.toNat }

/-- Count one more batch. An item that could never fit is refused before. -/
def reserveBatch (budget : Budget) (scope : Scope) (size : Nat) : Except SourceError Budget := do
  ensure (decide (size > 0)) "empty persistence item"
  if size > budget.limits.bytes.toNat then
    .error (budget.rejected ("persistence_" ++ scope.name ++ "_item_bytes") size)
  else if budget.batches + 1 > budget.limits.batches.toNat then
    .error (budget.rejected ("persistence_" ++ scope.name ++ "_batches") size)
  else .ok (budget.set .batches (budget.batches + 1))

def reserveBytes (budget : Budget) (scope : Scope) (size : Nat) : Except SourceError Budget :=
  if budget.bytes + size > budget.limits.bytes.toNat then
    .error (budget.rejected ("persistence_" ++ scope.name ++ "_bytes") size)
  else .ok (budget.set .bytes (budget.bytes + size))

/-- Count a part, if it is one that this budget counts. -/
def reserve
    (budget : Budget) (owner : Scope) (part : Part) (size : Nat) : Except SourceError Budget :=
  if part.1 = owner then
    match part.2 with
    | .batches => budget.reserveBatch owner size
    | .bytes => budget.reserveBytes owner size
  else .ok budget

/-- Stop to count a part. -/
def giveBack (budget : Budget) (owner : Scope) (part : Part) (size : Nat) : Budget :=
  if part.1 = owner then
    budget.set part.2 (fetchSub (budget.used part.2) (part.2.amount size))
  else budget

end Budget

/-- The parts that are counted for an item. -/
structure Charge where
  size : Nat
  held : List Part
  deriving DecidableEq

namespace Charge

/-- The order in which a push reserves. -/
def order : List Part :=
  [(.market, .batches), (.market, .bytes), (.aggregate, .batches), (.aggregate, .bytes)]

def none (size : Nat) : Charge :=
  ⟨size, []⟩

def full (size : Nat) : Charge :=
  ⟨size, order⟩

def hold (charge : Charge) (part : Part) : Charge :=
  { charge with held := charge.held ++ [part] }

def drop (charge : Charge) (part : Part) : Charge :=
  { charge with held := charge.held.erase part }

end Charge

/-! ## The queue -/

structure Work (T : Type) where
  marketId : String
  streamEpoch : String
  marketCursor : Option Nat
  payload : T
  bytes : Nat

structure PendingWork (T : Type) where
  work : Work T
  readyForDisk : Bool

/-- What keeps a lane locked from one step to the next. -/
inductive LaneHold (T : Type)
  | pushing (pending : PendingWork T) (charge : Charge)
  | refunding (cause : SourceError) (charge : Charge)
  | abandoning (charges : List Charge)

/-- The lane of a market. What was ever admitted to it, handed to a writer or
abandoned is kept as well. -/
structure PersistenceLane (T : Type) where
  marketId : String
  epoch : String
  budget : Budget
  pending : List (PendingWork T)
  draining : Bool
  retired : Bool
  writerActive : Bool
  hold : Option (LaneHold T)
  admitted : List (Work T)
  handed : List (Work T)
  abandoned : List (Work T)

def PersistenceLane.fresh
    {T : Type} (marketId epoch : String) (budget : Budget) : PersistenceLane T where
  marketId
  epoch
  budget
  pending := []
  draining := false
  retired := false
  writerActive := false
  hold := none
  admitted := []
  handed := []
  abandoned := []

/-- Where a writer is: it takes a market, examines its lane, puts the market
back when work is left, and holds the work it took. -/
inductive WriterPhase (T : Type)
  | idle
  | selected (marketId : String) (handle : Option Nat)
  | examined (marketId : String) (handle : Nat) (work : Option (Work T)) (retry : Bool)
  | holding (handle : Nat) (work : Work T)
  | releasing (handle : Nat) (charge : Charge)

/-- The writer holds what it took, if it took any. -/
def WriterPhase.resumed {T : Type} (handle : Nat) : Option (Work T) → WriterPhase T
  | some work => .holding handle work
  | none => .idle

/-- Lanes stay after they are taken out of the registry: a push may still hold
one. -/
structure MarketPersistence (T : Type) where
  registry : TreeMap String Nat
  scheduled : TreeSet String
  turn : List String
  lanes : List (PersistenceLane T)
  aggregate : Budget
  accepting : Bool
  writers : List (WriterPhase T)

namespace MarketPersistence

variable {T : Type}

def new (aggregate : Limits) : Except SourceError (MarketPersistence T) := do
  let aggregate ← Budget.new aggregate
  .ok
    { registry := ∅
      scheduled := ∅
      turn := []
      lanes := []
      aggregate
      accepting := true
      writers := [] }

variable (queue : MarketPersistence T)

def setLane (handle : Nat) (lane : PersistenceLane T) : MarketPersistence T :=
  { queue with lanes := queue.lanes.set handle lane }

def setWriter (writer : Nat) (phase : WriterPhase T) : MarketPersistence T :=
  { queue with writers := queue.writers.set writer phase }

/-- The registered lane of a market. -/
def lane (queue : MarketPersistence T) (marketId streamEpoch : String) : Except SourceError Nat :=
  match queue.registry[marketId]? with
  | none => .error (.message "persistence market not registered")
  | some handle => do
    ensure (queue.lanes[handle]?.any fun lane => lane.epoch == streamEpoch)
      "persistence market epoch changed"
    .ok handle

def register
    (marketId streamEpoch : String)
    (limits : Limits) : Except SourceError (MarketPersistence T) := do
  ensure queue.accepting "persistence queue closed"
  ensure (!marketId.isEmpty && !streamEpoch.isEmpty) "persistence market identity"
  ensure (decide (limits.batches ≤ queue.aggregate.limits.batches) &&
    decide (limits.bytes ≤ queue.aggregate.limits.bytes)) "market persistence limits exceed aggregate"
  let budget ← Budget.new limits
  match queue.registry[marketId]? with
  | some handle =>
    ensure
      (queue.lanes[handle]?.any fun lane =>
        lane.epoch == streamEpoch && decide (lane.budget.limits = limits))
      "persistence registration differs"
    .ok queue
  | none =>
    ensure (decide (queue.registry.size < 2048)) "persistence market limit"
    .ok
      { queue with
        registry := queue.registry.insert marketId queue.lanes.length
        lanes := queue.lanes ++ [PersistenceLane.fresh marketId streamEpoch budget] }

/-- A registration adds an empty lane, or finds one that agrees. -/
theorem register_cases
    {queue : MarketPersistence T} (registers : queue.register marketId streamEpoch limits = .ok after) :
    after = queue ∨
      queue.registry[marketId]? = none ∧ ∃ budget, Budget.new limits = .ok budget ∧
        after =
          { queue with
            registry := queue.registry.insert marketId queue.lanes.length
            lanes := queue.lanes ++ [PersistenceLane.fresh marketId streamEpoch budget] } := by
  unfold register at registers
  iterate 3 obtain ⟨_, _, registers⟩ := bind_ok.mp registers
  obtain ⟨budget, made, registers⟩ := bind_ok.mp registers
  split at registers
  · obtain ⟨_, _, registered⟩ := bind_ok.mp registers
    exact .inl (ok.inj registered).symm
  · rename_i absent
    obtain ⟨_, _, registered⟩ := bind_ok.mp registers
    exact .inr ⟨absent, budget, made, (ok.inj registered).symm⟩

/-- Give a market a turn, unless it has one. -/
def schedule (queue : MarketPersistence T) (marketId : String) : MarketPersistence T :=
  if marketId ∈ queue.scheduled then queue
  else
    { queue with
      scheduled := queue.scheduled.insert marketId
      turn := queue.turn ++ [marketId] }

/-! ### Pushes -/

/-- What a push checks before it has a lane. -/
def locate (marketId streamEpoch : String) : Except SourceError Nat :=
  if queue.accepting then queue.lane marketId streamEpoch else .error .writerUnavailable

/-- What a push checks when it has locked its lane. -/
def checkPush
    (lane : PersistenceLane T) : Except SourceError Unit := do
  ensure (!lane.draining && !lane.retired) "persistence market draining"
  if queue.accepting then .ok () else .error .writerUnavailable

/-- Count the next part of a push. A push that is refused gives back what it
has. -/
def reserve (queue : MarketPersistence T) (handle : Nat) (lane : PersistenceLane T)
    (pending : PendingWork T) (charge : Charge) (part : Part) : MarketPersistence T :=
  match lane.budget.reserve .market part charge.size,
      queue.aggregate.reserve .aggregate part charge.size with
  | .ok budget, .ok aggregate =>
    { queue.setLane handle { lane with budget, hold := some (.pushing pending (charge.hold part)) }
        with aggregate }
  | .error cause, _ => queue.setLane handle { lane with hold := some (.refunding cause charge) }
  | _, .error cause => queue.setLane handle { lane with hold := some (.refunding cause charge) }

/-- The work waits in its lane, and the market has a turn. -/
def push
    (handle : Nat) (lane : PersistenceLane T) (pending : PendingWork T) : MarketPersistence T :=
  (queue.setLane handle
    { lane with
      pending := lane.pending ++ [pending]
      hold := none
      admitted := lane.admitted ++ [pending.work] }).schedule lane.marketId

/-- Stop to count a part; the lane goes on with what is left. -/
def giveBack (queue : MarketPersistence T) (handle : Nat) (lane : PersistenceLane T) (part : Part)
    (size : Nat) (hold : Option (LaneHold T)) : MarketPersistence T :=
  { queue.setLane handle
      { lane with budget := lane.budget.giveBack .market part size, hold } with
    aggregate := queue.aggregate.giveBack .aggregate part size }

/-! ### Writers -/

/-- Take the market in front and find its lane. -/
def select (writer : Nat) (marketId : String) (turn : List String) : MarketPersistence T :=
  { queue.setWriter writer (.selected marketId queue.registry[marketId]?) with
    turn
    scheduled := queue.scheduled.erase marketId }

/-- The work in front, when a writer may take it. -/
def takes (lane : PersistenceLane T) : Option (Work T × List (PendingWork T)) :=
  match lane.pending with
  | [] => none
  | first :: pending =>
    if !lane.retired && !lane.writerActive && first.readyForDisk then some (first.work, pending)
    else none

def examine (writer : Nat) (marketId : String) (handle : Nat)
    (lane : PersistenceLane T) : MarketPersistence T :=
  match takes lane with
  | some (work, pending) =>
    (queue.setLane handle
      { lane with
        pending
        writerActive := true
        handed := lane.handed ++ [work] }).setWriter writer
      (.examined marketId handle (some work) (!lane.retired && !pending.isEmpty))
  | none =>
    queue.setWriter writer
      (.examined marketId handle none (!lane.retired && !lane.pending.isEmpty))

/-- Put the market back when its lane has to be tried again. -/
def settle (writer : Nat) (marketId : String) (handle : Nat) (work : Option (Work T))
    (retry : Bool) : MarketPersistence T :=
  let queue := queue.setWriter writer (WriterPhase.resumed handle work)
  if retry ∧ queue.registry[marketId]? = some handle then queue.schedule marketId else queue

/-! ### Retirement -/

def checkRetire
    (handle : Nat) (lane : PersistenceLane T) : Except SourceError Unit := do
  ensure (lane.draining && !lane.retired && lane.pending.isEmpty && lane.budget.batches == 0 &&
    !lane.writerActive) "persistence retirement has outstanding work"
  ensure (queue.registry[lane.marketId]? == some handle)
    "persistence retirement incarnation changed"

def finishRetire (handle : Nat) (lane : PersistenceLane T) : MarketPersistence T :=
  { queue.setLane handle { lane with retired := true } with
    registry := queue.registry.erase lane.marketId
    scheduled := queue.scheduled.erase lane.marketId
    turn := queue.turn.filter fun marketId => marketId != lane.marketId }

end MarketPersistence

/-! ## Steps -/

inductive PersistenceAction (T : Type)
  | register (marketId streamEpoch : String) (limits : Limits)
  | reject (marketId streamEpoch : String) (cause : SourceError)
  | begin (handle : Nat) (pending : PendingWork T)
  | fence (handle : Nat) (cause : SourceError)
  | reserve (handle : Nat)
  | push (handle : Nat)
  | displace (handle : Nat)
  | refund (handle : Nat) (part : Part)
  | fail (handle : Nat) (cause : SourceError)
  | ready (handle position : Nat)
  | start
  | select (writer : Nat)
  | miss (writer : Nat)
  | examine (writer : Nat)
  | busy (writer : Nat)
  | settle (writer : Nat)
  | complete (writer : Nat)
  | release (writer : Nat) (part : Part)
  | free (writer : Nat)
  | drain (handle : Nat)
  | cancelDrain (handle : Nat)
  | retire (handle : Nat)
  | close
  | abandon (handle : Nat)
  | forget (handle : Nat) (part : Part)
  | forgotten (handle : Nat)
  | unlock (handle : Nat)

/-- The steps of the queue. A step that needs the lock of a lane is taken only
while nothing keeps the lane locked; a writer that only tries the lock may find
it busy at any time. -/
inductive PersistenceStep
    {T : Type} :
    MarketPersistence T → PersistenceAction T → MarketPersistence T → Prop
  | registered
      {queue after : MarketPersistence T}
      {marketId streamEpoch : String}
      {limits : Limits} :
      queue.register marketId streamEpoch limits = .ok after →
      PersistenceStep queue (.register marketId streamEpoch limits) after
  | rejected
      {queue : MarketPersistence T}
      {marketId streamEpoch : String}
      {cause : SourceError} :
      queue.locate marketId streamEpoch = .error cause →
      PersistenceStep queue (.reject marketId streamEpoch cause) queue
  | begun
      {queue : MarketPersistence T}
      {handle : Nat}
      {lane : PersistenceLane T}
      {pending : PendingWork T}
      (there : queue.lanes[handle]? = some lane)
      (unlocked : lane.hold = none)
      (market : pending.work.marketId = lane.marketId)
      (epoch : pending.work.streamEpoch = lane.epoch) :
      queue.checkPush lane = .ok () →
      PersistenceStep queue (.begin handle pending)
        (queue.setLane handle
          { lane with hold := some (.pushing pending (Charge.none pending.work.bytes)) })
  | fenced
      {queue : MarketPersistence T}
      {handle : Nat}
      {lane : PersistenceLane T}
      {cause : SourceError}
      (there : queue.lanes[handle]? = some lane)
      (unlocked : lane.hold = none) :
      queue.checkPush lane = .error cause →
      PersistenceStep queue (.fence handle cause) queue
  | reserved
      {queue : MarketPersistence T}
      {handle : Nat}
      {lane : PersistenceLane T}
      {pending : PendingWork T}
      {charge : Charge}
      {part : Part}
      (there : queue.lanes[handle]? = some lane)
      (pushing : lane.hold = some (.pushing pending charge))
      (next : Charge.order[charge.held.length]? = some part) :
      PersistenceStep queue (.reserve handle) (queue.reserve handle lane pending charge part)
  | pushed
      {queue : MarketPersistence T}
      {handle : Nat}
      {lane : PersistenceLane T}
      {pending : PendingWork T}
      {charge : Charge}
      (there : queue.lanes[handle]? = some lane)
      (pushing : lane.hold = some (.pushing pending charge))
      (charged : charge.held = Charge.order)
      (current : queue.registry[lane.marketId]? = some handle) :
      PersistenceStep queue (.push handle) (queue.push handle lane pending)
  | displaced
      {queue : MarketPersistence T}
      {handle : Nat}
      {lane : PersistenceLane T}
      {pending : PendingWork T}
      {charge : Charge}
      (there : queue.lanes[handle]? = some lane)
      (pushing : lane.hold = some (.pushing pending charge))
      (charged : charge.held = Charge.order)
      (displaced : queue.registry[lane.marketId]? ≠ some handle) :
      PersistenceStep queue (.displace handle)
        (queue.setLane handle
          { lane with
            hold := some
              (.refunding (.message "persistence lane changed during admission") charge) })
  | refunded
      {queue : MarketPersistence T}
      {handle : Nat}
      {lane : PersistenceLane T}
      {cause : SourceError}
      {charge : Charge}
      {part : Part}
      (there : queue.lanes[handle]? = some lane)
      (refunding : lane.hold = some (.refunding cause charge))
      (counted : part ∈ charge.held) :
      PersistenceStep queue (.refund handle part)
        (queue.giveBack handle lane part charge.size (some (.refunding cause (charge.drop part))))
  | failed
      {queue : MarketPersistence T}
      {handle : Nat}
      {lane : PersistenceLane T}
      {cause : SourceError}
      {charge : Charge}
      (there : queue.lanes[handle]? = some lane)
      (refunding : lane.hold = some (.refunding cause charge))
      (refunded : charge.held = []) :
      PersistenceStep queue (.fail handle cause) (queue.setLane handle { lane with hold := none })
  | readied
      {queue : MarketPersistence T}
      {handle position : Nat}
      {lane : PersistenceLane T}
      {pending : PendingWork T}
      (there : queue.lanes[handle]? = some lane)
      (waiting : lane.pending[position]? = some pending) :
      PersistenceStep queue (.ready handle position)
        (queue.setLane handle
          { lane with
            pending := lane.pending.set position { pending with readyForDisk := true } })
  | started
      {queue : MarketPersistence T} :
      PersistenceStep queue .start { queue with writers := queue.writers ++ [.idle] }
  | selected
      {queue : MarketPersistence T}
      {writer : Nat}
      {marketId : String}
      {turn : List String}
      (idle : queue.writers[writer]? = some .idle)
      (front : queue.turn = marketId :: turn) :
      PersistenceStep queue (.select writer) (queue.select writer marketId turn)
  | missed
      {queue : MarketPersistence T}
      {writer : Nat}
      {marketId : String}
      (selected : queue.writers[writer]? = some (.selected marketId none)) :
      PersistenceStep queue (.miss writer) (queue.setWriter writer .idle)
  | examined
      {queue : MarketPersistence T}
      {writer : Nat}
      {marketId : String}
      {handle : Nat}
      {lane : PersistenceLane T}
      (selected : queue.writers[writer]? = some (.selected marketId (some handle)))
      (there : queue.lanes[handle]? = some lane)
      (unlocked : lane.hold = none) :
      PersistenceStep queue (.examine writer) (queue.examine writer marketId handle lane)
  | busy
      {queue : MarketPersistence T}
      {writer : Nat}
      {marketId : String}
      {handle : Nat}
      (selected : queue.writers[writer]? = some (.selected marketId (some handle))) :
      PersistenceStep queue (.busy writer)
        (queue.setWriter writer (.examined marketId handle none true))
  | settled
      {queue : MarketPersistence T}
      {writer : Nat}
      {marketId : String}
      {handle : Nat}
      {work : Option (Work T)}
      {retry : Bool}
      (examined : queue.writers[writer]? = some (.examined marketId handle work retry)) :
      PersistenceStep queue (.settle writer) (queue.settle writer marketId handle work retry)
  | completed
      {queue : MarketPersistence T}
      {writer handle : Nat}
      {work : Work T}
      (holding : queue.writers[writer]? = some (.holding handle work)) :
      PersistenceStep queue (.complete writer)
        (queue.setWriter writer (.releasing handle (Charge.full work.bytes)))
  | released
      {queue : MarketPersistence T}
      {writer handle : Nat}
      {lane : PersistenceLane T}
      {charge : Charge}
      {part : Part}
      (releasing : queue.writers[writer]? = some (.releasing handle charge))
      (there : queue.lanes[handle]? = some lane)
      (counted : part ∈ charge.held) :
      PersistenceStep queue (.release writer part)
        ((queue.giveBack handle lane part charge.size lane.hold).setWriter writer
          (.releasing handle (charge.drop part)))
  | freed
      {queue : MarketPersistence T}
      {writer handle : Nat}
      {lane : PersistenceLane T}
      {charge : Charge}
      (releasing : queue.writers[writer]? = some (.releasing handle charge))
      (there : queue.lanes[handle]? = some lane)
      (released : charge.held = []) :
      PersistenceStep queue (.free writer)
        ((queue.setLane handle { lane with writerActive := false }).setWriter writer .idle)
  | drained
      {queue : MarketPersistence T}
      {handle : Nat}
      {lane : PersistenceLane T}
      (there : queue.lanes[handle]? = some lane)
      (unlocked : lane.hold = none)
      (live : lane.retired = false) :
      PersistenceStep queue (.drain handle) (queue.setLane handle { lane with draining := true })
  | drainCanceled
      {queue : MarketPersistence T}
      {handle : Nat}
      {lane : PersistenceLane T}
      (there : queue.lanes[handle]? = some lane)
      (unlocked : lane.hold = none)
      (live : lane.retired = false) :
      PersistenceStep queue (.cancelDrain handle)
        (queue.setLane handle { lane with draining := false })
  | retired
      {queue : MarketPersistence T}
      {handle : Nat}
      {lane : PersistenceLane T}
      (there : queue.lanes[handle]? = some lane)
      (unlocked : lane.hold = none) :
      queue.checkRetire handle lane = .ok () →
      PersistenceStep queue (.retire handle) (queue.finishRetire handle lane)
  | closed
      {queue : MarketPersistence T} :
      PersistenceStep queue .close { queue with accepting := false }
  | abandoned
      {queue : MarketPersistence T}
      {handle : Nat}
      {lane : PersistenceLane T}
      (there : queue.lanes[handle]? = some lane)
      (unlocked : lane.hold = none)
      (closed : queue.accepting = false) :
      PersistenceStep queue (.abandon handle)
        (queue.setLane handle
          { lane with
            pending := []
            hold := some
              (.abandoning (lane.pending.map fun pending => Charge.full pending.work.bytes))
            abandoned := lane.pending.map PendingWork.work ++ lane.abandoned })
  | forgot
      {queue : MarketPersistence T}
      {handle : Nat}
      {lane : PersistenceLane T}
      {charge : Charge}
      {charges : List Charge}
      {part : Part}
      (there : queue.lanes[handle]? = some lane)
      (abandoning : lane.hold = some (.abandoning (charge :: charges)))
      (counted : part ∈ charge.held) :
      PersistenceStep queue (.forget handle part)
        (queue.giveBack handle lane part charge.size
          (some (.abandoning (charge.drop part :: charges))))
  | forgotten
      {queue : MarketPersistence T}
      {handle : Nat}
      {lane : PersistenceLane T}
      {charge : Charge}
      {charges : List Charge}
      (there : queue.lanes[handle]? = some lane)
      (abandoning : lane.hold = some (.abandoning (charge :: charges)))
      (released : charge.held = []) :
      PersistenceStep queue (.forgotten handle)
        (queue.setLane handle { lane with hold := some (.abandoning charges) })
  | unlocked
      {queue : MarketPersistence T}
      {handle : Nat}
      {lane : PersistenceLane T}
      (there : queue.lanes[handle]? = some lane)
      (abandoning : lane.hold = some (.abandoning [])) :
      PersistenceStep queue (.unlock handle) (queue.setLane handle { lane with hold := none })

/-- Runs from a queue that was just made. -/
def PersistenceRun {T : Type} (aggregate : Limits) (actions : List (PersistenceAction T))
    (queue : MarketPersistence T) : Prop :=
  ∃ fresh, MarketPersistence.new aggregate = .ok fresh ∧ Run PersistenceStep fresh actions queue

end MarketCow.Source
