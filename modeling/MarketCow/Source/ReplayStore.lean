import MarketCow.Library.Transition
import MarketCow.Source.MarketReplay

/-!
# The replay store

The store registers lanes and takes them out again. Operations on different
lanes interleave; a publication keeps its lane locked from its first check to
its end, and the lock of the byte budget while it plans.
-/

namespace MarketCow.Source

open Library

/-- A lane, under the market it was registered for, and the publication that
keeps it locked. -/
structure LaneCell (T S : Type) where
  marketId : String
  lane : Lane T S
  publishing : Option (Publishing T S)

/-- Lanes stay after they are taken out of the registry: callers may still hold
them. -/
structure ReplayStore (T S : Type) where
  registry : TreeMap String Nat
  cells : List (LaneCell T S)
  totalBytes : Nat
  occupiedMarketSlots : Nat
  budgetHolder : Option Nat

namespace ReplayStore

variable {T S : Type}

def empty : ReplayStore T S where
  registry := ∅
  cells := []
  totalBytes := 0
  occupiedMarketSlots := 0
  budgetHolder := none

def setCell (store : ReplayStore T S) (handle : Nat) (cell : LaneCell T S) : ReplayStore T S :=
  { store with cells := store.cells.set handle cell }

def registerFromDurable
    [Inhabited S] (store : ReplayStore T S) (marketId streamEpoch : String)
    (durableCursor : Nat) : Except SourceError (ReplayStore T S) := do
  ensure (!marketId.isEmpty && !streamEpoch.isEmpty) "market replay identity"
  ensure store.registry[marketId]?.isNone "market replay already registered"
  pure
    { store with
      registry := store.registry.insert marketId store.cells.length
      cells := store.cells ++ [⟨marketId, Lane.fresh streamEpoch durableCursor, none⟩] }

/-- Registering a market again changes nothing, and fails unless its lane is
live in the same epoch. -/
def ensureRegistered
    [Inhabited S] (store : ReplayStore T S)
    (marketId streamEpoch : String) : Except SourceError (ReplayStore T S) := do
  ensure (!marketId.isEmpty && !streamEpoch.isEmpty) "market replay identity"
  match store.registry[marketId]? with
  | some handle =>
    ensure
      (store.cells[handle]?.any fun cell => !cell.lane.retired && cell.lane.epoch == streamEpoch)
      "market replay incumbent epoch differs"
    pure store
  | none =>
    pure
      { store with
        registry := store.registry.insert marketId store.cells.length
        cells := store.cells ++ [⟨marketId, Lane.fresh streamEpoch 0, none⟩] }

/-- Lock the lane and the budget and plan the publication. -/
def stagePublish
    (limits : ReplayLimits) (store : ReplayStore T S) (cell : LaneCell T S)
    (request : PublishRequest T S) : Except SourceError (Publishing T S) := do
  let (groupSha256, commit, eviction) ←
    validatePublish limits store.totalBytes cell.marketId cell.lane request
  planPublish limits store.totalBytes store.occupiedMarketSlots cell.marketId cell.lane request
    groupSha256 commit eviction

/-- Give back a slot that was reserved. -/
def releaseSlot (store : ReplayStore T S) (publishing : Publishing T S) : Nat :=
  if publishing.slot then fetchSub store.occupiedMarketSlots 1 else store.occupiedMarketSlots

variable (store : ReplayStore T S) (handle : Nat) (cell : LaneCell T S)

def staged (publishing : Publishing T S) : ReplayStore T S :=
  { store.setCell handle { cell with publishing := some publishing } with
    occupiedMarketSlots := store.occupiedMarketSlots + if publishing.slot then 1 else 0
    budgetHolder := some handle }

/-- Take the planned growth from the bytes of all markets. -/
def reserved (store : ReplayStore T S) (handle : Nat) (cell : LaneCell T S)
    (publishing : Publishing T S) : ReplayStore T S :=
  { store.setCell handle { cell with publishing := some { publishing with reserved := true } } with
    totalBytes := store.totalBytes + publishing.growth
    budgetHolder := none }

/-- The total was changed under the plan; everything is given back. -/
def raced (publishing : Publishing T S) : ReplayStore T S :=
  { store.setCell handle { cell with publishing := none } with
    occupiedMarketSlots := store.releaseSlot publishing
    budgetHolder := none }

/-- The admission failed; everything is given back. -/
def refused (publishing : Publishing T S) : ReplayStore T S :=
  { store.setCell handle { cell with publishing := none } with
    totalBytes := fetchSub store.totalBytes publishing.growth
    occupiedMarketSlots := store.releaseSlot publishing }

/-- The publication is visible. -/
def committed (store : ReplayStore T S) (handle : Nat) (cell : LaneCell T S)
    (publishing : Publishing T S) : ReplayStore T S :=
  { store.setCell handle
      { cell with lane := cell.lane.committed publishing, publishing := none } with
    totalBytes := fetchSub store.totalBytes publishing.refundOnCommit }

/-- Give back all bytes and the slot of a lane. -/
def released (lane : Lane T S) : ReplayStore T S :=
  { store.setCell handle { cell with lane } with
    totalBytes := fetchSub store.totalBytes cell.lane.replayBytes
    occupiedMarketSlots :=
      if cell.lane.replaySlot then fetchSub store.occupiedMarketSlots 1
      else store.occupiedMarketSlots }

/-- The checks before a lane is retired. -/
def checkRetire
    (streamEpoch : String) (allowGap : Bool) : Except SourceError Unit := do
  ensure (!cell.lane.retired && cell.lane.epoch == streamEpoch) "stale market retirement epoch"
  ensure (allowGap || cell.lane.published == cell.lane.durable)
    "market retirement awaiting durability"
  ensure (store.registry[cell.marketId]? == some handle)
    "market retirement registry incarnation changed"
  ensure (decide (store.totalBytes ≥ cell.lane.replayBytes))
    "market replay retirement byte accounting underflow"
  ensure (!cell.lane.replaySlot || decide (store.occupiedMarketSlots > 0))
    "market replay retirement slot accounting underflow"

end ReplayStore

/-! ## Steps -/

inductive ReplayAction (T S : Type)
  | register (marketId streamEpoch : String) (durableCursor : Nat)
  | ensureRegistered (marketId streamEpoch : String)
  | stage (handle : Nat) (request : PublishRequest T S)
  | reject (handle : Nat) (request : PublishRequest T S) (cause : SourceError)
  | reserve (handle : Nat)
  | race (handle : Nat)
  | commit (handle : Nat)
  | refuse (handle : Nat) (cause : SourceError)
  | acknowledge (handle : Nat) (streamEpoch : String) (marketCursor : Nat)
  | replay (handle : Nat) (streamEpoch : String) (after maximumGroups maximumBytes : Nat)
  | changeState (handle : Nat) (change : S → S)
  | invalidate (handle : Nat) (invalidation : S → S)
  | retire (handle : Nat) (streamEpoch : String) (allowGap : Bool)

/-- The steps of the store. A caller may act on any lane that was ever
registered, as long as no publication keeps it locked. -/
inductive ReplayStep
    {T S : Type} [Inhabited S] (limits : ReplayLimits) :
    ReplayStore T S → ReplayAction T S → ReplayStore T S → Prop
  | registered
      {store after : ReplayStore T S}
      {marketId streamEpoch : String}
      {durableCursor : Nat}
      (word : durableCursor < 2 ^ 64) :
      store.registerFromDurable marketId streamEpoch durableCursor = .ok after →
      ReplayStep limits store (.register marketId streamEpoch durableCursor) after
  | ensured
      {store after : ReplayStore T S}
      {marketId streamEpoch : String} :
      store.ensureRegistered marketId streamEpoch = .ok after →
      ReplayStep limits store (.ensureRegistered marketId streamEpoch) after
  | staged
      {store : ReplayStore T S}
      {handle : Nat}
      {cell : LaneCell T S}
      {request : PublishRequest T S}
      {publishing : Publishing T S}
      (there : store.cells[handle]? = some cell)
      (unlocked : cell.publishing = none)
      (budgetFree : store.budgetHolder = none) :
      store.stagePublish limits cell request = .ok publishing →
      ReplayStep limits store (.stage handle request) (store.staged handle cell publishing)
  | rejected
      {store : ReplayStore T S}
      {handle : Nat}
      {cell : LaneCell T S}
      {request : PublishRequest T S}
      {cause : SourceError}
      (there : store.cells[handle]? = some cell)
      (unlocked : cell.publishing = none) :
      store.stagePublish limits cell request = .error cause →
      ReplayStep limits store (.reject handle request cause) store
  | reserved
      {store : ReplayStore T S}
      {handle : Nat}
      {cell : LaneCell T S}
      {publishing : Publishing T S}
      (there : store.cells[handle]? = some cell)
      (planned : cell.publishing = some publishing)
      (unreserved : publishing.reserved = false)
      (fits : store.totalBytes + publishing.growth ≤ limits.maximumTotalBytes) :
      ReplayStep limits store (.reserve handle) (store.reserved handle cell publishing)
  | raced
      {store : ReplayStore T S}
      {handle : Nat}
      {cell : LaneCell T S}
      {publishing : Publishing T S}
      (there : store.cells[handle]? = some cell)
      (planned : cell.publishing = some publishing)
      (unreserved : publishing.reserved = false)
      (exceeds : limits.maximumTotalBytes < store.totalBytes + publishing.growth) :
      ReplayStep limits store (.race handle) (store.raced handle cell publishing)
  | committed
      {store : ReplayStore T S}
      {handle : Nat}
      {cell : LaneCell T S}
      {publishing : Publishing T S}
      (there : store.cells[handle]? = some cell)
      (planned : cell.publishing = some publishing)
      (reserved : publishing.reserved = true) :
      ReplayStep limits store (.commit handle) (store.committed handle cell publishing)
  | refused
      {store : ReplayStore T S}
      {handle : Nat}
      {cell : LaneCell T S}
      {publishing : Publishing T S}
      {cause : SourceError}
      (there : store.cells[handle]? = some cell)
      (planned : cell.publishing = some publishing)
      (reserved : publishing.reserved = true) :
      ReplayStep limits store (.refuse handle cause) (store.refused handle cell publishing)
  | acknowledged
      {store : ReplayStore T S}
      {handle : Nat}
      {cell : LaneCell T S}
      {lane : Lane T S}
      {streamEpoch : String}
      {marketCursor release : Nat}
      (there : store.cells[handle]? = some cell)
      (unlocked : cell.publishing = none)
      (budgetFree : release = 0 ∨ store.budgetHolder = none) :
      cell.lane.acknowledgeDurable streamEpoch marketCursor = .ok (lane, release) →
      ReplayStep limits store (.acknowledge handle streamEpoch marketCursor)
        { store.setCell handle { cell with lane } with
          totalBytes := fetchSub store.totalBytes release }
  | replayed
      {store : ReplayStore T S}
      {handle : Nat}
      {streamEpoch : String}
      {after maximumGroups maximumBytes : Nat} :
      ReplayStep limits store (.replay handle streamEpoch after maximumGroups maximumBytes) store
  | stateChanged
      {store : ReplayStore T S}
      {handle : Nat}
      {cell : LaneCell T S}
      {change : S → S}
      (there : store.cells[handle]? = some cell)
      (unlocked : cell.publishing = none) :
      ReplayStep limits store (.changeState handle change)
        (store.setCell handle
          { cell with lane := { cell.lane with state := change cell.lane.state }.bumped })
  | invalidated
      {store : ReplayStore T S}
      {handle : Nat}
      {cell : LaneCell T S}
      {invalidation : S → S}
      (there : store.cells[handle]? = some cell)
      (unlocked : cell.publishing = none)
      (budgetFree : store.budgetHolder = none) :
      ReplayStep limits store (.invalidate handle invalidation)
        (store.released handle cell (cell.lane.invalidated invalidation))
  | retired
      {store : ReplayStore T S}
      {handle : Nat}
      {cell : LaneCell T S}
      {streamEpoch : String}
      {allowGap : Bool}
      (there : store.cells[handle]? = some cell)
      (unlocked : cell.publishing = none)
      (budgetFree : store.budgetHolder = none) :
      store.checkRetire handle cell streamEpoch allowGap = .ok () →
      ReplayStep limits store (.retire handle streamEpoch allowGap)
        { store.released handle cell cell.lane.retire with
          registry := store.registry.erase cell.marketId }

abbrev ReplayRun {T S : Type} [Inhabited S]
    (limits : ReplayLimits) : List (ReplayAction T S) → ReplayStore T S → Prop :=
  Run (ReplayStep limits) ReplayStore.empty

end MarketCow.Source
