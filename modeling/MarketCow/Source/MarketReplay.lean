import MarketCow.Library.Hash
import MarketCow.Library.JsonText
import MarketCow.Library.OrderedMap

/-!
# The replay of each market

Every market has a lane with its cursors and the last groups published in it.
The lanes share a number of bytes and of slots; a publication reserves what it
needs before it is admitted and settles afterwards.
-/

namespace MarketCow.Source

open Library

structure MarketCapacityExhausted where
  limiter : String
  requestedBytes : Nat
  usedBytes : Nat
  limitBytes : Nat
  usedBatches : Option Nat
  limitBatches : Option Nat
  deriving DecidableEq

inductive SourceError
  | message (text : String)
  | capacityExhausted (evidence : MarketCapacityExhausted)
  | writerUnavailable
  | groupBudget (bytes limit : Nat)
  deriving DecidableEq

/-- Succeed exactly when the condition holds. -/
def ensure (condition : Bool) (text : String) : Except SourceError Unit :=
  if condition then .ok () else .error (.message text)

theorem ensure_ok : ensure condition text = .ok value ↔ condition = true := by
  cases condition <;> simp [ensure]

/-! ## Machine words -/

/-- `usize` subtraction, which wraps around below zero. -/
def fetchSub (value amount : Nat) : Nat :=
  (value + 2 ^ 64 - amount) % 2 ^ 64

theorem fetchSub_of_le (bounded : value < 2 ^ 64) (enough : amount ≤ value) :
    fetchSub value amount = value - amount := by
  unfold fetchSub
  rw [Nat.sub_add_comm enough, Nat.add_mod_right, Nat.mod_eq_of_lt (by omega)]

/-! ## Groups and lanes -/

structure MarketGroup (T : Type) where
  marketId : String
  streamEpoch : String
  marketCursor : Nat
  groupSha256 : String
  payload : T
  bytes : Nat
  retainedBytes : Nat
  releaseAfterDurable : Nat

structure Lane (T S : Type) where
  revision : Nat
  state : S
  epoch : String
  retired : Bool
  published : Nat
  durable : Nat
  replayFloor : Nat
  replayBytes : Nat
  replaySlot : Bool
  groups : List (MarketGroup T)

structure MarketPage (T : Type) where
  groups : List (MarketGroup T)
  nextCursor : Nat
  publishedCursor : Nat
  durableCursor : Nat
  caughtUp : Bool

/-- What all lanes share; the sizes are machine words. -/
structure ReplayLimits where
  maximumGroupsPerMarket : Nat
  maximumBytesPerMarket : Nat
  maximumTotalBytes : Nat
  maximumMarketSlots : Option Nat
  expireUndurableGroups : Bool
  someGroups : 0 < maximumGroupsPerMarket
  someBytes : 0 < maximumBytesPerMarket
  within : maximumBytesPerMarket ≤ maximumTotalBytes
  totalWord : maximumTotalBytes < 2 ^ 64
  slotsWord : ∀ slots ∈ maximumMarketSlots, slots < 2 ^ 64

def Lane.fresh {T S : Type} [Inhabited S] (epoch : String) (durableCursor : Nat) : Lane T S where
  revision := 0
  state := default
  epoch
  retired := false
  published := durableCursor
  durable := durableCursor
  replayFloor := durableCursor
  replayBytes := 0
  replaySlot := false
  groups := []

/-! ## Publication -/

/-- The hash over the identity of a group and its event identifiers. -/
def marketGroupHash
    (marketId streamEpoch : String) (marketCursor : Nat)
    (events : List Json) : Except SourceError String := do
  ensure (!marketId.isEmpty && !streamEpoch.isEmpty && decide (marketCursor > 0))
    "market group identity"
  let eventIds ← events.mapM fun event =>
    match (event.get? "event_id").bind Json.asString? with
    | some eventId => .ok eventId
    | none => .error (.message "missing string event_id")
  ensure (!eventIds.isEmpty) "empty market group"
  return Text.hexEncode
    (Sha256.hash (Json.print (.object
      [("event_ids", .array (eventIds.map Json.string)), ("market_cursor", .integer marketCursor),
        ("market_id", .string marketId),
        ("schema_version", .string "marketcow.polymarket.market-group.v2"),
        ("stream_epoch", .string streamEpoch)]))).toList

/-- What a caller asks to publish. The preparation reads the state of the lane
and gives the commit that will change it. -/
structure PublishRequest (T S : Type) where
  expectedCursor : Nat
  events : List Json
  payload : T
  bytes : Nat
  retainedCharge : Nat
  durableCharge : Nat
  prepare : S → Except SourceError (S → S)

/-- How far the groups of the lane were counted as evicted. -/
structure Eviction where
  retainedBytes : Nat
  retainedGroups : Nat
  evictedBytes : Nat
  evictedGroups : Nat

/-- Evict the oldest groups until the limits of the market are met. A group
that is not durable stays, unless such groups may expire. -/
def evictLocal
    {T : Type} (limits : ReplayLimits) (durable : Nat) : List (MarketGroup T) → Eviction → Eviction
  | [], eviction => eviction
  | old :: groups, eviction =>
    if eviction.retainedGroups ≤ limits.maximumGroupsPerMarket ∧
        eviction.retainedBytes ≤ limits.maximumBytesPerMarket then
      eviction
    else if old.marketCursor > durable ∧ limits.expireUndurableGroups = false then eviction
    else
      evictLocal limits durable groups
        { retainedBytes := fetchSub eviction.retainedBytes old.retainedBytes
          retainedGroups := eviction.retainedGroups - 1
          evictedBytes := eviction.evictedBytes + old.retainedBytes
          evictedGroups := eviction.evictedGroups + 1 }

/-- Evict more of the oldest groups until the limit of all markets is met: the
total and the number of evicted groups. -/
def evictAggregate
    {T : Type} (limits : ReplayLimits)
    (durable : Nat) : List (MarketGroup T) → Nat × Nat → Except SourceError (Nat × Nat)
  | [], counted => .ok counted
  | old :: groups, (projectedTotal, evictedGroups) =>
    if projectedTotal ≤ limits.maximumTotalBytes then .ok (projectedTotal, evictedGroups)
    else if old.marketCursor > durable ∧ limits.expireUndurableGroups = false then
      .ok (projectedTotal, evictedGroups)
    else if projectedTotal < old.retainedBytes then
      .error (.message "aggregate market replay eviction underflow")
    else
      evictAggregate limits durable groups
        (projectedTotal - old.retainedBytes, evictedGroups + 1)

/-- A publication that holds its lane: its group, what is evicted for it, and
what it takes from the bytes and the slots. -/
structure Publishing (T S : Type) where
  group : MarketGroup T
  commit : S → S
  evictedGroups : Nat
  growth : Nat
  refundOnCommit : Nat
  slot : Bool
  reserved : Bool

/-- The checks of a publication on its lane. They give the hash, the commit and
what the limits of the market evict. -/
def validatePublish
    {T S : Type} (limits : ReplayLimits) (totalBytes : Nat) (marketId : String) (lane : Lane T S)
    (request : PublishRequest T S) :
    Except SourceError (String × (S → S) × Eviction) := do
  ensure (!request.events.isEmpty) "empty market observation"
  ensure (decide (request.durableCharge ≥ request.bytes) &&
    decide (request.durableCharge ≤ request.retainedCharge)) "invalid durable market replay charge"
  let groupSha256 ← marketGroupHash marketId lane.epoch request.expectedCursor request.events
  ensure (!lane.retired) "market replay retired"
  ensure (request.events.all fun event => event.get? "market_id" == some (.string marketId))
    "cross-market observation group"
  ensure (decide (lane.published + 1 < 2 ^ 64)) "market cursor overflow"
  ensure (lane.published + 1 == request.expectedCursor) "market replay publication cursor differs"
  let commit ← request.prepare lane.state
  ensure (decide (request.bytes > 0) && decide (request.retainedCharge ≥ request.bytes))
    "invalid market observation charge"
  if request.retainedCharge > limits.maximumBytesPerMarket then
    .error (.capacityExhausted
      { limiter := "replay_market_item_bytes"
        requestedBytes := request.retainedCharge
        usedBytes := lane.replayBytes
        limitBytes := limits.maximumBytesPerMarket
        usedBatches := some lane.groups.length
        limitBatches := some limits.maximumGroupsPerMarket })
  else if request.retainedCharge > limits.maximumTotalBytes then
    .error (.capacityExhausted
      { limiter := "replay_aggregate_item_bytes"
        requestedBytes := request.retainedCharge
        usedBytes := totalBytes
        limitBytes := limits.maximumTotalBytes
        usedBatches := none
        limitBatches := none })
  else
    let eviction := evictLocal limits lane.durable lane.groups
      { retainedBytes := (lane.replayBytes + request.retainedCharge) % 2 ^ 64
        retainedGroups := lane.groups.length + 1
        evictedBytes := 0
        evictedGroups := 0 }
    if eviction.retainedGroups > limits.maximumGroupsPerMarket ∨
        eviction.retainedBytes > limits.maximumBytesPerMarket then
      .error (.capacityExhausted
        { limiter := "replay_market_undurable_prefix"
          requestedBytes := request.retainedCharge
          usedBytes := lane.replayBytes
          limitBytes := limits.maximumBytesPerMarket
          usedBatches := some lane.groups.length
          limitBatches := some limits.maximumGroupsPerMarket })
    else .ok (groupSha256, commit, eviction)

/-- A slot for a lane that has none, when slots are limited. -/
def reserveSlot
    {T S : Type} (limits : ReplayLimits) (totalBytes occupiedMarketSlots : Nat) (lane : Lane T S)
    (request : PublishRequest T S) : Except SourceError Bool :=
  if lane.replaySlot then .ok false
  else
    match limits.maximumMarketSlots with
    | none => .ok false
    | some limit =>
      if occupiedMarketSlots ≥ limit then
        .error (.capacityExhausted
          { limiter := "replay_market_slots"
            requestedBytes := request.retainedCharge
            usedBytes := totalBytes
            limitBytes := limits.maximumTotalBytes
            usedBatches := some occupiedMarketSlots
            limitBatches := some limit })
      else .ok true

/-- What a publication will take from the bytes of all markets, counted from
the total it has read. -/
def planPublish
    {T S : Type} (limits : ReplayLimits) (totalBytes occupiedMarketSlots : Nat) (marketId : String)
    (lane : Lane T S) (request : PublishRequest T S) (groupSha256 : String) (commit : S → S)
    (eviction : Eviction) : Except SourceError (Publishing T S) := do
  let slot ← reserveSlot limits totalBytes occupiedMarketSlots lane request
  ensure
    (decide (eviction.evictedBytes ≤ totalBytes) &&
      decide (totalBytes - eviction.evictedBytes + request.retainedCharge < 2 ^ 64))
    "aggregate market replay byte accounting overflow"
  let (projectedTotal, evictedGroups) ←
    evictAggregate limits lane.durable (lane.groups.drop eviction.evictedGroups)
      (totalBytes - eviction.evictedBytes + request.retainedCharge, eviction.evictedGroups)
  if projectedTotal > limits.maximumTotalBytes then
    .error (.capacityExhausted
      { limiter := "replay_aggregate_bytes_after_market_eviction"
        requestedBytes := request.retainedCharge
        usedBytes := totalBytes
        limitBytes := limits.maximumTotalBytes
        usedBatches := some lane.groups.length
        limitBatches := some limits.maximumGroupsPerMarket })
  else
    .ok
      { group :=
          { marketId
            streamEpoch := lane.epoch
            marketCursor := lane.published + 1
            groupSha256
            payload := request.payload
            bytes := request.bytes
            retainedBytes := request.retainedCharge
            releaseAfterDurable := request.retainedCharge - request.durableCharge }
        commit
        evictedGroups
        growth := projectedTotal - totalBytes
        refundOnCommit := totalBytes - projectedTotal
        slot
        reserved := false }

namespace Lane

variable {T S : Type}

def bumped (lane : Lane T S) : Lane T S :=
  { lane with revision := (lane.revision + 1) % 2 ^ 64 }

/-- Remove the oldest groups. -/
def evict : Nat → Lane T S → Lane T S
  | 0, lane => lane
  | count + 1, lane =>
    match lane.groups with
    | [] => lane
    | evicted :: groups =>
      evict count
        { lane with
          groups
          replayFloor := evicted.marketCursor
          replayBytes := lane.replayBytes - evicted.retainedBytes }

/-- The lane after a publication. -/
def committed (lane : Lane T S) (publishing : Publishing T S) : Lane T S :=
  let lane :=
    { lane with
      published := publishing.group.marketCursor
      replayBytes := lane.replayBytes + publishing.group.retainedBytes
      replaySlot := lane.replaySlot || publishing.slot
      groups := lane.groups ++ [publishing.group] }
  let lane := lane.evict publishing.evictedGroups
  { lane with state := publishing.commit lane.state }.bumped

/-- The lane after an acknowledgement, and the bytes it gives back. -/
def acknowledgeDurable
    (lane : Lane T S) (streamEpoch : String)
    (marketCursor : Nat) : Except SourceError (Lane T S × Nat) := do
  ensure (!lane.retired) "market replay retired"
  ensure (lane.epoch == streamEpoch) "stale market durability epoch"
  ensure (decide (marketCursor > 0) && decide (marketCursor ≤ lane.published))
    "future market durability cursor"
  if marketCursor > lane.durable then
    ensure (decide (lane.durable + 1 < 2 ^ 64)) "durable cursor overflow"
    ensure (marketCursor == lane.durable + 1) "market durability completion is not contiguous"
    match lane.groups.find? fun group => group.marketCursor == marketCursor with
    | none => return ({ lane with durable := marketCursor }, 0)
    | some group =>
      let release := group.releaseAfterDurable
      ensure (release == 0 ||
        (decide (release ≤ group.retainedBytes) && decide (release ≤ lane.replayBytes)))
        "market durable replay refund exceeds retained bytes"
      pure
        ({ lane with
            durable := marketCursor
            replayBytes := lane.replayBytes - release
            groups := lane.groups.map fun group =>
              if group.marketCursor = marketCursor then
                { group with retainedBytes := group.retainedBytes - release }
              else group },
          release)
  else return (lane, 0)

/-- The groups of a page, from those after the cursor. -/
def pageGroups
    (maximumGroups maximumBytes : Nat) :
    List (MarketGroup T) → Nat → Nat → List (MarketGroup T) →
      Except SourceError (List (MarketGroup T) × Nat)
  | [], next, _, page => .ok (page, next)
  | group :: groups, next, bytes, page =>
    if page.length = maximumGroups ∨ group.bytes > maximumBytes - bytes then
      if page = [] then .error (.groupBudget group.bytes maximumBytes) else .ok (page, next)
    else if group.marketCursor ≠ next + 1 then .error (.message "market replay gap")
    else
      pageGroups maximumGroups maximumBytes groups group.marketCursor (bytes + group.bytes)
        (page ++ [group])

def replay
    (lane : Lane T S) (streamEpoch : String)
    (after maximumGroups maximumBytes : Nat) : Except SourceError (MarketPage T) := do
  ensure (decide (maximumGroups > 0) && decide (maximumBytes > 0)) "market replay page budget"
  ensure (!lane.retired) "market replay retired"
  ensure (lane.epoch == streamEpoch) "market replay epoch changed"
  ensure (decide (after ≤ lane.published)) "future market replay cursor"
  ensure (decide (after ≥ lane.replayFloor)) "market replay expired"
  let (groups, next) ←
    pageGroups maximumGroups maximumBytes
      (lane.groups.filter fun group => decide (group.marketCursor > after)) after 0 []
  ensure (after == lane.published || decide (next > after)) "market replay expired"
  pure
    { groups
      nextCursor := next
      publishedCursor := lane.published
      durableCursor := lane.durable
      caughtUp := next == lane.published }

/-- Forget all groups and give back their bytes and the slot. -/
def invalidated (lane : Lane T S) (invalidate : S → S) : Lane T S :=
  { lane with
    groups := []
    replaySlot := false
    state := invalidate lane.state
    replayBytes := 0
    replayFloor := lane.published }.bumped

/-- The lane of a retired market. -/
def retire [Inhabited S] (lane : Lane T S) : Lane T S :=
  { lane with
    retired := true
    replaySlot := false
    replayBytes := 0
    groups := []
    state := default }.bumped

end Lane

end MarketCow.Source
