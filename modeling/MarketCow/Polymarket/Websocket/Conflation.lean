import MarketCow.Polymarket.Websocket.Adapter

/-!
# Depth conflation

Frames that only change levels behind the best quote are merged into one. Each
frame is checked on its own, and the merged frame carries the originals.
-/

namespace MarketCow.Websocket

open Library MarketCow.Core Polymarket

def ownerCoalesceFrames : Nat := 64

/-- The window of receipt times of a merged frame, in microseconds. -/
def depthConflationWindowUs : Int := 2000

def maximumConflationBytes : Nat := 4 * 1024 * 1024

/-- The changes of one token and the quote they leave alone. -/
structure DepthTokenConflation where
  bestBid : Price
  bestAsk : Price
  changes : TreeMap (String ×ₗ String) Json

structure DepthConflationCandidate where
  marketId : String
  conditionId : String
  observedAt : DateTime
  tokens : TreeMap String DepthTokenConflation

/-- The venue's name of a side. -/
def sideName : Side → String
  | .bid => "BUY"
  | .ask => "SELL"

section Candidates

variable (externals : Externals)

/-- A change at the best quote, or without a quote. -/
def touchesTop (change : Json) : Bool :=
  let price := field change "price"
  field change "best_bid" == .null || field change "best_ask" == .null ||
    price == field change "best_bid" || price == field change "best_ask"

/-- A level behind the best quote of its side. -/
def behindTop (bestBid bestAsk : Price) (side : Side) (level : Level) : Bool :=
  match side with
  | .bid => decide (level.price < bestBid)
  | .ask => decide (bestAsk < level.price)

def conflatedChange
    (token : String) (bestBid bestAsk : Price) (side : Side) (level : Level) : Json :=
  let text := externals.platform.decimalText
  .object
    [("asset_id", .string token), ("side", .string (sideName side)),
     ("price", .string (text level.price)), ("size", .string (text level.quantity)),
     ("best_bid", .string (text bestBid)), ("best_ask", .string (text bestAsk))]

/-- Collect the last change of each level. -/
def collectChanges (token : String) (bestBid bestAsk tick : Price)
    (changes : List SideLevels) : Option (TreeMap (String ×ₗ String) Json) :=
  (changes.flatMap fun change => change.levels.map fun level => (change.side, level)).foldlM
    (fun final (side, level) =>
      if behindTop bestBid bestAsk side level && (Decimal.rem level.price tick).isZero then
        some (final.insert (toLex (sideName side, externals.platform.decimalText level.price))
          (conflatedChange externals token bestBid bestAsk side level))
      else none) ∅

/-- The published book of a token has the quote of a later event. -/
def liveBookAgrees (adapter : Adapter) (event : CanonicalEvent) (token : String)
    (bestBid bestAsk : Price) : Bool :=
  (adapter.engineBook token).any fun book =>
    book.sourceObservedAt.all (fun observed => observed < event.sourceObservedAt) &&
      book.bids.lastKey? == some bestBid && book.asks.firstKey? == some bestAsk

/-- Add one event of a frame to its candidate. -/
def addCandidateEvent (adapter : Adapter) (requireLiveState : Bool) (raw : Json)
    (candidate : Option DepthConflationCandidate)
    (event : CanonicalEvent) : Option (Option DepthConflationCandidate) :=
  match event.kind with
  | .atomicDelta token changes (some bestBid) (some bestAsk) => do
    guard !(requireLiveState && adapter.waiting.contains token)
    let (market, condition) ← adapter.identities[token]?
    guard ((field raw "market").asString? == some condition && !market.isEmpty &&
      candidate.all fun candidate =>
        candidate.marketId == market && candidate.conditionId == condition)
    guard (!requireLiveState || liveBookAgrees adapter event token bestBid bestAsk)
    let tick ← adapter.ticks[token]?
    let changes ← collectChanges externals token bestBid bestAsk tick changes
    guard !changes.isEmpty
    let tokens := (candidate.elim ∅ DepthConflationCandidate.tokens).insert token
      { bestBid, bestAsk, changes }
    let observedAt := candidate.elim event.sourceObservedAt DepthConflationCandidate.observedAt
    some (some { marketId := market, conditionId := condition, observedAt, tokens })
  | _ => none

/-- A frame that may be merged: all its changes are behind the best quote. -/
def depthConflationCandidate
    (adapter : Adapter) (frame : RawTransportFrame)
    (requireLiveState : Bool) : Option DepthConflationCandidate := do
  let raw := frame.rawPayload
  guard (field raw "event_type" == .string "price_change" &&
    (raw.get? "marketcow_conflation").isNone)
  let sourceChanges ← (field raw "price_changes").asArray?
  guard !sourceChanges.any touchesTop
  let normalized ← (normalizeFrameWithBookTick externals.platform externals.parsers
    adapter.config raw frame.receivedAt 1 none).toOption
  guard !(normalized.isEmpty || normalized.any fun event => event.source.delayed)
  guard !(requireLiveState && normalized.any fun event =>
    decide (event.source.rawSha256 ∈ adapter.conflatedRawHashes))
  let candidate ← normalized.foldlM
    (addCandidateEvent externals adapter requireLiveState raw) none
  candidate

end Candidates

/-! ## Merging -/

/-- Frames that wait to be merged, and their common candidate. -/
structure Pending where
  frames : List RawTransportFrame
  candidate : DepthConflationCandidate

section Merging

variable (externals : Externals)

def RawTransportFrame.json (frame : RawTransportFrame) : Json :=
  .object
    [("raw_payload", frame.rawPayload),
     ("received_at", .string (externals.platform.dateTimeText frame.receivedAt))]

def sourceFrameJson (frame : RawTransportFrame) : Json :=
  .object
    [("received_at", .string (externals.wireTime frame.receivedAt)),
     ("raw_payload", frame.rawPayload)]

/-- One frame for several, with the originals as evidence. -/
def conflatedFrame (first last : RawTransportFrame) (pending : Pending) : RawTransportFrame where
  rawPayload :=
    .object
      [("event_type", .string "price_change"), ("market", .string pending.candidate.conditionId),
       ("timestamp", (last.rawPayload.get? "timestamp").getD
          (.string (externals.wireTime last.receivedAt))),
       ("price_changes", .array (pending.candidate.tokens.valueList.flatMap fun token =>
          token.changes.valueList)),
       ("marketcow_conflation", .object
          [("schema_version", .string "marketcow.polymarket.depth-conflation.v2"),
           ("market_id", .string pending.candidate.marketId),
           ("token_ids", .array (pending.candidate.tokens.keyList.map Json.string)),
           ("first_received_at", .string (externals.wireTime first.receivedAt)),
           ("last_received_at", .string (externals.wireTime last.receivedAt)),
           ("source_frame_count", .integer pending.frames.length),
           ("source_frames", .array (pending.frames.map (sourceFrameJson externals)))])]
  receivedAt := last.receivedAt

/-- The frames that go out for the pending ones. -/
def flushDepthConflation (pending : Pending) : List RawTransportFrame :=
  match pending.frames.head?, pending.frames.getLast? with
  | some first, some last =>
    if pending.frames.length < 2 then pending.frames
    else if maximumConflationBytes <
        (externals.platform.toVec (.array (pending.frames.map
          (RawTransportFrame.json externals)))).length then pending.frames
    else [conflatedFrame externals first last pending]
  | _, _ => []

/-- The same market, the same tokens and the same quotes. -/
def sameQuotes (old new : DepthConflationCandidate) : Bool :=
  old.marketId == new.marketId && old.conditionId == new.conditionId &&
    old.tokens.size == new.tokens.size &&
      old.tokens.toList.all fun (token, conflation) =>
        (new.tokens[token]?).any fun other =>
          conflation.bestBid == other.bestBid && conflation.bestAsk == other.bestAsk

/-- Whether a frame can join the pending ones. -/
def compatible
    (pending : Pending) (frame : RawTransportFrame) (next : DepthConflationCandidate) : Bool :=
  sameQuotes pending.candidate next && pending.candidate.observedAt ≤ next.observedAt &&
    (pending.frames.head?.all fun first => first.receivedAt ≤ frame.receivedAt &&
      (frame.receivedAt - first.receivedAt).tdiv 1000 ≤ depthConflationWindowUs) &&
    pending.frames.length < ownerCoalesceFrames &&
    !pending.frames.any fun earlier => earlier.rawPayload == frame.rawPayload

/-- The later of two changes of a level stands. -/
def overrideChanges (changes : TreeMap (String ×ₗ String) Json)
    (later : DepthTokenConflation) : TreeMap (String ×ₗ String) Json :=
  later.changes.toList.foldl (fun changes change => changes.insert change.1 change.2) changes

def Pending.join (pending : Pending) (frame : RawTransportFrame)
    (next : DepthConflationCandidate) : Pending where
  frames := pending.frames ++ [frame]
  candidate :=
    { pending.candidate with
      observedAt := next.observedAt
      tokens := pending.candidate.tokens.map fun token conflation =>
        { conflation with
          changes := (next.tokens[token]?).elim conflation.changes
            (overrideChanges conflation.changes) } }

/-- Take one more frame: it joins the pending ones, waits on its own, or goes
out. -/
def conflateNext
    (adapter : Adapter) (requireLiveState : Bool) (state : Option Pending × List RawTransportFrame)
    (frame : RawTransportFrame) : Option Pending × List RawTransportFrame :=
  match state.1, depthConflationCandidate externals adapter frame requireLiveState with
  | some pending, some next =>
    if compatible pending frame next then (some (pending.join frame next), state.2)
    else (some { frames := [frame], candidate := next },
      state.2 ++ flushDepthConflation externals pending)
  | none, some next => (some { frames := [frame], candidate := next }, state.2)
  | pending, none =>
    (none, state.2 ++ pending.elim [] (flushDepthConflation externals) ++ [frame])

def conflateDepthFrames (adapter : Adapter) (frames : List RawTransportFrame)
    (requireLiveState : Bool) : List RawTransportFrame :=
  if frames.length < 2 then frames
  else
    let (pending, output) :=
      frames.foldl (conflateNext externals adapter requireLiveState) (none, [])
    output ++ pending.elim [] (flushDepthConflation externals)

end Merging

end MarketCow.Websocket
