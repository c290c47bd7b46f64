import MarketCow.Polymarket.Websocket.Conflation

/-!
# Reducing frames

A frame is normalized and each of its events goes through the engine of its
token. A frame that fails invalidates all tokens it names. A REST recovery seeds
both tokens of a market.
-/

namespace MarketCow.Websocket

open Library MarketCow.Core Polymarket
open Effect (ensure fail get lift modify need)

/-- What the events of one frame share: the frame, the position of its output,
its kind, its evidence and the clock. -/
structure Frame where
  raw : Json
  received : DateTime
  after : Nat
  kind : String
  sourceHash : String
  now : DateTime

section Evidence

variable (externals : Externals)

/-- The frames that a merged one carries. -/
def conflationSources (raw : Json) : Option (List Json) :=
  (field (field raw "marketcow_conflation") "source_frames").asArray?

def originalFrame (frame : Json) : Except AdapterError RawTransportFrame :=
  match frame.get? "raw_payload", (field frame "received_at").asString? with
  | none, _ => .error (.context "conflation raw frame")
  | _, none => .error (.context "conflation receipt")
  | some rawPayload, some text =>
    match externals.parsers.rfc3339 text with
    | none => .error (.context "conflation receipt")
    | some receivedAt => .ok { rawPayload, receivedAt }

/-- A merged frame is what its originals are merged to, without regard to the
books as they are now. -/
def checkConflation
    (adapter : Adapter) (raw : Json) (received : DateTime) : Except AdapterError Unit :=
  match raw.get? "marketcow_conflation" with
  | none => .ok ()
  | some metadata =>
    if field metadata "schema_version" ≠
        .string "marketcow.polymarket.depth-conflation.v2" then
      .error (.context "unsupported depth conflation schema")
    else
      match (field metadata "source_frames").asArray? with
      | none => .error (.context "conflation source frames missing")
      | some frames =>
        if frames.length < 2 ∨ ownerCoalesceFrames < frames.length ∨
            (field metadata "source_frame_count").asU64? ≠ some frames.length then
          .error (.context "conflation source frame count")
        else do
          let originals ← frames.mapM (originalFrame externals)
          match conflateDepthFrames externals adapter originals false with
          | [rebuilt] =>
            if externals.wireTime rebuilt.receivedAt = externals.wireTime received ∧
                rebuilt.rawPayload = raw then .ok ()
            else .error (.context "conflation does not match validated supplier frames")
          | _ => .error (.context "conflation does not match validated supplier frames")

/-- The hash of the last supplier frame in a frame. -/
def sourceHashOf (raw : Json) : String :=
  match ((conflationSources raw).bind List.getLast?).bind fun frame =>
      frame.get? "raw_payload" with
  | some last => externals.canonicalHash last
  | none => externals.canonicalHash raw

end Evidence

/-! ## Books as they are published -/

section Books

variable (externals : Externals)

def levelJson (entry : Price × Decimal) : Json :=
  .object
    [("price", .string (externals.platform.decimalText entry.1)),
     ("size", .string (externals.platform.decimalText entry.2))]

def bidsJson (book : Book) : Json :=
  .array (book.bids.toList.reverse.map (levelJson externals))

def asksJson (book : Book) : Json :=
  .array (book.asks.toList.map (levelJson externals))

/-- The checksum of the depth of a book. -/
def depthChecksum (token : String) (book : Book) (tick : Price) : String :=
  externals.platform.contentSha256 (.object
    [("asks", asksJson externals book), ("bids", bidsJson externals book),
     ("tick_size", .string (externals.platform.decimalText tick)), ("token_id", .string token)])

/-- The last trade that a full book reports. -/
def readLastTrade (raw : Json) : Except AdapterError (Option Price) :=
  let parse (text : String) : Except AdapterError (Option Price) :=
    match Price.parse externals.parsers.decimal text with
    | .ok price => .ok (some price)
    | .error cause => .error (.core cause)
  match raw.get? "last_trade_price" with
  | none => .ok none
  | some .null => .ok none
  | some (.string text) => if text.isEmpty then .ok none else parse text
  | some (.integer value) => parse (toString value)
  | some (.float text) => parse text
  | some _ => .error (.context "invalid book last_trade_price")

/-- A book event without its identity. -/
def bookFields (frame : Frame) (token market condition epoch : String) (sequence cursor : Nat)
    (observed quoteSource bookAt : DateTime) (book : Book) (tick : Price) (lastTrade : Option Price)
    (checksum : String) : List (String × Json) :=
  let model : Json := .object
    [("token_id", .string token), ("condition_id", .string condition),
     ("book_epoch", .string epoch), ("sequence", .integer sequence),
     ("sequence_semantics", .string "deterministic_normalized"),
     ("exchange_at", .string (externals.wireTime quoteSource)),
     ("received_at", .string (externals.wireTime bookAt)),
     ("tick_version", .string book.tickVersion),
     ("tick_size", .string (externals.platform.decimalText tick)),
     ("last_trade_price", lastTrade.elim .null fun price =>
        .string (externals.platform.decimalText price)),
     ("state_checksum", .string checksum), ("source_hash", .string frame.sourceHash),
     ("bids", bidsJson externals book), ("asks", asksJson externals book)]
  [("contract_version", .string "marketcow.prediction_market.v1"),
   ("schema_version", .string "marketcow.polymarket.live.v2"), ("cursor", .integer cursor),
   ("event_type", .string "book"), ("market_id", .string market),
   ("condition_id", .string condition), ("token_id", .string token),
   ("book_epoch", .string epoch), ("sequence", .integer sequence),
   ("exchange_at", .string (externals.wireTime observed)),
   ("received_at", .string (externals.wireTime frame.received)),
   ("canonical_payload_sha256", .string (externals.canonicalHash model)),
   ("raw_payload_sha256", .string (externals.canonicalHash frame.raw)),
   ("applied", .bool true), ("fail_closed_reason", .null), ("gaps", .array []),
   ("canonical_payload", model), ("raw_payload", frame.raw)]

/-- The changes of a stored atomic delta, level by level. -/
def replayChanges (token : String) (changes : List SideLevels) : List Json :=
  changes.flatMap fun change => change.levels.map fun level =>
    .object
      [("asset_id", .string token), ("side", .string (sideName change.side)),
       ("price", .string (externals.platform.decimalText level.price)),
       ("size", .string (externals.platform.decimalText level.quantity))]

/-- The changes that a price change adds to its event. -/
def replayFields (frame : Frame) (token : String)
    (stored : EventKind) : Except AdapterError (List (String × Json)) :=
  if frame.kind = "price_change" then
    match stored with
    | .atomicDelta _ changes _ _ =>
      if (replayChanges externals token changes).isEmpty then
        .error (.context "mutating price change has no replay-complete delta")
      else
        .ok [("_replay_complete_delta",
          .object [("changes", .array (replayChanges externals token changes))])]
    | _ => .error (.context "price change did not persist an atomic delta")
  else .ok []

end Books

/-! ## One event -/

namespace Adapter

/-- What an engine made of an event; nothing for a duplicate. -/
def engineOutcome : Except Failure ApplyOutcome → Action (Option ApplyOutcome)
  | .ok outcome => pure (some outcome)
  | .error (.error (.duplicateEvent _)) => pure none
  | .error (.error cause) => fail (.core cause)
  | .error (.panic message) => fail (.panic message)

/-- Run an event through the engine of its token. -/
def reduceEvent
    (externals : Externals) (frame : Frame) (token : String)
    (event : CanonicalEvent) : Action (Option ApplyOutcome) := do
  let adapter ← get
  let engine := adapter.engineFor frame.now token
  modify fun adapter => adapter.withEngine token engine
  let cursor ← lift (checkedAdd engine.current.cursor 1 "reducer overflow")
  let applied := SingleWriter.apply externals.platform memoryReducer engine frame.now
    { event with cursor }
  modify fun adapter => adapter.withEngine token applied.2
  engineOutcome applied.1

/-- The book that an applied event leaves. -/
def acceptedBook (frame : Frame) (token : String) (observed : DateTime)
    (outcome : ApplyOutcome) : Except AdapterError Book :=
  if outcome.persisted.applied then
    match outcome.projection.books[token]? with
    | some book => .ok book
    | none => .error (.context "missing materialized WS book")
  else if outcome.persisted.failClosedReason = some "source_data_delayed" then
    .error (.resyncRequired token observed frame.received)
  else
    .error (.context ("WS book rejected: " ++ outcome.persisted.failClosedReason.elim "None"
      fun reason => "Some(\"" ++ reason ++ "\")"))

/-- A full book ends the wait of its token and starts an epoch. -/
def startEpoch
    (externals : Externals) (frame : Frame) (token : String) (emitted : Nat) : Action Unit := do
  modify fun adapter => { adapter with waiting := adapter.waiting.erase token }
  let cursor ← lift (checkedAdd frame.after (emitted + 1) "cursor overflow")
  let epoch := externals.canonicalHash (.object
    [("connection_snapshot_cursor", .integer cursor),
     ("received_at", .string (externals.wireTime frame.received)),
     ("source_hash", .string (externals.canonicalHash frame.raw)), ("token_id", .string token)])
  modify fun adapter =>
    { adapter with
      epochs := adapter.epochs.insert token epoch
      sequences := adapter.sequences.insert token 0 }

/-- Only a full book starts an epoch. -/
def startFullBook (externals : Externals) (frame : Frame) (token : String) (emitted : Nat)
    (full : Bool) : Action Unit :=
  if full then startEpoch externals frame token emitted else pure ()

/-- The last trade of a token after an event. -/
def recordLastTrade
    (externals : Externals) (frame : Frame) (token : String) (full : Bool) (tick : Price)
    (book : Book) : Action Unit :=
  if full then do
    let lastTrade ← lift (readLastTrade externals frame.raw)
    ensure (lastTrade.all fun price => (Decimal.rem price tick).isZero)
      (.context "book last_trade_price is off tick")
    modify fun adapter =>
      { adapter with
        lastTrades := lastTrade.elim (adapter.lastTrades.erase token)
          (adapter.lastTrades.insert token) }
  else
    match if frame.kind = "last_trade_price" then book.lastTradePrice else none with
    | some price =>
      modify fun adapter =>
        { adapter with lastTrades := adapter.lastTrades.insert token price }
    | none => pure ()

/-- Note that the published book of a token was observed again. -/
def confirmBook
    (frame : Frame) (token market condition : String) (observed : DateTime)
    (checksum : String) : Action Unit := do
  let adapter ← get
  let bookEpoch ← need adapter.epochs[token]? (.context "confirmation book epoch missing")
  let bookSequence ←
    need adapter.sequences[token]? (.context "confirmation book sequence missing")
  let bookReceivedAt ←
    need adapter.bookReceived[token]? (.context "confirmation book receipt missing")
  modify fun adapter =>
    { adapter with
      confirmations := adapter.confirmations ++
        [{ marketId := market
           conditionId := condition
           tokenId := token
           bookEpoch
           bookSequence
           bookReceivedAt
           stateChecksum := checksum
           exchangeAt := observed
           receivedAt := frame.received
           sourceHash := frame.sourceHash }] }

/-- The clocks that a frame of some kind moves. -/
def moveClocks (frame : Frame) (token : String) (observed : DateTime) (checksum : String)
    (adapter : Adapter) : Adapter :=
  { adapter with
    depthChecksums := adapter.depthChecksums.insert token checksum
    bookReceived :=
      if ["book", "price_change", "tick_size_change"].contains frame.kind then
        adapter.bookReceived.insert token frame.received
      else adapter.bookReceived
    bookSource :=
      if ["book", "price_change"].contains frame.kind then
        adapter.bookSource.insert token observed
      else adapter.bookSource }

/-- Publish the book of a token. -/
def publishBook
    (externals : Externals) (frame : Frame) (token market condition : String) (observed : DateTime)
    (emitted : Nat) (book : Book) (tick : Price) (checksum : String)
    (stored : EventKind) : Action Json := do
  modify (moveClocks frame token observed checksum)
  let adapter ← get
  let quoteSource ← need adapter.bookSource[token]? (.context "missing supplier quote time")
  let bookAt ← need adapter.bookReceived[token]? (.context "missing book observation")
  let before ← need adapter.sequences[token]? (.context "delta without full-book epoch")
  let sequence ← lift (checkedAdd before 1 "sequence overflow")
  modify fun adapter => { adapter with sequences := adapter.sequences.insert token sequence }
  let epoch ← need adapter.epochs[token]? (.panic "no entry found for key")
  let cursor ← lift (checkedAdd frame.after (emitted + 1) "cursor overflow")
  let replay ← lift (replayFields externals frame token stored)
  pure (identified externals (bookFields externals frame token market condition epoch sequence
    cursor observed quoteSource bookAt book tick adapter.lastTrades[token]? checksum ++ replay))

/-- The end of an event whose book the engine has accepted: the book is
published, or confirmed where its depth is published already. -/
def settleBook
    (externals : Externals) (frame : Frame) (token market condition : String) (observed : DateTime)
    (emitted : Nat) (full : Bool) (book : Book) (stored : EventKind) : Action (Option Json) := do
  startFullBook externals frame token emitted full
  let tick ← need book.tickSize (.context "missing tick")
  modify fun adapter => { adapter with ticks := adapter.ticks.insert token tick }
  recordLastTrade externals frame token full tick book
  let checksum := depthChecksum externals token book tick
  let adapter ← get
  if ["price_change", "best_bid_ask"].contains frame.kind ∧
      adapter.depthChecksums[token]? = some checksum then do
    confirmBook frame token market condition observed checksum
    pure none
  else do
    let event ← publishBook externals frame token market condition observed emitted book tick
      checksum stored
    pure (some event)

def isFullBook : EventKind → Bool
  | .fullBook .. => true
  | _ => false

/-- Reduce one event of a frame. -/
def applyEvent
    (externals : Externals) (frame : Frame) (emitted : Nat)
    (event : CanonicalEvent) : Action (Option Json) := do
  let adapter ← get
  let token := event.kind.tokenId
  let (market, condition) ← need adapter.identities[token]?
    (.context "unsubscribed WS token")
  ensure ((field frame.raw "market").asString? == some condition)
    (.context "WS condition/catalog mismatch")
  let full := isFullBook event.kind
  if adapter.waiting.contains token && !full then pure none
  else do
    match ← reduceEvent externals frame token event with
    | none => pure none
    | some outcome => do
      let book ← lift (acceptedBook frame token event.sourceObservedAt outcome)
      settleBook externals frame token market condition event.sourceObservedAt emitted full book
        outcome.persisted.event.kind

/-- Reduce the events of a frame, after those that went out already. -/
def applyEvents
    (externals : Externals) (frame : Frame) : List Json → List CanonicalEvent → Action (List Json)
  | output, [] => pure output
  | output, event :: events => do
    let emitted ← applyEvent externals frame output.length event
    applyEvents externals frame (output ++ emitted.toList) events

/-! ## One frame -/

/-- The events of a frame. A full book that names no tick has the one its token is
known to have. -/
def normalizeFrame (externals : Externals) (adapter : Adapter) (raw : Json)
    (received : DateTime) : Except AdapterError (List CanonicalEvent) :=
  let tick := (field raw "asset_id").asString?.bind fun token => adapter.ticks[token]?
  match normalizeFrameWithBookTick externals.platform externals.parsers adapter.config raw
    received 1 tick with
  | .ok events => .ok events
  | .error cause => .error (.normalize cause)

/-- Reduce one frame. -/
def apply
    (externals : Externals) (now : DateTime) (raw : Json) (received : DateTime)
    (after : Nat) : Action (List Json) := do
  let adapter ← get
  lift (checkConflation externals adapter raw received)
  let kind ← need (field raw "event_type").asString? (.context "missing WS event_type")
  if kind = "source_gap" then do
    let token ← need (field raw "asset_id").asString? (.context "gap token")
    ensure (adapter.identities.contains token) (.context "unsubscribed gap token")
    modify fun adapter =>
      { adapter with
        waiting := adapter.waiting.insert token
        engines := adapter.engines.erase token }
    pure []
  else if kind = "new_market" then pure []
  else do
    ensure (kind != "market_resolved")
      (.context "market resolution observed; authoritative metadata recovery required")
    let normalized ← lift (adapter.normalizeFrame externals raw received)
    applyEvents externals
      { raw, received, after, kind, sourceHash := sourceHashOf externals raw, now } [] normalized

/-- The tokens that a frame names: those of its fields, or else those of its
market. -/
def affectedTokens (adapter : Adapter) (raw : Json) : Except AdapterError (TreeSet String) := do
  let changed ← ((field raw "price_changes").asArray?.getD []).mapM fun change =>
    match (field change "asset_id").asString? with
    | some token => .ok token
    | none => .error (.context "unidentifiable price change")
  let named := (field raw "asset_id").asString?.toList ++ changed
  if named.isEmpty then
    .ok (TreeSet.ofElements ((field raw "market").asString?.elim [] fun condition =>
      TreeMap.keyList (adapter.identities.filter fun _ identity => identity.2 == condition)))
  else .ok (TreeSet.ofElements named)

/-- The frames a reducer remembers as merged. -/
def conflatedLimit : Nat := 10000

/-- Remember the sources of a merged frame, the oldest ones no more. -/
def rememberConflated (hashes : List String) (adapter : Adapter) : Adapter :=
  let (known, order) := hashes.foldl
    (fun (known, order) hash =>
      if hash ∈ known then (known, order) else (insert hash known, order ++ [hash]))
    (adapter.conflatedRawHashes, adapter.conflatedRawOrder)
  { adapter with
    conflatedRawHashes := known \ (order.take (order.length - conflatedLimit)).toFinset
    conflatedRawOrder := order.drop (order.length - conflatedLimit) }

/-- A full book closes the open recovery of its token. -/
def completeRecovery
    (externals : Externals) (received : DateTime) (events : List Json) : Action (List Json) :=
  match events.head? with
  | none => pure events
  | some snapshot => do
    let token ← need (field snapshot "token_id").asString? (.context "snapshot token")
    let cursor ← need (field snapshot "cursor").asU64? (.context "snapshot cursor")
    let adapter ← get
    match adapter.recoveries[token]? with
    | none => pure events
    | some attempt => do
      modify fun adapter => { adapter with recoveries := adapter.recoveries.erase token }
      let (market, condition) ←
        need adapter.identities[token]? (.panic "no entry found for key")
      let next ← lift (checkedAdd cursor 1 "cursor overflow")
      let payload : Json := .object
        [("recovery_scope", .string "token"), ("token_id", .string token),
         ("recovery_id", .string attempt), ("snapshot_cursor", .integer cursor),
         ("resolved_gap_token_ids", .array [.string token])]
      pure (events ++ [recoveryEvent externals market condition token next
        (externals.wireTime received) "recovery_completed" payload []])

/-- Invalidate one token of a frame. A gap leaves an open recovery alone. -/
def invalidateNext
    (externals : Externals) (sourceGap : Bool) (token reason : String) (received : DateTime)
    (cursor : Nat) : Action (Option Json) :=
  if sourceGap then invalidateOnce externals token reason received cursor
  else some <$> invalidate externals token reason received cursor

/-- Invalidate tokens one after the other, after those that were before. -/
def invalidateAll
    (externals : Externals) (sourceGap : Bool) (reason : String) (received : DateTime)
    (after : Nat) : List Json → List String → Action (List Json)
  | invalidations, [] => pure invalidations
  | invalidations, token :: tokens => do
    let cursor ← lift
      (checkedAdd after (invalidations.length + 1) "cursor overflow")
    let event ← invalidateNext externals sourceGap token reason received cursor
    invalidateAll externals sourceGap reason received after (invalidations ++ event.toList) tokens

/-- Why the tokens of a frame are invalidated. -/
def invalidationReason (sourceGap : Bool) (cause : AdapterError) : String :=
  if sourceGap then "source_connection_gap"
  else
    match cause with
    | .resyncRequired .. => "source_data_delayed"
    | _ => "source_validation_failed"

/-- Invalidate the tokens of a frame that failed. A gap leaves the tokens alone
whose recovery is open. -/
def invalidateAffected
    (externals : Externals) (sourceGap : Bool) (affected : TreeSet String) (received : DateTime)
    (after : Nat) (cause : AdapterError) : Action (List Json) := do
  ensure (!affected.isEmpty) (.context "unidentifiable upstream failure")
  let adapter ← get
  let invalidatable := affected.toList.filter fun token =>
    !sourceGap || !adapter.recoveries.contains token
  invalidateAll externals sourceGap (invalidationReason sourceGap cause) received after []
    invalidatable

/-- The outcome of a frame: its events, or the invalidation of its tokens. -/
def settleFrame
    (externals : Externals) (full sourceGap : Bool) (affected : TreeSet String)
    (hashes : List String) (received : DateTime)
    (after : Nat) : Except AdapterError (List Json) → Action (List Json)
  | .ok events => do
    modify (rememberConflated hashes)
    if full then completeRecovery externals received events else pure events
  | .error (.panic message) => fail (.panic message)
  | .error cause => invalidateAffected externals sourceGap affected received after cause

/-- The hashes of the sources of a merged frame. -/
def conflatedSourceHashes (externals : Externals) (raw : Json) : List String :=
  ((conflationSources raw).getD []).filterMap fun frame =>
    (frame.get? "raw_payload").map externals.canonicalHash

def isKind (raw : Json) (kind : String) : Bool :=
  field raw "event_type" == .string kind

/-- Reduce one frame as a unit. -/
def applyIsolated
    (externals : Externals) (now : DateTime) (raw : Json) (received : DateTime)
    (after : Nat) : Action (List Json) := do
  let adapter ← get
  if isKind raw "price_change" ∧ externals.canonicalHash raw ∈ adapter.conflatedRawHashes then
    pure []
  else do
    let affected ← lift (adapter.affectedTokens raw)
    ensure (affected.toList.all adapter.identities.contains)
      (.context "unsubscribed frame identity")
    let sourceGap := isKind raw "source_gap"
    let full := isKind raw "book"
    if !full && !sourceGap && affected.toList.any adapter.waiting.contains then pure []
    else do
      let result ← Effect.attempt
        (if sourceGap then fail (.context "source_connection_gap")
        else apply externals now raw received after)
      settleFrame externals full sourceGap affected (conflatedSourceHashes externals raw) received
        after result

/-! ## REST recoveries -/

/-- A value with a field set. -/
def setField (value : Json) (name : String) (content : Json) : Json :=
  .object (((value.asObject?).getD []).filter (fun entry => entry.1 != name) ++ [(name, content)])

/-- A recovery that the book of a token completes. -/
def completeAttempt
    (externals : Externals) (token market condition attempt : String) (received : DateTime)
    (after snapshotCursor : Nat) (output : List Json) : Action (List Json) := do
  modify fun adapter => { adapter with recoveries := adapter.recoveries.erase token }
  let cursor ← lift (checkedAdd after (output.length + 1) "cursor overflow")
  let payload : Json := .object
    [("recovery_scope", .string "token"), ("token_id", .string token),
     ("recovery_id", .string attempt), ("snapshot_cursor", .integer snapshotCursor),
     ("resolved_gap_token_ids", .array [.string token])]
  pure (output ++ [recoveryEvent externals market condition token cursor
    (externals.wireTime received) "recovery_completed" payload []])

/-- What a REST recovery shares: the attempts it was asked for, a fresh name for
books without one, and its position. -/
structure Recovery where
  attempts : TreeMap String String
  boundary : String
  received : DateTime
  after : Nat
  now : DateTime

/-- Seed one token from its raw book. -/
def recoverToken
    (externals : Externals) (recovery : Recovery) (market? : Option String) (output : List Json)
    (raw : Json) : Action (String × List Json) := do
  let adapter ← get
  let token ← need (field raw "asset_id").asString? (.context "REST recovery token")
  let (market, condition) ← need adapter.identities[token]?
    (.context "unknown REST recovery token")
  ensure (field raw "market" == .string condition)
    (.context "REST recovery identity mismatch")
  ensure (market?.all fun expected => expected == market)
    (.context "REST recovery crosses markets")
  let events ← apply externals recovery.now (setField raw "event_type" (.string "book"))
    recovery.received 0
  ensure (events.length == 1) (.context "REST recovery did not seed one token book")
  let adapter ← get
  let attempt := (recovery.attempts[token]?).filter fun attempt =>
    adapter.recoveries[token]? == some attempt
  let cursor ← lift (checkedAdd recovery.after (output.length + 1) "cursor overflow")
  let snapshot ← lift
    (match snapshotEvent externals raw
      { marketId := market
        conditionId := condition
        tokenId := token
        recoveryId := attempt.getD recovery.boundary
        cursor
        receivedAt := recovery.received } with
    | .ok event => .ok event
    | .error cause => .error (.source cause))
  let epoch ← need (field (field snapshot "canonical_payload") "book_epoch").asString?
    (.context "REST epoch")
  modify fun adapter =>
    { adapter with
      epochs := adapter.epochs.insert token epoch
      sequences := adapter.sequences.insert token 1 }
  let output := output ++ [snapshot]
  match attempt with
  | none => pure (market, output)
  | some attempt => do
    let output ← completeAttempt externals token market condition attempt recovery.received
      recovery.after cursor output
    pure (market, output)

/-- Seed the tokens of some raw books, one after the other. -/
def recoverTokens
    (externals : Externals)
    (recovery : Recovery) : Option String → List Json → List Json → Action (List Json)
  | _, output, [] => pure output
  | market?, output, raw :: rawBooks => do
    let (market, output) ← recoverToken externals recovery market? output raw
    recoverTokens externals recovery (some market) output rawBooks

/-- The order of raw books by their tokens. -/
def tokenBefore (left right : Json) : Bool :=
  match (field left "asset_id").asString?, (field right "asset_id").asString? with
  | none, _ => true
  | some _, none => false
  | some left, some right => decide (left ≤ right)

/-- Seed both tokens of a market, unless another source has completed all the
attempts. -/
def applyRestRecovery
    (externals : Externals) (recovery : Recovery) (rawBooks : List Json) : Action (List Json) := do
  let adapter ← get
  if recovery.attempts.toList.all fun (token, attempt) =>
      adapter.recoveries[token]? != some attempt then pure []
  else do
    ensure (rawBooks.length == 2) (.context "REST recovery requires a two-token market")
    recoverTokens externals recovery none []
      (rawBooks.insertionSort fun left right => tokenBefore left right)

end Adapter

end MarketCow.Websocket
