import MarketCow.Core.Writer
import MarketCow.Library.Effect
import MarketCow.Polymarket.SnapshotCodec

/-!
# The reducer state of one market

One adapter holds, for each token of its market, an engine and the clocks, the
sequence and the checksum of the book that was published last. A token without a
book waits for a full one; an open recovery names the attempt that must bring it.
-/

namespace MarketCow.Websocket

open Library MarketCow.Core Polymarket

/-- A raw frame and the time of its receipt. -/
structure RawTransportFrame where
  rawPayload : Json
  receivedAt : DateTime
  deriving DecidableEq

/-- A reducer stores nothing. -/
def memoryReducer : DurableLog Unit where
  appendOutcome := fun log _ => (.ok (), log)
  appendOutcomes := fun log _ => (.ok (), log)

/-- Evidence that the published book of a token is still the venue's. -/
structure ReducedBookConfirmation where
  marketId : String
  conditionId : String
  tokenId : String
  bookEpoch : String
  bookSequence : Nat
  bookReceivedAt : DateTime
  stateChecksum : String
  exchangeAt : DateTime
  receivedAt : DateTime
  sourceHash : String
  deriving DecidableEq

structure Adapter where
  config : NormalizerConfig
  /-- The market and the condition of each token. -/
  identities : TreeMap String (String × String)
  ticks : TreeMap String Price
  engines : TreeMap String (SingleWriter Unit)
  epochs : TreeMap String String
  sequences : TreeMap String Nat
  waiting : TreeSet String
  bookReceived : TreeMap String DateTime
  bookSource : TreeMap String DateTime
  depthChecksums : TreeMap String String
  lastTrades : TreeMap String Price
  recoveries : TreeMap String String
  confirmations : List ReducedBookConfirmation
  conflatedRawHashes : Finset String
  conflatedRawOrder : List String

/-- Why a call fails. A panic unwinds through every caller. -/
inductive AdapterError
  | context (message : String)
  | normalize (cause : NormalizeError)
  | core (cause : CoreError)
  | source (message : String)
  | resyncRequired (token : String) (observed received : DateTime)
  | panic (message : String)

namespace Adapter

/-- All tokens, none with a book. -/
def allWaiting (identities : TreeMap String (String × String)) : TreeSet String :=
  TreeSet.ofElements identities.keyList

/-- The adapter of one market of an owner. -/
def marketActor (adapter : Adapter) (market : String) : Adapter :=
  let identities := adapter.identities.filter fun _ identity => identity.1 == market
  { config := adapter.config
    identities
    ticks := adapter.ticks.filter fun token _ => identities.contains token
    engines := ∅
    epochs := ∅
    sequences := ∅
    waiting := allWaiting identities
    bookReceived := ∅
    bookSource := ∅
    depthChecksums := ∅
    lastTrades := ∅
    recoveries := adapter.recoveries.filter fun token _ => identities.contains token
    confirmations := []
    conflatedRawHashes := ∅
    conflatedRawOrder := [] }

/-- Discard everything that a connection has built. -/
def resetConnection (adapter : Adapter) : Adapter :=
  { adapter with
    waiting := allWaiting adapter.identities
    engines := ∅
    epochs := ∅
    sequences := ∅
    bookReceived := ∅
    bookSource := ∅
    depthChecksums := ∅
    lastTrades := ∅
    confirmations := []
    conflatedRawHashes := ∅
    conflatedRawOrder := [] }

/-- Open a recovery for a token and drop its book. -/
def forget (adapter : Adapter) (token attempt : String) : Adapter :=
  { adapter with
    recoveries := adapter.recoveries.insert token attempt
    waiting := adapter.waiting.insert token
    engines := adapter.engines.erase token
    epochs := adapter.epochs.erase token
    sequences := adapter.sequences.erase token
    bookReceived := adapter.bookReceived.erase token
    bookSource := adapter.bookSource.erase token
    depthChecksums := adapter.depthChecksums.erase token
    lastTrades := adapter.lastTrades.erase token }

/-- Keep an engine for a token. -/
def withEngine (adapter : Adapter) (token : String) (engine : SingleWriter Unit) : Adapter :=
  { adapter with engines := adapter.engines.insert token engine }

/-- The engine of a token, new at its first event. -/
def engineFor (adapter : Adapter) (now : DateTime) (token : String) : SingleWriter Unit :=
  (adapter.engines[token]?).getD
    (SingleWriter.newDataDelivery adapter.config.scopeId () now)

/-- The book of a token in its engine. -/
def engineBook (adapter : Adapter) (token : String) : Option Book :=
  adapter.engines[token]?.bind fun engine => engine.current.books[token]?

end Adapter

/-! ## Events -/

/-- An event of the reducer and its identity, which hashes all other fields. -/
def identified (externals : Externals) (fields : List (String × Json)) : Json :=
  .object (fields ++ [("event_id", .string (externals.canonicalHash (.object fields)))])

/-- A record of the reducer itself about one recovery. -/
def recoveryEvent
    (externals : Externals) (market condition token : String) (cursor : Nat) (stamp kind : String)
    (payload : Json) (gaps : List Json) : Json :=
  let rawSourceEventType :=
    if field payload "reason" = .string "source_connection_gap" then "source_gap" else kind
  let raw : Json := .object
    [("recovery_scope", .string "token"), ("source_event_type", .string rawSourceEventType),
     ("reason", field payload "reason"), ("recovery_id", field payload "recovery_id")]
  identified externals
    [("contract_version", .string "marketcow.prediction_market.v1"),
     ("schema_version", .string "marketcow.polymarket.live.v2"), ("cursor", .integer cursor),
     ("event_type", .string kind), ("market_id", .string market),
     ("condition_id", .string condition), ("token_id", .string token), ("book_epoch", .null),
     ("sequence", .null), ("exchange_at", .string stamp), ("received_at", .string stamp),
     ("canonical_payload_sha256", .string (externals.canonicalHash payload)),
     ("canonical_payload", payload), ("raw_payload_sha256", .string (externals.canonicalHash raw)),
     ("raw_payload", raw), ("applied", .bool true), ("fail_closed_reason", .null),
     ("gaps", .array gaps)]

/-- A computation on an adapter. -/
abbrev Action (α : Type) : Type := Effect Adapter AdapterError α

/-- The sum of two 64-bit numbers. -/
def checkedAdd (first second : Nat) (message : String) : Except AdapterError Nat :=
  if first + second < 2 ^ 64 then .ok (first + second) else .error (.context message)

namespace Adapter

/-- The identity of a recovery. -/
def attemptOf (externals : Externals) (token reason stamp : String) (cursor : Nat) : String :=
  externals.canonicalHash (.object
    [("token_id", .string token), ("reason", .string reason), ("received_at", .string stamp),
     ("publisher_cursor", .integer cursor)])

/-- Open a recovery for a token, whatever it had. -/
def invalidate
    (externals : Externals) (token reason : String) (received : DateTime)
    (cursor : Nat) : Action Json := do
  let adapter ← Effect.get
  let (market, condition) ←
    Effect.need adapter.identities[token]? (.context "unknown recovery token")
  let stamp := externals.wireTime received
  let attempt := attemptOf externals token reason stamp cursor
  let payload : Json := .object
    [("recovery_scope", .string "token"), ("token_id", .string token),
     ("recovery_id", .string attempt), ("reason", .string reason)]
  let gap : Json := .object
    [("token_id", .string token), ("code", .string "coverage_gap"), ("resolved", .bool false),
     ("detected_at", .string stamp), ("event_at", .null), ("expected", .null),
     ("observed", .null), ("resolution", .null)]
  Effect.modify fun adapter => adapter.forget token attempt
  pure (recoveryEvent externals market condition token cursor stamp "recovery_started" payload [gap])

/-- Open a recovery for a token, unless one is open. -/
def invalidateOnce
    (externals : Externals) (token reason : String) (received : DateTime)
    (cursor : Nat) : Action (Option Json) := do
  let adapter ← Effect.get
  if adapter.recoveries.contains token then pure none
  else do
    let event ← invalidate externals token reason received cursor
    pure (some event)

end Adapter

end MarketCow.Websocket
