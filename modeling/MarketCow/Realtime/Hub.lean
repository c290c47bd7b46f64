import MarketCow.Realtime.DurableWriter

/-!
# The durable realtime hub

The hub follows the lifecycle of the transport, persists every batch of events
and hands the published ones to the gateway. Anything unexpected closes it for
good.
-/

namespace MarketCow.Realtime

open Library MarketCow.Core

/-- What the transport hands to the hub. -/
inductive TransportOutput
  | connected (attempt : Nat)
  | subscriptionsReady (attempt : Nat)
  | events (attempt : Nat) (events : List NormalizedProviderEvent)
  | degraded (attempt : Nat) (reason : String) (retryable : Bool)
  deriving DecidableEq

def realtimeHubProjectionVersion : String := "marketcow.realtime.hub-projection.v1"

inductive RealtimeHubHealth
  | starting
  | connected (attempt : Nat)
  | ready (attempt : Nat)
  | degraded (attempt : Nat) (reason : String) (retryable : Bool)
  | failedClosed (reason : String)
  deriving DecidableEq

structure RealtimeHubProjection where
  schemaVersion : String
  streamId : String
  configRevision : String
  publicSequence : Nat
  walCursor : Nat
  sparseIndexHealthy : Bool
  health : RealtimeHubHealth
  replay : List StreamEvent
  deriving DecidableEq

inductive Lifecycle
  | starting
  | connected (attempt : Nat)
  | ready (attempt : Nat)
  | degraded (attempt : Nat) (retryable : Bool)
  | failedClosed
  deriving DecidableEq

structure DurableRealtimeHub where
  writer : DurableRealtimeWriter
  projection : RealtimeHubProjection
  lifecycle : Lifecycle
  lastAttempt : Nat

inductive RealtimeHubError
  | hubFailedClosed
  | invalidTransition (reason : String)
  | durability (cause : DurabilityError)
  deriving DecidableEq

/-- What the bounded queue of the gateway answers to a reservation. -/
inductive GatewayReservation
  | permits
  | full
  | closed

def projectionFromWriter (writer : DurableRealtimeWriter) (streamId configRevision : String)
    (health : RealtimeHubHealth) : RealtimeHubProjection where
  schemaVersion := realtimeHubProjectionVersion
  streamId
  configRevision
  publicSequence := writer.sequence
  walCursor := writer.walCursor
  sparseIndexHealthy := writer.wal.sparseIndexHealthy
  health
  replay := writer.replay.replay

namespace DurableRealtimeHub

def openHub
    (serde : Serde) (indexWrites : Bool) (root : StorageRoot) (streamId configRevision : String)
    (maxSegmentBytes replayCapacity : Nat) :
    Except RealtimeHubError (DurableRealtimeHub × StorageRoot) :=
  match DurableRealtimeWriter.openWriter serde indexWrites root streamId configRevision
    maxSegmentBytes replayCapacity with
  | .error cause => .error (.durability cause)
  | .ok (writer, root) =>
    .ok
      ({ writer
         projection := projectionFromWriter writer streamId configRevision .starting
         lifecycle := .starting
         lastAttempt := 0 },
        root)

/-- Publish the state of the writer. -/
def store (hub : DurableRealtimeHub) (health : RealtimeHubHealth) : DurableRealtimeHub :=
  { hub with
    projection := projectionFromWriter hub.writer hub.projection.streamId
      hub.projection.configRevision health }

def failState (hub : DurableRealtimeHub) (reason : String) : DurableRealtimeHub :=
  { hub with lifecycle := .failedClosed }.store (.failedClosed reason)

def failClosed (hub : DurableRealtimeHub) (reason : String) : DurableRealtimeHub :=
  hub.failState (if reason.isEmpty then "unspecified_owner_failure" else reason)

/-- What an output leaves: the answer, the events to send, the hub and its
root. -/
structure Ingested where
  result : Except RealtimeHubError Nat
  published : List StreamEvent
  hub : DurableRealtimeHub
  root : StorageRoot

/-- An output that persists nothing. -/
def accepted (hub : DurableRealtimeHub) (root : StorageRoot) : Ingested where
  result := .ok 0
  published := []
  hub
  root

def fail (hub : DurableRealtimeHub) (root : StorageRoot) (reason : String) : Ingested where
  result := .error (.invalidTransition reason)
  published := []
  hub := hub.failState reason
  root

/-- A connection is expected first, and after a retryable end of the one
before. -/
def connectedIsValid (hub : DurableRealtimeHub) (attempt : Nat) : Bool :=
  match hub.lifecycle with
  | .starting => attempt == 1
  | .degraded previous true => decide (previous + 1 < 2 ^ 32) && previous + 1 == attempt
  | _ => false

/-- A connection ends while it is active, and the first one may end before it
is. -/
def degradedIsValid (hub : DurableRealtimeHub) (attempt : Nat) : Bool :=
  match hub.lifecycle with
  | .starting => attempt == 1
  | .connected active | .ready active => active == attempt
  | _ => false

/-- Persist a batch for which the gateway has room. -/
def ingestEvents (serde : Serde) (environment : AppendEnvironment) (hub : DurableRealtimeHub)
    (root : StorageRoot) (attempt : Nat) (events : List NormalizedProviderEvent) : Ingested :=
  match hub.writer.applyBatch serde environment root events with
  | (.error cause, writer, root) =>
    { result := .error (.durability cause)
      published := []
      hub := { hub with writer }.failState "authoritative_persistence_failed"
      root }
  | (.ok outcomes, writer, root) =>
    let published := outcomes.filterMap DurableApplyOutcome.published
    { result := .ok published.length
      published
      hub := { hub with writer }.store (.ready attempt)
      root }

/-- Consume an output of the transport. -/
def ingest (serde : Serde) (environment : AppendEnvironment) (gateway : GatewayReservation)
    (hub : DurableRealtimeHub) (root : StorageRoot) (output : TransportOutput) : Ingested :=
  if hub.lifecycle = .failedClosed then
    { result := .error .hubFailedClosed, published := [], hub, root }
  else
    match output with
    | .connected attempt =>
      if !hub.connectedIsValid attempt || decide (attempt ≤ hub.lastAttempt) then
        hub.fail root "invalid_connected_transition"
      else
        accepted
          ({ hub with lifecycle := .connected attempt, lastAttempt := attempt }.store
            (.connected attempt))
          root
    | .subscriptionsReady attempt =>
      if hub.lifecycle ≠ .connected attempt then
        hub.fail root "subscriptions_ready_before_connected"
      else
        accepted ({ hub with lifecycle := .ready attempt }.store (.ready attempt)) root
    | .events attempt events =>
      if hub.lifecycle ≠ .ready attempt ∨ events = [] then
        hub.fail root "events_before_subscriptions_ready"
      else
        match gateway with
        | .full => hub.fail root "gateway_backpressure"
        | .closed => hub.fail root "gateway_closed"
        | .permits => hub.ingestEvents serde environment root attempt events
    | .degraded attempt reason retryable =>
      if !hub.degradedIsValid attempt || reason.isEmpty || decide (attempt < hub.lastAttempt)
      then hub.fail root "invalid_degraded_transition"
      else
        accepted
          ({ hub with lifecycle := .degraded attempt retryable, lastAttempt := attempt }.store
            (.degraded attempt reason retryable))
          root

def checkpoint
    (serde : Serde) (createdAt : DateTime) (outcome : CheckpointWrite) (hub : DurableRealtimeHub)
    (root : StorageRoot) :
    Except RealtimeHubError RealtimeCheckpoint × StorageRoot :=
  if hub.lifecycle = .failedClosed then (.error .hubFailedClosed, root)
  else
    match hub.writer.checkpoint serde createdAt outcome root with
    | (.error cause, root) => (.error (.durability cause), root)
    | (.ok checkpoint, root) => (.ok checkpoint, root)

/-! ## What an output can do -/

section

variable (hub : DurableRealtimeHub)
include hub

@[simp] theorem store_writer (health : RealtimeHubHealth) :
    (hub.store health).writer = hub.writer := rfl

@[simp] theorem store_lifecycle (health : RealtimeHubHealth) :
    (hub.store health).lifecycle = hub.lifecycle := rfl

@[simp] theorem failState_writer (reason : String) :
    (hub.failState reason).writer = hub.writer := rfl

@[simp] theorem failState_lifecycle (reason : String) :
    (hub.failState reason).lifecycle = .failedClosed := rfl

end

/-- The projection is the one there was or that of the writer. -/
def Stores (before after : DurableRealtimeHub) : Prop :=
  after.projection = before.projection ∨
    ∃ health, after.projection = projectionFromWriter after.writer before.projection.streamId
      before.projection.configRevision health

/-- An output is handled without the log, or its events are persisted whole, or
persisting them fails and the hub is closed. -/
inductive IngestEffect
    (serde : Serde) (environment : AppendEnvironment) (hub : DurableRealtimeHub)
    (root : StorageRoot) : Ingested → Prop
  | quiet
      {result : Except RealtimeHubError Nat}
      {after : DurableRealtimeHub}
      (durable : ∀ cause, result ≠ .error (.durability cause))
      (writer : after.writer = hub.writer)
      (closed : hub.lifecycle = .failedClosed → after.lifecycle = .failedClosed)
      (stores : Stores hub after) :
      IngestEffect serde environment hub root ⟨result, [], after, root⟩
  | persisted
      {events : List NormalizedProviderEvent}
      {outcomes : List DurableApplyOutcome}
      {writer : DurableRealtimeWriter}
      {rootAfter : StorageRoot}
      {attempt : Nat}
      (opened : hub.lifecycle ≠ .failedClosed)
      (applies : hub.writer.applyBatch serde environment root events =
        (.ok outcomes, writer, rootAfter)) :
      IngestEffect serde environment hub root
        ⟨.ok (outcomes.filterMap DurableApplyOutcome.published).length,
          outcomes.filterMap DurableApplyOutcome.published,
          { hub with writer }.store (.ready attempt), rootAfter⟩
  | unpersisted
      {events : List NormalizedProviderEvent}
      {cause : DurabilityError}
      {writer : DurableRealtimeWriter}
      {rootAfter : StorageRoot}
      (opened : hub.lifecycle ≠ .failedClosed)
      (fails : hub.writer.applyBatch serde environment root events =
        (.error cause, writer, rootAfter)) :
      IngestEffect serde environment hub root
        ⟨.error (.durability cause), [],
          { hub with writer }.failState "authoritative_persistence_failed", rootAfter⟩

theorem fail_effect (reason : String) :
    IngestEffect serde environment hub root (hub.fail root reason) :=
  .quiet (fun _ never => nomatch never) rfl (fun _ => rfl) (.inr ⟨_, rfl⟩)

theorem ingest_effect
    {serde : Serde} {environment : AppendEnvironment} {gateway : GatewayReservation}
    {hub : DurableRealtimeHub} {root : StorageRoot} {output : TransportOutput} :
    IngestEffect serde environment hub root (hub.ingest serde environment gateway root output) := by
  unfold ingest
  split
  · exact .quiet (fun _ never => nomatch never) rfl id (.inl rfl)
  · rename_i opened
    have quiet : ∀ after : DurableRealtimeHub, after.writer = hub.writer → Stores hub after →
        IngestEffect serde environment hub root (accepted after root) :=
      fun after same stores => .quiet (fun _ never => nomatch never) same
        (fun closed => absurd closed opened) stores
    cases output with
    | connected attempt | subscriptionsReady attempt | degraded attempt reason retryable =>
      dsimp only
      split
      · exact fail_effect _
      · exact quiet _ rfl (.inr ⟨_, rfl⟩)
    | events attempt events =>
      dsimp only
      split
      · exact fail_effect _
      · cases gateway with
        | full | closed => exact fail_effect _
        | permits =>
          dsimp only
          unfold ingestEvents
          rcases applies : hub.writer.applyBatch serde environment root events with
            ⟨cause | outcomes, writer, rootAfter⟩
          · exact .unpersisted opened applies
          · exact .persisted opened applies

/-- A checkpoint leaves the log alone. -/
theorem checkpoint_wal
    (serde : Serde) (createdAt : DateTime) (outcome : CheckpointWrite) (hub : DurableRealtimeHub)
    (root : StorageRoot) :
    (hub.checkpoint serde createdAt outcome root).2.wal = root.wal := by
  have kept := hub.writer.checkpoint_wal serde createdAt outcome root
  unfold checkpoint
  split
  · rfl
  · rcases taken : hub.writer.checkpoint serde createdAt outcome root with
      ⟨cause | checkpoint, after⟩ <;>
      · rw [taken] at kept
        exact kept

end DurableRealtimeHub

end MarketCow.Realtime
