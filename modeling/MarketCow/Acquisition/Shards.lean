import MarketCow.Library.Transition

/-!
# The shards of the acquisition

Each market pair has a socket of its own. The owner of the sockets counts the
tokens of each, asks a socket to change its tokens and changes its own count
when the answer comes.
-/

namespace MarketCow.Acquisition

open Library

/-- Succeed exactly when the condition holds. -/
def ensure (condition : Bool) (text : String) : Except String Unit :=
  if condition then .ok () else .error text

theorem ensure_ok : ensure condition text = .ok value ↔ condition = true := by
  cases condition <;> simp [ensure]

/-! ## Sockets -/

inductive TransportError
  | invalidConfig
  | connectTimeout
  | proxyConnectFailed
  | proxyConnectRejected
  | connectFailed
  | handshakeRejected
  | sendFailed
  | readFailed
  | invalidFrame
  | frameTooLarge
  | backpressure
  | reconnectExhausted
  | subscriptionConflict
  deriving DecidableEq

namespace TransportError

def reasonCode : TransportError → String
  | invalidConfig => "invalid_config"
  | connectTimeout => "connect_timeout"
  | proxyConnectFailed => "proxy_connect_failed"
  | proxyConnectRejected => "proxy_connect_rejected"
  | connectFailed => "connect_failed"
  | handshakeRejected => "handshake_rejected"
  | sendFailed => "send_failed"
  | readFailed => "read_failed"
  | invalidFrame => "invalid_frame"
  | frameTooLarge => "frame_too_large"
  | backpressure => "strict_backpressure"
  | reconnectExhausted => "reconnect_exhausted"
  | subscriptionConflict => "subscription_conflict"

/-- The name of the error, as it is printed for debugging. -/
def name : TransportError → String
  | invalidConfig => "InvalidConfig"
  | connectTimeout => "ConnectTimeout"
  | proxyConnectFailed => "ProxyConnectFailed"
  | proxyConnectRejected => "ProxyConnectRejected"
  | connectFailed => "ConnectFailed"
  | handshakeRejected => "HandshakeRejected"
  | sendFailed => "SendFailed"
  | readFailed => "ReadFailed"
  | invalidFrame => "InvalidFrame"
  | frameTooLarge => "FrameTooLarge"
  | backpressure => "Backpressure"
  | reconnectExhausted => "ReconnectExhausted"
  | subscriptionConflict => "SubscriptionConflict"

end TransportError

inductive ShardExit
  | finished (result : Except TransportError Unit)
  | panicked

def ShardExit.reason : ShardExit → String
  | .finished (.ok ()) => "socket_task_ended"
  | .finished (.error cause) => cause.reasonCode
  | .panicked => "socket_task_panicked"

/-- What the owner finds when it asks for the answer to a command. -/
inductive Receipt
  | empty
  | answered (result : Except TransportError Unit)
  | closed
  deriving DecidableEq

/-- What the owner keeps of a socket. The channel for commands has one place,
and is closed when the task of the socket has ended. -/
structure Shard where
  id : Nat
  tokens : Finset String
  commandWaits : Bool
  channelClosed : Bool
  pending : Option (Finset String × Receipt)
  stopping : Bool
  retirementTarget : Option (Finset String)
  deriving DecidableEq

namespace Shard

def fresh (id : Nat) (tokens : Finset String) : Shard where
  id
  tokens
  commandWaits := false
  channelClosed := false
  pending := none
  stopping := false
  retirementTarget := none

/-- The place for a command is free. -/
def commandFree (shard : Shard) : Bool :=
  !shard.commandWaits && !shard.channelClosed

/-- Ask the socket for other tokens. -/
def request (shard : Shard) (next : Finset String) : Shard :=
  { shard with
    commandWaits := true
    pending := some (next, .empty)
    retirementTarget := some next }

/-- Look for the answer of a socket, after a request that had no answer was made
again; true when the tokens have changed. -/
def poll (shard : Shard) : Shard × Except String Bool :=
  let retried :=
    match shard.pending, shard.retirementTarget with
    | none, some next =>
      if shard.commandFree then
        some { shard with commandWaits := true, pending := some (next, .empty) }
      else none
    | _, _ => some shard
  match retried with
  | none => (shard, .error "retirement retry busy or stopped")
  | some shard =>
    match shard.pending with
    | none => (shard, .ok false)
    | some (_, .empty) => (shard, .ok false)
    | some (next, .answered (.ok ())) =>
      ({ shard with tokens := next, pending := none, retirementTarget := none }, .ok true)
    | some (_, .answered (.error cause)) =>
      ({ shard with pending := none }, .error ("shard unsubscribe failed: " ++ cause.name))
    | some (_, .closed) =>
      ({ shard with pending := none }, .error "shard unsubscribe receipt lost")

end Shard

/-! ## The owner -/

/-- Shards are in the order of their identifiers, which only grow. A task is
counted until its end was noticed. -/
structure Shards where
  maximumTokens : Nat
  maximumShards : Nat
  shardTokens : Nat
  nextId : Nat
  shards : List Shard
  running : List Nat
  finished : List (Nat × ShardExit)
  failed : List (Finset String × String)

namespace Shards

def new (maximumTokens maximumShards shardTokens : Nat) : Except String Shards := do
  ensure
    (decide (2 ≤ shardTokens) && decide (shardTokens ≤ 500) &&
      decide (2 ≤ maximumTokens) && decide (maximumTokens ≤ 8192) &&
      decide (0 < maximumShards) && decide (maximumShards ≤ 1024))
    "explicit acquisition shard budgets"
  .ok
    { maximumTokens
      maximumShards
      shardTokens
      nextId := 0
      shards := []
      running := []
      finished := []
      failed := [] }

def tokens (pool : Shards) : Finset String :=
  pool.shards.foldr (fun shard tokens => shard.tokens ∪ tokens) ∅

/-- The tasks that were spawned and whose end was not noticed. -/
def jobs (pool : Shards) : Nat :=
  pool.running.length + pool.finished.length

/-- Apply a change to the shard with an identifier. -/
def update (pool : Shards) (id : Nat) (change : Shard → Shard) : Shards :=
  { pool with shards := pool.shards.map fun shard => if shard.id = id then change shard else shard }

def spawnOwnedTokens (pool : Shards) (tokens : Finset String) : Except String (Shards × Nat) := do
  ensure (decide (tokens.Nonempty) && decide (tokens.card ≤ pool.shardTokens))
    "acquisition socket membership capacity"
  ensure (decide (pool.jobs < pool.maximumShards)) "acquisition socket capacity"
  ensure (decide (pool.nextId + 1 < 2 ^ 64)) "shard identity overflow"
  .ok
    ({ pool with
        nextId := pool.nextId + 1
        shards := pool.shards ++ [Shard.fresh pool.nextId tokens]
        running := pool.running ++ [pool.nextId] },
      pool.nextId)

/-- Replace the socket of a task that has ended, unless it was stopped. -/
def handleFinished (pool : Shards) (id : Nat) (exit : ShardExit) : Shards × Except String Unit :=
  match pool.shards.find? fun shard => shard.id = id with
  | none => (pool, .error "finished acquisition socket absent")
  | some shard =>
    let pool := { pool with shards := pool.shards.filter fun shard => shard.id ≠ id }
    if shard.stopping then (pool, .ok ())
    else
      match pool.spawnOwnedTokens shard.tokens with
      | .error cause => (pool, .error cause)
      | .ok (pool, replacement) =>
        ({ pool.update replacement fun fresh =>
            { fresh with retirementTarget := shard.retirementTarget } with
          failed := pool.failed ++ [(shard.tokens, exit.reason)] },
          .ok ())

/-- Notice the end of tasks, in the order in which they ended. -/
def reapAll : List (Nat × ShardExit) → Shards → Shards × Except String Unit
  | [], pool => (pool, .ok ())
  | (id, exit) :: finished, pool =>
    match { pool with finished }.handleFinished id exit with
    | (pool, .error cause) => (pool, .error cause)
    | (pool, .ok ()) => reapAll finished pool

def reap (pool : Shards) : Shards × Except String Unit :=
  reapAll pool.finished pool

/-! ### New sockets -/

def validToken (token : String) : Bool :=
  !token.isEmpty && decide (token.utf8ByteSize ≤ 128)

def pairTokens (pair : String × String) : Finset String :=
  {pair.1, pair.2}

/-- The owned tokens together with those of the pairs. -/
def insertPairs : List (String × String) → Finset String → Except String (Finset String)
  | [], tokens => .ok tokens
  | (first, second) :: pairs, tokens => do
    ensure (validToken first && validToken second && first != second) "market token pair"
    ensure (decide (first ∉ tokens)) "already-owned acquisition token"
    ensure (decide (second ∉ insert first tokens)) "already-owned acquisition token"
    insertPairs pairs (insert second (insert first tokens))

def checkSockets (pool : Shards) (count : Nat) : Except String Unit := do
  ensure (decide (pool.jobs + count ≤ pool.maximumShards)) "acquisition socket capacity"
  ensure (decide (pool.nextId + count < 2 ^ 64)) "shard identity overflow"

def validateAddPairs
    (pool : Shards) (pairs : List (String × String)) : Except String (List (Finset String)) := do
  let tokens ← insertPairs pairs pool.tokens
  ensure (decide (tokens.card ≤ pool.maximumTokens)) "acquisition token capacity"
  pool.checkSockets pairs.length
  .ok (pairs.map pairTokens)

def spawnAll : List (Finset String) → Shards → Shards × Except String (List Nat)
  | [], pool => (pool, .ok [])
  | tokens :: batches, pool =>
    match pool.spawnOwnedTokens tokens with
    | .error cause => (pool, .error cause)
    | .ok (pool, id) =>
      match spawnAll batches pool with
      | (pool, .error cause) => (pool, .error cause)
      | (pool, .ok ids) => (pool, .ok (id :: ids))

def addPairs (pool : Shards) (pairs : List (String × String)) : Shards × Except String (List Nat) :=
  match pool.reap with
  | (pool, .error cause) => (pool, .error cause)
  | (pool, .ok ()) =>
    match pool.validateAddPairs pairs with
    | .error cause => (pool, .error cause)
    | .ok batches =>
      match pool.checkSockets batches.length with
      | .error cause => (pool, .error cause)
      | .ok () => spawnAll batches pool

/-! ### Retirement -/

/-- The shards a retirement changes, when each of them can be asked. -/
def retirementChanges
    (removed : Finset String) : List Shard → Except String (List Nat)
  | [] => .ok []
  | shard :: shards => do
    let next := shard.tokens \ removed
    if next = shard.tokens then retirementChanges removed shards
    else
      ensure (shard.retirementTarget.isNone && !shard.stopping) "shard retirement in flight"
      ensure (decide (next = ∅) || shard.commandFree) "shard update in flight"
      let ids ← retirementChanges removed shards
      .ok (shard.id :: ids)

/-- Ask a shard to let go of tokens, or stop it. -/
def retireTokens (removed : Finset String) (shard : Shard) : Shard :=
  if shard.tokens \ removed = shard.tokens then shard
  else if shard.tokens \ removed = ∅ then { shard with stopping := true }
  else shard.request (shard.tokens \ removed)

def beginRetire (pool : Shards) (removed : Finset String) : Shards × Except String (List Nat) :=
  if removed.Nonempty ∧ removed ⊆ pool.tokens then
    match retirementChanges removed pool.shards with
    | .error cause => (pool, .error cause)
    | .ok ids => ({ pool with shards := pool.shards.map (retireTokens removed) }, .ok ids)
  else (pool, .error "unknown retirement token")

/-- A shard with some of the tokens is already changing. -/
def changing (pool : Shards) (removed : Finset String) : Bool :=
  pool.shards.any fun shard =>
    decide (¬Disjoint shard.tokens removed) &&
      (shard.retirementTarget.isSome || shard.stopping)

def requestRetire (pool : Shards) (removed : Finset String) : Shards × Except String Bool :=
  if removed.Nonempty then
    let remaining := removed ∩ pool.tokens
    if remaining = ∅ then (pool, .ok true)
    else if pool.changing remaining then (pool, .ok false)
    else
      match pool.beginRetire remaining with
      | (pool, .error cause) => (pool, .error cause)
      | (pool, .ok _) => (pool, .ok false)
  else (pool, .error "empty retirement token set")

/-! ### Rotation -/

def validPair (pair : String × String) : Bool :=
  pair.1 != pair.2 && !pair.1.isEmpty && !pair.2.isEmpty

/-- Replace a pair in the shard that has it. -/
def replacePair (pool : Shards) (removed added : Finset String) : Shards × Except String Bool :=
  match pool.shards.filter fun shard => removed ⊆ shard.tokens with
  | [shard] =>
    let next := shard.tokens \ removed ∪ added
    if next.card ≤ pool.shardTokens ∧ pool.tokens.card - removed.card + 2 ≤ pool.maximumTokens then
      if shard.commandFree then
        (pool.update shard.id fun shard => shard.request next, .ok false)
      else (pool, .error "shard update in flight")
    else (pool, .error "replacement acquisition capacity")
  | _ => (pool, .error "replacement pair must be owned by one shard")

def requestPairReplacement
    (pool : Shards) (removedPair addedPair : String × String) : Shards × Except String Bool :=
  if validPair removedPair ∧ validPair addedPair then
    let removed := pairTokens removedPair
    let added := pairTokens addedPair
    if Disjoint removed pool.tokens ∧ added ⊆ pool.tokens then (pool, .ok true)
    else if Disjoint removed pool.tokens ∧ Disjoint added pool.tokens then
      match pool.addPairs [addedPair] with
      | (pool, .error cause) => (pool, .error cause)
      | (pool, .ok _) => (pool, .ok true)
    else if removed ⊆ pool.tokens ∧ Disjoint added pool.tokens then
      if pool.changing removed then (pool, .ok false)
      else pool.replacePair removed added
    else (pool, .error "replacement membership differs")
  else (pool, .error "replacement market token pair")

/-! ### Answers -/

/-- Poll one shard after the other until one of them fails. -/
def pollAll : List Shard → List Shard × Except String (List Nat)
  | [] => ([], .ok [])
  | shard :: shards =>
    match shard.poll with
    | (shard, .error cause) => (shard :: shards, .error cause)
    | (shard, .ok completed) =>
      match pollAll shards with
      | (shards, .error cause) => (shard :: shards, .error cause)
      | (shards, .ok ids) =>
        (shard :: shards, .ok (if completed then shard.id :: ids else ids))

def pollRetirements (pool : Shards) : Shards × Except String (List Nat) :=
  match pollAll pool.shards with
  | (shards, .error cause) => ({ pool with shards }, .error cause)
  | (shards, .ok ids) =>
    match { pool with shards }.reap with
    | (pool, .error cause) => (pool, .error cause)
    | (pool, .ok ()) => (pool, .ok ids)

end Shards

/-! ## Steps -/

/-- What the owner does, and what happens at its sockets. -/
inductive ShardsAction
  | addPairs (pairs : List (String × String))
  | beginRetire (removed : Finset String)
  | requestRetire (removed : Finset String)
  | requestPairReplacement (removed added : String × String)
  | pollRetirements
  | reapFinished
  | joinNext
  | receive (id : Nat)
  | answer (id : Nat) (result : Except TransportError Unit)
  | lose (id : Nat)
  | exit (id : Nat) (exit : ShardExit)

/-- The socket of a shard takes the command that waits. -/
def Shard.received (shard : Shard) : Shard :=
  { shard with commandWaits := false }

/-- The answer to a command is there, unless there was one or none is
awaited. -/
def Shard.answeredWith (receipt : Receipt) (shard : Shard) : Shard :=
  match shard.pending with
  | some (next, .empty) => { shard with pending := some (next, receipt) }
  | _ => shard

/-- The task of a shard has ended; its ends of the channels are gone. -/
def Shard.ended (shard : Shard) : Shard :=
  { shard.answeredWith .closed with channelClosed := true }

inductive ShardsStep : Shards → ShardsAction → Shards → Prop
  | pairsAdded
      {pool : Shards}
      {pairs : List (String × String)} :
      ShardsStep pool (.addPairs pairs) (pool.addPairs pairs).1
  | retirementBegun
      {pool : Shards}
      {removed : Finset String} :
      ShardsStep pool (.beginRetire removed) (pool.beginRetire removed).1
  | retirementRequested
      {pool : Shards}
      {removed : Finset String} :
      ShardsStep pool (.requestRetire removed) (pool.requestRetire removed).1
  | replacementRequested
      {pool : Shards}
      {removed added : String × String} :
      ShardsStep pool (.requestPairReplacement removed added)
        (pool.requestPairReplacement removed added).1
  | polled
      {pool : Shards} :
      ShardsStep pool .pollRetirements pool.pollRetirements.1
  | reaped
      {pool : Shards} :
      ShardsStep pool .reapFinished pool.reap.1
  | joined
      {pool : Shards}
      {id : Nat}
      {exit : ShardExit}
      {finished : List (Nat × ShardExit)}
      (first : pool.finished = (id, exit) :: finished) :
      ShardsStep pool .joinNext ({ pool with finished }.handleFinished id exit).1
  | received
      {pool : Shards}
      {id : Nat} :
      ShardsStep pool (.receive id) (pool.update id Shard.received)
  | answered
      {pool : Shards}
      {id : Nat}
      {result : Except TransportError Unit} :
      ShardsStep pool (.answer id result)
        (pool.update id (Shard.answeredWith (.answered result)))
  | lost
      {pool : Shards}
      {id : Nat} :
      ShardsStep pool (.lose id) (pool.update id (Shard.answeredWith .closed))
  | exited
      {pool : Shards}
      {id : Nat}
      {exit : ShardExit}
      (running : id ∈ pool.running) :
      ShardsStep pool (.exit id exit)
        { pool.update id Shard.ended with
          running := pool.running.erase id
          finished := pool.finished ++ [(id, exit)] }

/-- Runs from a pool without sockets. -/
def ShardsRun (maximumTokens maximumShards shardTokens : Nat) (actions : List ShardsAction)
    (pool : Shards) : Prop :=
  ∃ fresh, Shards.new maximumTokens maximumShards shardTokens = .ok fresh ∧
    Run ShardsStep fresh actions pool

end MarketCow.Acquisition
