import MarketCow.Acquisition.Shards
import MarketCow.Library.Fallible

/-!
# The membership of a socket

The owner of a socket, the task of the socket and the venue each have their
tokens. A command says which tokens the task should have before it; when one of
its messages fails, the connection ends and the next one subscribes what the
task then believes to have.
-/

namespace MarketCow.Acquisition

open Library Finset

/-! ## The task of a socket -/

structure SubscriptionUpdate where
  expectedTokens : Finset String
  tokenIds : Finset String
  removeFirst : Bool

def validateTokens (tokens : Finset String) : Except TransportError Unit :=
  if tokens = ∅ ∨ tokens.card > 500 ∨ ∃ token ∈ tokens, token = "" ∨ token.utf8ByteSize > 128 then
    .error .invalidConfig
  else .ok ()

/-- The tokens to add and to remove. -/
def diff
    (current : Finset String) (update : SubscriptionUpdate) :
    Except TransportError (Finset String × Finset String) := do
  validateTokens update.tokenIds
  if current ≠ update.expectedTokens then .error .subscriptionConflict
  else if update.removeFirst = false ∧ (current ∪ update.tokenIds).card > 500 then
    .error .invalidConfig
  else .ok (update.tokenIds \ current, current \ update.tokenIds)

inductive Operation
  | subscribe
  | unsubscribe
  deriving DecidableEq

/-- What the task believes to have subscribed, and what its connection has. -/
structure Transport where
  tokens : Finset String
  wire : Finset String
  connected : Bool

namespace Transport

def sent (transport : Transport) (operation : Operation) (ids : Finset String) : Transport :=
  match operation with
  | .subscribe =>
    { transport with tokens := transport.tokens ∪ ids, wire := transport.wire ∪ ids }
  | .unsubscribe =>
    { transport with tokens := transport.tokens \ ids, wire := transport.wire \ ids }

/-- The connection has ended. -/
def dropped (transport : Transport) : Transport :=
  { transport with wire := ∅, connected := false }

/-- A new connection subscribes all tokens of the task. -/
def reconnected (transport : Transport) : Transport :=
  { transport with wire := transport.tokens, connected := true }

/-- Send the messages of an update. After a failure it is uncertain what was
delivered, and the task keeps every token that may be subscribed. -/
def sendAll
    (added : Finset String) (succeeds : Operation → Bool) :
    List (Operation × Finset String) → Transport → Transport × Except TransportError Unit
  | [], transport => (transport, .ok ())
  | (operation, ids) :: operations, transport =>
    if ids = ∅ then sendAll added succeeds operations transport
    else if succeeds operation then
      sendAll added succeeds operations (transport.sent operation ids)
    else
      ({ transport.dropped with tokens := transport.tokens ∪ added }, .error .sendFailed)

/-- Carry out an update and give its receipt. -/
def handle (transport : Transport) (update : SubscriptionUpdate)
    (succeeds : Operation → Bool) : Transport × Except TransportError Unit :=
  match diff transport.tokens update with
  | .error cause => (transport, .error cause)
  | .ok (added, removed) =>
    sendAll added succeeds
      (if update.removeFirst then [(.unsubscribe, removed), (.subscribe, added)]
      else [(.subscribe, added), (.unsubscribe, removed)])
      transport

end Transport

/-! ## The owner and the task -/

/-- A shard, the command in its channel, and the task of its socket. -/
structure Link where
  shard : Shard
  command : Option SubscriptionUpdate
  transport : Transport

namespace Link

/-- A socket that has just connected. -/
def fresh (id : Nat) (tokens : Finset String) : Link where
  shard := Shard.fresh id tokens
  command := none
  transport := ⟨tokens, tokens, true⟩

/-- The command that goes out when the owner asks for other tokens. -/
def outgoing (shard : Shard) (next : Finset String) : SubscriptionUpdate where
  expectedTokens := shard.tokens
  tokenIds := next
  removeFirst := true

def requested (link : Link) (next : Finset String) : Link :=
  { link with
    shard := link.shard.request next
    command := some (outgoing link.shard next) }

/-- The command that a poll sends again. -/
def retried (link : Link) : Option SubscriptionUpdate :=
  match link.shard.pending, link.shard.retirementTarget with
  | none, some next => if link.shard.commandFree then some (outgoing link.shard next) else none
  | _, _ => none

def polled (link : Link) : Link :=
  { link with
    shard := link.shard.poll.1
    command := link.command <|> link.retried }

/-- The task takes a command and gives the receipt. -/
def handled (link : Link) (update : SubscriptionUpdate) (succeeds : Operation → Bool) : Link where
  shard := link.shard.received.answeredWith
    (.answered (link.transport.handle update succeeds).2)
  command := none
  transport := (link.transport.handle update succeeds).1

end Link

inductive LinkAction
  | request (next : Finset String)
  | poll
  | handle (succeeds : Operation → Bool)
  | drop
  | reconnect

/-- The steps of a socket and its owner. The owner asks only when nothing is
in flight. -/
inductive LinkStep : Link → LinkAction → Link → Prop
  | requested
      {link : Link}
      {next : Finset String}
      (settled : link.shard.retirementTarget = none)
      (free : link.shard.commandFree = true) :
      LinkStep link (.request next) (link.requested next)
  | polled
      {link : Link} :
      LinkStep link .poll link.polled
  | handled
      {link : Link}
      {update : SubscriptionUpdate}
      {succeeds : Operation → Bool}
      (waits : link.command = some update)
      (up : link.transport.connected = true) :
      LinkStep link (.handle succeeds) (link.handled update succeeds)
  | dropped
      {link : Link} :
      LinkStep link .drop { link with transport := link.transport.dropped }
  | reconnected
      {link : Link}
      (down : link.transport.connected = false) :
      LinkStep link .reconnect { link with transport := link.transport.reconnected }

abbrev LinkRun (id : Nat) (tokens : Finset String) : List LinkAction → Link → Prop :=
  Run LinkStep (Link.fresh id tokens)

/-! ## Messages -/

variable {update : SubscriptionUpdate}

theorem diff_ok (accepted : diff current update = .ok (added, removed)) :
    validateTokens update.tokenIds = .ok () ∧ current = update.expectedTokens ∧
      added = update.tokenIds \ current ∧ removed = current \ update.tokenIds := by
  obtain ⟨_, valid, accepted⟩ := bind_ok.mp accepted
  split at accepted
  · cases accepted
  · rename_i same
    split at accepted
    · cases accepted
    · cases accepted
      exact ⟨valid, not_not.mp same, rfl, rfl⟩

/-- A comparison sends nothing. -/
theorem diff_ne_sendFailed
    (refused : diff current update = .error cause) : cause ≠ .sendFailed := by
  rcases Fallible.bind_eq_error_iff.mp refused with invalid | ⟨_, _, refused⟩
  · unfold validateTokens at invalid
    split at invalid
    · cases invalid
      decide
    · cases invalid
  · split at refused
    · cases refused
      decide
    · split at refused
      · cases refused
        decide
      · cases refused

namespace Transport

variable {transport after : Transport} {added : Finset String} {succeeds : Operation → Bool}
  {operations : List (Operation × Finset String)}

theorem sent_empty (operation : Operation) : transport.sent operation ∅ = transport := by
  cases operation <;> simp [sent]

/-- When all messages were sent, each of them has changed both sets. -/
theorem sendAll_ok (sends : sendAll added succeeds operations transport = (after, .ok ())) :
    after = operations.foldl (fun transport message => transport.sent message.1 message.2)
      transport := by
  induction operations generalizing transport with
  | nil =>
    cases sends
    rfl
  | cons message operations ih =>
    obtain ⟨operation, ids⟩ := message
    unfold sendAll at sends
    rw [List.foldl_cons]
    split at sends
    · rename_i empty
      rw [empty, sent_empty]
      exact ih sends
    · split at sends
      · exact ih sends
      · cases sends

/-- After a failure the connection is gone and the task keeps the added
tokens. -/
theorem sendAll_eq_error
    (sends : sendAll added succeeds operations transport = (after, .error cause)) :
    cause = .sendFailed ∧ after.connected = false ∧ after.wire = ∅ ∧ added ⊆ after.tokens := by
  induction operations generalizing transport with
  | nil => cases sends
  | cons message operations ih =>
    obtain ⟨operation, ids⟩ := message
    unfold sendAll at sends
    split at sends
    · exact ih sends
    · split at sends
      · exact ih sends
      · cases sends
        exact ⟨rfl, rfl, rfl, subset_union_right⟩

theorem sendAll_skip_last :
    sendAll added succeeds [(first, ids), (last, ∅)] transport =
      sendAll added succeeds [(first, ids)] transport := by
  simp only [sendAll, if_true]

/-- When the only message fails, nothing was removed. -/
theorem sendAll_one_error {operation : Operation} {ids : Finset String} {cause : TransportError}
    (failed : (sendAll added succeeds [(operation, ids)] transport).2 = .error cause) :
    (sendAll added succeeds [(operation, ids)] transport).1.tokens = transport.tokens ∪ added := by
  simp only [sendAll] at failed ⊢
  split at failed
  · cases failed
  · rename_i present
    rw [if_neg present]
    split at failed
    · cases failed
    · rename_i fails
      rw [if_neg fails]

theorem sendAll_succeeds :
    sendAll added (fun _ => true) operations transport =
      (operations.foldl (fun transport message => transport.sent message.1 message.2) transport,
        .ok ()) := by
  induction operations generalizing transport with
  | nil => rfl
  | cons message operations ih =>
    obtain ⟨operation, ids⟩ := message
    unfold sendAll
    rw [List.foldl_cons, ih, ih]
    split
    · rename_i empty
      rw [empty, sent_empty]
    · rfl

/-- The messages of an update turn the tokens of the task into its own. -/
theorem foldl_sent (update : SubscriptionUpdate) (wire : transport.wire = transport.tokens) :
    (if update.removeFirst then
        [(Operation.unsubscribe, transport.tokens \ update.tokenIds),
          (Operation.subscribe, update.tokenIds \ transport.tokens)]
      else
        [(Operation.subscribe, update.tokenIds \ transport.tokens),
          (Operation.unsubscribe, transport.tokens \ update.tokenIds)]).foldl
        (fun transport message => transport.sent message.1 message.2) transport =
      { transport with tokens := update.tokenIds, wire := update.tokenIds } := by
  have removeFirst : ∀ tokens : Finset String,
      tokens \ (tokens \ update.tokenIds) ∪ (update.tokenIds \ tokens) = update.tokenIds := by
    intro tokens
    ext token
    simp only [mem_union, mem_sdiff]
    tauto
  have addFirst : ∀ tokens : Finset String,
      (tokens ∪ (update.tokenIds \ tokens)) \ (tokens \ update.tokenIds) = update.tokenIds := by
    intro tokens
    ext token
    simp only [mem_union, mem_sdiff]
    tauto
  split
  · simp only [List.foldl_cons, List.foldl_nil, sent, wire, removeFirst]
  · simp only [List.foldl_cons, List.foldl_nil, sent, wire, addFirst]

theorem handle_ok {update : SubscriptionUpdate} (wire : transport.wire = transport.tokens)
    (handled : (transport.handle update succeeds).2 = .ok ()) :
    (transport.handle update succeeds).1 =
      { transport with tokens := update.tokenIds, wire := update.tokenIds } := by
  unfold handle at handled ⊢
  cases compared : diff transport.tokens update with
  | error cause =>
    rw [compared] at handled
    cases handled
  | ok difference =>
    obtain ⟨added, removed⟩ := difference
    obtain ⟨_, _, rfl, rfl⟩ := diff_ok compared
    rw [compared] at handled
    exact (sendAll_ok (Prod.ext rfl handled)).trans (foldl_sent update wire)

/-- A receipt for a failure leaves the task as it was, or without its
connection. -/
theorem handle_eq_error (handled : (transport.handle update succeeds).2 = .error cause) :
    (transport.handle update succeeds).1 = transport ∨
      (transport.handle update succeeds).1.connected = false := by
  unfold handle at handled ⊢
  cases compared : diff transport.tokens update with
  | error cause => exact .inl rfl
  | ok difference =>
    obtain ⟨added, removed⟩ := difference
    rw [compared] at handled
    exact .inr (sendAll_eq_error (Prod.ext rfl handled)).2.1

/-- A message fails only when the update was accepted; the task then has its old
tokens exactly when none are added. -/
theorem handle_eq_sendFailed (handled : (transport.handle update succeeds).2 = .error .sendFailed) :
    validateTokens update.tokenIds = .ok () ∧ transport.tokens = update.expectedTokens ∧
      (transport.handle update succeeds).1.connected = false ∧
      ((transport.handle update succeeds).1.tokens = transport.tokens ↔
        update.tokenIds ⊆ transport.tokens) := by
  unfold handle at handled ⊢
  cases compared : diff transport.tokens update with
  | error cause =>
    rw [compared] at handled
    exact absurd (Except.error.inj handled) (diff_ne_sendFailed compared)
  | ok difference =>
    obtain ⟨added, removed⟩ := difference
    obtain ⟨valid, same, rfl, rfl⟩ := diff_ok compared
    rw [compared] at handled
    obtain ⟨_, down, _, kept⟩ := sendAll_eq_error (Prod.ext rfl handled)
    refine ⟨valid, same, down, ?_, ?_⟩
    · intro unchanged token mem
      by_contra new
      exact new (unchanged ▸ kept (mem_sdiff.mpr ⟨mem, new⟩))
    · intro subset
      have none : update.tokenIds \ transport.tokens = ∅ := sdiff_eq_empty_iff_subset.mpr subset
      dsimp only at handled ⊢
      rw [none] at handled ⊢
      have failed := @sendAll_one_error transport ∅ succeeds .unsubscribe
        (transport.tokens \ update.tokenIds) .sendFailed
      rw [union_empty] at failed
      split at handled
      · rw [if_pos ‹_›]
        rw [sendAll_skip_last] at handled ⊢
        exact failed handled
      · rw [if_neg ‹_›]
        exact failed handled

end Transport

/-! ## Polls -/

namespace Link

variable {link : Link} {next : Finset String}

section

variable (settled : link.shard.pending = none)
include settled

theorem polled_settled
    (untargeted : link.shard.retirementTarget = none) : link.polled = link := by
  unfold polled retried Shard.poll
  simp [settled, untargeted]

theorem polled_blocked
    (busy : link.shard.commandFree = false) : link.polled = link := by
  cases target : link.shard.retirementTarget with
  | none => exact polled_settled settled target
  | some next =>
    unfold polled retried Shard.poll
    simp [settled, target, busy]

/-- A target without a command is asked for again. -/
theorem polled_again
    (target : link.shard.retirementTarget = some next)
    (free : link.shard.commandFree = true) (quiet : link.command = none) :
    link.polled =
      { link with
        shard := { link.shard with commandWaits := true, pending := some (next, .empty) }
        command := some (outgoing link.shard next) } := by
  unfold polled retried Shard.poll
  simp [settled, target, free, quiet]

end

theorem polled_empty (pending : link.shard.pending = some (next, .empty)) : link.polled = link := by
  unfold polled retried Shard.poll
  simp [pending]

theorem polled_ok (pending : link.shard.pending = some (next, .answered (.ok ()))) :
    link.polled =
      { link with
        shard := { link.shard with tokens := next, pending := none, retirementTarget := none } } := by
  unfold polled retried Shard.poll
  simp [pending]

theorem polled_failed {receipt : Receipt} (pending : link.shard.pending = some (next, receipt))
    (failed : receipt = .closed ∨ ∃ cause, receipt = .answered (.error cause)) :
    link.polled = { link with shard := { link.shard with pending := none } } := by
  unfold polled retried Shard.poll
  rcases failed with rfl | ⟨cause, rfl⟩ <;> simp [pending]

/-- The receipt of an update reaches the owner that waits for it. -/
theorem handled_shard {update : SubscriptionUpdate} {succeeds : Operation → Bool}
    (pending : link.shard.pending = some (next, .empty)) :
    (link.handled update succeeds).shard =
      { link.shard with
        commandWaits := false
        pending := some (next, .answered (link.transport.handle update succeeds).2) } := by
  simp [handled, Shard.received, Shard.answeredWith, pending]

end Link

/-! ## What a run keeps -/

structure LinkSound (link : Link) : Prop where
  waiting : ∀ update, link.command = some update →
    link.shard.commandWaits = true ∧ update = Link.outgoing link.shard update.tokenIds ∧
      link.shard.pending = some (update.tokenIds, .empty)
  quiet : link.command = none → link.shard.commandWaits = false ∧
    ∀ next, link.shard.pending ≠ some (next, .empty)
  target : ∀ next receipt, link.shard.pending = some (next, receipt) →
    link.shard.retirementTarget = some next
  done : ∀ next, link.shard.pending = some (next, .answered (.ok ())) → link.transport.tokens = next
  wire : link.transport.connected = true → link.transport.wire = link.transport.tokens
  opened : link.shard.channelClosed = false

namespace LinkSound

variable {link after : Link}

theorem fresh (id : Nat) (tokens : Finset String) : LinkSound (Link.fresh id tokens) := by
  refine ⟨?_, fun _ => ⟨rfl, ?_⟩, ?_, ?_, fun _ => rfl, rfl⟩
  · rintro _ ⟨⟩
  · rintro _ ⟨⟩
  · rintro _ _ ⟨⟩
  · rintro _ ⟨⟩

section

variable (sound : LinkSound link)
include sound

theorem requested
    (next : Finset String) : LinkSound (link.requested next) := by
  refine ⟨?_, ?_, ?_, ?_, sound.wire, sound.opened⟩
  · rintro _ ⟨⟩
    exact ⟨rfl, rfl, rfl⟩
  · rintro ⟨⟩
  · rintro _ _ ⟨⟩
    rfl
  · rintro _ ⟨⟩

/-- Without a pending receipt there is no command either. -/
theorem command_none
    (answered : ∀ next, link.shard.pending ≠ some (next, .empty)) : link.command = none := by
  cases waits : link.command with
  | none => rfl
  | some update => exact absurd (sound.waiting update waits).2.2 (answered _)

theorem polled : LinkSound link.polled := by
  cases pending : link.shard.pending with
  | none =>
    have quiet := sound.command_none fun _ waits => by
      rw [pending] at waits
      cases waits
    cases free : link.shard.commandFree with
    | false =>
      rw [Link.polled_blocked pending free]
      exact sound
    | true =>
      cases target : link.shard.retirementTarget with
      | none =>
        rw [Link.polled_settled pending target]
        exact sound
      | some next =>
        rw [Link.polled_again pending target free quiet]
        refine ⟨?_, ?_, ?_, ?_, sound.wire, sound.opened⟩
        · rintro _ ⟨⟩
          exact ⟨rfl, rfl, rfl⟩
        · rintro ⟨⟩
        · rintro _ _ ⟨⟩
          exact target
        · rintro _ ⟨⟩
  | some waited =>
    obtain ⟨next, receipt⟩ := waited
    have forget : ∀ shard : Shard, shard.pending = none →
        shard.commandWaits = link.shard.commandWaits →
        shard.channelClosed = link.shard.channelClosed → receipt ≠ .empty →
        LinkSound { link with shard } := by
      intro shard none waits closed answered
      have quiet := sound.command_none fun other empty => by
        rw [pending] at empty
        cases empty
        exact answered rfl
      refine ⟨?_, fun _ => ⟨waits.trans (sound.quiet quiet).1, ?_⟩, ?_, ?_, sound.wire,
        closed.trans sound.opened⟩
      · intro update waiting
        rw [quiet] at waiting
        cases waiting
      · intro next waiting
        rw [none] at waiting
        cases waiting
      · intro next receipt waiting
        rw [none] at waiting
        cases waiting
      · intro next waiting
        rw [none] at waiting
        cases waiting
    cases receipt with
    | empty =>
      rw [Link.polled_empty pending]
      exact sound
    | answered result =>
      cases result with
      | ok =>
        rw [Link.polled_ok pending]
        exact forget _ rfl rfl rfl (fun same => nomatch same)
      | error cause =>
        rw [Link.polled_failed pending (.inr ⟨cause, rfl⟩)]
        exact forget _ rfl rfl rfl (fun same => nomatch same)
    | closed =>
      rw [Link.polled_failed pending (.inl rfl)]
      exact forget _ rfl rfl rfl (fun same => nomatch same)

theorem handled
    {succeeds : Operation → Bool} (waits : link.command = some update)
    (up : link.transport.connected = true) : LinkSound (link.handled update succeeds) := by
  obtain ⟨_, _, pending⟩ := sound.waiting update waits
  have shard := @Link.handled_shard link _ update succeeds pending
  refine ⟨?_, fun _ => ?_, ?_, ?_, ?_, ?_⟩
  · rintro _ ⟨⟩
  · rw [shard]
    exact ⟨rfl, fun _ same => nomatch same⟩
  · rw [shard]
    rintro _ _ ⟨⟩
    exact sound.target _ _ pending
  · rw [shard]
    intro next answered
    have result : (link.transport.handle update succeeds).2 = .ok () := by
      simp only [Option.some.injEq, Prod.mk.injEq, Receipt.answered.injEq] at answered
      exact answered.2
    obtain rfl : update.tokenIds = next := by
      simp only [Option.some.injEq, Prod.mk.injEq] at answered
      exact answered.1
    exact congrArg Transport.tokens (Transport.handle_ok (sound.wire up) result)
  · intro connected
    change (link.transport.handle update succeeds).1.wire =
      (link.transport.handle update succeeds).1.tokens
    cases result : (link.transport.handle update succeeds).2 with
    | ok => rw [Transport.handle_ok (sound.wire up) result]
    | error cause =>
      rcases Transport.handle_eq_error result with same | down
      · rw [same]
        exact sound.wire up
      · exact absurd (down.symm.trans connected) (by decide)
  · rw [shard]
    exact sound.opened

theorem step {action : LinkAction}
    (taken : LinkStep link action after) : LinkSound after := by
  cases taken with
  | requested => exact sound.requested _
  | polled => exact sound.polled
  | handled waits up => exact sound.handled waits up
  | dropped =>
    exact ⟨sound.waiting, sound.quiet, sound.target, sound.done, fun up => (nomatch up),
      sound.opened⟩
  | reconnected =>
    exact ⟨sound.waiting, sound.quiet, sound.target, sound.done, fun _ => rfl, sound.opened⟩

end

end LinkSound

/-! ## After a failure -/

/-- The task carries out the command that waits, and all messages are sent. -/
def Link.handledAll (link : Link) : Link :=
  match link.command with
  | some update => link.handled update fun _ => true
  | none => link

/-- The connection is back, the owner has seen the failure and has asked
again. -/
def Link.askedAgain (link : Link) : Link :=
  { link with transport := link.transport.reconnected }.polled.polled

/-- The task accepts the command that waits. -/
def Link.Accepts (link : Link) : Prop :=
  ∃ update, link.command = some update ∧ (link.transport.handle update fun _ => true).2 = .ok ()

/-- Owner, task and venue agree on the tokens. -/
structure Link.Agrees (link : Link) (tokens : Finset String) : Prop where
  owner : link.shard.tokens = tokens
  task : link.transport.tokens = tokens
  wire : link.transport.wire = tokens

/-- The command is accepted when it is sent again, and all sides agree
afterwards. -/
def Link.Converges (link : Link) (tokens : Finset String) : Prop :=
  link.askedAgain.Accepts ∧ link.askedAgain.handledAll.polled.Agrees tokens

variable {transport : Transport}

/-- A command that fits is accepted, and all its messages are sent. -/
theorem Transport.handle_succeeds (valid : validateTokens update.tokenIds = .ok ())
    (same : transport.tokens = update.expectedTokens) (removeFirst : update.removeFirst = true) :
    (transport.handle update fun _ => true).2 = .ok () := by
  have compared : diff transport.tokens update =
      .ok (update.tokenIds \ transport.tokens, transport.tokens \ update.tokenIds) := by
    refine bind_ok.mpr ⟨(), valid, ?_⟩
    rw [if_neg (not_not.mpr same), if_neg (by simp [removeFirst])]
  unfold handle
  rw [compared]
  dsimp only
  rw [sendAll_succeeds]

/-- Accepted commands say what the task has. -/
theorem Transport.expected_of_handle
    {succeeds : Operation → Bool} (handled : (transport.handle update succeeds).2 = .ok ()) :
    transport.tokens = update.expectedTokens := by
  unfold handle at handled
  cases compared : diff transport.tokens update with
  | error cause =>
    rw [compared] at handled
    cases handled
  | ok difference => exact (diff_ok compared).2.1

namespace LinkSound

variable {link : Link} {update : SubscriptionUpdate} {succeeds : Operation → Bool}

/-- The link when a command that failed was sent again. -/
theorem askedAgain_eq (sound : LinkSound link) (waits : link.command = some update)
    (failed : (link.transport.handle update succeeds).2 = .error cause) :
    (link.handled update succeeds).askedAgain =
      { shard := { link.shard with commandWaits := true, pending := some (update.tokenIds, .empty) }
        command := some (Link.outgoing link.shard update.tokenIds)
        transport := (link.transport.handle update succeeds).1.reconnected } := by
  obtain ⟨_, _, pending⟩ := sound.waiting update waits
  have shard := @Link.handled_shard link _ update succeeds pending
  rw [failed] at shard
  have target := sound.target _ _ pending
  have opened := sound.opened
  let back : Link :=
    { link.handled update succeeds with
      transport := (link.transport.handle update succeeds).1.reconnected }
  have seen : back.polled = { back with shard := { back.shard with pending := none } } :=
    @Link.polled_failed back update.tokenIds (.answered (.error cause)) (by simp [back, shard])
      (.inr ⟨cause, rfl⟩)
  have again := @Link.polled_again { back with shard := { back.shard with pending := none } }
    update.tokenIds rfl (by simp [back, shard, target])
    (by simp [back, shard, Shard.commandFree, opened]) rfl
  change back.polled.polled = _
  rw [seen, again]
  simp [back, shard, Link.outgoing]

/-- After a failed message the sides agree again exactly when the update adds no
token. -/
theorem converges_iff (sound : LinkSound link) (waits : link.command = some update)
    (failed : (link.transport.handle update succeeds).2 = .error .sendFailed) :
    (link.handled update succeeds).Converges update.tokenIds ↔
      update.tokenIds ⊆ link.transport.tokens := by
  obtain ⟨_, outgoing, _⟩ := sound.waiting update waits
  obtain ⟨valid, same, _, kept⟩ := Transport.handle_eq_sendFailed failed
  have expected : update.expectedTokens = link.shard.tokens :=
    congrArg SubscriptionUpdate.expectedTokens outgoing
  have owner : link.transport.tokens = link.shard.tokens := same.trans expected
  unfold Link.Converges
  rw [sound.askedAgain_eq waits failed]
  constructor
  · rintro ⟨⟨again, asks, accepted⟩, _⟩
    cases asks
    have unchanged := Transport.expected_of_handle accepted
    exact kept.mp (unchanged.trans owner.symm)
  · intro subset
    have unchanged : (link.transport.handle update succeeds).1.tokens = link.shard.tokens :=
      (kept.mpr subset).trans owner
    have accepted : ((link.transport.handle update succeeds).1.reconnected.handle
        (Link.outgoing link.shard update.tokenIds) fun _ => true).2 = .ok () :=
      Transport.handle_succeeds valid unchanged rfl
    refine ⟨⟨_, rfl, accepted⟩, ?_⟩
    have carried := @Transport.handle_ok
      (link.transport.handle update succeeds).1.reconnected _ _ rfl accepted
    dsimp only [Link.handledAll]
    rw [@Link.polled_ok _ update.tokenIds (by
      rw [@Link.handled_shard _ update.tokenIds _ _ rfl, accepted])]
    refine ⟨rfl, ?_, ?_⟩
    · exact congrArg Transport.tokens carried
    · exact congrArg Transport.wire carried

end LinkSound

/-- In every reachable state, an update whose message fails converges exactly
when it adds no token, and a successful receipt means that all sides agree. -/
structure MembershipKept (link : Link) : Prop where
  failed : ∀ (update : SubscriptionUpdate) (succeeds : Operation → Bool),
    link.command = some update → link.transport.connected = true →
      (link.transport.handle update succeeds).2 = .error .sendFailed →
        ((link.handled update succeeds).Converges update.tokenIds ↔
          update.tokenIds ⊆ link.transport.tokens)
  acknowledged : ∀ (update : SubscriptionUpdate) (succeeds : Operation → Bool),
    link.command = some update → link.transport.connected = true →
      (link.transport.handle update succeeds).2 = .ok () →
        (link.handled update succeeds).polled.Agrees update.tokenIds

theorem membershipKept_of_run
    {id : Nat} {tokens : Finset String} {actions : List LinkAction} {link : Link}
    (run : LinkRun id tokens actions link) : MembershipKept link := by
  have sound : LinkSound link :=
    run.preserves (fun _ _ _ sound taken => sound.step taken) (LinkSound.fresh id tokens)
  refine ⟨?_, ?_⟩
  · intro update succeeds waits _ failed
    exact sound.converges_iff waits failed
  · intro update succeeds waits up accepted
    obtain ⟨_, _, pending⟩ := sound.waiting update waits
    have carried := Transport.handle_ok (sound.wire up) accepted
    rw [@Link.polled_ok _ update.tokenIds (by
      rw [@Link.handled_shard _ update.tokenIds _ _ pending, accepted])]
    refine ⟨rfl, ?_, ?_⟩
    · exact congrArg Transport.tokens carried
    · exact congrArg Transport.wire carried

/-! ## A rotation whose first message fails -/

def sampleLink : Link :=
  (Link.fresh 0 {"11", "12"}).requested {"31", "32"}

theorem sampleLink_run : LinkRun 0 {"11", "12"} [.request {"31", "32"}] sampleLink :=
  Run.single (.requested rfl rfl)

/-- When the message that removes the old pair fails, the command is in conflict
ever after. -/
theorem failed_rotation_conflicts :
    ∃ (actions : List LinkAction) (link : Link) (update : SubscriptionUpdate),
      LinkRun 0 {"11", "12"} actions link ∧ link.command = some update ∧
        link.transport.connected = true ∧
        (link.transport.handle update fun _ => false).2 = .error .sendFailed ∧
        (link.handled update fun _ => false).askedAgain.handledAll.shard.pending =
          some (update.tokenIds, .answered (.error .subscriptionConflict)) ∧
        ¬(link.handled update fun _ => false).Converges update.tokenIds := by
  refine ⟨_, sampleLink, _, sampleLink_run, rfl, rfl, by decide +kernel, by decide +kernel, ?_⟩
  rintro ⟨_, agrees⟩
  have task := agrees.task
  revert task
  decide +kernel

theorem membershipKept_sample : MembershipKept sampleLink := membershipKept_of_run sampleLink_run

end MarketCow.Acquisition
