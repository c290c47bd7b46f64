import MarketCow.Sdk.Fanout

/-!
# Credits of a fan-out

Each byte of a counter is held by an item: one that waits in a queue, one that
an enqueue is about to put there, or one that left it and is given back. An
atomic step moves the bytes of one item from one of these to the next.
-/

namespace MarketCow.Sdk.Fanout

open Library
open MarketCow.Source (fetchSub fetchSub_of_le)

variable {T : Type}

def queueBytes (queue : List (Queued T)) : Nat := (queue.map Queued.bytes).sum

@[simp] theorem queueBytes_nil : queueBytes ([] : List (Queued T)) = 0 := rfl

@[simp] theorem queueBytes_cons (item : Queued T) (queue : List (Queued T)) :
    queueBytes (item :: queue) = item.bytes + queueBytes queue := rfl

theorem queueBytes_append (first second : List (Queued T)) :
    queueBytes (first ++ second) = queueBytes first + queueBytes second := by
  unfold queueBytes
  rw [List.map_append, List.sum_append]

/-- The bytes of the client that an enqueue holds. -/
def Stage.total (bytes : Nat) : Stage → Nat
  | .start => 0
  | .refused _ => 0
  | _ => bytes

/-- The bytes of the consumer that an enqueue holds. -/
def Stage.own (bytes : Nat) : Stage → Nat
  | .localTaken => bytes
  | .dropping => bytes
  | _ => 0

/-- The bytes of the client that a receiver is giving back. -/
def Task.total : Task T → Nat
  | .refunding item _ _ => item.bytes
  | _ => 0

/-- The bytes of the consumer that a receiver is giving back. -/
def Task.own : Task T → Nat
  | .refunding item false _ => item.bytes
  | _ => 0

namespace Receiver

def values (receiver : Receiver T) : List T := receiver.channel.queue.map Queued.value

def inboundTotal (receiver : Receiver T) : Nat :=
  receiver.inbound.elim 0 fun inbound => inbound.2.total inbound.1.bytes

def inboundOwn (receiver : Receiver T) : Nat :=
  receiver.inbound.elim 0 fun inbound => inbound.2.own inbound.1.bytes

/-- The bytes that the client counts for a consumer. -/
def charge (receiver : Receiver T) : Nat :=
  queueBytes receiver.channel.queue + receiver.inboundTotal + receiver.task.total

/-- The bytes that a consumer counts. -/
def ownCharge (receiver : Receiver T) : Nat :=
  queueBytes receiver.channel.queue + receiver.inboundOwn + receiver.task.own

end Receiver

theorem Task.own_le_total (task : Task T) : task.own ≤ task.total := by
  unfold Task.own Task.total
  split
  · exact le_refl _
  · exact Nat.zero_le _

theorem Stage.own_le_total (bytes : Nat) (stage : Stage) : stage.own bytes ≤ stage.total bytes := by
  cases stage <;> simp [own, total]

theorem Receiver.ownCharge_le_charge (receiver : Receiver T) :
    receiver.ownCharge ≤ receiver.charge := by
  have task := receiver.task.own_le_total
  have inbound : receiver.inboundOwn ≤ receiver.inboundTotal := by
    unfold inboundOwn inboundTotal
    cases receiver.inbound with
    | none => exact le_refl _
    | some inbound => exact inbound.2.own_le_total inbound.1.bytes
  unfold ownCharge charge
  omega

/-- The counters of one consumer and of the client, in which the other
consumers hold the rest. -/
structure Credits (others total : Nat) (receiver : Receiver T) : Prop where
  own : receiver.channel.bytes = receiver.ownCharge
  total_eq : total = others + receiver.charge
  limit : total ≤ globalLimit

namespace Credits

variable {others total : Nat} {receiver after : Receiver T}

section

variable (credits : Credits others total receiver)
include credits

/-- Counters are machine words. -/
theorem total_lt : total < 2 ^ 64 :=
  lt_of_le_of_lt credits.limit (by decide)

theorem bytes_lt : receiver.channel.bytes < 2 ^ 64 := by
  have small := credits.total_lt
  have own := credits.own
  have whole := credits.total_eq
  have less := receiver.ownCharge_le_charge
  omega

/-- Only the queue, its counter and the bytes in flight matter. -/
theorem congr
    (bytes : after.channel.bytes = receiver.channel.bytes)
    (queue : after.channel.queue = receiver.channel.queue)
    (inboundTotal : after.inboundTotal = receiver.inboundTotal)
    (inboundOwn : after.inboundOwn = receiver.inboundOwn)
    (task : after.task.total = receiver.task.total) (own : after.task.own = receiver.task.own) :
    Credits others total after := by
  have charge : after.charge = receiver.charge := by
    unfold Receiver.charge
    rw [queue, inboundTotal, task]
  have ownCharge : after.ownCharge = receiver.ownCharge := by
    unfold Receiver.ownCharge
    rw [queue, inboundOwn, own]
  exact
    { own := by rw [bytes, ownCharge]; exact credits.own
      total_eq := by rw [charge]; exact credits.total_eq
      limit := credits.limit }

end

variable {item : Queued T}

/-- An enqueue that was refused holds no bytes. -/
theorem clear (credits : Credits others total receiver)
    (held : receiver.inbound = some (item, .refused reason))
    (bytes : after.channel = receiver.channel) (inbound : after.inbound = none)
    (task : after.task = receiver.task) :
    Credits others total after := by
  refine credits.congr (by rw [bytes]) (by rw [bytes]) ?_ ?_ (by rw [task]) (by rw [task])
  · unfold Receiver.inboundTotal
    rw [inbound, held]
    rfl
  · unfold Receiver.inboundOwn
    rw [inbound, held]
    rfl

variable {draining : Bool}

section

variable (credits : Credits others total receiver)
include credits

/-- The bytes of an item are given back to its consumer. -/
theorem refundOwn (task : receiver.task = .refunding item false draining) :
    Credits others total
      { receiver with
        channel := { receiver.channel with bytes := fetchSub receiver.channel.bytes item.bytes }
        task := .refunding item true draining } := by
  have own := credits.own
  have whole := credits.total_eq
  have small := credits.bytes_lt
  unfold Receiver.ownCharge at own
  unfold Receiver.charge at whole
  rw [task] at own whole
  have enough : item.bytes ≤ receiver.channel.bytes := by
    rw [own]
    exact Nat.le_add_left _ _
  rw [fetchSub_of_le small enough, own]
  refine ⟨?_, whole, credits.limit⟩
  unfold Receiver.ownCharge
  dsimp only [Task.own]
  exact Nat.add_sub_cancel _ item.bytes

/-- The bytes of an item are given back to the client. -/
theorem refundTotal
    (refunding : receiver.task = .refunding item true draining) (noTotal : task.total = 0)
    (noOwn : task.own = 0) :
    Credits others (fetchSub total item.bytes) { receiver with task } := by
  have own := credits.own
  have whole := credits.total_eq
  unfold Receiver.ownCharge at own
  unfold Receiver.charge at whole
  rw [refunding] at own whole
  have held : total = others + (queueBytes receiver.channel.queue + receiver.inboundTotal) +
      item.bytes := by
    rw [whole]
    exact (Nat.add_assoc _ _ _).symm
  have enough : item.bytes ≤ total := by
    rw [held]
    exact Nat.le_add_left _ _
  have difference : total - item.bytes =
      others + (queueBytes receiver.channel.queue + receiver.inboundTotal) := by
    rw [held]
    exact Nat.add_sub_cancel _ item.bytes
  rw [fetchSub_of_le credits.total_lt enough]
  refine ⟨?_, ?_, le_trans (Nat.sub_le _ _) credits.limit⟩
  · unfold Receiver.ownCharge
    rw [noOwn]
    exact own
  · unfold Receiver.charge
    rw [difference, noTotal]
    rfl

/-- An item leaves the queue and keeps its bytes for the moment. -/
theorem take (draining : Bool) (quiet : receiver.task.total = 0) :
    Credits others total (State.take receiver draining) := by
  have ownQuiet : receiver.task.own = 0 := by
    have less := receiver.task.own_le_total
    omega
  have own := credits.own
  have whole := credits.total_eq
  unfold Receiver.ownCharge at own
  unfold Receiver.charge at whole
  unfold State.take
  cases queue : receiver.channel.queue with
  | nil => exact credits.congr rfl rfl rfl rfl quiet.symm ownQuiet.symm
  | cons item rest =>
    rw [queue, queueBytes_cons] at own whole
    refine ⟨?_, ?_, credits.limit⟩
    · change receiver.channel.bytes = queueBytes rest + receiver.inboundOwn + item.bytes
      omega
    · change total = others + (queueBytes rest + receiver.inboundTotal + item.bytes)
      omega

/-- A seed that was in the queue is dropped. -/
theorem drop (held : receiver.channel.queue = item :: queue) (idle : receiver.inbound = none) :
    Credits others total
      { receiver with
        channel := { receiver.channel with queue }
        inbound := some (item, .dropping) } := by
  have own := credits.own
  have whole := credits.total_eq
  unfold Receiver.ownCharge Receiver.inboundOwn at own
  unfold Receiver.charge Receiver.inboundTotal at whole
  rw [held, idle, queueBytes_cons] at own whole
  refine ⟨?_, ?_, credits.limit⟩
  · change receiver.channel.bytes = queueBytes queue + item.bytes + receiver.task.own
    rw [own, Nat.add_comm item.bytes]
    rfl
  · change total = others + (queueBytes queue + item.bytes + receiver.task.total)
    rw [whole, Nat.add_comm item.bytes]
    rfl

end

/-! ## Enqueueing -/

/-- What one step of an enqueue does besides the counters: either the item is in
the queue, or the queue is as it was. -/
structure Enqueued (item : Queued T) (receiver after : Receiver T) : Prop where
  shape : after = { receiver with channel := after.channel, inbound := after.inbound }
  queue : after.inbound = none ∧ after.channel.queue = receiver.channel.queue ++ [item] ∨
    (∃ stage, after.inbound = some (item, stage)) ∧ after.channel.queue = receiver.channel.queue

variable {capacity : Nat}

section

variable (credits : Credits others total receiver)
include credits

theorem enqueue_start (start : (receiver.inbound.map Prod.snd).getD .start = .start)
    (noTotal : receiver.inboundTotal = 0) (noOwn : receiver.inboundOwn = 0) :
    Credits others (State.enqueue capacity item total receiver).1
        (State.enqueue capacity item total receiver).2 ∧
      Enqueued item receiver (State.enqueue capacity item total receiver).2 := by
  have own := credits.own
  have whole := credits.total_eq
  unfold Receiver.ownCharge at own
  unfold Receiver.charge at whole
  rw [noOwn] at own
  rw [noTotal] at whole
  unfold State.enqueue
  rw [start]
  dsimp only [enqueueStep]
  split
  · rename_i room
    refine ⟨⟨own, ?_, room⟩, rfl, .inr ⟨⟨_, rfl⟩, rfl⟩⟩
    change total + item.bytes =
      others + (queueBytes receiver.channel.queue + item.bytes + receiver.task.total)
    rw [whole]
    omega
  · exact ⟨⟨own, whole, credits.limit⟩, rfl, .inr ⟨⟨_, rfl⟩, rfl⟩⟩

theorem enqueue_continue
    (held : receiver.inbound = some (item, stage)) (going : ∀ reason, stage ≠ .refused reason)
    (begun : stage ≠ .start) :
    Credits others (State.enqueue capacity item total receiver).1
        (State.enqueue capacity item total receiver).2 ∧
      Enqueued item receiver (State.enqueue capacity item total receiver).2 := by
  have own := credits.own
  have whole := credits.total_eq
  have limit := credits.limit
  unfold Receiver.ownCharge Receiver.inboundOwn at own
  unfold Receiver.charge Receiver.inboundTotal at whole
  rw [held] at own whole
  dsimp only [elim_some] at own whole
  unfold State.enqueue
  rw [held]
  dsimp only [map_some, getD_some]
  cases stage with
  | start => exact absurd rfl begun
  | refused reason => exact absurd rfl (going reason)
  | globalTaken =>
    dsimp only [enqueueStep]
    split
    · refine ⟨⟨?_, whole, limit⟩, rfl, .inr ⟨⟨_, rfl⟩, rfl⟩⟩
      change receiver.channel.bytes + item.bytes =
        queueBytes receiver.channel.queue + item.bytes + receiver.task.own
      rw [own]
      change queueBytes receiver.channel.queue + 0 + receiver.task.own + item.bytes = _
      omega
    · exact ⟨⟨own, whole, limit⟩, rfl, .inr ⟨⟨_, rfl⟩, rfl⟩⟩
  | localTaken =>
    dsimp only [enqueueStep]
    split
    · refine ⟨⟨?_, ?_, limit⟩, rfl, .inl ⟨rfl, rfl⟩⟩
      · change receiver.channel.bytes =
          queueBytes (receiver.channel.queue ++ [item]) + 0 + receiver.task.own
        rw [queueBytes_append, own]
        rfl
      · change total =
          others + (queueBytes (receiver.channel.queue ++ [item]) + 0 + receiver.task.total)
        rw [queueBytes_append, whole]
        rfl
    · exact ⟨⟨own, whole, limit⟩, rfl, .inr ⟨⟨_, rfl⟩, rfl⟩⟩
  | dropping =>
    have enough : item.bytes ≤ receiver.channel.bytes := by
      rw [own]
      change item.bytes ≤ queueBytes receiver.channel.queue + item.bytes + receiver.task.own
      omega
    dsimp only [enqueueStep]
    rw [fetchSub_of_le credits.bytes_lt enough, own]
    refine ⟨⟨?_, whole, limit⟩, rfl, .inr ⟨⟨_, rfl⟩, rfl⟩⟩
    change queueBytes receiver.channel.queue + item.bytes + receiver.task.own - item.bytes =
      queueBytes receiver.channel.queue + 0 + receiver.task.own
    clear limit
    omega
  | returning reason =>
    have enough : item.bytes ≤ total := by
      rw [whole]
      change item.bytes ≤
        others + (queueBytes receiver.channel.queue + item.bytes + receiver.task.total)
      omega
    dsimp only [enqueueStep]
    rw [fetchSub_of_le credits.total_lt enough]
    refine ⟨⟨own, ?_, le_trans (Nat.sub_le _ _) limit⟩, rfl, .inr ⟨⟨_, rfl⟩, rfl⟩⟩
    clear limit
    change total - item.bytes =
      others + (queueBytes receiver.channel.queue + 0 + receiver.task.total)
    rw [whole]
    change others + (queueBytes receiver.channel.queue + item.bytes + receiver.task.total) -
      item.bytes = _
    omega

/-- One step of an enqueue that was not refused. -/
theorem enqueue (capacity : Nat) (same : ∀ inbound ∈ receiver.inbound, inbound.1 = item)
    (going : ∀ other reason, receiver.inbound ≠ some (other, .refused reason)) :
    Credits others (State.enqueue capacity item total receiver).1
        (State.enqueue capacity item total receiver).2 ∧
      Enqueued item receiver (State.enqueue capacity item total receiver).2 := by
  cases held : receiver.inbound with
  | none =>
    refine credits.enqueue_start ?_ ?_ ?_
    · rw [held]
      rfl
    · unfold Receiver.inboundTotal
      rw [held]
      rfl
    · unfold Receiver.inboundOwn
      rw [held]
      rfl
  | some inbound =>
    obtain ⟨other, stage⟩ := inbound
    obtain rfl : other = item := same _ held
    by_cases start : stage = .start
    · rw [start] at held
      refine credits.enqueue_start ?_ ?_ ?_
      · rw [held]
        rfl
      · unfold Receiver.inboundTotal
        rw [held]
        rfl
      · unfold Receiver.inboundOwn
        rw [held]
        rfl
    · refine credits.enqueue_continue held ?_ start
      intro reason refused
      exact going other reason (by rw [held, refused])

/-- The queue takes the value, or the value waits. -/
theorem enqueue_cases
    (capacity : Nat) (same : ∀ inbound ∈ receiver.inbound, inbound.1 = item)
    (going : ∀ other reason, receiver.inbound ≠ some (other, .refused reason)) :
    ∃ now channel inbound,
      State.enqueue capacity item total receiver = (now, { receiver with channel, inbound }) ∧
        Credits others now { receiver with channel, inbound } ∧
          (inbound = none ∧ channel.queue = receiver.channel.queue ++ [item] ∨
            (∃ stage, inbound = some (item, stage)) ∧ channel.queue = receiver.channel.queue) := by
  obtain ⟨charged, queued⟩ := credits.enqueue capacity same going
  generalize State.enqueue capacity item total receiver = result at charged queued
  obtain ⟨now, after⟩ := result
  refine ⟨now, after.channel, after.inbound, Prod.ext rfl queued.shape, ?_, queued.queue⟩
  rw [← queued.shape]
  exact charged

end

end Credits

end MarketCow.Sdk.Fanout
