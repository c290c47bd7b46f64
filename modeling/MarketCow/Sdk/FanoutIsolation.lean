import MarketCow.Sdk.FanoutRun

/-!
# Consumers that keep up

A consumer that empties its queue before each value is refused one exactly when
what the others hold leaves no room in the bytes of the client, or when it has
not returned the bytes of what it took. The queues are meant to be bounded
independently for each consumer, but one counter of the client is checked first.
-/

namespace MarketCow.Sdk.Fanout

open Library List Option Function
open Consistent (of_owner)

variable {T : Type}

/-! ## Conditions -/

/-- How far the enqueue for a consumer has come. -/
def Receiver.stage (receiver : Receiver T) : Stage :=
  (receiver.inbound.map Prod.snd).getD .start

/-- The queue refuses the value. -/
def Stage.turnsAway : Stage → Bool
  | .dropping => true
  | .returning _ => true
  | .refused _ => true
  | _ => false

/-- The value for a consumer that an action goes on to enqueue. -/
def State.reaching (place : Nat) (state : State T) : Action T → Option (Queued T × Receiver T)
  | .hubStep index =>
    match (state.hubs index).task with
    | .sending item (next :: _) =>
      if next = place then (state.receivers[place]?).map fun receiver => (item, receiver) else none
    | _ => none
  | _ => none

/-- Whenever a value reaches a consumer, its own queue is empty and the value is
within the limit of the queue. -/
def KeepsUp (place : Nat) (state : State T) (action : Action T) : Prop :=
  ∀ reached ∈ state.reaching place action, reached.2.stage = .start →
    reached.2.channel.queue.length = 0 ∧ reached.1.bytes ≤ localLimit

/-- The bytes of the client that the other consumers hold. -/
def State.heldByOthers (place : Nat) (state : State T) : Nat :=
  ((state.receivers.eraseIdx place).map Receiver.charge).sum

/-- The others, and what the consumer has not returned, leave room for a value
that reaches it. -/
def Sheltered (place : Nat) (state : State T) (action : Action T) : Prop :=
  ∀ reached ∈ state.reaching place action,
    (reached.2.stage = .start →
      state.heldByOthers place + reached.2.charge + reached.1.bytes ≤ globalLimit) ∧
    (reached.2.stage = .globalTaken → reached.2.channel.bytes + reached.1.bytes ≤ localLimit)

instance (place : Nat) (state : State T) (action : Action T) :
    Decidable (KeepsUp place state action) := by
  unfold KeepsUp
  infer_instance

instance (place : Nat) (state : State T) (action : Action T) :
    Decidable (Sheltered place state action) := by
  unfold Sheltered
  infer_instance

/-- No value that is sent to the consumer is being refused. -/
def State.Accepts (place : Nat) (state : State T) : Prop :=
  ∀ receiver, state.receivers[place]? = some receiver →
    ∀ item rest, (state.hubs receiver.hub).task = .sending item rest →
      receiver.stage.turnsAway = false

variable {state : State T} {item : Queued T} {receiver : Receiver T}

theorem State.reaching_of_task
    (task : (state.hubs index).task = .sending item (place :: rest))
    (there : state.receivers[place]? = some receiver) :
    state.reaching place (.hubStep index) = some (item, receiver) := by
  unfold State.reaching
  dsimp only
  rw [task]
  dsimp only
  rw [if_pos rfl, there]
  rfl

theorem State.of_reaching
    (reaches : state.reaching place action = some reached) :
    ∃ index rest, action = .hubStep index ∧
      (state.hubs index).task = .sending reached.1 (place :: rest) ∧
        state.receivers[place]? = some reached.2 := by
  unfold State.reaching at reaches
  split at reaches
  · split at reaches
    · rename_i item next rest task
      split at reaches
      · rename_i here
        obtain ⟨receiver, there, rfl⟩ := map_eq_some_iff.mp reaches
        exact ⟨_, rest, rfl, here ▸ task, there⟩
      · cases reaches
    · cases reaches
  · cases reaches

/-! ## A consumer -/

theorem Channel.closed_recount (channel : Channel T) (bytes : Nat) :
    { channel with bytes }.closed = channel.closed := rfl

/-- An enqueue leaves a queue open or closed. -/
theorem closed_enqueueStep
    (capacity : Nat) (item : Queued T) (total : Nat) (channel : Channel T) (stage : Stage) :
    (enqueueStep capacity item total channel stage).2.1.closed = channel.closed := by
  cases stage with
  | start =>
    dsimp only [enqueueStep]
    split <;> rfl
  | globalTaken =>
    dsimp only [enqueueStep]
    split
    · exact channel.closed_recount _
    · rfl
  | localTaken =>
    dsimp only [enqueueStep]
    split <;> rfl
  | dropping => exact channel.closed_recount _
  | returning reason | refused reason => rfl

/-- What an enqueue for a consumer that has room does with it. -/
structure Proceeds (receiver after : Receiver T) : Prop where
  shape : after = { receiver with channel := after.channel, inbound := after.inbound }
  closed : after.channel.closed = receiver.channel.closed
  accepted : ∀ held, after.inbound = some held →
    after.channel.queue = [] ∧ held.2.turnsAway = false

theorem proceeds_of_room
    (kind : HubKind) (accepted : receiver.stage.turnsAway = false)
    (empty : receiver.channel.queue = []) (opened : receiver.channel.closed = false)
    (fits : receiver.stage = .start → total + item.bytes ≤ globalLimit)
    (small : receiver.stage = .globalTaken → receiver.channel.bytes + item.bytes ≤ localLimit) :
    Proceeds receiver (State.enqueue kind.capacity item total receiver).2 := by
  unfold State.enqueue
  change Proceeds receiver
    { receiver with
      channel := (enqueueStep kind.capacity item total receiver.channel receiver.stage).2.1
      inbound := (enqueueStep kind.capacity item total receiver.channel receiver.stage).2.2.map
        fun stage => (item, stage) }
  cases stage : receiver.stage with
  | start =>
    dsimp only [enqueueStep]
    rw [if_pos (fits stage)]
    refine ⟨rfl, rfl, ?_⟩
    intro held under
    cases under
    exact ⟨empty, rfl⟩
  | globalTaken =>
    dsimp only [enqueueStep]
    rw [if_pos (small stage)]
    refine ⟨rfl, rfl, ?_⟩
    intro held under
    cases under
    exact ⟨empty, rfl⟩
  | localTaken =>
    have room : receiver.channel.queue.length < kind.capacity := by
      rw [empty]
      cases kind
      · exact Nat.zero_lt_succ _
      · exact Nat.zero_lt_succ _
    dsimp only [enqueueStep]
    rw [if_pos ⟨room, opened⟩]
    exact ⟨rfl, rfl, nofun⟩
  | dropping | returning reason | refused reason =>
    rw [stage] at accepted
    cases accepted

/-- Only its owner has told a consumer to leave, and no enqueue for it is about
to be refused. -/
structure Undisturbed (actions : List (Action T)) (place : Nat) (hub : Hub T)
    (receiver : Receiver T) : Prop where
  told : receiver.signalled = true ∨ receiver.terminal ≠ none →
    Action.finish receiver.hub receiver.terminal ∈ actions
  accepted : ∀ item rest held, hub.task = .sending item rest → receiver.inbound = some held →
    rest.head? = some place ∧ receiver.channel.queue = [] ∧ held.2.turnsAway = false
  opened : receiver.channel.closed = true → receiver.returned = true ∧ place ∉ hub.consumers

namespace Undisturbed

variable {actions : List (Action T)} {place : Nat} {hub next : Hub T}
  {receiver after : Receiver T}

section

variable (calm : Undisturbed actions place hub receiver)
include calm

/-- The hub turns to something else than an enqueue for the consumer. -/
theorem turn (consumers : place ∈ next.consumers → place ∈ hub.consumers)
    (free : ∀ item rest, next.task = .sending item rest → receiver.inbound = none) :
    Undisturbed actions place next receiver where
  told := calm.told
  accepted := by
    intro item rest held task inbound
    rw [free item rest task] at inbound
    cases inbound
  opened closed := ⟨(calm.opened closed).1, mt consumers (calm.opened closed).2⟩

/-- The receiver goes on with what it does. -/
theorem move (sameHub : after.hub = receiver.hub) (terminal : after.terminal = receiver.terminal)
    (signalled : after.signalled = receiver.signalled) (inbound : after.inbound = receiver.inbound)
    (returned : after.returned = receiver.returned)
    (closed : after.channel.closed = receiver.channel.closed)
    (queue : receiver.channel.queue = [] → after.channel.queue = []) :
    Undisturbed actions place hub after where
  told := by
    rw [sameHub, terminal, signalled]
    exact calm.told
  accepted := by
    intro item rest held task under
    rw [inbound] at under
    obtain ⟨head, empty, accepted⟩ := calm.accepted item rest held task under
    exact ⟨head, queue empty, accepted⟩
  opened := by
    rw [closed, returned]
    exact calm.opened

/-- The counter of the queue is set to another number. -/
theorem recount (bytes : Nat) (task : Task T) :
    Undisturbed actions place hub
      { receiver with channel := { receiver.channel with bytes }, task } :=
  calm.move rfl rfl rfl rfl rfl rfl id

theorem take (draining : Bool) : Undisturbed actions place hub (State.take receiver draining) := by
  unfold State.take
  split
  · exact calm.move rfl rfl rfl rfl rfl rfl id
  · rename_i item queue held
    refine calm.move rfl rfl rfl rfl rfl rfl ?_
    intro empty
    rw [held] at empty
    cases empty

end

end Undisturbed

/-! ## All hubs of a client -/

structure Calm (actions : List (Action T)) (place : Nat) (state : State T) : Prop where
  finishing : ∀ index reason rest, (state.hubs index).task = .finishing reason rest →
    Action.finish index reason ∈ actions
  receiver : ∀ receiver, state.receivers[place]? = some receiver →
    Undisturbed actions place (state.hubs receiver.hub) receiver

namespace Calm

variable {actions : List (Action T)} {place index other : Nat} {state after : State T}
  {hub : Hub T} {receiver later : Receiver T}

section

variable (calm : Calm actions place state)
include calm

theorem mono (subset : actions ⊆ more) : Calm more place state where
  finishing index reason rest task := subset (calm.finishing index reason rest task)
  receiver receiver there :=
    { told := fun told => subset ((calm.receiver receiver there).told told)
      accepted := (calm.receiver receiver there).accepted
      opened := (calm.receiver receiver there).opened }

/-- A step that changes one hub. -/
theorem setHub
    (finishing : ∀ reason rest, hub.task = .finishing reason rest →
      Action.finish index reason ∈ actions)
    (mine : ∀ receiver, state.receivers[place]? = some receiver → receiver.hub = index →
      Undisturbed actions place (state.hubs index) receiver →
        Undisturbed actions place hub receiver) :
    Calm actions place (state.setHub index hub) where
  finishing := by
    intro changed reason rest task
    change (Function.update state.hubs index hub changed).task = _ at task
    by_cases here : changed = index
    · rw [here, update_self] at task
      rw [here]
      exact finishing reason rest task
    · rw [update_of_ne here] at task
      exact calm.finishing changed reason rest task
  receiver := by
    intro receiver there
    change Undisturbed actions place (Function.update state.hubs index hub receiver.hub) receiver
    have before := calm.receiver receiver there
    by_cases here : receiver.hub = index
    · rw [here, update_self]
      exact mine receiver there here (here ▸ before)
    · rw [update_of_ne here]
      exact before

/-- A step that changes one consumer. -/
theorem setReceiver (there : state.receivers[other]? = some receiver)
    (mine : other = place → Undisturbed actions place (state.hubs later.hub) later) :
    Calm actions place { state.setReceiver other later with total } where
  finishing := calm.finishing
  receiver := by
    intro found lookup
    change (state.receivers.set other later)[place]? = some found at lookup
    by_cases here : place = other
    · rw [here, List.getElem?_set_self (List.getElem?_eq_some_iff.mp there).1] at lookup
      cases lookup
      exact mine here.symm
    · rw [getElem?_set_ne (Ne.symm here)] at lookup
      exact calm.receiver found lookup

end

/-- A step that changes one consumer and its hub. -/
theorem update {total : Nat}
    (calm : Calm actions place state) (there : state.receivers[other]? = some receiver)
    (owner : receiver.hub = index) (same : later.hub = receiver.hub)
    (finishing : ∀ reason rest, hub.task = .finishing reason rest →
      Action.finish index reason ∈ actions)
    (mine : other = place → Undisturbed actions place (state.hubs index) receiver →
      Undisturbed actions place hub later)
    (others : other ≠ place → ∀ found, state.receivers[place]? = some found →
      found.hub = index → Undisturbed actions place (state.hubs index) found →
        Undisturbed actions place hub found) :
    Calm actions place { (state.setHub index hub).setReceiver other later with total } := by
  by_cases here : other = place
  · subst here
    refine ⟨?_, ?_⟩
    · intro changed reason rest task
      change (Function.update state.hubs index hub changed).task = _ at task
      by_cases near : changed = index
      · rw [near, update_self] at task
        rw [near]
        exact finishing reason rest task
      · rw [update_of_ne near] at task
        exact calm.finishing changed reason rest task
    · intro found lookup
      change (state.receivers.set other later)[other]? = some found at lookup
      rw [List.getElem?_set_self (List.getElem?_eq_some_iff.mp there).1] at lookup
      cases lookup
      change Undisturbed actions other (Function.update state.hubs index hub later.hub) later
      rw [same, owner, update_self]
      exact mine rfl (owner ▸ calm.receiver receiver there)
  · have hubs : Calm actions place (state.setHub index hub) := calm.setHub finishing (others here)
    exact hubs.setReceiver there (fun mine => absurd mine here)

/-! ## Receivers -/

section

variable (calm : Calm actions place state)
include calm

theorem receiverStep
    (consistent : Consistent state) (there : state.receivers[other]? = some receiver)
    (taken : state.receiverStep other receiver = some after) :
    Calm actions place after := by
  have before : other = place → Undisturbed actions place (state.hubs receiver.hub) receiver := by
    intro here
    exact calm.receiver receiver (here ▸ there)
  unfold State.receiverStep at taken
  cases task : receiver.task with
  | idle =>
    rw [task] at taken
    cases taken
  | selecting =>
    rw [task] at taken
    dsimp only at taken
    split at taken <;> cases taken
    · refine calm.setReceiver there fun here => ?_
      exact (before here).move rfl rfl rfl rfl rfl rfl id
    · refine calm.setReceiver there fun here => ?_
      exact (before here).move rfl rfl rfl rfl rfl rfl id
  | receiving =>
    rw [task] at taken
    cases taken
    refine calm.setReceiver there fun here => ?_
    have same : (State.take receiver false).hub = receiver.hub := by
      unfold State.take
      split <;> rfl
    rw [same]
    exact (before here).take false
  | draining =>
    rw [task] at taken
    cases taken
    refine calm.setReceiver there fun here => ?_
    have same : (State.take receiver true).hub = receiver.hub := by
      unfold State.take
      split <;> rfl
    rw [same]
    exact (before here).take true
  | refunding item localDone draining =>
    rw [task] at taken
    cases localDone with
    | false =>
      cases taken
      refine calm.setReceiver there fun here => ?_
      exact (before here).recount _ _
    | true =>
      cases taken
      refine calm.setReceiver there fun here => ?_
      exact (before here).move rfl rfl rfl rfl rfl rfl id
  | closing =>
    rw [task] at taken
    dsimp only at taken
    split at taken
    · rename_i free
      cases taken
      have sound := consistent.receiver other receiver there
      have idle : ∀ {P : Prop} item rest,
          (state.hubs receiver.hub).task = HubTask.sending item rest → P := by
        intro P item rest busy
        rw [free] at busy
        cases busy
      refine calm.update there rfl rfl ?_ ?_ ?_
      · exact fun reason rest => calm.finishing receiver.hub reason rest
      · intro here known
        refine ⟨known.told, fun item rest held busy => idle item rest busy, fun _ => ⟨?_, ?_⟩⟩
        · exact sound.returned_of_task (by rw [task]; nofun)
        · rw [here]
          exact (consistent.hub receiver.hub).nodup.not_mem_erase
      · intro _ found _ _ known
        exact known.turn mem_of_mem_erase fun item rest busy => idle item rest busy
    · cases taken

/-! ## The holder of a lock -/

theorem sendStep
    (consistent : Consistent state) (there : state.receivers[other]? = some receiver)
    (task : (state.hubs index).task = .sending item (other :: rest))
    (keepsUp : KeepsUp place state (.hubStep index))
    (sheltered : Sheltered place state (.hubStep index)) :
    Calm actions place (state.sendStep index item other rest receiver) := by
  have hubSound := consistent.hub index
  have listed : (other :: rest).Sublist (state.hubs index).consumers := by
    have sound := hubSound.task
    rw [task] at sound
    exact sound
  have mem : other ∈ (state.hubs index).consumers := listed.subset mem_cons_self
  have owner := of_owner (hubSound.owned other mem) there
  have elsewhere : other ≠ place → ∀ found, state.receivers[place]? = some found →
      Undisturbed actions place (state.hubs index) found → found.inbound = none := by
    intro away found _ known
    cases inbound : found.inbound with
    | none => rfl
    | some held =>
      have head := (known.accepted item (other :: rest) held task inbound).1
      exact absurd (some.inj head) away
  unfold State.sendStep
  split
  · rename_i first reason held
    refine calm.update there owner rfl nofun ?_ ?_
    · intro here known
      obtain ⟨_, _, accepted⟩ := known.accepted item (other :: rest) _ task held
      cases accepted
    · intro away found lookup _ known
      exact known.turn mem_of_mem_erase fun _ _ _ => elsewhere away found lookup known
  · rename_i going
    dsimp only
    refine calm.update there owner rfl ?_ ?_ ?_
    · intro reason others busy
      split at busy <;> cases busy
    · intro here known
      subst here
      have opened : receiver.channel.closed = false := by
        cases closed : receiver.channel.closed with
        | false => rfl
        | true => exact absurd mem (known.opened closed).2
      have reaches := State.reaching_of_task task there
      obtain ⟨fits, small⟩ := sheltered (item, receiver) reaches
      have kept : receiver.stage.turnsAway = false ∧ receiver.channel.queue = [] := by
        cases inbound : receiver.inbound with
        | none =>
          have start : receiver.stage = .start := by
            unfold Receiver.stage
            rw [inbound]
            rfl
          have empty := (keepsUp (item, receiver) reaches start).1
          exact ⟨by rw [start]; rfl, length_eq_zero_iff.mp empty⟩
        | some held =>
          obtain ⟨_, empty, accepted⟩ := known.accepted item (other :: rest) held task inbound
          refine ⟨?_, empty⟩
          unfold Receiver.stage
          rw [inbound]
          exact accepted
      have proceeds : Proceeds receiver
          (State.enqueue (state.hubs index).kind.capacity item state.total receiver).2 := by
        refine proceeds_of_room _ kept.1 kept.2 opened ?_ small
        intro start
        rw [(consistent.credits there).total_eq]
        exact fits start
      revert proceeds
      generalize (State.enqueue (state.hubs index).kind.capacity item state.total receiver).2 =
        queued
      intro proceeds
      refine ⟨?_, ?_, ?_⟩
      · rw [proceeds.shape]
        exact known.told
      · intro again others held busy under
        rw [if_neg (by rw [under]; nofun)] at busy
        obtain ⟨rfl, rfl⟩ := HubTask.sending.inj busy
        exact ⟨rfl, proceeds.accepted held under⟩
      · intro closed
        rw [proceeds.closed, opened] at closed
        cases closed
    · intro away found lookup _ known
      exact known.turn id fun _ _ _ => elsewhere away found lookup known

section

variable (there : state.receivers[other]? = some receiver) (owner : receiver.hub = index)
include there owner

theorem seedStep :
    Calm actions place (state.seedStep index item other receiver) := by
  unfold State.seedStep
  split
  · refine calm.update there owner rfl nofun ?_ ?_
    · intro _ known
      exact ⟨known.told, nofun, known.opened⟩
    · intro _ found _ _ known
      exact known.turn id nofun
  · dsimp only
    refine calm.update there owner rfl nofun ?_ ?_
    · intro _ known
      refine ⟨known.told, nofun, ?_⟩
      have closed : (State.enqueue (state.hubs index).kind.capacity item state.total
          receiver).2.channel.closed = receiver.channel.closed := by
        unfold State.enqueue
        exact closed_enqueueStep _ _ _ _ _
      rw [closed]
      exact known.opened
    · intro _ found _ _ known
      exact known.turn id nofun

theorem insertStep
    (fresh : receiver.returned = false) :
    Calm actions place (state.insertStep index other receiver) := by
  have opened : Undisturbed actions other (state.hubs index) receiver →
      receiver.channel.closed ≠ true := by
    intro known closed
    rw [(known.opened closed).1] at fresh
    cases fresh
  unfold State.insertStep
  dsimp only
  split
  · refine calm.update there owner rfl nofun ?_ ?_
    · rintro rfl known
      exact ⟨known.told, nofun, fun closed => absurd closed (opened known)⟩
    · intro away found _ _ known
      refine known.turn ?_ nofun
      intro listed
      rcases mem_append.mp listed with old | new
      · exact old
      · exact absurd (mem_singleton.mp new).symm away
  · split
    · refine calm.update there owner rfl nofun ?_ ?_
      · rintro rfl known
        exact ⟨known.told, nofun, fun closed => absurd closed (opened known)⟩
      · intro _ found _ _ known
        exact known.turn id nofun
    · refine calm.update there owner rfl nofun ?_ ?_
      · rintro rfl known
        exact ⟨known.told, nofun, fun closed => absurd closed (opened known)⟩
      · intro _ found _ _ known
        exact known.turn id nofun

end

theorem hubStep (consistent : Consistent state) (taken : state.hubStep index = some after)
    (keepsUp : KeepsUp place state (.hubStep index))
    (sheltered : Sheltered place state (.hubStep index)) :
    Calm actions place after := by
  have hubSound := consistent.hub index
  have sound := hubSound.task
  unfold State.hubStep at taken
  dsimp only at taken
  split at taken
  · cases taken
  · rename_i task
    cases taken
    exact calm.setHub nofun fun _ _ _ known => known.turn id nofun
  · rename_i item other rest task
    obtain ⟨receiver, there, rfl⟩ := map_eq_some_iff.mp taken
    exact calm.sendStep consistent there task keepsUp sheltered
  · rename_i other item task
    obtain ⟨receiver, there, rfl⟩ := map_eq_some_iff.mp taken
    rw [task] at sound
    exact calm.seedStep there (of_owner sound there)
  · rename_i other task
    obtain ⟨receiver, there, rfl⟩ := map_eq_some_iff.mp taken
    rw [task] at sound
    have owner := of_owner sound there
    have visit : (state.hubs receiver.hub).visit other = .seeding none := by
      unfold Hub.visit
      rw [owner, task]
      exact if_pos rfl
    exact calm.insertStep there owner
      ((consistent.receiver other receiver there).seeding none visit).fresh
  · rename_i reason task
    cases taken
    exact calm.setHub nofun fun _ _ _ known => known.turn (fun mem => nomatch mem) nofun
  · rename_i reason other rest task
    obtain ⟨receiver, there, rfl⟩ := map_eq_some_iff.mp taken
    have asked := calm.finishing index reason (other :: rest) task
    rw [task] at sound
    have owner := of_owner (hubSound.owned other (sound.subset mem_cons_self)) there
    refine calm.update there owner rfl ?_ ?_ ?_
    · intro again others busy
      obtain ⟨rfl, rfl⟩ := HubTask.finishing.inj busy
      exact asked
    · intro _ known
      refine ⟨fun _ => ?_, nofun, known.opened⟩
      dsimp only [State.signal]
      rw [owner]
      exact asked
    · intro _ found _ _ known
      exact known.turn id nofun

end

/-! ## Operations -/

/-- A hub that is free enqueues nothing. -/
theorem inbound_of_idle (consistent : Consistent state) (free : (state.hubs index).task = .idle)
    (there : state.receivers[place]? = some receiver) (owner : receiver.hub = index) :
    receiver.inbound = none := by
  have sound := consistent.receiver place receiver there
  rw [owner, Consistent.visit_of_idle free] at sound
  exact sound.inbound_eq_none nofun nofun

section

variable (calm : Calm actions place state)
include calm

theorem attach (given : Except String (Option (Queued T))) :
    Calm actions place (state.attach index given) := by
  unfold State.attach
  dsimp only
  split
  · exact calm
  · split
    · exact calm
    · rename_i seed chosen
      have hubs : Calm actions place (state.setHub index
          { state.hubs index with task := .attaching state.receivers.length seed }) :=
        calm.setHub nofun fun _ _ _ known => known.turn id nofun
      refine ⟨hubs.finishing, ?_⟩
      intro receiver there
      change (state.receivers ++ [State.newReceiver index seed])[place]? = some receiver at there
      by_cases inside : place < state.receivers.length
      · rw [getElem?_append_left inside] at there
        exact hubs.receiver receiver there
      · have added := mem_of_getElem? there
        rw [getElem?_append_right (Nat.le_of_not_lt inside)] at there
        obtain rfl := mem_singleton.mp (mem_of_getElem? there)
        refine ⟨?_, nofun, nofun⟩
        rintro (signalled | told)
        · cases signalled
        · exact absurd rfl told

theorem send (consistent : Consistent state) (item : Queued T)
    (seed : Option (Queued T)) (free : (state.hubs index).task = .idle) :
    Calm actions place (state.send index item seed) := by
  have hubs : Calm actions place (state.setHub index
      { state.hubs index with
        seed := seed.or (state.hubs index).seed
        task := .sending item (state.hubs index).consumers }) :=
    calm.setHub nofun fun _ there owner known =>
      known.turn id fun _ _ _ => inbound_of_idle consistent free there owner
  refine ⟨hubs.finishing, ?_⟩
  intro receiver there
  change (state.receivers.map (State.expect index item.value))[place]? = some receiver at there
  rw [getElem?_map] at there
  obtain ⟨old, found, rfl⟩ := map_eq_some_iff.mp there
  have before := hubs.receiver old found
  unfold State.expect
  split
  · exact before.move rfl rfl rfl rfl rfl rfl id
  · exact before

theorem of_held {change : Receiver T → Receiver T}
    (kept : ∀ receiver, Undisturbed actions place (state.hubs receiver.hub) receiver →
      Undisturbed actions place (state.hubs (change receiver).hub) (change receiver))
    (taken : state.held other change = some after) :
    Calm actions place after := by
  obtain ⟨receiver, there, _, _, rfl⟩ := State.held_eq_some taken
  exact calm.setReceiver there fun here => kept receiver (calm.receiver receiver (here ▸ there))

theorem step {action : Action T} (consistent : Consistent state)
    (taken : State.step state action after) (keepsUp : KeepsUp place state action)
    (sheltered : Sheltered place state action) :
    Calm (actions ++ [action]) place after := by
  have known : Calm (actions ++ [action]) place state := calm.mono (subset_append_left _ _)
  unfold State.step State.act at taken
  cases action with
  | attach index given =>
    obtain ⟨_, rfl⟩ := State.locked_eq_some taken
    exact known.attach given
  | send index item seed =>
    obtain ⟨free, rfl⟩ := State.locked_eq_some taken
    exact known.send consistent item seed free
  | clearSeed index =>
    obtain ⟨free, rfl⟩ := State.locked_eq_some taken
    refine known.setHub ?_ fun _ there owner before =>
      before.turn id fun _ _ _ => inbound_of_idle consistent free there owner
    intro reason rest busy
    rw [free] at busy
    cases busy
  | finish index reason =>
    obtain ⟨_, rfl⟩ := State.locked_eq_some taken
    refine known.setHub ?_ fun _ _ _ before => before.turn id nofun
    intro again rest busy
    obtain ⟨rfl, _⟩ := HubTask.finishing.inj busy
    exact mem_append_right _ mem_cons_self
  | active index =>
    obtain ⟨free, rfl⟩ := State.locked_eq_some taken
    unfold State.active
    dsimp only
    split
    · refine known.setHub ?_ fun _ there owner before =>
        before.turn id fun _ _ _ => inbound_of_idle consistent free there owner
      intro reason rest busy
      rw [free] at busy
      cases busy
    · exact known
  | hubStep index => exact known.hubStep consistent taken keepsUp sheltered
  | next other =>
    refine known.of_held ?_ taken
    intro receiver before
    unfold State.next
    split
    · exact before
    · split
      · exact before.move rfl rfl rfl rfl rfl rfl id
      · exact before.move rfl rfl rfl rfl rfl rfl id
  | close other =>
    refine known.of_held ?_ taken
    intro receiver before
    exact before.move rfl rfl rfl rfl rfl rfl id
  | receiverStep other =>
    obtain ⟨receiver, there, stepped⟩ := bind_eq_some_iff.mp taken
    exact known.receiverStep consistent there stepped

theorem accepts : state.Accepts place := by
  intro receiver there item rest task
  unfold Receiver.stage
  cases inbound : receiver.inbound with
  | none => rfl
  | some held => exact ((calm.receiver receiver there).accepted item rest held task inbound).2.2

end

end Calm

/-! ## Runs -/

/-- A visit after which the enqueue is not over. -/
theorem State.sendStep_of_next
    (going : receiver.stage.turnsAway = false)
    (next : (enqueueStep (state.hubs index).kind.capacity item state.total receiver.channel
      receiver.stage).2.2 = some stage) :
    ∃ channel total, state.sendStep index item place rest receiver =
      { (state.setHub index
          { state.hubs index with task := .sending item (place :: rest) }).setReceiver place
            { receiver with channel, inbound := some (item, stage) } with total } := by
  unfold State.sendStep
  split
  · rename_i other reason held
    unfold Receiver.stage at going
    rw [held] at going
    cases going
  · have under : (State.enqueue (state.hubs index).kind.capacity item state.total
        receiver).2.inbound = some (item, stage) := by
      unfold State.enqueue
      dsimp only
      unfold Receiver.stage at next
      rw [next]
      rfl
    dsimp only
    rw [if_neg (by rw [under]; nofun), ← under]
    exact ⟨_, _, rfl⟩

/-- A step after which nothing is refused found room. -/
theorem sheltered_of_accepts {place : Nat} {action : Action T} {after : State T}
    (consistent : Consistent state) (taken : State.step state action after)
    (accepts : after.Accepts place) :
    Sheltered place state action := by
  rintro ⟨item, receiver⟩ reaches
  obtain ⟨index, rest, rfl, task, there⟩ := State.of_reaching reaches
  dsimp only at task there
  have hubSound := consistent.hub index
  have sound := hubSound.task
  rw [task] at sound
  obtain rfl := of_owner (hubSound.owned place (sound.subset mem_cons_self)) there
  have accepted {stage : Stage} (going : receiver.stage.turnsAway = false)
      (next : (enqueueStep (state.hubs receiver.hub).kind.capacity item state.total
        receiver.channel receiver.stage).2.2 = some stage) :
      stage.turnsAway = false := by
    unfold State.step State.act State.hubStep at taken
    dsimp only at taken
    rw [task] at taken
    dsimp only at taken
    rw [there, map_some] at taken
    obtain ⟨channel, total, same⟩ := State.sendStep_of_next going next
    obtain rfl := (some.inj taken).symm.trans same
    refine accepts { receiver with channel, inbound := some (item, stage) } ?_ item (place :: rest) ?_
    · exact List.getElem?_set_self (List.getElem?_eq_some_iff.mp there).1
    · change (Function.update state.hubs receiver.hub _ receiver.hub).task = _
      rw [update_self]
  constructor
  · intro start
    by_contra full
    unfold State.heldByOthers at full
    rw [← (consistent.credits there).total_eq] at full
    have refused := @accepted (.refused "client_event_byte_budget") (by rw [start]; rfl) (by
      rw [start]
      dsimp only [enqueueStep]
      rw [if_neg full])
    cases refused
  · intro charged
    by_contra full
    have refused := @accepted (.returning "slow_consumer_byte_budget") (by rw [charged]; rfl) (by
      rw [charged]
      dsimp only [enqueueStep]
      rw [if_neg full])
    cases refused

theorem State.step_deterministic : Run.Deterministic (@State.step T) := by
  intro before action after other taken again
  exact some.inj (taken.symm.trans again)

theorem calm_of_run {kinds : Nat → HubKind} (run : Run State.step (State.new kinds) actions state)
    (keepsUp : Run.EachStep State.step (fun _ => KeepsUp place) (State.new kinds) actions) :
    (Run.EachStep State.step (fun _ => Sheltered place) (State.new kinds) actions →
      Calm actions place state) ∧
        (Run.Throughout State.step (State.Accepts place) (State.new kinds) actions ↔
          Run.EachStep State.step (fun _ => Sheltered place) (State.new kinds) actions) := by
  induction run with
  | nil =>
    have start : Calm [] place (State.new kinds : State T) := ⟨nofun, nofun⟩
    refine ⟨fun _ => start, ?_⟩
    rw [Run.throughout_nil_iff]
    exact ⟨fun _ => Run.eachStep_nil, fun _ => start.accepts⟩
  | snoc before taken ih =>
    obtain ⟨earlier, keeps⟩ := (Run.eachStep_snoc_iff State.step_deterministic before).mp keepsUp
    obtain ⟨calm, same⟩ := ih earlier
    have consistent := consistent_of_run before
    rw [Run.eachStep_snoc_iff State.step_deterministic before,
      Run.throughout_snoc_iff State.step_deterministic before taken, same]
    refine ⟨fun sheltered => (calm sheltered.1).step consistent taken keeps sheltered.2, ?_⟩
    refine and_congr_right fun sheltered => ⟨sheltered_of_accepts consistent taken, ?_⟩
    exact fun now => ((calm sheltered).step consistent taken keeps now).accepts

/-- A consumer that keeps up is refused a value in no state of a run exactly
when the others and its own bytes left room whenever one reached it. Then it is
told to leave by nobody but the owner who finishes its hub. -/
theorem told_by_owner {kinds : Nat → HubKind} {actions : List (Action T)} {place : Nat}
    (run : Run State.step (State.new kinds) actions state)
    (keepsUp : Run.EachStep State.step (fun _ => KeepsUp place) (State.new kinds) actions) :
    (Run.Throughout State.step (State.Accepts place) (State.new kinds) actions ↔
      Run.EachStep State.step (fun _ => Sheltered place) (State.new kinds) actions) ∧
      (Run.EachStep State.step (fun _ => Sheltered place) (State.new kinds) actions →
        ∀ receiver, state.receivers[place]? = some receiver →
          receiver.signalled = true ∨ receiver.terminal ≠ none →
            Action.finish receiver.hub receiver.terminal ∈ actions) := by
  obtain ⟨calm, same⟩ := calm_of_run run keepsUp
  refine ⟨same, ?_⟩
  intro sheltered receiver there told
  exact ((calm sheltered).receiver receiver there).told told

/-- Three consumers leave the first value unread and are refused the second one.
The fourth takes both, and then its hub is finished. -/
def finishedActions : List (Action Nat) :=
  (List.replicate 4 [.attach 0 (.ok none), .hubStep 0]).flatten ++
    .send 0 ⟨7, localLimit⟩ none :: List.replicate 13 (.hubStep 0) ++
      .next 3 :: List.replicate 4 (.receiverStep 3) ++
        .send 0 ⟨8, localLimit⟩ none :: List.replicate 16 (.hubStep 0) ++
          .finish 0 (some "closed") :: List.replicate 2 (.hubStep 0)

theorem told_by_owner_finished :
    ∃ (state : State Nat) (receiver : Receiver Nat),
      Run State.step (State.new fun _ => .price) finishedActions state ∧
        Run.Throughout State.step (State.Accepts 3) (State.new fun _ => .price) finishedActions ∧
          state.receivers[3]? = some receiver ∧ receiver.terminal = some "closed" ∧
            (state.receivers[0]?).bind Receiver.terminal = some "slow_consumer_byte_budget" ∧
              Action.finish receiver.hub receiver.terminal ∈ finishedActions := by
  have played : (finishedActions.foldlM
      (fun state action =>
        if KeepsUp 3 state action ∧ Sheltered 3 state action then state.act action else none)
        (State.new fun _ => .price)).map (fun state =>
          ((state.receivers[3]?).bind Receiver.terminal,
            (state.receivers[0]?).bind Receiver.terminal)) =
      some (some "closed", some "slow_consumer_byte_budget") := by
    decide +kernel
  obtain ⟨state, reached, shape⟩ := map_eq_some_iff.mp played
  obtain ⟨found, slow⟩ := Prod.mk.inj shape
  obtain ⟨receiver, there, terminal⟩ := bind_eq_some_iff.mp found
  have restricted := Run.restrict_of_foldlM reached
  have run := restricted.unrestrict
  have each := Run.eachStep_of_restrict State.step_deterministic restricted
  obtain ⟨same, told⟩ := told_by_owner run
    fun earlier label later before split reached =>
      (each earlier label later before split reached).1
  have sheltered : Run.EachStep State.step (fun _ => Sheltered 3) _ finishedActions :=
    fun earlier label later before split reached =>
      (each earlier label later before split reached).2
  exact ⟨state, receiver, run, same.mpr sheltered, there, terminal, slow,
    told sheltered receiver there (.inr (by rw [terminal]; nofun))⟩

/-! ## Refused although it keeps up -/

/-- Five consumers are sent a value, and nobody reads it. -/
def starvingActions : List (Action Nat) :=
  (List.replicate 5 [.attach 0 (.ok none), .hubStep 0]).flatten ++
    .send 0 ⟨7, localLimit⟩ none :: List.replicate 14 (.hubStep 0)

/-- A consumer has taken a value but not returned its bytes when the next comes. -/
def returningActions : List (Action Nat) :=
  [.attach 0 (.ok none), .hubStep 0, .send 0 ⟨7, localLimit⟩ none, .hubStep 0, .hubStep 0,
    .hubStep 0, .hubStep 0, .next 0, .receiverStep 0, .receiverStep 0,
    .send 0 ⟨8, localLimit⟩ none, .hubStep 0, .hubStep 0, .hubStep 0, .hubStep 0]

/-- A run of price hubs in which a consumer keeps up and is refused. -/
def Refuses (actions : List (Action Nat)) (place : Nat) (reason : String) : Prop :=
  ∃ state : State Nat, Run State.step (State.new fun _ => .price) actions state ∧
    Run.EachStep State.step (fun _ => KeepsUp place) (State.new fun _ => .price) actions ∧
      (state.receivers[place]?).bind Receiver.terminal = some reason

theorem refuses_of_foldlM
    (played : (actions.foldlM
      (fun state action => if KeepsUp place state action then state.act action else none)
        (State.new fun _ => .price)).bind (fun state => (state.receivers[place]?).bind
          Receiver.terminal) = some reason) :
    Refuses actions place reason := by
  obtain ⟨state, reached, refused⟩ := bind_eq_some_iff.mp played
  have run := Run.restrict_of_foldlM reached
  exact ⟨state, run.unrestrict, Run.eachStep_of_restrict State.step_deterministic run, refused⟩

/-- What others leave unread, and the bytes of a value that was just taken, get a
consumer refused whose queue is empty. -/
theorem refused_with_empty_queue :
    Refuses starvingActions 4 "client_event_byte_budget" ∧
      Refuses returningActions 0 "slow_consumer_byte_budget" :=
  ⟨refuses_of_foldlM (by decide +kernel), refuses_of_foldlM (by decide +kernel)⟩

end MarketCow.Sdk.Fanout
