import MarketCow.Sdk.FanoutRun

/-!
# What a fan-out delivers

From the first state on, a consumer is due its seed and every value sent after
it was attached, and is given them in order. Once the owner has finished a hub,
or has found that nobody is left, no consumer is attached to it any more.
-/

namespace MarketCow.Sdk.Fanout

open Library List Option Function
open State (act expect new seedOf)

variable {T : Type}

/-- The values that an action sends to the consumers of a hub. -/
def Action.sentTo (hub : Nat) : Action T → List T
  | .send index item _ => if index = hub then [item.value] else []
  | _ => []

/-- No consumer is being attached to a stopped hub. -/
def Hub.Ended (hub : Hub T) : Prop :=
  hub.stopped = true ∧ ∀ place seed, hub.task ≠ .attaching place seed

/-- What a step leaves of the consumers and of the hubs before it. -/
structure Follows (state : State T) (sent : Nat → List T) (after : State T) : Prop where
  onwards : ∀ (place : Nat) (receiver : Receiver T), state.receivers[place]? = some receiver →
    ∃ later : Receiver T, after.receivers[place]? = some later ∧ later.hub = receiver.hub ∧
      later.expected = receiver.expected ++ sent receiver.hub
  back : ∀ (place : Nat) (later : Receiver T), after.receivers[place]? = some later →
    later.returned = true → ∃ receiver : Receiver T, state.receivers[place]? = some receiver ∧ receiver.hub = later.hub ∧
      (receiver.returned = true ∨ ∃ seed, (state.hubs receiver.hub).task = .attaching place seed)
  ended : ∀ hub, (state.hubs hub).Ended → (after.hubs hub).Ended

namespace Follows

variable {state after : State T} {index place : Nat} {receiver later : Receiver T}

theorem refl (state : State T) : Follows state (fun _ => []) state where
  onwards := fun _ receiver there => ⟨receiver, there, rfl, (append_nil _).symm⟩
  back := fun _ later there returned => ⟨later, there, rfl, .inl returned⟩
  ended := fun _ ended => ended

/-- A step that changes one hub. -/
theorem setHub (ended : (state.hubs index).Ended → hub.Ended) :
    Follows state (fun _ => []) (state.setHub index hub) where
  onwards := (refl state).onwards
  back := (refl state).back
  ended := by
    intro other before
    change (Function.update state.hubs index hub other).Ended
    by_cases here : other = index
    · rw [here, update_self]
      exact ended (here ▸ before)
    · rw [update_of_ne here]
      exact before

/-- A step that changes one consumer and its hub. -/
theorem update {hub : Hub T} {total : Nat}
    (there : state.receivers[place]? = some receiver) (same : later.hub = receiver.hub)
    (expected : later.expected = receiver.expected)
    (returned : later.returned = true → receiver.returned = true ∨
      ∃ seed, (state.hubs receiver.hub).task = .attaching place seed)
    (ended : (state.hubs index).Ended → hub.Ended) :
    Follows state (fun _ => [])
      { (state.setHub index hub).setReceiver place later with total } := by
  have inside : place < state.receivers.length := (List.getElem?_eq_some_iff.mp there).1
  have hubs : Follows state (fun _ => []) (state.setHub index hub) := setHub ended
  refine ⟨?_, ?_, hubs.ended⟩
  · intro other found lookup
    change ∃ later', (state.receivers.set place later)[other]? = some later' ∧ _
    by_cases here : other = place
    · rw [here] at lookup ⊢
      obtain rfl := some.inj (there.symm.trans lookup)
      exact ⟨later, getElem?_set_self inside, same, by rw [expected, append_nil]⟩
    · rw [getElem?_set_ne (Ne.symm here)]
      exact hubs.onwards other found lookup
  · intro other found lookup wasReturned
    change (state.receivers.set place later)[other]? = some found at lookup
    by_cases here : other = place
    · rw [here] at lookup ⊢
      rw [getElem?_set_self inside] at lookup
      cases lookup
      exact ⟨receiver, there, same.symm, returned wasReturned⟩
    · rw [getElem?_set_ne (Ne.symm here)] at lookup
      exact hubs.back other found lookup wasReturned

section

variable (there : state.receivers[place]? = some receiver)
include there

/-- A step that changes one consumer. -/
theorem setReceiver
    {total : Nat} (same : later.hub = receiver.hub) (expected : later.expected = receiver.expected)
    (returned : later.returned = receiver.returned) :
    Follows state (fun _ => []) { state.setReceiver place later with total } := by
  have whole : Follows state (fun _ => []) { (state.setHub receiver.hub
      (state.hubs receiver.hub)).setReceiver place later with total } :=
    update there same expected (fun wasReturned => .inl (returned ▸ wasReturned)) id
  unfold State.setHub at whole
  rw [update_eq_self] at whole
  exact whole

theorem take (draining : Bool) :
    Follows state (fun _ => []) (state.setReceiver place (State.take receiver draining)) := by
  unfold State.take
  split
  · exact setReceiver there rfl rfl rfl
  · exact setReceiver there rfl rfl rfl

theorem receiverStep (taken : state.receiverStep place receiver = some after) :
    Follows state (fun _ => []) after := by
  unfold State.receiverStep at taken
  cases task : receiver.task with
  | idle =>
    rw [task] at taken
    cases taken
  | selecting =>
    rw [task] at taken
    dsimp only at taken
    split at taken <;> cases taken
    · exact setReceiver there rfl rfl rfl
    · exact setReceiver there rfl rfl rfl
  | receiving =>
    rw [task] at taken
    cases taken
    exact take there false
  | closing =>
    rw [task] at taken
    dsimp only at taken
    split at taken
    · cases taken
      exact update there rfl rfl .inl id
    · cases taken
  | draining =>
    rw [task] at taken
    cases taken
    exact take there true
  | refunding item localDone draining =>
    rw [task] at taken
    cases localDone with
    | false | true =>
      cases taken
      exact setReceiver there rfl rfl rfl

end

/-- A task that a stopped hub may have. -/
theorem ended_task
    {hub : Hub T} {task : HubTask T} (calm : ∀ place seed, task ≠ .attaching place seed) :
    hub.Ended → { hub with task }.Ended :=
  fun ended => ⟨ended.1, calm⟩

variable {item : Queued T}

theorem sending_ne_attaching {condition : Prop} [Decidable condition] {first second : List Nat}
    (other : Nat) (seed : Option (Queued T)) :
    (if condition then HubTask.sending item first else .sending item second) ≠
      .attaching other seed := by
  split <;> nofun

section

variable (there : state.receivers[place]? = some receiver)
include there

theorem sendStep {rest : List Nat} :
    Follows state (fun _ => []) (state.sendStep index item place rest receiver) := by
  unfold State.sendStep
  split
  · refine update there rfl rfl .inl ?_
    exact fun ended => ⟨ended.1, nofun⟩
  · exact update there rfl rfl .inl (ended_task sending_ne_attaching)

theorem seedStep
    (task : (state.hubs index).task = .attaching place (some item)) :
    Follows state (fun _ => []) (state.seedStep index item place receiver) := by
  have busy : ∀ hub : Hub T, (state.hubs index).Ended → hub.Ended :=
    fun hub ended => absurd task (ended.2 place (some item))
  unfold State.seedStep
  split
  · exact update there rfl rfl .inl (busy _)
  · exact update there rfl rfl .inl (busy _)

theorem insertStep (owned : receiver.hub = index)
    (task : (state.hubs index).task = .attaching place none) :
    Follows state (fun _ => []) (state.insertStep index place receiver) := by
  have busy : ∀ hub : Hub T, (state.hubs index).Ended → hub.Ended :=
    fun hub ended => absurd task (ended.2 place none)
  unfold State.insertStep
  dsimp only
  split
  · refine update there rfl rfl (fun _ => .inr ⟨none, ?_⟩) (busy _)
    rw [owned]
    exact task
  · split
    · exact update there rfl rfl .inl (busy _)
    · exact update there rfl rfl .inl (busy _)

end

theorem hubStep (consistent : Consistent state) (taken : state.hubStep index = some after) :
    Follows state (fun _ => []) after := by
  unfold State.hubStep at taken
  dsimp only at taken
  cases task : (state.hubs index).task with
  | idle =>
    rw [task] at taken
    cases taken
  | sending item places =>
    rw [task] at taken
    cases places with
    | nil =>
      cases taken
      exact setHub (ended_task nofun)
    | cons place rest =>
      obtain ⟨receiver, there, rfl⟩ := map_eq_some_iff.mp taken
      exact sendStep there
  | attaching place seed =>
    have owned : state.owner place = some index := by
      have sound := (consistent.hub index).task
      rw [task] at sound
      exact sound
    rw [task] at taken
    cases seed with
    | none =>
      obtain ⟨receiver, there, rfl⟩ := map_eq_some_iff.mp taken
      exact insertStep there (Consistent.of_owner owned there) task
    | some item =>
      obtain ⟨receiver, there, rfl⟩ := map_eq_some_iff.mp taken
      exact seedStep there task
  | finishing reason places =>
    rw [task] at taken
    cases places with
    | nil =>
      cases taken
      exact setHub fun ended => ⟨ended.1, nofun⟩
    | cons place rest =>
      obtain ⟨receiver, there, rfl⟩ := map_eq_some_iff.mp taken
      exact update there rfl rfl .inl (ended_task nofun)

theorem attach (given : Except String (Option (Queued T))) :
    Follows state (fun _ => []) (state.attach index given) := by
  unfold State.attach
  dsimp only
  split
  · exact refl state
  · rename_i room
    split
    · exact refl state
    · rename_i seed chosen
      have hubs : Follows state (fun _ => [])
          (state.setHub index
            { state.hubs index with task := .attaching state.receivers.length seed }) :=
        setHub fun ended => absurd (.inl ended.1) room
      refine ⟨?_, ?_, hubs.ended⟩
      · intro place receiver there
        have inside := (List.getElem?_eq_some_iff.mp there).1
        refine ⟨receiver, ?_, rfl, (append_nil _).symm⟩
        exact (getElem?_append_left inside).trans there
      · intro place later there returned
        change (state.receivers ++ [State.newReceiver index seed])[place]? = some later at there
        by_cases inside : place < state.receivers.length
        · rw [getElem?_append_left inside] at there
          exact ⟨later, there, rfl, .inl returned⟩
        · have mem := mem_of_getElem? there
          have bound := (List.getElem?_eq_some_iff.mp there).1
          rw [length_append, length_singleton] at bound
          have last : place = state.receivers.length := by omega
          rw [last, getElem?_concat_length] at there
          cases there
          cases returned

theorem send (item : Queued T) (seed : Option (Queued T)) :
    Follows state (fun hub => if index = hub then [item.value] else [])
      (state.send index item seed) := by
  have hubs : Follows state (fun _ => [])
      (state.setHub index
        { state.hubs index with
          seed := seed.or (state.hubs index).seed
          task := .sending item (state.hubs index).consumers }) :=
    setHub fun ended => ⟨ended.1, nofun⟩
  refine ⟨?_, ?_, hubs.ended⟩
  · intro place receiver there
    refine ⟨expect index item.value receiver, ?_, Consistent.hub_expect _ _, ?_⟩
    · change (state.receivers.map (expect index item.value))[place]? = _
      rw [getElem?_map, there]
      rfl
    · unfold expect
      by_cases here : receiver.hub = index
      · rw [if_pos here, if_pos here.symm]
      · rw [if_neg here, if_neg (Ne.symm here), append_nil]
  · intro place later there returned
    change (state.receivers.map (expect index item.value))[place]? = some later at there
    rw [getElem?_map] at there
    obtain ⟨receiver, before, rfl⟩ := map_eq_some_iff.mp there
    refine ⟨receiver, before, (Consistent.hub_expect _ _).symm, .inl ?_⟩
    unfold expect at returned
    split at returned <;> exact returned

/-- Every step follows what was before it. -/
theorem step
    {action : Action T} (consistent : Consistent state) (taken : State.step state action after) :
    Follows state (fun hub => action.sentTo hub) after := by
  have locked : ∀ hub result sent, Follows state sent result →
      state.locked hub result = some after → Follows state sent after := by
    intro hub result sent follows result_eq
    unfold State.locked at result_eq
    split at result_eq
    · cases result_eq
      exact follows
    · cases result_eq
  have held : ∀ place (change : Receiver T → Receiver T),
      (∀ receiver, (change receiver).hub = receiver.hub ∧
        (change receiver).expected = receiver.expected ∧
          (change receiver).returned = receiver.returned) →
      state.held place change = some after → Follows state (fun _ => []) after := by
    intro place change same result_eq
    unfold State.held at result_eq
    cases there : state.receivers[place]? with
    | none =>
      rw [there] at result_eq
      cases result_eq
    | some receiver =>
      rw [there] at result_eq
      obtain ⟨_, result_eq⟩ := ite_none_right_eq_some.mp result_eq
      cases result_eq
      obtain ⟨hub, expected, returned⟩ := same receiver
      exact setReceiver there hub expected returned
  unfold State.step act at taken
  cases action with
  | attach hub seed => exact locked hub _ _ (attach seed) taken
  | send hub item seed => exact locked hub _ _ (send item seed) taken
  | clearSeed hub =>
    have follows : Follows state (fun _ => [])
        (state.setHub hub { state.hubs hub with seed := none }) := setHub id
    exact locked hub _ _ follows taken
  | finish hub reason =>
    have follows : Follows state (fun _ => []) (state.finish hub reason) :=
      setHub fun _ => ⟨rfl, nofun⟩
    exact locked hub _ _ follows taken
  | active hub =>
    refine locked hub _ _ ?_ taken
    unfold State.active
    dsimp only
    split
    · exact setHub fun ended => ⟨rfl, ended.2⟩
    · exact refl state
  | hubStep hub => exact hubStep consistent taken
  | next place =>
    refine held place State.next ?_ taken
    intro receiver
    unfold State.next
    split
    · exact ⟨rfl, rfl, rfl⟩
    · split <;> exact ⟨rfl, rfl, rfl⟩
  | close place =>
    exact held place (fun receiver => { receiver with closed := true, task := .closing })
      (fun _ => ⟨rfl, rfl, rfl⟩) taken
  | receiverStep place =>
    obtain ⟨receiver, there, stepped⟩ := bind_eq_some_iff.mp taken
    exact receiverStep there stepped

end Follows

/-! ## Runs -/

section Runs

variable {state finish : State T} {actions : List (Action T)} {hub : Nat} {receiver : Receiver T}
  {place : Nat}

/-- What a consumer is due grows by the values sent to its hub. -/
theorem expected_of_run (consistent : Consistent state) (run : Run State.step state actions finish)
    (there : state.receivers[place]? = some receiver) :
    ∃ later, finish.receivers[place]? = some later ∧ later.hub = receiver.hub ∧
      later.expected = receiver.expected ++ actions.flatMap (Action.sentTo receiver.hub) := by
  induction run with
  | nil => exact ⟨receiver, there, rfl, (append_nil _).symm⟩
  | snoc before taken ih =>
    obtain ⟨middle, found, sameHub, expected⟩ := ih
    have sound := consistent.run before
    obtain ⟨later, there, same, grown⟩ := (Follows.step sound taken).onwards place middle found
    refine ⟨later, there, same.trans sameHub, ?_⟩
    rw [grown, expected, sameHub, flatMap_append, append_assoc]
    congr 2
    exact (flatMap_singleton _ _).symm

/-- The consumers of a hub that has ended were attached before. -/
theorem returned_of_ended (consistent : Consistent state) (ended : (state.hubs hub).Ended)
    (run : Run State.step state actions finish) :
    (finish.hubs hub).Ended ∧
      ∀ (place : Nat) (later : Receiver T), finish.receivers[place]? = some later →
        later.hub = hub → later.returned = true →
          ∃ receiver, state.receivers[place]? = some receiver ∧ receiver.returned = true := by
  induction run with
  | nil => exact ⟨ended, fun _ later there _ returned => ⟨later, there, returned⟩⟩
  | snoc before taken ih =>
    obtain ⟨stillEnded, attached⟩ := ih
    have sound := consistent.run before
    have follows := Follows.step sound taken
    refine ⟨follows.ended hub stillEnded, ?_⟩
    intro place later there sameHub returned
    obtain ⟨middle, found, same, wasReturned | ⟨seed, attaching⟩⟩ :=
      follows.back place later there returned
    · exact attached place middle found (same.trans sameHub) wasReturned
    · rw [same, sameHub] at attaching
      exact absurd attaching (stillEnded.2 place seed)

/-- The owner finishes a hub, or finds that nobody is left. -/
inductive Ends (state : State T) (hub : Nat) (after : State T) : Prop
  | finish (reason : Option String) (taken : State.step state (.finish hub reason) after)
  | active (taken : State.step state (.active hub) after)
      (nobody : (state.hubs hub).consumers = [])

theorem ended_of_ends {after : State T} (ends : Ends state hub after) : (after.hubs hub).Ended := by
  cases ends with
  | finish reason taken =>
    unfold State.step act State.locked at taken
    dsimp only at taken
    split at taken
    · cases taken
      unfold State.finish State.setHub
      dsimp only
      rw [update_self]
      exact ⟨rfl, nofun⟩
    · cases taken
  | active taken nobody =>
    unfold State.step act State.locked at taken
    dsimp only at taken
    split at taken
    · rename_i free
      cases taken
      unfold State.active State.setHub
      rw [if_pos nobody]
      dsimp only
      rw [update_self]
      refine ⟨rfl, ?_⟩
      intro place seed attaching
      exact absurd (free.symm.trans attaching) nofun
    · cases taken

/-- A call for the next value ends or fails. -/
def Stops (state : State T) (place : Nat) (receiver : Receiver T) : Prop :=
  receiver.closed = true ∨ (State.next receiver).task = .closing ∨
    (State.next receiver).task = .selecting ∧
      (state.setReceiver place (State.next receiver)).receiverStep place (State.next receiver) =
        some ((state.setReceiver place (State.next receiver)).setReceiver place
          { State.next receiver with closed := true, task := .closing })

/-- What holds of every state that the hubs of a client reach. -/
structure Kept (state : State T) : Prop where
  /-- A consumer is given what it is due, without a hole or a repetition. -/
  given : ∀ receiver ∈ state.receivers, receiver.delivered <+: receiver.expected
  /-- Nothing is lost for a consumer that its hub lists. -/
  held : ∀ (place : Nat) (receiver : Receiver T), state.receivers[place]? = some receiver →
    place ∈ (state.hubs receiver.hub).consumers → (state.hubs receiver.hub).task = .idle →
      receiver.delivered ++ receiver.values = receiver.expected
  /-- A consumer that its hub does not list any more is told so. -/
  stops : ∀ (place : Nat) (receiver : Receiver T), state.receivers[place]? = some receiver →
    receiver.returned = true → place ∉ (state.hubs receiver.hub).consumers →
      (receiver.closed = true ∨ receiver.signalled = true) ∧ Stops state place receiver
  /-- A counter holds the bytes of a queue and of the item that is on its way
  into it or out of it. -/
  own : ∀ receiver ∈ state.receivers, receiver.channel.bytes =
    queueBytes receiver.channel.queue + receiver.inboundOwn + receiver.task.own
  total : state.total = (state.receivers.map fun receiver =>
    queueBytes receiver.channel.queue + receiver.inboundTotal + receiver.task.total).sum
  limit : state.total ≤ globalLimit
  /-- No counter is below what is still to be given back. -/
  enough : ∀ receiver ∈ state.receivers,
    receiver.inboundOwn + receiver.task.own ≤ receiver.channel.bytes ∧
      receiver.inboundTotal + receiver.task.total ≤ state.total
  released : (∀ receiver ∈ state.receivers, receiver.closed = true ∧ receiver.task = .idle) →
    state.total = 0

theorem stops_of_left (left : place ∉ (state.hubs receiver.hub).consumers) :
    Stops state place receiver := by
  unfold Stops
  by_cases closed : receiver.closed = true
  · exact .inl closed
  · right
    unfold State.next
    rw [if_neg closed]
    split
    · exact .inl rfl
    · right
      refine ⟨rfl, ?_⟩
      unfold State.receiverStep
      dsimp only
      rw [if_pos]
      exact .inr left

/-- Nothing is counted for a closed receiver at rest. -/
theorem charge_eq_zero
    (consistent : Consistent state) (there : state.receivers[place]? = some receiver)
    (closed : receiver.closed = true) (idle : receiver.task = .idle) :
    receiver.charge = 0 := by
  have sound := consistent.receiver place receiver there
  obtain ⟨empty, nonmember⟩ := sound.resting closed idle
  have noInbound : receiver.inbound = none := by
    refine sound.inbound_eq_none ?_ ?_
    · intro item due
      exact nonmember (sound.due item due)
    · intro item seeding
      exact absurd ((sound.seeding _ seeding).opened.symm.trans closed) (by decide)
  unfold Receiver.charge Receiver.inboundTotal
  rw [empty, noInbound, idle]
  rfl

theorem Consistent.kept (consistent : Consistent state) : Kept state :=
  { consistent with
    given := by
      intro receiver mem
      obtain ⟨place, there⟩ := getElem?_of_mem mem
      exact (consistent.receiver place receiver there).given
    held := by
      intro place receiver there mem free
      have current := (consistent.receiver place receiver there).current mem
      rw [visit_of_idle free] at current
      rw [← current]
      exact (append_nil _).symm
    stops := by
      intro place receiver there returned left
      exact ⟨(consistent.receiver place receiver there).told returned left, stops_of_left left⟩
    total := consistent.total_eq
    enough := by
      intro receiver mem
      obtain ⟨place, there⟩ := getElem?_of_mem mem
      have own := consistent.own receiver mem
      have charged := le_sum_map Receiver.charge there
      rw [← consistent.total_eq] at charged
      unfold Receiver.ownCharge at own
      unfold Receiver.charge at charged
      omega
    released := by
      intro everyone
      rw [consistent.total_eq]
      refine sum_eq_zero ?_
      intro charge mem
      obtain ⟨receiver, old, rfl⟩ := mem_map.mp mem
      obtain ⟨place, there⟩ := getElem?_of_mem old
      obtain ⟨closed, idle⟩ := everyone receiver old
      exact charge_eq_zero consistent there closed idle }

/-- A consumer that an operation adds has the seed of its hub or of its caller. -/
theorem attached (taken : State.step state (.attach hub given) middle)
    (added : state.receivers.length < middle.receivers.length) :
    ∃ seed, seedOf (state.hubs hub) given = .ok seed ∧
      middle.receivers[state.receivers.length]? = some (State.newReceiver hub seed) := by
  unfold State.step act State.locked at taken
  dsimp only at taken
  split at taken
  · cases taken
    unfold State.attach at added ⊢
    dsimp only at added ⊢
    split at added
    · exact absurd added (lt_irrefl _)
    · rename_i room
      rw [if_neg room]
      split at added
      · exact absurd added (lt_irrefl _)
      · rename_i seed chosen
        exact ⟨seed, chosen, getElem?_concat_length⟩
  · cases taken

end Runs

/-- Over any interleaving, consumers are given what they are due, bytes are
counted, and a hub that has ended takes no consumer. -/
theorem fanout_of_run {kinds : Nat → HubKind} {actions : List (Action T)} {state : State T}
    (run : Run State.step (new kinds) actions state) :
    Kept state ∧
      (∀ hub given middle more finish, State.step state (.attach hub given) middle →
        state.receivers.length < middle.receivers.length →
        Run State.step middle more finish →
          ∃ seed receiver, seedOf (state.hubs hub) given = .ok seed ∧
            finish.receivers[state.receivers.length]? = some receiver ∧
              receiver.expected =
                (seed.map Queued.value).toList ++ more.flatMap (Action.sentTo hub)) ∧
      ∀ hub after more finish, Ends state hub after → Run State.step after more finish →
        ∀ (place : Nat) (later : Receiver T), finish.receivers[place]? = some later →
          later.hub = hub → later.returned = true →
            ∃ receiver, after.receivers[place]? = some receiver ∧ receiver.returned = true := by
  have consistent := consistent_of_run run
  refine ⟨consistent.kept, ?_, ?_⟩
  · intro hub given middle more finish taken added onwards
    obtain ⟨seed, chosen, there⟩ := attached taken added
    obtain ⟨receiver, found, _, expected⟩ := expected_of_run (consistent.step taken) onwards there
    exact ⟨seed, receiver, chosen, found, expected⟩
  · intro hub after more finish ends onwards
    have later : Consistent after := by
      cases ends with
      | finish reason taken | active taken nobody => exact consistent.step taken
    exact (returned_of_ended later (ended_of_ends ends) onwards).2

/-- A consumer with a seed is sent one more value and takes both. -/
def sampleActions : List (Action Nat) :=
  [.attach 0 (.ok (some ⟨5, 8⟩)), .hubStep 0, .hubStep 0, .hubStep 0, .hubStep 0,
    .send 0 ⟨7, 8⟩ none, .hubStep 0, .hubStep 0, .hubStep 0, .hubStep 0,
    .next 0, .receiverStep 0, .receiverStep 0, .receiverStep 0, .receiverStep 0,
    .next 0, .receiverStep 0, .receiverStep 0, .receiverStep 0, .receiverStep 0]

theorem fanout_of_run_sample :
    ∃ state : State Nat,
      Run State.step (new fun _ => .market) sampleActions state ∧
        state.receivers.map Receiver.delivered = [[5, 7]] ∧ state.total = 0 ∧ Kept state := by
  have played : (sampleActions.foldlM act (new fun _ => .market)).map
      (fun state => (state.receivers.map Receiver.delivered, state.total)) =
        some ([[5, 7]], 0) := by
    decide +kernel
  obtain ⟨state, reached, shape⟩ := map_eq_some_iff.mp played
  have run := Run.of_foldlM reached
  exact ⟨state, run, congrArg Prod.fst shape, congrArg Prod.snd shape, (fanout_of_run run).1⟩

/-- A consumer that is attached and closed. -/
def leavingActions : List (Action Nat) :=
  [.attach 0 (.ok none), .hubStep 0, .close 0, .receiverStep 0, .receiverStep 0]

/-- Who was attached and closed, and whom the first hub lists. -/
def listing (state : State Nat) : List (Bool × Bool) × List Nat :=
  (state.receivers.map fun receiver => (receiver.returned, receiver.closed),
    (state.hubs 0).consumers)

/-- After the last consumer left, another one is attached before the owner asks. -/
theorem attached_after_last_left :
    ∃ state after : State Nat,
      Run State.step (new fun _ => .market) leavingActions state ∧
        listing state = ([(true, true)], []) ∧
          Run State.step state [.attach 0 (.ok none), .hubStep 0] after ∧
            listing after = ([(true, true), (true, false)], [1]) := by
  have left : (leavingActions.foldlM act (new fun _ => .market)).map
      (fun state => (listing state,
        ([Action.attach 0 (.ok none), .hubStep 0].foldlM act state).map listing)) =
        some (([(true, true)], []), some ([(true, true), (true, false)], [1])) := by
    decide +kernel
  obtain ⟨state, reached, shape⟩ := map_eq_some_iff.mp left
  obtain ⟨nobody, again⟩ := Prod.mk.inj shape
  obtain ⟨after, joined, both⟩ := map_eq_some_iff.mp again
  exact ⟨state, after, Run.of_foldlM reached, nobody, Run.of_foldlM joined, both⟩

end MarketCow.Sdk.Fanout
