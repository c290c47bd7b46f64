import MarketCow.Sdk.FanoutCredits

/-!
# Consumers of a fan-out

A consumer that its hub lists was given or holds, or is about to be offered,
everything it is due. A consumer that its hub does not list was told so or left
by itself. A step that changes one consumer and its hub keeps what the hub still
does for the others.
-/

namespace MarketCow.Sdk.Fanout

open Library List Function
open Receiver (charge)

variable {T : Type}

/-! ## What a hub still does for a consumer -/

inductive Visit (T : Type)
  | nothing
  | due (item : Queued T)
  | seeding (seed : Option (Queued T))
  | told

/-- The values of a visit, in the order in which they are offered. -/
def Visit.owed : Visit T → List T
  | .due item => [item.value]
  | _ => []

/-- What the holder of the lock of a hub still does for a consumer. -/
def Hub.visit (hub : Hub T) (place : Nat) : Visit T :=
  match hub.task with
  | .idle => .nothing
  | .sending item rest => if place ∈ rest then .due item else .nothing
  | .attaching other seed => if other = place then .seeding seed else .nothing
  | .finishing _ rest => if place ∈ rest then .nothing else .told

/-- Tasks of a receiver that was not closed when they began. -/
def Task.receives : Task T → Bool
  | .selecting => true
  | .receiving => true
  | .refunding _ _ drains => !drains
  | _ => false

/-- Tasks of a receiver that has left its hub. -/
def Task.leaves : Task T → Bool
  | .draining => true
  | .refunding _ _ drains => drains
  | _ => false

/-! ## Receivers -/

/-- A consumer that is being attached, before or after its seed. -/
structure Seeded (seed : Option (Queued T)) (receiver : Receiver T) : Prop where
  fresh : receiver.returned = false
  opened : receiver.closed = false
  entering : ∀ item ∈ seed, receiver.channel.queue = [] ∧ receiver.expected = [item.value]
  entered : seed = none → receiver.inbound = none ∧ receiver.values = receiver.expected ∧
    receiver.channel.queue.length ≤ 1

/-- A consumer, whether its hub lists it, and what the hub still does for it. -/
structure ReceiverSound (member : Prop) (visit : Visit T) (receiver : Receiver T) : Prop where
  given : receiver.delivered <+: receiver.expected
  order : receiver.closed = false → receiver.delivered ++ receiver.values <+: receiver.expected
  current : member → receiver.delivered ++ receiver.values ++ visit.owed = receiver.expected
  told : receiver.returned = true → ¬ member → receiver.closed = true ∨ receiver.signalled = true
  finished : visit = .told → member → receiver.signalled = true
  returned : member → receiver.returned = true
  due : ∀ item, visit = .due item → member
  seeding : ∀ seed, visit = .seeding seed → Seeded seed receiver
  inbound : ∀ item stage, receiver.inbound = some (item, stage) →
    visit = .due item ∨ visit = .seeding (some item)
  fresh : receiver.returned = false → receiver.task = .idle ∧ receiver.delivered = []
  opened : receiver.task.receives = true → receiver.closed = false
  shut : receiver.task = .closing → receiver.closed = true
  left : receiver.task.leaves = true → receiver.closed = true ∧ ¬ member
  resting : receiver.closed = true → receiver.task = .idle → receiver.channel.queue = [] ∧ ¬ member

namespace ReceiverSound

variable {member : Prop} {visit : Visit T} {receiver : Receiver T}

section

variable (sound : ReceiverSound member visit receiver)
include sound

/-- A receiver at work was returned to its caller. -/
theorem returned_of_task (busy : receiver.task ≠ .idle) : receiver.returned = true := by
  cases returned : receiver.returned with
  | true => rfl
  | false => exact absurd (sound.fresh returned).1 busy

/-- A hub does not list a consumer that it seeds. -/
theorem nonmember (seeding : visit = .seeding seed) : ¬ member := by
  intro isMember
  exact absurd ((sound.returned isMember).symm.trans (sound.seeding _ seeding).fresh) (by decide)

/-- The queue and the record stay, and only the receiver goes on. -/
theorem move (bytes : Nat) (closed : Bool) (task : Task T) (returned : receiver.returned = true)
    (grows : receiver.closed = true → closed = true)
    (opened : task.receives = true → closed = false) (shut : task = .closing → closed = true)
    (left : task.leaves = true → closed = true ∧ ¬ member)
    (resting : closed = true → task = .idle → receiver.channel.queue = [] ∧ ¬ member) :
    ReceiverSound member visit
      { receiver with channel := { receiver.channel with bytes }, closed, task } where
  given := sound.given
  order := by
    intro stillOpen
    refine sound.order ?_
    cases before : receiver.closed with
    | false => rfl
    | true => exact absurd ((grows before).symm.trans stillOpen) (by decide)
  current := sound.current
  told := by
    intro _ nonmember
    exact (sound.told returned nonmember).imp_left grows
  finished := sound.finished
  returned := sound.returned
  due := sound.due
  seeding := by
    intro seed visiting
    exact absurd ((sound.seeding seed visiting).fresh.symm.trans returned) (by decide)
  inbound := sound.inbound
  fresh := by
    intro unreturned
    exact absurd (unreturned.symm.trans returned) (by decide)
  opened := opened
  shut := shut
  left := left
  resting := resting

/-- A call to receive begins. -/
theorem next (returned : receiver.returned = true) :
    ReceiverSound member visit (State.next receiver) := by
  unfold State.next
  by_cases closed : receiver.closed = true
  · rw [if_pos closed]
    exact sound
  · rw [if_neg closed]
    rw [not_eq_true] at closed
    split
    · exact sound.move receiver.channel.bytes true .closing returned (fun _ => rfl) nofun
        (fun _ => rfl) nofun nofun
    · exact sound.move receiver.channel.bytes receiver.closed .selecting returned id
        (fun _ => closed) nofun nofun nofun

/-- The oldest item leaves the queue, for the caller or to be dropped. -/
theorem take (task : receiver.task = if draining then .draining else .receiving) :
    ReceiverSound member visit (State.take receiver draining) := by
  have returned : receiver.returned = true := by
    refine sound.returned_of_task ?_
    rw [task]
    cases draining <;> nofun
  have leaving : draining = true → receiver.closed = true ∧ ¬ member := by
    intro drains
    refine sound.left ?_
    rw [task, if_pos drains]
    rfl
  have staying : draining = false → receiver.closed = false := by
    intro stays
    refine sound.opened ?_
    rw [task, stays]
    rfl
  unfold State.take
  cases queue : receiver.channel.queue with
  | nil =>
    refine sound.move receiver.channel.bytes receiver.closed .idle returned id nofun nofun nofun ?_
    intro closed _
    refine ⟨queue, ?_⟩
    cases draining with
    | true => exact (leaving rfl).2
    | false => exact absurd ((staying rfl).symm.trans closed) (by decide)
  | cons item rest =>
    have values : receiver.values = item.value :: rest.map Queued.value := by
      unfold Receiver.values
      rw [queue, map_cons]
    have task_leaves : (Task.refunding item false draining).leaves = true →
        receiver.closed = true ∧ ¬ member := leaving
    have shared : ∀ seed, visit ≠ .seeding seed := by
      intro seed visiting
      exact absurd ((sound.seeding seed visiting).fresh.symm.trans returned) (by decide)
    have unreturned : receiver.returned ≠ false := by
      rw [returned]
      decide
    cases draining with
    | true =>
      obtain ⟨closed, nonmember⟩ := leaving rfl
      exact
        { sound with
          order := fun stillOpen => absurd (closed.symm.trans stillOpen) (by decide)
          current := fun isMember => absurd isMember nonmember
          seeding := fun seed visiting => absurd visiting (shared seed)
          fresh := fun fresh => absurd fresh unreturned
          opened := nofun
          shut := nofun
          left := task_leaves
          resting := nofun }
    | false =>
      have still : receiver.closed = false := staying rfl
      have moved : ∀ tail, receiver.delivered ++ [item.value] ++ rest.map Queued.value ++ tail =
          receiver.delivered ++ receiver.values ++ tail := by
        intro tail
        rw [values, append_assoc receiver.delivered, singleton_append]
      have whole : receiver.delivered ++ [item.value] ++ rest.map Queued.value <+:
          receiver.expected := by
        have before := sound.order still
        rw [← append_nil (_ ++ _), moved, append_nil]
        exact before
      exact
        { sound with
          given := (prefix_append _ _).trans whole
          order := fun _ => whole
          current := fun isMember => (moved _).trans (sound.current isMember)
          seeding := fun seed visiting => absurd visiting (shared seed)
          fresh := fun fresh => absurd fresh unreturned
          opened := fun _ => still
          shut := nofun
          left := task_leaves
          resting := nofun }

/-- A receiver leaves its hub. -/
theorem leave (task : receiver.task = .closing) (quiet : visit = .nothing) :
    ReceiverSound False .nothing
      { receiver with channel := { receiver.channel with closed := true }, task := .draining } where
  given := sound.given
  order := fun stillOpen => absurd ((sound.shut task).symm.trans stillOpen) (by decide)
  current := nofun
  told := fun _ _ => .inl (sound.shut task)
  finished := nofun
  returned := nofun
  due := nofun
  seeding := nofun
  inbound := by
    intro item stage there
    rw [quiet] at sound
    exact absurd (sound.inbound item stage there) (by simp)
  fresh := by
    intro unreturned
    exact absurd (sound.fresh unreturned).1 (by rw [task]; nofun)
  opened := nofun
  shut := nofun
  left := fun _ => ⟨sound.shut task, not_false⟩
  resting := nofun

/-! ## What the holder of a lock does to a consumer -/

theorem congr {other : Prop} (same : other ↔ member) (visits : second = visit) :
    ReceiverSound other second receiver := by
  rw [propext same, visits]
  exact sound

/-- A consumer that nothing is done for has no enqueue under way. -/
theorem inbound_eq_none
    (noDue : ∀ item, visit ≠ .due item) (noSeed : ∀ item, visit ≠ .seeding (some item)) :
    receiver.inbound = none := by
  cases held : receiver.inbound with
  | none => rfl
  | some inbound =>
    rcases sound.inbound inbound.1 inbound.2 held with due | seeding
    · exact absurd due (noDue _)
    · exact absurd seeding (noSeed _)

end

/-- A value is recorded for a consumer. -/
theorem expect [Decidable mem] (sound : ReceiverSound mem .nothing receiver) (item : Queued T) :
    ReceiverSound mem (if mem then .due item else .nothing)
      { receiver with expected := receiver.expected ++ [item.value] } where
  given := sound.given.trans (prefix_append _ _)
  order := fun opened => (sound.order opened).trans (prefix_append _ _)
  current := by
    intro isMember
    have before := sound.current isMember
    rw [if_pos isMember]
    dsimp only [Visit.owed] at before ⊢
    rw [← before, append_nil]
    rfl
  told := sound.told
  finished := by
    intro told
    split at told <;> cases told
  returned := sound.returned
  due := by
    intro other due
    by_cases isMember : mem
    · exact isMember
    · rw [if_neg isMember] at due
      cases due
  seeding := by
    intro seed seeding
    split at seeding <;> cases seeding
  inbound := by
    intro other stage held
    rcases sound.inbound other stage held with due | seeding
    · cases due
    · cases seeding
  fresh := sound.fresh
  opened := sound.opened
  shut := sound.shut
  left := sound.left
  resting := sound.resting

/-- The enqueue of an item goes on. -/
theorem wait (sound : ReceiverSound mem visit receiver) (stage : Stage)
    (queue : channel.queue = receiver.channel.queue)
    (visits : visit = .due item ∨ visit = .seeding (some item)) :
    ReceiverSound mem visit { receiver with channel, inbound := some (item, stage) } := by
  have values : channel.queue.map Queued.value = receiver.values := by
    unfold Receiver.values
    rw [queue]
  exact
    { sound with
      order := fun opened => by
        change receiver.delivered ++ channel.queue.map Queued.value <+: receiver.expected
        rw [values]
        exact sound.order opened
      current := fun isMember => by
        change receiver.delivered ++ channel.queue.map Queued.value ++ visit.owed =
          receiver.expected
        rw [values]
        exact sound.current isMember
      seeding := by
        intro seed seeding
        have seeded := sound.seeding seed seeding
        have some_item : seed = some item := by
          rcases visits with due | visits
          · rw [due] at seeding
            cases seeding
          · rw [visits] at seeding
            cases seeding
            rfl
        exact
          { seeded with
            entering := fun other there => by
              change channel.queue = [] ∧ _
              rw [queue]
              exact seeded.entering other there
            entered := fun none => absurd (some_item.symm.trans none) nofun }
      inbound := by
        intro other second held
        cases held
        exact visits
      resting := fun closed idle => by
        change channel.queue = [] ∧ _
        rw [queue]
        exact sound.resting closed idle }

/-- The queue takes a value. -/
theorem accept (sound : ReceiverSound mem (.due item) receiver)
    (queue : channel.queue = receiver.channel.queue ++ [item]) :
    ReceiverSound mem .nothing { receiver with channel, inbound := none } := by
  have isMember := sound.due item rfl
  have values : receiver.delivered ++ channel.queue.map Queued.value = receiver.expected := by
    rw [queue, map_append, ← append_assoc]
    exact sound.current isMember
  exact
    { sound with
      order := fun _ => by
        change receiver.delivered ++ channel.queue.map Queued.value <+: receiver.expected
        rw [values]
      current := fun _ => by
        change receiver.delivered ++ channel.queue.map Queued.value ++ [] = receiver.expected
        rw [values, append_nil]
      finished := nofun
      due := nofun
      seeding := nofun
      inbound := nofun
      resting := fun closed idle => absurd isMember (sound.resting closed idle).2 }

/-- The queue takes a seed. -/
theorem acceptSeed (sound : ReceiverSound member (.seeding (some item)) receiver)
    (queue : channel.queue = receiver.channel.queue ++ [item]) :
    ReceiverSound member (.seeding none) { receiver with channel, inbound := none } := by
  have seeded := sound.seeding _ rfl
  obtain ⟨empty, expected⟩ := seeded.entering item rfl
  rw [empty, nil_append] at queue
  have values : channel.queue.map Queued.value = receiver.expected := by
    rw [queue, expected]
    rfl
  have delivered := (sound.fresh seeded.fresh).2
  have nonmember := sound.nonmember rfl
  exact
    { sound with
      order := fun _ => by
        change receiver.delivered ++ channel.queue.map Queued.value <+: receiver.expected
        rw [values, delivered, nil_append]
      current := fun isMember => absurd isMember nonmember
      finished := nofun
      due := nofun
      seeding := by
        intro seed seeding
        cases seeding
        exact
          { seeded with
            entering := nofun
            entered := fun _ => ⟨rfl, values, by rw [queue]; exact le_refl _⟩ }
      inbound := nofun
      resting := fun closed _ => absurd (seeded.opened.symm.trans closed) (by decide) }

/-- A consumer that cannot take a value is told so and left. -/
theorem refuse (sound : ReceiverSound mem (.due item) receiver) (reason : Option String) :
    ReceiverSound False .nothing (State.signal reason receiver) :=
  { sound with
    current := nofun
    told := fun _ _ => .inr rfl
    finished := nofun
    returned := nofun
    due := nofun
    seeding := nofun
    inbound := nofun
    left := fun leaves => ⟨(sound.left leaves).1, not_false⟩
    resting := fun closed idle => ⟨(sound.resting closed idle).1, not_false⟩ }

/-- A consumer is told that its hub is finished. -/
theorem finish (sound : ReceiverSound mem .nothing receiver) (reason : Option String) :
    ReceiverSound mem .told (State.signal reason receiver) :=
  { sound with
    told := fun _ _ => .inr rfl
    finished := fun _ _ => rfl
    due := nofun
    seeding := nofun
    inbound := nofun }

/-- A finished hub lists nobody. -/
theorem dismiss (sound : ReceiverSound mem .told receiver) :
    ReceiverSound False .nothing receiver :=
  { sound with
    current := nofun
    told := by
      intro returned _
      by_cases isMember : mem
      · exact .inr (sound.finished rfl isMember)
      · exact sound.told returned isMember
    finished := nofun
    returned := nofun
    due := nofun
    seeding := nofun
    inbound := by
      intro item stage held
      rw [sound.inbound_eq_none nofun nofun] at held
      cases held
    left := fun leaves => ⟨(sound.left leaves).1, not_false⟩
    resting := fun closed idle => ⟨(sound.resting closed idle).1, not_false⟩ }

/-- A hub that finishes has nothing to tell a consumer that it does not list. -/
theorem pass (sound : ReceiverSound mem .nothing receiver) (nonmember : ¬ mem) :
    ReceiverSound mem .told receiver :=
  { sound with
    finished := fun _ isMember => absurd isMember nonmember
    due := nofun
    seeding := nofun
    inbound := by
      intro item stage held
      rw [sound.inbound_eq_none nofun nofun] at held
      cases held }

/-- An attempt to attach ends without a consumer. -/
theorem abandon
    (sound : ReceiverSound member (.seeding seed) receiver) (empty : receiver.channel.queue = []) :
    ReceiverSound member .nothing { receiver with closed := true, inbound := none } := by
  have seeded := sound.seeding _ rfl
  have nonmember := sound.nonmember rfl
  exact
    { sound with
      order := nofun
      current := fun isMember => absurd isMember nonmember
      told := fun _ _ => .inl rfl
      finished := nofun
      due := nofun
      seeding := nofun
      inbound := nofun
      opened := fun receives => by
        rw [(sound.fresh seeded.fresh).1] at receives
        cases receives
      shut := fun _ => rfl
      left := fun leaves => ⟨rfl, nonmember⟩
      resting := fun _ _ => ⟨empty, nonmember⟩ }

/-- A consumer is given its number. -/
theorem insert (sound : ReceiverSound mem (.seeding none) receiver) :
    ReceiverSound True .nothing { receiver with returned := true } := by
  have seeded := sound.seeding _ rfl
  obtain ⟨idle, values, _⟩ := seeded.entered rfl
  have delivered := (sound.fresh seeded.fresh).2
  exact
    { sound with
      current := fun _ => by
        change receiver.delivered ++ receiver.values ++ [] = receiver.expected
        rw [delivered, values, nil_append, append_nil]
      told := fun _ nonmember => absurd trivial nonmember
      finished := nofun
      returned := fun _ => rfl
      due := nofun
      seeding := nofun
      inbound := fun item stage held => by
        change receiver.inbound = _ at held
        rw [idle] at held
        cases held
      fresh := nofun
      left := fun leaves => by
        change receiver.task.leaves = true at leaves
        rw [(sound.fresh seeded.fresh).1] at leaves
        cases leaves
      resting := fun closed _ => absurd (seeded.opened.symm.trans closed) (by decide) }

/-- The seed of a consumer that cannot be given a number is dropped. -/
theorem drop (sound : ReceiverSound member (.seeding none) receiver)
    (held : receiver.channel.queue = item :: queue) :
    ReceiverSound member (.seeding (some item))
      { receiver with
        channel := { receiver.channel with queue }
        inbound := some (item, .dropping) } := by
  have seeded := sound.seeding _ rfl
  obtain ⟨_, values, short⟩ := seeded.entered rfl
  have empty : queue = [] := by
    rw [held, length_cons] at short
    exact length_eq_zero_iff.mp (by omega)
  have expected : receiver.expected = [item.value] := by
    rw [← values]
    unfold Receiver.values
    rw [held, empty]
    rfl
  have nonmember := sound.nonmember rfl
  exact
    { sound with
      order := fun _ => by
        change receiver.delivered ++ queue.map Queued.value <+: receiver.expected
        rw [(sound.fresh seeded.fresh).2, empty]
        exact nil_prefix
      current := fun isMember => absurd isMember nonmember
      finished := nofun
      due := nofun
      seeding := by
        intro seed seeding
        cases seeding
        exact
          { seeded with
            entering := fun other there => by
              cases there
              exact ⟨empty, expected⟩
            entered := nofun }
      inbound := by
        intro other stage there
        cases there
        exact .inr rfl
      resting := fun closed _ => absurd (seeded.opened.symm.trans closed) (by decide) }

/-- A consumer before its seed. -/
theorem attach (index : Nat) (seed : Option (Queued T)) :
    ReceiverSound False (.seeding seed) (State.newReceiver index seed) where
  given := nil_prefix
  order := fun _ => nil_prefix
  current := nofun
  told := nofun
  finished := nofun
  returned := nofun
  due := nofun
  seeding := by
    intro other seeding
    cases seeding
    exact
      { fresh := rfl
        opened := rfl
        entering := fun item there => by
          cases there
          exact ⟨rfl, rfl⟩
        entered := fun none => by
          rw [none]
          exact ⟨rfl, rfl, Nat.zero_le _⟩ }
  inbound := nofun
  fresh := fun _ => ⟨rfl, rfl⟩
  opened := nofun
  shut := nofun
  left := nofun
  resting := nofun

end ReceiverSound

/-! ## Hubs -/

/-- The hub of each consumer. -/
def State.owner (state : State T) (place : Nat) : Option Nat :=
  (state.receivers[place]?).map Receiver.hub

/-- What the holder of a lock works on. -/
def HubTask.Sound (owner : Nat → Option Nat) (index : Nat) (consumers : List Nat) :
    HubTask T → Prop
  | .idle => True
  | .sending _ rest => rest.Sublist consumers
  | .attaching place _ => owner place = some index
  | .finishing _ rest => rest.Sublist consumers

/-- The consumers of a hub, and what the holder of its lock works on. -/
structure HubSound (owner : Nat → Option Nat) (index : Nat) (hub : Hub T) : Prop where
  nodup : hub.consumers.Nodup
  owned : ∀ place ∈ hub.consumers, owner place = some index
  task : hub.task.Sound owner index hub.consumers

/-- The states that a client can reach. -/
structure Consistent (state : State T) : Prop where
  total_eq : state.total = (state.receivers.map charge).sum
  limit : state.total ≤ globalLimit
  own : ∀ receiver ∈ state.receivers, receiver.channel.bytes = receiver.ownCharge
  receiver : ∀ place receiver, state.receivers[place]? = some receiver →
    ReceiverSound (place ∈ (state.hubs receiver.hub).consumers)
      ((state.hubs receiver.hub).visit place) receiver
  hub : ∀ index, HubSound state.owner index (state.hubs index)

namespace Consistent

variable {state : State T} {place : Nat} {receiver after : Receiver T}

section

variable (consistent : Consistent state) (there : state.receivers[place]? = some receiver)
include consistent there

/-- The counters of one consumer and of the client. -/
theorem credits :
    Credits ((state.receivers.eraseIdx place).map charge).sum state.total receiver where
  own := consistent.own receiver (mem_of_getElem? there)
  total_eq := by
    rw [consistent.total_eq]
    exact sum_map_eraseIdx charge there
  limit := consistent.limit

/-- A step that changes one consumer and its hub. -/
theorem update {hub : Hub T} {total : Nat}
    (same : after.hub = receiver.hub)
    (credits : Credits ((state.receivers.eraseIdx place).map charge).sum total after)
    (sound : ReceiverSound (place ∈ hub.consumers) (hub.visit place) after)
    (others : ∀ other, other ≠ place →
      (other ∈ hub.consumers ↔ other ∈ (state.hubs receiver.hub).consumers) ∧
        hub.visit other = (state.hubs receiver.hub).visit other)
    (hubSound : HubSound state.owner receiver.hub hub) :
    Consistent { (state.setHub receiver.hub hub).setReceiver place after with total } := by
  have inside : place < state.receivers.length := (List.getElem?_eq_some_iff.mp there).1
  have owner : ({ (state.setHub receiver.hub hub).setReceiver place after with total } :
      State T).owner = state.owner := by
    funext other
    change ((state.receivers.set place after)[other]?).map Receiver.hub =
      (state.receivers[other]?).map Receiver.hub
    by_cases here : other = place
    · rw [here, getElem?_set_self inside, there, map_some, map_some, same]
    · rw [getElem?_set_ne (Ne.symm here)]
  exact
    { total_eq := by
        change total = ((state.receivers.set place after).map charge).sum
        have exchanged : ((state.receivers.set place after).map charge).sum +
            receiver.charge = (state.receivers.map charge).sum + after.charge :=
          sum_map_set charge there
        have before := sum_map_eraseIdx charge there
        have whole := credits.total_eq
        omega
      limit := credits.limit
      own := by
        intro other mem
        rcases mem_or_eq_of_mem_set mem with old | rfl
        · exact consistent.own other old
        · exact credits.own
      receiver := by
        intro other found lookup
        change (state.receivers.set place after)[other]? = some found at lookup
        change ReceiverSound
          (other ∈ (Function.update state.hubs receiver.hub hub found.hub).consumers)
          ((Function.update state.hubs receiver.hub hub found.hub).visit other) found
        by_cases here : other = place
        · rw [here, getElem?_set_self inside] at lookup
          cases lookup
          rw [same, update_self, here]
          exact sound
        · rw [getElem?_set_ne (Ne.symm here)] at lookup
          have before := consistent.receiver other found lookup
          by_cases shared : found.hub = receiver.hub
          · rw [shared, update_self]
            rw [shared] at before
            exact before.congr (others other here).1 (others other here).2
          · rw [update_of_ne shared]
            exact before
      hub := by
        intro index
        rw [owner]
        change HubSound state.owner index (Function.update state.hubs receiver.hub hub index)
        by_cases here : index = receiver.hub
        · rw [here, update_self]
          exact hubSound
        · rw [update_of_ne here]
          exact consistent.hub index }

/-- A step that changes one consumer. -/
theorem updateReceiver
    (same : after.hub = receiver.hub)
    (credits : Credits ((state.receivers.eraseIdx place).map charge).sum total after)
    (sound : ReceiverSound (place ∈ (state.hubs receiver.hub).consumers)
      ((state.hubs receiver.hub).visit place) after) :
    Consistent { state.setReceiver place after with total } := by
  have whole := consistent.update there same credits sound (fun _ _ => ⟨Iff.rfl, rfl⟩)
    (consistent.hub receiver.hub)
  unfold State.setHub at whole
  rw [update_eq_self] at whole
  exact whole

end

/-- A step that changes one hub. -/
theorem updateHub {index : Nat} {hub : Hub T} (consistent : Consistent state)
    (sound : ∀ other receiver, state.receivers[other]? = some receiver → receiver.hub = index →
      ReceiverSound (other ∈ hub.consumers) (hub.visit other) receiver)
    (hubSound : HubSound state.owner index hub) :
    Consistent (state.setHub index hub) :=
  { consistent with
    receiver := by
      intro other found lookup
      change ReceiverSound (other ∈ (Function.update state.hubs index hub found.hub).consumers)
        ((Function.update state.hubs index hub found.hub).visit other) found
      by_cases here : found.hub = index
      · rw [here, update_self]
        exact sound other found lookup here
      · rw [update_of_ne here]
        exact consistent.receiver other found lookup
    hub := by
      intro other
      change HubSound state.owner other (Function.update state.hubs index hub other)
      by_cases here : other = index
      · rw [here, update_self]
        exact hubSound
      · rw [update_of_ne here]
        exact consistent.hub other }

end Consistent

end MarketCow.Sdk.Fanout
