import MarketCow.Sdk.FanoutReceivers

/-!
# Runs of a fan-out

Each step of the holder of a lock and of a receiver keeps the counters and what
each consumer is due, whatever the others do in between.
-/

namespace MarketCow.Sdk.Fanout

open Library List Function
open State (act expect newReceiver)

variable {T : Type}

/-- An operation on a hub begins when its lock is free. -/
theorem State.locked_eq_some
    {state after result : State T} {index : Nat} (taken : state.locked index result = some after) :
    (state.hubs index).task = .idle ∧ after = result := by
  unfold State.locked at taken
  split at taken
  · rename_i free
    exact ⟨free, (some.inj taken).symm⟩
  · cases taken

/-- An operation on a receiver begins when its caller has it at rest. -/
theorem State.held_eq_some {state after : State T} {change : Receiver T → Receiver T}
    (taken : state.held place change = some after) :
    ∃ receiver, state.receivers[place]? = some receiver ∧ receiver.returned = true ∧
      receiver.task = .idle ∧ after = state.setReceiver place (change receiver) := by
  unfold State.held at taken
  cases there : state.receivers[place]? with
  | none =>
    rw [there] at taken
    cases taken
  | some receiver =>
    rw [there] at taken
    dsimp only at taken
    cases task : receiver.task with
    | idle =>
      rw [task] at taken
      by_cases returned : receiver.returned = true
      · rw [if_pos ⟨returned, rfl⟩] at taken
        exact ⟨receiver, rfl, returned, task, (some.inj taken).symm⟩
      · rw [if_neg (fun ready => returned ready.1)] at taken
        cases taken
    | _ =>
      rw [task, if_neg (fun ready => Bool.false_ne_true ready.2)] at taken
      cases taken

namespace Consistent

variable {state after : State T} {index place : Nat} {receiver : Receiver T}

/-! ## Receivers -/

section

variable (consistent : Consistent state)
include consistent

section

variable (there : state.receivers[place]? = some receiver)
include there

/-- A receiver that works on no item goes on to another task like that. -/
theorem quiet (before : receiver.task.total = 0) (later : task.total = 0)
    (sound : ReceiverSound (place ∈ (state.hubs receiver.hub).consumers)
      ((state.hubs receiver.hub).visit place) { receiver with closed, task }) :
    Consistent (state.setReceiver place { receiver with closed, task }) := by
  have beforeOwn : receiver.task.own = 0 := by
    have less := receiver.task.own_le_total
    omega
  have laterOwn : task.own = 0 := by
    have less := task.own_le_total
    omega
  have credits : Credits _ state.total { receiver with closed, task } :=
    (consistent.credits there).congr rfl rfl rfl rfl (later.trans before.symm)
      (laterOwn.trans beforeOwn.symm)
  exact consistent.updateReceiver there rfl credits sound

section

variable (returned : receiver.returned = true) (idle : receiver.task = .idle)
include returned idle

theorem next :
    Consistent (state.setReceiver place (State.next receiver)) := by
  have sound := (consistent.receiver place receiver there).next returned
  have before : receiver.task.total = 0 := by rw [idle]; rfl
  unfold State.next at sound ⊢
  split at sound
  · rename_i closed
    rw [if_pos closed]
    exact consistent.quiet there before before sound
  · rename_i closed
    rw [if_neg closed]
    split at sound
    · rename_i terminal
      rw [if_pos terminal]
      exact consistent.quiet there before rfl sound
    · rename_i terminal
      rw [if_neg terminal]
      exact consistent.quiet there before rfl sound

theorem close :
    Consistent (state.setReceiver place { receiver with closed := true, task := .closing }) := by
  have sound := (consistent.receiver place receiver there).move receiver.channel.bytes true .closing
    returned (fun _ => rfl) nofun (fun _ => rfl) nofun nofun
  have before : receiver.task.total = 0 := by rw [idle]; rfl
  exact consistent.quiet there before rfl sound

end

theorem take (draining : Bool) (task : receiver.task = if draining then .draining else .receiving) :
    Consistent (state.setReceiver place (State.take receiver draining)) := by
  have before : receiver.task.total = 0 := by
    rw [task]
    cases draining <;> rfl
  have same : (State.take receiver draining).hub = receiver.hub := by
    unfold State.take
    split <;> rfl
  exact consistent.updateReceiver there same ((consistent.credits there).take draining before)
    ((consistent.receiver place receiver there).take task)

/-- A receiver leaves its hub. -/
theorem leave (task : receiver.task = .closing) (free : (state.hubs receiver.hub).task = .idle) :
    Consistent
      ((state.setHub receiver.hub
        { state.hubs receiver.hub with
          consumers := (state.hubs receiver.hub).consumers.erase place }).setReceiver place
            { receiver with
              channel := { receiver.channel with closed := true }
              task := .draining }) := by
  have hubSound := consistent.hub receiver.hub
  have quiet : (state.hubs receiver.hub).visit place = .nothing := by
    unfold Hub.visit
    rw [free]
  have sound := (consistent.receiver place receiver there).leave task quiet
  have credits : Credits _ state.total
      { receiver with channel := { receiver.channel with closed := true }, task := .draining } :=
    (consistent.credits there).congr rfl rfl rfl rfl (by rw [task]; rfl) (by rw [task]; rfl)
  refine consistent.update there rfl credits (sound.congr ?_ ?_) ?_ ⟨?_, ?_, ?_⟩
  · exact iff_false_intro hubSound.nodup.not_mem_erase
  · unfold Hub.visit
    rw [free]
  · intro other ne
    refine ⟨mem_erase_of_ne ne, ?_⟩
    unfold Hub.visit
    rw [free]
  · exact hubSound.nodup.erase place
  · intro other mem
    exact hubSound.owned other (mem_of_mem_erase mem)
  · dsimp only
    rw [free]
    trivial

/-- A step of a receiver. -/
theorem receiverStep (taken : state.receiverStep place receiver = some after) :
    Consistent after := by
  have sound := consistent.receiver place receiver there
  have credits := consistent.credits there
  unfold State.receiverStep at taken
  cases task : receiver.task with
  | idle =>
    rw [task] at taken
    cases taken
  | selecting =>
    have returned := sound.returned_of_task (by rw [task]; nofun)
    have opened : receiver.closed = false := sound.opened (by rw [task]; rfl)
    have before : receiver.task.total = 0 := by rw [task]; rfl
    rw [task] at taken
    dsimp only at taken
    split at taken
    · cases taken
      exact consistent.quiet there before rfl
        (sound.move receiver.channel.bytes true .closing returned (fun _ => rfl) nofun
          (fun _ => rfl) nofun nofun)
    · cases taken
      exact consistent.quiet there before rfl
        (sound.move receiver.channel.bytes receiver.closed .receiving returned id
          (fun _ => opened) nofun nofun nofun)
  | receiving =>
    rw [task] at taken
    cases taken
    exact consistent.take there false task
  | closing =>
    rw [task] at taken
    dsimp only at taken
    split at taken
    · rename_i free
      cases taken
      exact consistent.leave there task free
    · cases taken
  | draining =>
    rw [task] at taken
    cases taken
    exact consistent.take there true task
  | refunding item localDone draining =>
    have returned := sound.returned_of_task (by rw [task]; nofun)
    have staying : draining = false → receiver.closed = false := by
      intro stays
      exact sound.opened (by rw [task, stays]; rfl)
    have leaving : draining = true → receiver.closed = true ∧
        place ∉ (state.hubs receiver.hub).consumers := by
      intro drains
      exact sound.left (by rw [task, drains]; rfl)
    rw [task] at taken
    cases localDone with
    | false =>
      cases taken
      refine consistent.updateReceiver there rfl (credits.refundOwn task) ?_
      refine sound.move _ receiver.closed _ returned id ?_ nofun leaving nofun
      intro receives
      cases draining with
      | true => cases receives
      | false => exact staying rfl
    | true =>
      cases taken
      refine consistent.updateReceiver there rfl (credits.refundTotal task ?_ ?_) ?_
      · cases draining <;> rfl
      · cases draining <;> rfl
      · cases draining with
        | true =>
          exact sound.move receiver.channel.bytes receiver.closed .draining returned id nofun
            nofun leaving nofun
        | false =>
          exact sound.move receiver.channel.bytes receiver.closed .idle returned id nofun
            nofun nofun
            (fun closed _ => absurd ((staying rfl).symm.trans closed) (by decide))

end

end

/-! ## The holder of a lock -/

/-- The consumer that an enqueue is for. -/
theorem of_owner
    (owned : state.owner place = some index) (there : state.receivers[place]? = some receiver) :
    receiver.hub = index := by
  unfold State.owner at owned
  rw [there] at owned
  exact some.inj owned

variable {item : Queued T}

section

variable (consistent : Consistent state)
include consistent

section

variable (there : state.receivers[place]? = some receiver)
include there

/-- Visit the next consumer of a value. -/
theorem sendStep (task : (state.hubs index).task = .sending item (place :: rest)) :
    Consistent (state.sendStep index item place rest receiver) := by
  have hubSound := consistent.hub index
  have listed : (place :: rest).Sublist (state.hubs index).consumers := by
    have sound := hubSound.task
    rw [task] at sound
    exact sound
  have mem : place ∈ (state.hubs index).consumers := listed.subset mem_cons_self
  have fresh : place ∉ rest := (nodup_cons.mp (hubSound.nodup.sublist listed)).1
  obtain rfl := of_owner (hubSound.owned place mem) there
  have visit : (state.hubs receiver.hub).visit place = .due item := by
    unfold Hub.visit
    rw [task]
    exact if_pos mem_cons_self
  have sound := consistent.receiver place receiver there
  rw [visit] at sound
  have credits := consistent.credits there
  have kept : ∀ other, other ≠ place → (if other ∈ rest then Visit.due item else .nothing) =
      (state.hubs receiver.hub).visit other := by
    intro other ne
    unfold Hub.visit
    rw [task]
    refine if_congr ?_ rfl rfl
    rw [mem_cons, or_iff_right ne]
  unfold State.sendStep
  split
  · rename_i other reason held
    refine consistent.update there rfl (credits.clear held rfl rfl rfl)
      ((sound.refuse (some reason)).congr ?_ (if_neg fresh)) ?_ ⟨?_, ?_, ?_⟩
    · exact iff_false_intro hubSound.nodup.not_mem_erase
    · intro other ne
      exact ⟨mem_erase_of_ne ne, kept other ne⟩
    · exact hubSound.nodup.erase place
    · intro other left
      exact hubSound.owned other (mem_of_mem_erase left)
    · have erased := listed.erase place
      rw [erase_cons_head] at erased
      exact erased
  · rename_i going
    dsimp only
    have same : ∀ inbound ∈ receiver.inbound, inbound.1 = item := by
      intro inbound held
      rcases sound.inbound inbound.1 inbound.2 held with due | seeding
      · cases due
        rfl
      · cases seeding
    obtain ⟨total, channel, inbound, made, charged, ⟨rfl, queue⟩ | ⟨⟨stage, rfl⟩, queue⟩⟩ :=
      credits.enqueue_cases (state.hubs receiver.hub).kind.capacity same
        fun other reason held => going other reason held
    · rw [made]
      refine consistent.update there rfl charged ((sound.accept queue).congr .rfl (if_neg fresh)) ?_
        ⟨hubSound.nodup, hubSound.owned, (sublist_cons_self place rest).trans listed⟩
      intro other ne
      exact ⟨.rfl, kept other ne⟩
    · rw [made]
      refine consistent.update there rfl charged
        ((sound.wait stage queue (.inl rfl)).congr .rfl (if_pos mem_cons_self)) ?_
        ⟨hubSound.nodup, hubSound.owned, listed⟩
      intro other ne
      refine ⟨.rfl, ?_⟩
      unfold Hub.visit
      rw [task]
      rfl

/-- The consumer that a hub attaches is its own, and seeded. The seed changes nothing of
what the hub does for the others. -/
theorem attaching (task : (state.hubs index).task = .attaching place seed) :
    receiver.hub = index ∧ state.owner place = some index ∧
      ReceiverSound (place ∈ (state.hubs index).consumers) (.seeding seed) receiver ∧
        ∀ later : Option (Queued T), ∀ other, other ≠ place →
          (if place = other then Visit.seeding later else .nothing) =
            (state.hubs index).visit other := by
  have owned : state.owner place = some index := by
    have sound := (consistent.hub index).task
    rw [task] at sound
    exact sound
  obtain rfl := of_owner owned there
  refine ⟨rfl, owned, (consistent.receiver place receiver there).congr .rfl ?_, ?_⟩
  · unfold Hub.visit
    rw [task]
    exact (if_pos rfl).symm
  · intro later other ne
    unfold Hub.visit
    rw [task]
    dsimp only
    rw [if_neg (Ne.symm ne), if_neg (Ne.symm ne)]

/-- The seed of a new consumer. -/
theorem seedStep (task : (state.hubs index).task = .attaching place (some item)) :
    Consistent (state.seedStep index item place receiver) := by
  obtain ⟨rfl, owned, sound, others⟩ := consistent.attaching there task
  have hubSound := consistent.hub receiver.hub
  have credits := consistent.credits there
  unfold State.seedStep
  split
  · rename_i other reason held
    have seeded := sound.seeding _ rfl
    refine consistent.update there rfl (credits.clear held rfl rfl rfl)
      (sound.abandon (seeded.entering item rfl).1) ?_
      ⟨hubSound.nodup, hubSound.owned, trivial⟩
    intro other ne
    refine ⟨.rfl, ?_⟩
    rw [← others none other ne, if_neg (Ne.symm ne)]
    rfl
  · rename_i going
    dsimp only
    have same : ∀ inbound ∈ receiver.inbound, inbound.1 = item := by
      intro inbound held
      rcases sound.inbound inbound.1 inbound.2 held with due | seeding
      · cases due
      · cases seeding
        rfl
    obtain ⟨total, channel, inbound, made, charged, ⟨rfl, queue⟩ | ⟨⟨stage, rfl⟩, queue⟩⟩ :=
      credits.enqueue_cases (state.hubs receiver.hub).kind.capacity same
        fun other reason held => going other reason held
    · rw [made]
      refine consistent.update there rfl charged ((sound.acceptSeed queue).congr .rfl (if_pos rfl))
        ?_ ⟨hubSound.nodup, hubSound.owned, owned⟩
      intro other ne
      exact ⟨.rfl, others none other ne⟩
    · rw [made]
      refine consistent.update there rfl charged
        ((sound.wait stage queue (.inr rfl)).congr .rfl (if_pos rfl)) ?_
        ⟨hubSound.nodup, hubSound.owned, owned⟩
      intro other ne
      exact ⟨.rfl, others (some item) other ne⟩

/-- A new consumer is given its number, or the numbers have run out. -/
theorem insertStep (task : (state.hubs index).task = .attaching place none) :
    Consistent (state.insertStep index place receiver) := by
  obtain ⟨rfl, owned, sound, others⟩ := consistent.attaching there task
  have hubSound := consistent.hub receiver.hub
  have credits := consistent.credits there
  have seeded := sound.seeding none rfl
  have idle : receiver.inbound = none := (seeded.entered rfl).1
  have absent : place ∉ (state.hubs receiver.hub).consumers := sound.nonmember rfl
  have quiet : ∀ other, other ≠ place → Visit.nothing = (state.hubs receiver.hub).visit other := by
    intro other ne
    rw [← others none other ne, if_neg (Ne.symm ne)]
  unfold State.insertStep
  dsimp only
  split
  · refine consistent.update there rfl (credits.congr rfl rfl rfl rfl rfl rfl)
      (sound.insert.congr ?_ rfl) ?_ ⟨?_, ?_, trivial⟩
    · exact iff_of_true (mem_append_right _ mem_cons_self) trivial
    · intro other ne
      refine ⟨?_, quiet other ne⟩
      rw [mem_append, mem_singleton, or_iff_left ne]
    · exact nodup_append.mpr ⟨hubSound.nodup, nodup_singleton place, by
        rintro other mem _ here rfl
        exact absent (mem_singleton.mp here ▸ mem)⟩
    · intro other mem
      rcases mem_append.mp mem with old | new
      · exact hubSound.owned other old
      · rw [mem_singleton.mp new]
        exact owned
  · split
    · rename_i empty
      have ended := sound.abandon empty
      rw [← idle] at ended
      refine consistent.update there rfl (credits.congr rfl rfl rfl rfl rfl rfl) ended ?_
        ⟨hubSound.nodup, hubSound.owned, trivial⟩
      intro other ne
      exact ⟨.rfl, quiet other ne⟩
    · rename_i item queue held
      refine consistent.update there rfl (credits.drop held idle)
        ((sound.drop held).congr .rfl (if_pos rfl)) ?_
        ⟨hubSound.nodup, hubSound.owned, owned⟩
      intro other ne
      exact ⟨.rfl, others (some item) other ne⟩

end

/-- A step of the holder of a lock. -/
theorem hubStep (taken : state.hubStep index = some after) :
    Consistent after := by
  have hubSound := consistent.hub index
  unfold State.hubStep at taken
  dsimp only at taken
  cases task : (state.hubs index).task with
  | idle =>
    rw [task] at taken
    cases taken
  | sending item places =>
    rw [task] at taken
    cases places with
    | nil =>
      cases taken
      refine consistent.updateHub ?_ ⟨hubSound.nodup, hubSound.owned, trivial⟩
      rintro other found there rfl
      refine (consistent.receiver other found there).congr .rfl ?_
      unfold Hub.visit
      rw [task]
      exact (if_neg not_mem_nil).symm
    | cons place rest =>
      obtain ⟨receiver, there, rfl⟩ := map_eq_some_iff.mp taken
      exact consistent.sendStep there task
  | attaching place seed =>
    rw [task] at taken
    cases seed with
    | none =>
      obtain ⟨receiver, there, rfl⟩ := map_eq_some_iff.mp taken
      exact consistent.insertStep there task
    | some item =>
      obtain ⟨receiver, there, rfl⟩ := map_eq_some_iff.mp taken
      exact consistent.seedStep there task
  | finishing reason places =>
    have listed : places.Sublist (state.hubs index).consumers := by
      have sound := hubSound.task
      rw [task] at sound
      exact sound
    rw [task] at taken
    cases places with
    | nil =>
      cases taken
      refine consistent.updateHub ?_ ⟨nodup_nil, nofun, trivial⟩
      rintro other found there rfl
      have sound := consistent.receiver other found there
      have told : (state.hubs found.hub).visit other = .told := by
        unfold Hub.visit
        rw [task]
        exact if_neg not_mem_nil
      rw [told] at sound
      exact sound.dismiss.congr (iff_false_intro not_mem_nil) rfl
    | cons place rest =>
      obtain ⟨receiver, there, rfl⟩ := map_eq_some_iff.mp taken
      have mem := listed.subset mem_cons_self
      have fresh : place ∉ rest := (nodup_cons.mp (hubSound.nodup.sublist listed)).1
      obtain rfl := of_owner (hubSound.owned place mem) there
      have sound := consistent.receiver place receiver there
      have quiet : (state.hubs receiver.hub).visit place = .nothing := by
        unfold Hub.visit
        rw [task]
        exact if_pos mem_cons_self
      rw [quiet] at sound
      have idle := sound.inbound_eq_none nofun nofun
      refine consistent.update there rfl ?_ ((sound.finish reason).congr .rfl (if_neg fresh)) ?_
        ⟨hubSound.nodup, hubSound.owned, (sublist_cons_self place rest).trans listed⟩
      · refine (consistent.credits there).congr rfl rfl ?_ ?_ rfl rfl
        · unfold Receiver.inboundTotal
          rw [idle]
          rfl
        · unfold Receiver.inboundOwn
          rw [idle]
          rfl
      · intro other ne
        refine ⟨.rfl, ?_⟩
        unfold Hub.visit
        rw [task]
        refine if_congr ?_ rfl rfl
        rw [mem_cons, or_iff_right ne]

end

/-! ## Operations -/

variable {hub : Hub T}

/-- A hub whose lock is free is in the middle of nothing. -/
theorem visit_of_idle (free : hub.task = .idle) (place : Nat) : hub.visit place = .nothing := by
  unfold Hub.visit
  rw [free]

theorem attach (consistent : Consistent state) (given : Except String (Option (Queued T)))
    (free : (state.hubs index).task = .idle) :
    Consistent (state.attach index given) := by
  unfold State.attach
  dsimp only
  split
  · exact consistent
  · split
    · exact consistent
    · rename_i seed chosen
      have hubSound := consistent.hub index
      have owner : ∀ other, (state.receivers ++ [newReceiver index seed])[other]?.map
          Receiver.hub = if other = state.receivers.length then some index else state.owner other := by
        intro other
        unfold State.owner
        split
        · rename_i here
          rw [here, getElem?_concat_length]
          rfl
        · rename_i elsewhere
          by_cases inside : other < state.receivers.length
          · rw [getElem?_append_left inside]
          · rw [getElem?_eq_none (by rw [length_append, length_singleton]; omega),
              getElem?_eq_none (by omega)]
      have absent : ∀ other, state.receivers.length ∉ (state.hubs other).consumers := by
        intro other mem
        have owned := (consistent.hub other).owned _ mem
        unfold State.owner at owned
        rw [getElem?_eq_none (le_refl _)] at owned
        cases owned
      exact
        { total_eq := by
            change state.total =
              ((state.receivers ++ [newReceiver index seed]).map Receiver.charge).sum
            rw [map_append, sum_append, consistent.total_eq]
            rfl
          limit := consistent.limit
          own := by
            intro receiver mem
            rcases mem_append.mp mem with old | new
            · exact consistent.own receiver old
            · rw [mem_singleton.mp new]
              rfl
          receiver := by
            intro other found lookup
            change (state.receivers ++ [newReceiver index seed])[other]? = some found at lookup
            change ReceiverSound (other ∈ (Function.update state.hubs index _ found.hub).consumers)
              ((Function.update state.hubs index _ found.hub).visit other) found
            by_cases inside : other < state.receivers.length
            · rw [getElem?_append_left inside] at lookup
              have sound := consistent.receiver other found lookup
              by_cases here : found.hub = index
              · rw [here, update_self]
                rw [here, visit_of_idle free] at sound
                exact sound.congr .rfl (if_neg (ne_of_gt inside))
              · rw [update_of_ne here]
                exact sound
            · have new : other = state.receivers.length := by
                have bound := (List.getElem?_eq_some_iff.mp lookup).1
                rw [length_append, length_singleton] at bound
                omega
              rw [new, getElem?_concat_length] at lookup
              cases lookup
              change ReceiverSound (other ∈ (Function.update state.hubs index _ index).consumers)
                ((Function.update state.hubs index _ index).visit other) _
              rw [update_self, new]
              exact (ReceiverSound.attach index seed).congr (iff_false_intro (absent index))
                (if_pos rfl)
          hub := by
            intro other
            change HubSound
              (fun place => (state.receivers ++ [newReceiver index seed])[place]?.map
                Receiver.hub)
              other (Function.update state.hubs index _ other)
            have kept : ∀ place owned, state.owner place = some owned →
                (state.receivers ++ [newReceiver index seed])[place]?.map Receiver.hub =
                  some owned := by
              intro place owned found
              rw [owner, if_neg, found]
              rintro rfl
              unfold State.owner at found
              rw [getElem?_eq_none (le_refl _)] at found
              cases found
            have sound := consistent.hub other
            by_cases here : other = index
            · rw [here, update_self]
              refine ⟨hubSound.nodup, fun place mem => kept place index
                (hubSound.owned place mem), ?_⟩
              change (state.receivers ++ [newReceiver index seed])[_]?.map Receiver.hub = _
              rw [owner, if_pos rfl]
            · rw [update_of_ne here]
              refine ⟨sound.nodup, fun place mem => kept place other (sound.owned place mem), ?_⟩
              have task := sound.task
              cases found : (state.hubs other).task with
              | idle => trivial
              | sending item rest =>
                rw [found] at task
                exact task
              | attaching place seeding =>
                rw [found] at task
                exact kept place other task
              | finishing reason rest =>
                rw [found] at task
                exact task }

variable (value : T)

@[simp] theorem charge_expect (receiver : Receiver T) :
    (expect index value receiver).charge = receiver.charge := by
  unfold expect
  split <;> rfl

@[simp] theorem hub_expect (receiver : Receiver T) :
    (expect index value receiver).hub = receiver.hub := by
  unfold expect
  split <;> rfl

section

variable (consistent : Consistent state)
include consistent

theorem send (item : Queued T) (seed : Option (Queued T)) (free : (state.hubs index).task = .idle) :
    Consistent (state.send index item seed) := by
  have owner : (state.send index item seed).owner = state.owner := by
    funext place
    change ((state.receivers.map (expect index item.value))[place]?).map Receiver.hub =
      (state.receivers[place]?).map Receiver.hub
    rw [getElem?_map, Option.map_map]
    congr 1
    funext receiver
    exact hub_expect item.value receiver
  exact
    { total_eq := by
        change state.total =
          ((state.receivers.map (expect index item.value)).map Receiver.charge).sum
        rw [map_map, consistent.total_eq]
        congr 2
        funext receiver
        exact (charge_expect item.value receiver).symm
      limit := consistent.limit
      own := by
        intro receiver mem
        obtain ⟨before, old, rfl⟩ := mem_map.mp mem
        have own := consistent.own before old
        unfold expect
        split
        · exact own
        · exact own
      receiver := by
        intro place found lookup
        change (state.receivers.map (expect index item.value))[place]? = some found at lookup
        rw [getElem?_map] at lookup
        obtain ⟨before, there, rfl⟩ := map_eq_some_iff.mp lookup
        have sound := consistent.receiver place before there
        rw [hub_expect]
        change ReceiverSound (place ∈ (Function.update state.hubs index _ before.hub).consumers)
          ((Function.update state.hubs index _ before.hub).visit place) _
        unfold expect
        by_cases here : before.hub = index
        · subst here
          rw [update_self, if_pos rfl]
          rw [visit_of_idle free] at sound
          exact (sound.expect item).congr .rfl rfl
        · rw [update_of_ne here, if_neg here]
          exact sound
      hub := by
        intro other
        rw [owner]
        change HubSound state.owner other (Function.update state.hubs index _ other)
        by_cases here : other = index
        · rw [here, update_self]
          have sound := consistent.hub index
          exact ⟨sound.nodup, sound.owned, .refl _⟩
        · rw [update_of_ne here]
          exact consistent.hub other }

theorem finish (reason : Option String) (free : (state.hubs index).task = .idle) :
    Consistent (state.finish index reason) := by
  have hubSound := consistent.hub index
  refine consistent.updateHub ?_ ⟨hubSound.nodup, hubSound.owned, .refl _⟩
  rintro other found there rfl
  have sound := consistent.receiver other found there
  rw [visit_of_idle free] at sound
  by_cases mem : other ∈ (state.hubs found.hub).consumers
  · exact sound.congr .rfl (if_pos mem)
  · exact (sound.pass mem).congr .rfl (if_neg mem)

/-- A hub changes in nothing that matters to its consumers. -/
theorem retouch (consumers : hub.consumers = (state.hubs index).consumers)
    (task : hub.task = (state.hubs index).task) :
    Consistent (state.setHub index hub) := by
  have hubSound := consistent.hub index
  refine consistent.updateHub ?_ ⟨?_, ?_, ?_⟩
  · rintro other found there rfl
    refine (consistent.receiver other found there).congr (by rw [consumers]) ?_
    unfold Hub.visit
    rw [task]
  · rw [consumers]
    exact hubSound.nodup
  · rw [consumers]
    exact hubSound.owned
  · rw [task, consumers]
    exact hubSound.task

theorem active (index : Nat) : Consistent (state.active index) := by
  unfold State.active
  dsimp only
  split
  · exact consistent.retouch rfl rfl
  · exact consistent

end

theorem of_locked (kept : (state.hubs index).task = .idle → Consistent result)
    (taken : state.locked index result = some after) :
    Consistent after := by
  obtain ⟨free, rfl⟩ := State.locked_eq_some taken
  exact kept free

theorem of_held {change : Receiver T → Receiver T}
    (kept : ∀ receiver, state.receivers[place]? = some receiver → receiver.returned = true →
      receiver.task = .idle → Consistent (state.setReceiver place (change receiver)))
    (taken : state.held place change = some after) :
    Consistent after := by
  obtain ⟨receiver, there, returned, idle, rfl⟩ := State.held_eq_some taken
  exact kept receiver there returned idle

/-- Every step keeps the invariant. -/
theorem step
    {action : Action T} (consistent : Consistent state) (taken : State.step state action after) :
    Consistent after := by
  unfold State.step act at taken
  cases action with
  | attach hub seed => exact of_locked (consistent.attach seed) taken
  | send hub item seed => exact of_locked (consistent.send item seed) taken
  | clearSeed hub =>
    have kept : Consistent (state.setHub hub { state.hubs hub with seed := none }) :=
      consistent.retouch rfl rfl
    exact of_locked (fun _ => kept) taken
  | finish hub reason => exact of_locked (consistent.finish reason) taken
  | active hub => exact of_locked (fun _ => consistent.active hub) taken
  | hubStep hub => exact consistent.hubStep taken
  | next place => exact of_held (fun _ there returned idle => consistent.next there returned idle) taken
  | close place =>
    exact of_held (fun _ there returned idle => consistent.close there returned idle) taken
  | receiverStep place =>
    obtain ⟨receiver, there, stepped⟩ := bind_eq_some_iff.mp taken
    exact consistent.receiverStep there stepped

end Consistent

theorem consistent_new (kinds : Nat → HubKind) : Consistent (State.new kinds : State T) where
  total_eq := rfl
  limit := Nat.zero_le _
  own := fun _ mem => absurd mem not_mem_nil
  receiver := fun _ _ there => absurd there nofun
  hub := fun _ => ⟨nodup_nil, nofun, trivial⟩

theorem Consistent.run {before after : State T}
    (consistent : Consistent before) (run : Run State.step before actions after) :
    Consistent after :=
  run.preserves (fun _ _ _ kept taken => kept.step taken) consistent

theorem consistent_of_run {state : State T} (run : Run State.step (State.new kinds) actions state) :
    Consistent state :=
  (consistent_new kinds).run run

end MarketCow.Sdk.Fanout
