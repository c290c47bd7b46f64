import MarketCow.Acquisition.ReadyChannel
import MarketCow.Library.MapValues

/-!
# Notifications of readiness

The flag of a lane is set exactly while its identifier is somewhere on its way
to the owner, once. So no lane with batches is forgotten, and the channel, with
one place for each socket, never overflows.
-/

namespace MarketCow.Acquisition

open Library List
open Bool (toNat_false toNat_le toNat_true)
open Run (snoc)

namespace Coordinator

/-- The identifiers the owner has taken out of the channel, or is about to put
in. -/
def tickets : Coordinator → List Nat
  | .popped id | .delivering id => [id]
  | .purging retained | .restoring retained => retained
  | .idle | .consumed _ | .received _ | .signalling _ | .noticing => []

/-- The owner has cleared the flag of the lane and not yet set it again. -/
def Between (coordinator : Coordinator) (id : Nat) : Prop :=
  coordinator = .consumed id ∨ coordinator = .received id ∨ coordinator = .signalling id

/-- Identifiers of lanes that are gone may be in the channel. -/
def Cleaning (coordinator : Coordinator) : Prop :=
  coordinator = .noticing ∨ ∃ retained, coordinator = .purging retained

/-- The owner takes a batch from the lane. -/
def Inside (coordinator : Coordinator) (id : Nat) : Prop :=
  coordinator = .popped id ∨ coordinator.Between id ∨ coordinator = .delivering id

end Coordinator

/-- A lane, seen together with the channel and the owner. -/
structure ReadyLane.Kept
    (lane : ReadyLane) (channel : List Nat) (coordinator : Coordinator) : Prop where
  tickets : channel.count lane.id + coordinator.tickets.count lane.id + lane.delivering =
    lane.queued.toNat
  cooling : lane.cooling = true → lane.batches = 0 ∧ lane.queued = false ∧ lane.unsignalled = 0
  ended : lane.ended = true → lane.unsignalled = 0 ∧ lane.delivering = 0
  noticed : 0 < lane.batches →
    lane.queued = true ∨ 0 < lane.unsignalled ∨ coordinator.Between lane.id
  signalling : coordinator = .signalling lane.id → 0 < lane.batches

/-- The identifier of the lane may be elsewhere on its way. -/
theorem ReadyLane.Kept.moved
    {lane : ReadyLane} {before after : List Nat} {earlier later : Coordinator}
    (kept : lane.Kept before earlier)
    (counted : after.count lane.id + later.tickets.count lane.id =
      before.count lane.id + earlier.tickets.count lane.id)
    (between : earlier.Between lane.id → later.Between lane.id)
    (signals : later = .signalling lane.id → earlier = .signalling lane.id) :
    lane.Kept after later := by
  refine ⟨?_, kept.cooling, kept.ended, ?_, fun now => kept.signalling (signals now)⟩
  · rw [counted]
    exact kept.tickets
  · intro batches
    rcases kept.noticed batches with queued | signalling | inside
    · exact .inl queued
    · exact .inr (.inl signalling)
    · exact .inr (.inr (between inside))

structure ReadySound (ready : ReadyChannel) : Prop where
  ids : (ready.lanes.map ReadyLane.id).Nodup
  known : ∀ id, ready.Live id → id < ready.nextId
  channelKnown : ∀ id ∈ ready.channel, id < ready.nextId
  lanes : ∀ lane ∈ ready.lanes, lane.Kept ready.channel ready.coordinator
  tickets : ∀ id ∈ ready.coordinator.tickets, ready.Live id
  clean : ¬ready.coordinator.Cleaning → ∀ id ∈ ready.channel, ready.Live id
  bound : (ready.channel.countP fun id => decide ¬ready.Live id) +
    (ready.lanes.countP fun lane => !lane.cooling) ≤ ready.maximumShards
  sockets : ready.lanes.length ≤ ready.maximumShards

namespace ReadySound

variable {ready after : ReadyChannel} {position : Nat} {lane next : ReadyLane}

theorem empty (maximumShards : Nat) : ReadySound (.empty maximumShards) := by
  refine ⟨nodup_nil, ?_, ?_, ?_, ?_, ?_, Nat.zero_le _, Nat.zero_le _⟩
  · rintro _ ⟨⟩
  · rintro _ ⟨⟩
  · rintro _ ⟨⟩
  · rintro _ ⟨⟩
  · rintro _ _ ⟨⟩

theorem exists_lane {id : Nat} (live : ready.Live id) :
    ∃ (position : Nat) (lane : ReadyLane), ready.lanes[position]? = some lane ∧ lane.id = id := by
  obtain ⟨lane, mem, same⟩ := mem_map.mp live
  obtain ⟨position, there⟩ := getElem?_of_mem mem
  exact ⟨position, lane, there, same⟩

theorem live (there : ready.lanes[position]? = some lane) : ready.Live lane.id :=
  mem_map_of_mem (mem_of_getElem? there)

/-- Lanes are told apart by their identifiers. -/
theorem eq_of_id (sound : ReadySound ready) (there : ready.lanes[position]? = some lane)
    (present : ready.lanes[other]? = some found)
    (same : found.id = lane.id) : other = position := by
  have first : (ready.lanes.map ReadyLane.id)[position]? = some lane.id := by
    rw [getElem?_map, there]
    rfl
  have second : (ready.lanes.map ReadyLane.id)[other]? = some lane.id := by
    rw [getElem?_map, present, ← same]
    rfl
  obtain ⟨inside, value⟩ := List.getElem?_eq_some_iff.mp first
  obtain ⟨within, equal⟩ := List.getElem?_eq_some_iff.mp second
  exact (sound.ids.getElem_inj_iff).mp (equal.trans value.symm)

/-- There is a place in the channel for the identifier of a lane that is not in
it. -/
theorem room (sound : ReadySound ready) (there : ready.lanes[position]? = some lane)
    (started : lane.cooling = false) (absent : lane.id ∉ ready.channel) : ¬ready.Full := by
  have split : ready.channel.length =
      (ready.channel.filter fun id => decide (ready.Live id)).length +
        ready.channel.countP fun id => decide ¬ready.Live id := by
    rw [← countP_eq_length_filter, length_eq_countP_add_countP fun id => decide (ready.Live id)]
    simp
  have nodup : (lane.id :: ready.channel.filter fun id => decide (ready.Live id)).Nodup := by
    refine nodup_cons.mpr ⟨fun inside => absent (mem_of_mem_filter inside), ?_⟩
    refine nodup_iff_count_le_one.mpr ?_
    intro id
    by_cases inside : id ∈ ready.channel.filter fun id => decide (ready.Live id)
    · obtain ⟨_, found, present, rfl⟩ := exists_lane (of_decide_eq_true (mem_filter.mp inside).2)
      have kept := (sound.lanes found (mem_of_getElem? present)).tickets
      have most := toNat_le found.queued
      have less := (@List.filter_sublist _ (fun id => decide (ready.Live id))
        ready.channel).count_le found.id
      omega
    · rw [count_eq_zero_of_not_mem inside]
      exact Nat.zero_le _
  have subset : (lane.id :: ready.channel.filter fun id => decide (ready.Live id)) ⊆
      (ready.lanes.filter fun lane => !lane.cooling).map ReadyLane.id := by
    intro id mem
    rcases mem_cons.mp mem with rfl | inside
    · refine mem_map_of_mem (mem_filter.mpr ⟨mem_of_getElem? there, ?_⟩)
      rw [started]
      rfl
    · obtain ⟨inChannel, lives⟩ := mem_filter.mp inside
      obtain ⟨_, found, present, rfl⟩ := exists_lane (of_decide_eq_true lives)
      refine mem_map_of_mem (mem_filter.mpr ⟨mem_of_getElem? present, ?_⟩)
      have kept := sound.lanes found (mem_of_getElem? present)
      by_contra cooling
      have quiet := (kept.cooling (by simpa using cooling)).2.1
      have counted := kept.tickets
      have positive := count_pos_iff.mpr inChannel
      rw [quiet] at counted
      simp only [toNat_false] at counted
      omega
  have counted := (nodup.subperm subset).length_le
  have bound := sound.bound
  rw [length_cons, length_map] at counted
  rw [@List.countP_eq_length_filter _ _ ready.lanes] at bound
  unfold ReadyChannel.Full
  omega

/-- An identifier that the owner puts back finds a place. -/
theorem room_of_ticket {id : Nat}
    (sound : ReadySound ready) (held : id ∈ ready.coordinator.tickets) : ¬ready.Full := by
  obtain ⟨_, lane, there, rfl⟩ := exists_lane (sound.tickets id held)
  have kept := sound.lanes lane (mem_of_getElem? there)
  have counted := kept.tickets
  have positive := count_pos_iff.mpr held
  have most := toNat_le lane.queued
  refine sound.room there ?_ (count_eq_zero.mp (by omega))
  by_contra cooling
  rw [(kept.cooling (by simpa using cooling)).2.1, toNat_false] at counted
  omega

/-- The identifier of a lane finds a place when a producer has set the flag. -/
theorem room_of_delivering (sound : ReadySound ready) (there : ready.lanes[position]? = some lane)
    (holds : 0 < lane.delivering) : ¬ready.Full := by
  have kept := sound.lanes lane (mem_of_getElem? there)
  have counted := kept.tickets
  have most := toNat_le lane.queued
  refine sound.room there ?_ (count_eq_zero.mp (by omega))
  by_contra cooling
  rw [(kept.cooling (by simpa using cooling)).2.1, toNat_false] at counted
  omega

/-- Outside a cleaning no identifier in the channel is of a lane that is gone. -/
theorem dead_eq_zero (sound : ReadySound ready) (settled : ¬ready.coordinator.Cleaning) :
    (ready.channel.countP fun id => decide ¬ready.Live id) = 0 := by
  rw [countP_eq_zero]
  intro id mem gone
  exact of_decide_eq_true gone (sound.clean settled id mem)

variable {coordinator : Coordinator}

/-- A step of the owner that changes no lane. -/
theorem reframe
    (sound : ReadySound ready) (kept : ∀ lane ∈ ready.lanes, lane.Kept channel coordinator)
    (tickets : ∀ id ∈ coordinator.tickets, ready.Live id)
    (members : ∀ id ∈ channel, id ∈ ready.channel ∨ ready.Live id)
    (clean : ¬coordinator.Cleaning → ∀ id ∈ channel, ready.Live id)
    (dead : (channel.countP fun id => decide ¬ready.Live id) ≤
      ready.channel.countP fun id => decide ¬ready.Live id) :
    ReadySound { ready with channel, coordinator } := by
  refine ⟨sound.ids, sound.known, ?_, kept, tickets, clean,
    le_trans (Nat.add_le_add_right dead _) sound.bound, sound.sockets⟩
  intro id mem
  rcases members id mem with earlier | lives
  · exact sound.channelKnown id earlier
  · exact sound.known id lives

/-- A step that changes one lane, the channel and the owner, and for the other
lanes nothing but the place of their identifiers. -/
theorem replaceLane {channel : List Nat} {coordinator : Coordinator}
    (sound : ReadySound ready) (there : ready.lanes[position]? = some lane)
    (same : next.id = lane.id) (kept : next.Kept channel coordinator)
    (others : ∀ id, id ≠ lane.id →
      channel.count id + coordinator.tickets.count id =
          ready.channel.count id + ready.coordinator.tickets.count id ∧
        (ready.coordinator.Between id → coordinator.Between id) ∧
        (coordinator = .signalling id → ready.coordinator = .signalling id))
    (tickets : ∀ id ∈ coordinator.tickets, ready.Live id)
    (members : ∀ id ∈ channel, id ∈ ready.channel ∨ id = lane.id)
    (clean : ready.coordinator.Cleaning → coordinator.Cleaning)
    (bound : (ready.channel.countP fun id => decide ¬ready.Live id) +
      ((ready.lanes.set position next).countP fun lane => !lane.cooling) ≤
        ready.maximumShards)
    (dead : (channel.countP fun id => decide ¬ready.Live id) ≤
      ready.channel.countP fun id => decide ¬ready.Live id) :
    ReadySound { ready.setLane position next with channel, coordinator } := by
  have inside := (List.getElem?_eq_some_iff.mp there).1
  have mapped : (ready.lanes.set position next).map ReadyLane.id =
      ready.lanes.map ReadyLane.id := by
    have worked : (ready.lanes.map ReadyLane.id)[position]? = some lane.id := by
      rw [getElem?_map, there]
      rfl
    obtain ⟨_, value⟩ := List.getElem?_eq_some_iff.mp worked
    rw [map_set, same, ← value, set_getElem_self]
  have lives : ∀ id, ({ ready.setLane position next with channel, coordinator } :
      ReadyChannel).Live id ↔ ready.Live id := by
    intro id
    unfold ReadyChannel.Live
    change id ∈ (ready.lanes.set position next).map ReadyLane.id ↔ _
    rw [mapped]
  refine ⟨?_, ?_, ?_, ?_, ?_, ?_, ?_, ?_⟩
  · change ((ready.lanes.set position next).map ReadyLane.id).Nodup
    rw [mapped]
    exact sound.ids
  · intro id live
    exact sound.known id ((lives id).mp live)
  · intro id mem
    rcases members id mem with earlier | rfl
    · exact sound.channelKnown id earlier
    · exact sound.known lane.id (live there)
  · intro found mem
    obtain ⟨other, present⟩ := getElem?_of_mem mem
    change (ready.lanes.set position next)[other]? = some found at present
    by_cases mine : position = other
    · subst mine
      rw [getElem?_set_self inside] at present
      cases present
      exact kept
    · rw [getElem?_set_ne mine] at present
      have ne : found.id ≠ lane.id := fun equal =>
        mine (sound.eq_of_id there present equal).symm
      obtain ⟨counted, between, signals⟩ := others found.id ne
      exact (sound.lanes found (mem_of_getElem? present)).moved counted between signals
  · intro id mem
    exact (lives id).mpr (tickets id mem)
  · intro dirty id mem
    rw [lives]
    rcases members id mem with earlier | rfl
    · exact sound.clean (fun cleaning => dirty (clean cleaning)) id earlier
    · exact live there
  · change (channel.countP fun id => decide ¬ReadyChannel.Live _ id) +
      ((ready.lanes.set position next).countP fun lane => !lane.cooling) ≤ ready.maximumShards
    have sameDead : (channel.countP fun id => decide ¬ReadyChannel.Live
        { ready.setLane position next with channel, coordinator } id) =
          channel.countP fun id => decide ¬ready.Live id :=
      countP_congr fun id _ => by simp only [lives]
    omega
  · change (ready.lanes.set position next).length ≤ _
    rw [length_set]
    exact sound.sockets

section

variable (sound : ReadySound ready)
include sound

section

variable (there : ready.lanes[position]? = some lane)
include there

/-- A lane that goes on as it was started uses its place only. -/
theorem bound_set (cooling : next.cooling = lane.cooling) :
    (ready.channel.countP fun id => decide ¬ready.Live id) +
      ((ready.lanes.set position next).countP fun lane => !lane.cooling) ≤
        ready.maximumShards := by
  have started := @countP_set_add _ _ _ _ next (fun lane => !lane.cooling) there
  rw [cooling] at started
  have bound := sound.bound
  omega

/-- A step that changes one lane only. -/
theorem setLane (same : next.id = lane.id) (kept : next.Kept ready.channel ready.coordinator)
    (bound : (ready.channel.countP fun id => decide ¬ready.Live id) +
      ((ready.lanes.set position next).countP fun lane => !lane.cooling) ≤
        ready.maximumShards) :
    ReadySound (ready.setLane position next) :=
  sound.replaceLane there same kept (fun _ _ => ⟨rfl, fun between => between, fun now => now⟩)
    sound.tickets (fun _ mem => .inl mem) (fun cleaning => cleaning) bound le_rfl

/-- A step of the owner about one lane, which leaves the channel alone. -/
theorem ownerStep (same : next.id = lane.id) (cooling : next.cooling = lane.cooling)
    (kept : next.Kept ready.channel coordinator)
    (mine : ∀ id, id ≠ lane.id → coordinator.tickets.count id = 0 ∧
      ready.coordinator.tickets.count id = 0 ∧ ¬ready.coordinator.Between id ∧
      coordinator ≠ .signalling id)
    (settled : ¬ready.coordinator.Cleaning) :
    ReadySound { ready.setLane position next with coordinator } := by
  refine sound.replaceLane there same kept ?_ ?_ (fun _ mem => .inl mem)
    (fun cleaning => absurd cleaning settled) (sound.bound_set there cooling) le_rfl
  · intro id ne
    obtain ⟨none, before, between, signals⟩ := mine id ne
    refine ⟨?_, fun now => absurd now between, fun now => absurd now signals⟩
    rw [none, before]
    rfl
  · intro id mem
    have equal : id = lane.id := by
      by_contra ne
      have positive := count_pos_iff.mpr mem
      have none := (mine id ne).1
      omega
    rw [equal]
    exact live there

/-! ## The producers of a lane -/

theorem started (settled : ¬ready.coordinator.Cleaning) :
    ReadySound (ready.setLane position { lane with cooling := false }) := by
  have kept := sound.lanes lane (mem_of_getElem? there)
  refine sound.setLane there rfl ⟨kept.tickets, ?_, kept.ended, kept.noticed, kept.signalling⟩ ?_
  · rintro ⟨⟩
  · have none := sound.dead_eq_zero settled
    have most := @List.countP_le_length _ (fun lane => !lane.cooling)
      (ready.lanes.set position { lane with cooling := false })
    rw [length_set] at most
    have sockets := sound.sockets
    omega

end

end

theorem sent (sound : ReadySound ready) (there : ready.lanes[position]? = some lane)
    (started : lane.cooling = false) (running : lane.ended = false) :
    ReadySound (ready.setLane position
      { lane with batches := lane.batches + 1, unsignalled := lane.unsignalled + 1 }) := by
  have kept := sound.lanes lane (mem_of_getElem? there)
  refine sound.setLane there rfl ⟨kept.tickets, ?_, ?_, ?_, ?_⟩ (sound.bound_set there rfl)
  · intro cooling
    exact nomatch started.symm.trans cooling
  · intro ended
    exact nomatch running.symm.trans ended
  · intro _
    exact .inr (.inl (Nat.succ_pos _))
  · intro _
    exact Nat.succ_pos _

/-- Only the producer that finds the flag clear uses the channel. -/
theorem signalled
    {unsignalled : Nat} (sound : ReadySound ready) (there : ready.lanes[position]? = some lane)
    (signalling : lane.unsignalled = unsignalled + 1) :
    ReadySound (ready.setLane position
      { lane with
        queued := true
        unsignalled
        delivering := if lane.queued then lane.delivering else lane.delivering + 1 }) := by
  have kept := sound.lanes lane (mem_of_getElem? there)
  refine sound.setLane there rfl ⟨?_, ?_, ?_, ?_, kept.signalling⟩ (sound.bound_set there rfl)
  · have counted := kept.tickets
    change ready.channel.count lane.id + ready.coordinator.tickets.count lane.id +
      (if lane.queued then lane.delivering else lane.delivering + 1) = 1
    cases queued : lane.queued with
    | false =>
      rw [queued, toNat_false] at counted
      rw [if_neg Bool.false_ne_true]
      omega
    | true =>
      rw [queued, toNat_true] at counted
      rw [if_pos rfl]
      exact counted
  · intro cooling
    have none := (kept.cooling cooling).2.2
    omega
  · intro ended
    have none := (kept.ended ended).1
    omega
  · intro _
    exact .inl rfl

theorem delivered
    {delivering : Nat} (sound : ReadySound ready) (there : ready.lanes[position]? = some lane)
    (holds : lane.delivering = delivering + 1) :
    ReadySound { ready.setLane position { lane with delivering } with
      channel := ready.channel ++ [lane.id] } := by
  have kept := sound.lanes lane (mem_of_getElem? there)
  have counted := kept.tickets
  refine @replaceLane _ _ _ { lane with delivering } _ ready.coordinator sound there rfl
    ⟨?_, kept.cooling, ?_, kept.noticed, kept.signalling⟩ ?_ sound.tickets ?_
    (fun cleaning => cleaning) (sound.bound_set there rfl) ?_
  · change (ready.channel ++ [lane.id]).count lane.id +
      ready.coordinator.tickets.count lane.id + delivering = lane.queued.toNat
    rw [count_append, count_singleton_self]
    omega
  · intro ended
    have none := (kept.ended ended).2
    omega
  · intro id ne
    rw [count_append, count_singleton, beq_eq_false_iff_ne.mpr ne.symm]
    exact ⟨rfl, fun between => between, fun now => now⟩
  · intro id mem
    rcases mem_append.mp mem with earlier | last
    · exact .inl earlier
    · exact .inr (mem_singleton.mp last)
  · rw [countP_append, countP_singleton, decide_eq_false (not_not.mpr (live there))]
    exact le_rfl

theorem exited (sound : ReadySound ready) (there : ready.lanes[position]? = some lane)
    (signalled : lane.unsignalled = 0) (delivered : lane.delivering = 0) :
    ReadySound (ready.setLane position { lane with ended := true }) := by
  have kept := sound.lanes lane (mem_of_getElem? there)
  exact sound.setLane there rfl
    ⟨kept.tickets, kept.cooling, fun _ => ⟨signalled, delivered⟩, kept.noticed, kept.signalling⟩
    (sound.bound_set there rfl)

/-! ## The owner takes a batch -/

theorem popped
    {id : Nat} {channel : List Nat} (sound : ReadySound ready) (idle : ready.coordinator = .idle)
    (front : ready.channel = id :: channel) :
    ReadySound { ready with channel, coordinator := .popped id } := by
  have settled : ¬ready.coordinator.Cleaning := by
    rw [idle]
    rintro (same | ⟨_, same⟩) <;> cases same
  have lives := sound.clean settled
  rw [front] at lives
  refine sound.reframe ?_ ?_ ?_ ?_ ?_
  · intro lane mem
    refine (sound.lanes lane mem).moved ?_ ?_ ?_
    · rw [front, idle, count_cons]
      simp only [Coordinator.tickets, count_singleton, count_nil]
      omega
    · rw [idle]
      rintro (same | same | same) <;> cases same
    · rintro ⟨⟩
  · intro other mem
    rw [mem_singleton.mp mem]
    exact lives id mem_cons_self
  · intro other mem
    rw [front]
    exact .inl (mem_cons_of_mem id mem)
  · intro _ other mem
    exact lives other (mem_cons_of_mem id mem)
  · rw [front]
    exact (sublist_cons_self id channel).countP_le

theorem consumed (sound : ReadySound ready) (holds : ready.coordinator = .popped lane.id)
    (there : ready.lanes[position]? = some lane) :
    ReadySound { ready.setLane position { lane with queued := false } with
      coordinator := .consumed lane.id } := by
  have kept := sound.lanes lane (mem_of_getElem? there)
  have counted := kept.tickets
  have most := toNat_le lane.queued
  rw [holds] at counted
  simp only [Coordinator.tickets, count_singleton_self] at counted
  refine sound.ownerStep there rfl rfl ⟨?_, ?_, kept.ended, ?_, ?_⟩ ?_ ?_
  · change ready.channel.count lane.id + 0 + lane.delivering = 0
    omega
  · intro cooling
    obtain ⟨batches, _, unsignalled⟩ := kept.cooling cooling
    exact ⟨batches, rfl, unsignalled⟩
  · intro _
    exact .inr (.inr (.inl rfl))
  · rintro ⟨⟩
  · intro id ne
    rw [holds]
    refine ⟨count_nil, ?_, ?_, ?_⟩
    · exact count_eq_zero.mpr fun mem => ne (mem_singleton.mp mem)
    · rintro (same | same | same) <;> cases same
    · rintro ⟨⟩
  · rw [holds]
    rintro (same | ⟨_, same⟩) <;> cases same

theorem received (sound : ReadySound ready) (holds : ready.coordinator = .consumed lane.id)
    (there : ready.lanes[position]? = some lane) :
    ReadySound { ready.setLane position { lane with batches := lane.batches - 1 } with
      coordinator := .received lane.id } := by
  have kept := sound.lanes lane (mem_of_getElem? there)
  have counted := kept.tickets
  rw [holds] at counted
  refine sound.ownerStep there rfl rfl ⟨counted, ?_, kept.ended, ?_, ?_⟩ ?_ ?_
  · intro cooling
    obtain ⟨batches, queued, unsignalled⟩ := kept.cooling cooling
    refine ⟨?_, queued, unsignalled⟩
    change lane.batches - 1 = 0
    omega
  · intro _
    exact .inr (.inr (.inr (.inl rfl)))
  · rintro ⟨⟩
  · intro id ne
    rw [holds]
    refine ⟨count_nil, count_nil, ?_, ?_⟩
    · rintro (same | same | same) <;> cases same
      exact ne rfl
    · rintro ⟨⟩
  · rw [holds]
    rintro (same | ⟨_, same⟩) <;> cases same

/-- The owner signals on behalf of the lane when it leaves batches. -/
theorem checked (sound : ReadySound ready) (holds : ready.coordinator = .received lane.id)
    (there : ready.lanes[position]? = some lane) :
    ReadySound { ready with
      coordinator := if lane.batches = 0 then .idle else .signalling lane.id } := by
  have tickets : (if lane.batches = 0 then Coordinator.idle
      else .signalling lane.id).tickets = [] := by
    split <;> rfl
  refine sound.reframe ?_ ?_ (fun _ mem => .inl mem) ?_ le_rfl
  · intro found mem
    have kept := sound.lanes found mem
    have counted := kept.tickets
    rw [holds] at counted
    obtain ⟨other, present⟩ := getElem?_of_mem mem
    refine ⟨?_, kept.cooling, kept.ended, ?_, ?_⟩
    · rw [tickets]
      exact counted
    · intro batches
      rcases kept.noticed batches with queued | signalling | inside
      · exact .inl queued
      · exact .inr (.inl signalling)
      · rw [holds] at inside
        have same : found.id = lane.id := by
          rcases inside with same | same | same
          · cases same
          · injection same with same
            exact same.symm
          · cases same
        obtain rfl := sound.eq_of_id there present same
        obtain rfl := some.inj (there.symm.trans present)
        rw [if_neg (Nat.ne_of_gt batches)]
        exact .inr (.inr (.inr (.inr rfl)))
    · intro now
      split at now
      · cases now
      · injection now with same
        obtain rfl := sound.eq_of_id there present same.symm
        obtain rfl := some.inj (there.symm.trans present)
        omega
  · rw [tickets]
    rintro _ ⟨⟩
  · intro _
    refine sound.clean ?_
    rw [holds]
    rintro (same | ⟨_, same⟩) <;> cases same

theorem resignalled (sound : ReadySound ready) (holds : ready.coordinator = .signalling lane.id)
    (there : ready.lanes[position]? = some lane) :
    ReadySound { ready.setLane position { lane with queued := true } with
      coordinator := if lane.queued then .idle else .delivering lane.id } := by
  have kept := sound.lanes lane (mem_of_getElem? there)
  have counted := kept.tickets
  rw [holds] at counted
  simp only [Coordinator.tickets, count_nil] at counted
  refine sound.ownerStep there rfl rfl ⟨?_, ?_, kept.ended, ?_, ?_⟩ ?_ ?_
  · change _ + _ + lane.delivering = 1
    cases queued : lane.queued with
    | false =>
      rw [queued, toNat_false] at counted
      rw [if_neg Bool.false_ne_true]
      simp only [Coordinator.tickets, count_singleton_self]
      omega
    | true =>
      rw [queued, toNat_true] at counted
      rw [if_pos rfl]
      simp only [Coordinator.tickets, count_nil]
      omega
  · intro cooling
    have none := (kept.cooling cooling).1
    have some := kept.signalling holds
    omega
  · intro _
    exact .inl rfl
  · intro now
    split at now <;> cases now
  · intro id ne
    rw [holds]
    refine ⟨?_, count_nil, ?_, ?_⟩
    · split
      · exact count_nil
      · exact count_eq_zero.mpr fun mem => ne (mem_singleton.mp mem)
    · rintro (same | same | same) <;> cases same
      exact ne rfl
    · intro now
      split at now <;> cases now
  · rw [holds]
    rintro (same | ⟨_, same⟩) <;> cases same

/-- The owner puts an identifier into the channel. -/
theorem putBack {id : Nat} {coordinator : Coordinator}
    (sound : ReadySound ready) (held : ready.coordinator.tickets = id :: coordinator.tickets)
    (settled : ¬ready.coordinator.Cleaning) (outside : ∀ other, ¬ready.coordinator.Between other)
    (quiet : ∀ other, coordinator ≠ .signalling other) :
    ReadySound { ready with channel := ready.channel ++ [id], coordinator } := by
  have tickets := sound.tickets
  rw [held] at tickets
  have lives := tickets id mem_cons_self
  refine sound.reframe ?_ ?_ ?_ ?_ ?_
  · intro lane mem
    refine (sound.lanes lane mem).moved ?_ ?_ ?_
    · rw [held, count_append, count_singleton, count_cons]
      omega
    · intro between
      exact absurd between (outside lane.id)
    · intro now
      exact absurd now (quiet lane.id)
  · intro other mem
    exact tickets other (mem_cons_of_mem id mem)
  · intro other mem
    rcases mem_append.mp mem with earlier | last
    · exact .inl earlier
    · rw [mem_singleton.mp last]
      exact .inr lives
  · intro _ other mem
    rcases mem_append.mp mem with earlier | last
    · exact sound.clean settled other earlier
    · rw [mem_singleton.mp last]
      exact lives
  · rw [countP_append, countP_singleton, decide_eq_false (not_not.mpr lives)]
    exact le_rfl

/-! ## The ends of tasks -/

/-- Another activity of the owner, with the same identifiers held. -/
theorem turned (sound : ReadySound ready) (held : coordinator.tickets = ready.coordinator.tickets)
    (outside : ∀ other, ¬ready.coordinator.Between other)
    (quiet : ∀ other, coordinator ≠ .signalling other)
    (clean : ¬coordinator.Cleaning → ∀ id ∈ ready.channel, ready.Live id) :
    ReadySound { ready with coordinator } := by
  refine sound.reframe ?_ ?_ (fun _ mem => .inl mem) clean le_rfl
  · intro lane mem
    refine (sound.lanes lane mem).moved ?_ ?_ ?_
    · rw [held]
    · intro between
      exact absurd between (outside lane.id)
    · intro now
      exact absurd now (quiet lane.id)
  · rw [held]
    exact sound.tickets

/-- The purge forgets the identifiers of lanes that are gone. -/
theorem drained {id : Nat} {channel retained : List Nat}
    (sound : ReadySound ready) (purges : ready.coordinator = .purging retained)
    (front : ready.channel = id :: channel) :
    ReadySound { ready with
      channel
      coordinator := .purging (if ready.Live id then retained ++ [id] else retained) } := by
  have tickets := sound.tickets
  rw [purges] at tickets
  refine sound.reframe ?_ ?_ ?_ ?_ ?_
  · intro lane mem
    refine (sound.lanes lane mem).moved ?_ ?_ ?_
    · rw [front, purges, count_cons]
      simp only [Coordinator.tickets]
      split
      · rw [count_append, count_singleton]
        omega
      · have ne : id ≠ lane.id := by
          rintro rfl
          have lives := mem_map_of_mem (f := ReadyLane.id) mem
          contradiction
        rw [beq_eq_false_iff_ne.mpr ne]
        simp
    · rw [purges]
      rintro (same | same | same) <;> cases same
    · rintro ⟨⟩
  · intro other mem
    simp only [Coordinator.tickets] at mem
    split at mem
    · rcases mem_append.mp mem with earlier | last
      · exact tickets other earlier
      · rw [mem_singleton.mp last]
        assumption
    · exact tickets other mem
  · intro other mem
    rw [front]
    exact .inl (mem_cons_of_mem id mem)
  · intro settled
    exact absurd (.inr ⟨_, rfl⟩) settled
  · rw [front]
    exact (sublist_cons_self id channel).countP_le

/-- A lane whose task has ended is taken away. Its identifier may stay in the
channel, in the place that the lane no longer needs. -/
theorem erased (sound : ReadySound ready) (notices : ready.coordinator = .noticing)
    (there : ready.lanes[position]? = some lane) (ended : lane.ended = true) :
    ReadySound { ready with lanes := ready.lanes.eraseIdx position } := by
  have sublist := eraseIdx_sublist ready.lanes position
  have kept := sound.lanes lane (mem_of_getElem? there)
  have inside := (List.getElem?_eq_some_iff.mp there).1
  refine ⟨(sublist.map ReadyLane.id).nodup sound.ids, ?_, sound.channelKnown, ?_, ?_, ?_, ?_, ?_⟩
  · intro id live
    exact sound.known id ((sublist.map ReadyLane.id).subset live)
  · intro found mem
    exact sound.lanes found (sublist.subset mem)
  · rw [notices]
    rintro _ ⟨⟩
  · intro settled
    exact absurd (.inl notices) settled
  · have started := @sum_map_eraseIdx _ _ _ _ (fun lane => (!lane.cooling).toNat) there
    rw [sum_map_toNat, sum_map_toNat] at started
    have gone : (ready.channel.countP fun id => decide ¬ReadyChannel.Live
        { ready with lanes := ready.lanes.eraseIdx position } id) ≤
          (ready.channel.countP fun id => decide ¬ready.Live id) +
            ready.channel.count lane.id := by
      refine countP_le_add ?_
      intro id _ missing
      by_cases mine : id = lane.id
      · exact .inr (beq_iff_eq.mpr mine)
      · refine .inl (decide_eq_true ?_)
        rintro live
        refine of_decide_eq_true missing ?_
        obtain ⟨other, found, present, same⟩ := exists_lane live
        have apart : other ≠ position := by
          rintro rfl
          obtain rfl := some.inj (there.symm.trans present)
          exact mine same.symm
        rw [← same]
        refine mem_map_of_mem (mem_eraseIdx_iff_getElem?.mpr ⟨other, apart, present⟩)
    have counted := kept.tickets
    have none := (kept.ended ended).2
    have place : ready.channel.count lane.id ≤ (!lane.cooling).toNat := by
      cases cooling : lane.cooling with
      | false =>
        have most := toNat_le lane.queued
        change _ ≤ 1
        omega
      | true =>
        rw [(kept.cooling cooling).2.1, toNat_false] at counted
        omega
    have bound := sound.bound
    change (ready.channel.countP fun id => decide ¬ReadyChannel.Live _ id) +
      ((ready.lanes.eraseIdx position).countP fun lane => !lane.cooling) ≤ ready.maximumShards
    omega
  · have sockets := sound.sockets
    change (ready.lanes.eraseIdx position).length ≤ ready.maximumShards
    rw [length_eraseIdx_of_lt inside]
    omega

/-- A new lane begins without batches. In the middle of a cleaning its socket
does not begin at all. -/
theorem spawned (sound : ReadySound ready) (room : ready.lanes.length < ready.maximumShards)
    (quiet : ready.coordinator = .idle ∨ ready.coordinator = .noticing ∧ recovering = true) :
    ReadySound (ready.spawn recovering) := by
  have tickets : ready.coordinator.tickets = [] := by
    rcases quiet with idle | ⟨noticing, _⟩
    · rw [idle]
      rfl
    · rw [noticing]
      rfl
  have unknown : ready.nextId ∉ ready.channel := fun mem =>
    Nat.lt_irrefl _ (sound.channelKnown _ mem)
  have unused : ¬ready.Live ready.nextId := fun live =>
    Nat.lt_irrefl _ (sound.known _ live)
  have lives : ∀ id, (ready.spawn recovering).Live id ↔ ready.Live id ∨ id = ready.nextId := by
    intro id
    unfold ReadyChannel.Live ReadyChannel.spawn
    simp only [map_append, map_cons, map_nil, mem_append, mem_singleton]
    rfl
  have bound := sound.bound
  have dead : ((ready.spawn recovering).channel.countP fun id =>
      decide ¬(ready.spawn recovering).Live id) ≤
        ready.channel.countP fun id => decide ¬ready.Live id := by
    refine countP_mono_left ?_
    intro id _ missing
    exact decide_eq_true fun live => of_decide_eq_true missing ((lives id).mpr (.inl live))
  refine ⟨?_, ?_, ?_, ?_, ?_, ?_, ?_, ?_⟩
  · change ((ready.lanes ++ [ReadyLane.fresh ready.nextId recovering]).map ReadyLane.id).Nodup
    rw [map_append]
    refine sound.ids.append (nodup_singleton _) ?_
    intro id live same
    rw [mem_singleton.mp same] at live
    exact unused live
  · intro id live
    rcases (lives id).mp live with earlier | rfl
    · exact Nat.lt_succ_of_lt (sound.known id earlier)
    · exact Nat.lt_succ_self _
  · intro id mem
    exact Nat.lt_succ_of_lt (sound.channelKnown id mem)
  · intro lane mem
    rcases mem_append.mp mem with earlier | last
    · exact sound.lanes lane earlier
    · rw [mem_singleton.mp last]
      refine ⟨?_, fun _ => ⟨rfl, rfl, rfl⟩, fun _ => ⟨rfl, rfl⟩, ?_, ?_⟩
      · change ready.channel.count ready.nextId +
          ready.coordinator.tickets.count ready.nextId + 0 = 0
        rw [tickets, count_nil, count_eq_zero.mpr unknown]
      · rintro ⟨⟩
      · intro signals
        change ready.coordinator = _ at signals
        rw [signals] at quiet
        rcases quiet with same | ⟨same, _⟩ <;> cases same
  · intro id mem
    change id ∈ ready.coordinator.tickets at mem
    rw [tickets] at mem
    cases mem
  · intro settled id mem
    exact (lives id).mpr (.inl (sound.clean settled id mem))
  · change _ + ((ready.lanes ++ [ReadyLane.fresh ready.nextId recovering]).countP
      fun lane => !lane.cooling) ≤ ready.maximumShards
    rw [countP_append, countP_singleton]
    rcases quiet with idle | ⟨_, recovers⟩
    · have none := sound.dead_eq_zero (by
        rw [idle]
        rintro (same | ⟨_, same⟩) <;> cases same)
      have most := @List.countP_le_length _ (fun lane => !lane.cooling) ready.lanes
      split <;> omega
    · subst recovers
      change _ + (_ + 0) ≤ _
      omega
  · change (ready.lanes ++ [_]).length ≤ _
    rw [length_append]
    exact room

/-! ## Runs -/

theorem step {before after : ReadyChannel} {action : ReadyAction}
    (sound : ReadySound before) (taken : ReadyStep before action after) : ReadySound after := by
  cases taken with
  | added idle room => exact sound.spawned room (.inl idle)
  | started there noticed purged =>
    refine sound.started there ?_
    rintro (noticing | ⟨retained, purging⟩)
    · exact noticed noticing
    · exact purged retained purging
  | sent there started running room => exact sound.sent there started running
  | signalled there signalling => exact sound.signalled there signalling
  | delivered there holds room => exact sound.delivered there holds
  | overflowed there holds full =>
    exact absurd full (sound.room_of_delivering there (holds ▸ Nat.succ_pos _))
  | exited there signalled delivered => exact sound.exited there signalled delivered
  | popped idle front => exact sound.popped idle front
  | missed holds gone =>
    refine absurd (sound.tickets _ ?_) gone
    rw [holds]
    exact mem_singleton_self _
  | consumed holds there => exact sound.consumed holds there
  | received holds there => exact sound.received holds there
  | checked holds there => exact sound.checked holds there
  | resignalled holds there => exact sound.resignalled holds there
  | redelivered holds room =>
    refine @putBack _ _ .idle sound ?_ ?_ ?_ ?_
    · rw [holds]
      rfl
    · rw [holds]
      rintro (same | ⟨_, same⟩) <;> cases same
    · rw [holds]
      rintro _ (same | same | same) <;> cases same
    · rintro _ ⟨⟩
  | @refused _ lane holds there full =>
    have held : lane.id ∈ before.coordinator.tickets := by
      rw [holds]
      exact mem_singleton_self _
    exact absurd full (sound.room_of_ticket held)
  | noticing idle =>
    refine sound.turned ?_ ?_ ?_ ?_
    · rw [idle]
      rfl
    · rw [idle]
      rintro _ (same | same | same) <;> cases same
    · rintro _ ⟨⟩
    · intro settled
      exact absurd (.inl rfl) settled
  | replaced notices there ended =>
    have inside := (List.getElem?_eq_some_iff.mp there).1
    have sockets := sound.sockets
    refine (sound.erased notices there ended).spawned ?_ (.inr ⟨notices, rfl⟩)
    change (before.lanes.eraseIdx _).length < before.maximumShards
    rw [length_eraseIdx_of_lt inside]
    omega
  | removed notices there ended => exact sound.erased notices there ended
  | purging notices =>
    refine sound.turned ?_ ?_ ?_ ?_
    · rw [notices]
      rfl
    · rw [notices]
      rintro _ (same | same | same) <;> cases same
    · rintro _ ⟨⟩
    · intro settled
      exact absurd (.inr ⟨_, rfl⟩) settled
  | drained purges front => exact sound.drained purges front
  | emptied purges empty =>
    refine sound.turned ?_ ?_ ?_ ?_
    · rw [purges]
      rfl
    · rw [purges]
      rintro _ (same | same | same) <;> cases same
    · rintro _ ⟨⟩
    · rw [empty]
      rintro _ _ ⟨⟩
  | restored restores room =>
    refine sound.putBack ?_ ?_ ?_ ?_
    · rw [restores]
      rfl
    · rw [restores]
      rintro (same | ⟨_, same⟩) <;> cases same
    · rw [restores]
      rintro _ (same | same | same) <;> cases same
    · rintro _ ⟨⟩
  | @differed id _ restores full =>
    have held : id ∈ before.coordinator.tickets := by
      rw [restores]
      exact mem_cons_self
    exact absurd full (sound.room_of_ticket held)
  | purged restores =>
    refine sound.turned ?_ ?_ ?_ ?_
    · rw [restores]
      rfl
    · rw [restores]
      rintro _ (same | same | same) <;> cases same
    · rintro _ ⟨⟩
    · intro _
      refine sound.clean ?_
      rw [restores]
      rintro (same | ⟨_, same⟩) <;> cases same

end ReadySound

theorem readySound_of_run (run : ReadyRun maximumShards actions ready) : ReadySound ready :=
  Run.preserves (fun _ _ _ sound taken => sound.step taken) run (ReadySound.empty maximumShards)

/-- A purge has the identifier, and will put it back. -/
def Coordinator.Retains (coordinator : Coordinator) (id : Nat) : Prop :=
  ∃ retained, id ∈ retained ∧ (coordinator = .purging retained ∨ coordinator = .restoring retained)

/-- No notification is lost: a lane with batches that nobody is at work on is in
the channel, or in the hands of a purge. It is there once, and whoever puts an
identifier into the channel finds a place. -/
structure NotificationsKept (ready : ReadyChannel) : Prop where
  notified : ∀ lane ∈ ready.lanes, 0 < lane.batches → lane.unsignalled = 0 →
    lane.delivering = 0 → ¬ready.coordinator.Inside lane.id →
      lane.id ∈ ready.channel ∨ ready.coordinator.Retains lane.id
  once : ∀ id, ready.Live id → ready.channel.count id ≤ 1
  producers : ∀ lane ∈ ready.lanes, 0 < lane.delivering → ¬ready.Full
  owner : ∀ id, ready.coordinator = .delivering id → ¬ready.Full
  purge : ∀ id retained, ready.coordinator = .restoring (id :: retained) → ¬ready.Full

theorem ReadySound.notificationsKept
    {ready : ReadyChannel} (sound : ReadySound ready) : NotificationsKept ready := by
  refine ⟨?_, ?_, ?_, ?_, ?_⟩
  · intro lane mem batches signalled delivered outside
    have kept := sound.lanes lane mem
    have counted := kept.tickets
    have queued : lane.queued = true := by
      rcases kept.noticed batches with queued | signalling | between
      · exact queued
      · omega
      · exact absurd (.inr (.inl between)) outside
    rw [queued, toNat_true, delivered] at counted
    by_cases inChannel : lane.id ∈ ready.channel
    · exact .inl inChannel
    · rw [count_eq_zero.mpr inChannel] at counted
      have held : lane.id ∈ ready.coordinator.tickets := count_pos_iff.mp (by omega)
      refine .inr ?_
      cases phase : ready.coordinator with
      | popped id =>
        rw [phase] at held outside
        rw [mem_singleton.mp held] at outside
        exact absurd (.inl rfl) outside
      | delivering id =>
        rw [phase] at held outside
        rw [mem_singleton.mp held] at outside
        exact absurd (.inr (.inr rfl)) outside
      | purging retained =>
        rw [phase] at held
        exact ⟨retained, held, .inl rfl⟩
      | restoring retained =>
        rw [phase] at held
        exact ⟨retained, held, .inr rfl⟩
      | _ =>
        rw [phase] at held
        cases held
  · intro id live
    obtain ⟨_, lane, there, rfl⟩ := ReadySound.exists_lane live
    have counted := (sound.lanes lane (mem_of_getElem? there)).tickets
    have most := toNat_le lane.queued
    omega
  · intro lane mem holds
    obtain ⟨_, there⟩ := getElem?_of_mem mem
    exact sound.room_of_delivering there holds
  · intro id holds
    refine @room_of_ticket _ id sound ?_
    rw [holds]
    exact mem_singleton_self id
  · intro id retained holds
    refine @room_of_ticket _ id sound ?_
    rw [holds]
    exact mem_cons_self

theorem notificationsKept_of_run
    {maximumShards : Nat} {actions : List ReadyAction} {ready : ReadyChannel}
    (run : ReadyRun maximumShards actions ready) : NotificationsKept ready :=
  (readySound_of_run run).notificationsKept

/-! ## A purge under way -/

/-- A socket has signalled a batch when the other one fails: the purge takes the
identifier out of the channel before it puts it back. -/
theorem exists_retained :
    ∃ (actions : List ReadyAction) (ready : ReadyChannel),
      ReadyRun 2 actions ready ∧ ready.channel = [] ∧ ready.coordinator = .purging [0] ∧
        ∃ lane ∈ ready.lanes, lane.id = 0 ∧ lane.batches = 1 ∧ lane.unsignalled = 0 ∧
          lane.delivering = 0 := by
  have first := Run.single (@ReadyStep.added (ReadyChannel.empty 2) rfl (by decide))
  have second := snoc first (@ReadyStep.added _ rfl (by decide))
  have sent := snoc second (@ReadyStep.sent _ 0 _ rfl rfl rfl (by decide))
  have signalled := snoc sent (@ReadyStep.signalled _ 0 0 _ rfl rfl)
  have delivered := snoc signalled (@ReadyStep.delivered _ 0 0 _ rfl rfl (by decide))
  have exited := snoc delivered (@ReadyStep.exited _ 1 _ rfl rfl rfl)
  have noticing := snoc exited (ReadyStep.noticing rfl)
  have replaced := snoc noticing (@ReadyStep.replaced _ 1 _ rfl rfl rfl)
  have purging := snoc replaced (ReadyStep.purging rfl)
  have drained := snoc purging (@ReadyStep.drained _ 0 [] [] rfl rfl)
  exact ⟨_, _, drained, rfl, rfl, _, mem_cons_self, rfl, rfl, rfl, rfl⟩

/-- In a purge a waiting lane may be missing from the channel. -/
theorem retained_lane_out_of_channel :
    ∃ (actions : List ReadyAction) (ready : ReadyChannel),
      ReadyRun 2 actions ready ∧
        ¬∀ lane ∈ ready.lanes, 0 < lane.batches → lane.unsignalled = 0 →
          lane.delivering = 0 → ¬ready.coordinator.Inside lane.id → lane.id ∈ ready.channel := by
  obtain ⟨actions, ready, run, channel, purging, lane, member, _, batches, signalled,
    delivered⟩ := exists_retained
  refine ⟨actions, ready, run, fun claimed => ?_⟩
  have present := claimed lane member (by omega) signalled delivered (by
    rw [purging]
    rintro (same | (same | same | same) | same) <;> cases same)
  rw [channel] at present
  cases present

theorem notificationsKept_sample :
    ∃ ready : ReadyChannel, ready.coordinator = .purging [0] ∧ NotificationsKept ready := by
  obtain ⟨_, ready, run, _, purging, _⟩ := exists_retained
  exact ⟨ready, purging, notificationsKept_of_run run⟩

end MarketCow.Acquisition
