import MarketCow.Library.MapValues
import MarketCow.Source.MarketPersistence

/-!
# Turns in the persistence queue

Pending work is never forgotten: its market has a turn, or a writer holds the
market and will look at its lane or put it back. A lane has one writer at most
and hands its work out in the order of admission.
-/

namespace MarketCow.Source

open Library List
open Option (any_some some.inj)

variable {T : Type}

namespace WriterPhase

/-- The writer will look at the lane, or put its market back. -/
def Returns (phase : WriterPhase T) (marketId : String) (handle : Nat) : Prop :=
  phase = .selected marketId (some handle) ∨ ∃ work, phase = .examined marketId handle work true

/-- The writer has work of the lane. -/
def writes (handle : Nat) : WriterPhase T → Bool
  | .idle | .selected _ _ | .examined _ _ none _ => false
  | .examined _ owner (some _) _ | .holding owner _ | .releasing owner _ => owner == handle

theorem not_returns_idle {marketId : String}
    : ¬(WriterPhase.idle : WriterPhase T).Returns marketId handle := by
  rintro (never | ⟨_, never⟩) <;> cases never

end WriterPhase

/-- Somebody will come back to the market of a lane. -/
def Awaited (queue : MarketPersistence T) (marketId : String) (handle : Nat) : Prop :=
  marketId ∈ queue.turn ∨ ∃ phase ∈ queue.writers, phase.Returns marketId handle

structure LaneSound (accepting : Bool) (lane : PersistenceLane T) : Prop where
  retired : lane.retired = true → lane.pending = []
  pushing : ∀ pending charge, lane.hold = some (.pushing pending charge) →
    lane.retired = false ∧ lane.abandoned = []
  closed : lane.abandoned ≠ [] → accepting = false
  history : lane.admitted = lane.handed ++ lane.pending.map PendingWork.work ++ lane.abandoned

structure QueueSound (queue : MarketPersistence T) : Prop where
  scheduled : ∀ marketId, marketId ∈ queue.scheduled ↔ marketId ∈ queue.turn
  once : queue.turn.Nodup
  registered : ∀ (handle : Nat) (lane : PersistenceLane T), queue.lanes[handle]? = some lane →
    lane.retired = false → queue.registry[lane.marketId]? = some handle
  lanes : ∀ lane ∈ queue.lanes, LaneSound queue.accepting lane
  active : ∀ handle : Nat, queue.writers.countP (WriterPhase.writes handle) =
    (queue.lanes[handle]?.any PersistenceLane.writerActive).toNat
  awaited : ∀ (handle : Nat) (lane : PersistenceLane T), queue.lanes[handle]? = some lane →
    lane.retired = false → lane.pending ≠ [] → Awaited queue lane.marketId handle

/-! ## Parts of a step -/

namespace MarketPersistence

variable (queue : MarketPersistence T) (marketId : String)

@[simp] theorem schedule_registry : (queue.schedule marketId).registry = queue.registry := by
  unfold schedule
  split <;> rfl

@[simp] theorem schedule_lanes : (queue.schedule marketId).lanes = queue.lanes := by
  unfold schedule
  split <;> rfl

@[simp] theorem schedule_writers : (queue.schedule marketId).writers = queue.writers := by
  unfold schedule
  split <;> rfl

@[simp] theorem schedule_accepting : (queue.schedule marketId).accepting = queue.accepting := by
  unfold schedule
  split <;> rfl

end MarketPersistence

namespace QueueSound

variable {queue after : MarketPersistence T} {handle writer : Nat}
  {lane next : PersistenceLane T} {phase old : WriterPhase T}

theorem fresh (made : MarketPersistence.new aggregate = .ok queue) : QueueSound queue := by
  unfold MarketPersistence.new at made
  cases valid : Budget.new aggregate with
  | error _ =>
    rw [valid] at made
    cases made
  | ok budget =>
    rw [valid] at made
    cases made
    refine ⟨?_, nodup_nil, ?_, ?_, ?_, ?_⟩
    · simp
    · rintro handle lane ⟨⟩
    · rintro lane ⟨⟩
    · intro handle
      rfl
    · rintro handle lane ⟨⟩

theorem mem_turn_schedule (sound : QueueSound queue) {marketId other : String} :
    other ∈ (queue.schedule marketId).turn ↔ other ∈ queue.turn ∨ other = marketId := by
  unfold MarketPersistence.schedule
  split
  · rename_i present
    have turn := (sound.scheduled marketId).mp present
    constructor
    · exact .inl
    · rintro (earlier | rfl)
      · exact earlier
      · exact turn
  · simp

/-- Scheduling keeps the queue sound. -/
theorem schedule
    (sound : QueueSound queue) (marketId : String) : QueueSound (queue.schedule marketId) := by
  have turn := @mem_turn_schedule _ _ sound marketId
  refine ⟨?_, ?_, ?_, ?_, ?_, ?_⟩
  · intro other
    rw [turn]
    unfold MarketPersistence.schedule
    split
    · rename_i present
      rw [sound.scheduled]
      constructor
      · exact .inl
      · rintro (earlier | rfl)
        · exact earlier
        · exact (sound.scheduled other).mp present
    · rw [Std.ExtTreeSet.mem_insert, sound.scheduled, Std.LawfulEqCmp.compare_eq_iff_eq]
      constructor
      · rintro (same | earlier)
        · exact .inr same.symm
        · exact .inl earlier
      · rintro (earlier | same)
        · exact .inr earlier
        · exact .inl same.symm
  · unfold MarketPersistence.schedule
    split
    · exact sound.once
    · rename_i absent
      rw [nodup_append]
      refine ⟨sound.once, nodup_singleton _, ?_⟩
      intro first inTurn second only same
      rw [mem_singleton] at only
      exact absent ((sound.scheduled marketId).mpr (only ▸ same ▸ inTurn))
  · rw [queue.schedule_lanes, queue.schedule_registry]
    exact sound.registered
  · rw [queue.schedule_lanes, queue.schedule_accepting]
    exact sound.lanes
  · rw [queue.schedule_lanes, queue.schedule_writers]
    exact sound.active
  · rw [queue.schedule_lanes]
    intro handle lane there live pending
    rcases sound.awaited handle lane there live pending with inTurn | returns
    · exact .inl (turn.mpr (.inl inTurn))
    · exact .inr (by rwa [queue.schedule_writers])

/-- Replacing a lane by one of the same market, if its work is awaited. -/
theorem replaceLane
    (sound : QueueSound queue) (there : queue.lanes[handle]? = some lane) (aggregate : Budget)
    (market : next.marketId = lane.marketId) (retired : next.retired = lane.retired)
    (active : next.writerActive = lane.writerActive)
    (pending : next.pending ≠ [] → lane.pending ≠ [] ∨ lane.marketId ∈ queue.turn)
    (kept : LaneSound queue.accepting next) :
    QueueSound { queue.setLane handle next with aggregate } := by
  have inside := (List.getElem?_eq_some_iff.mp there).1
  refine ⟨sound.scheduled, sound.once, ?_, ?_, ?_, ?_⟩
  · intro other known present live
    change (queue.lanes.set handle next)[other]? = some known at present
    by_cases same : handle = other
    · subst same
      rw [getElem?_set_self inside] at present
      cases present
      rw [market]
      exact sound.registered handle lane there (retired ▸ live)
    · rw [getElem?_set_ne same] at present
      exact sound.registered other known present live
  · intro known mem
    rcases mem_or_eq_of_mem_set mem with earlier | rfl
    · exact sound.lanes known earlier
    · exact kept
  · intro other
    change queue.writers.countP (WriterPhase.writes other) =
      ((queue.lanes.set handle next)[other]?.any PersistenceLane.writerActive).toNat
    rw [sound.active other]
    by_cases same : handle = other
    · subst same
      rw [getElem?_set_self inside, there, any_some, any_some, active]
    · rw [getElem?_set_ne same]
  · intro other known present live work
    change (queue.lanes.set handle next)[other]? = some known at present
    by_cases same : handle = other
    · subst same
      rw [getElem?_set_self inside] at present
      cases present
      rw [market]
      rcases pending work with earlier | inTurn
      · exact sound.awaited handle lane there (retired ▸ live) earlier
      · exact .inl inTurn
    · rw [getElem?_set_ne same] at present
      exact sound.awaited other known present live work

section

variable (sound : QueueSound queue)
include sound

/-- A writer moves on without letting go of a market or of work. -/
theorem replaceWriter (there : queue.writers[writer]? = some old)
    (writes : ∀ handle, phase.writes handle = old.writes handle)
    (returns : ∀ (handle : Nat) (lane : PersistenceLane T), queue.lanes[handle]? = some lane →
      lane.retired = false → lane.pending ≠ [] → old.Returns lane.marketId handle →
        lane.marketId ∈ queue.turn ∨ phase.Returns lane.marketId handle) :
    QueueSound (queue.setWriter writer phase) := by
  have inside := (List.getElem?_eq_some_iff.mp there).1
  refine ⟨sound.scheduled, sound.once, sound.registered, sound.lanes, ?_, ?_⟩
  · intro handle
    have counted := @countP_set_add _ _ _ _ phase (WriterPhase.writes handle) there
    rw [writes handle] at counted
    exact (Nat.add_right_cancel counted).trans (sound.active handle)
  · intro handle lane present live pending
    rcases sound.awaited handle lane present live pending with inTurn | ⟨other, mem, comes⟩
    · exact .inl inTurn
    · by_cases same : other = old
      · subst same
        rcases returns handle lane present live pending comes with inTurn | comes
        · exact .inl inTurn
        · exact .inr ⟨phase, mem_set inside phase, comes⟩
      · obtain ⟨position, known⟩ := getElem?_of_mem mem
        refine .inr ⟨other, ?_, comes⟩
        refine mem_of_getElem? ((getElem?_set_ne ?_).trans known)
        rintro rfl
        exact same (some.inj (known.symm.trans there))

/-- A writer takes or lets go of a lane. -/
theorem replaceBoth
    (there : queue.lanes[handle]? = some lane) (working : queue.writers[writer]? = some old)
    (market : next.marketId = lane.marketId) (retired : next.retired = lane.retired)
    (pending : next.pending ≠ [] → lane.pending ≠ []) (kept : LaneSound queue.accepting next)
    (active : (phase.writes handle).toNat + lane.writerActive.toNat =
      (old.writes handle).toNat + next.writerActive.toNat)
    (others : ∀ other, other ≠ handle → phase.writes other = old.writes other)
    (returns : ∀ (other : Nat) (marketId : String), old.Returns marketId other →
      other = handle ∧ (next.retired = false → next.pending ≠ [] → phase.Returns marketId other)) :
    QueueSound ((queue.setLane handle next).setWriter writer phase) := by
  have inside := (List.getElem?_eq_some_iff.mp there).1
  have position := (List.getElem?_eq_some_iff.mp working).1
  have known : ∀ (other : Nat) (found : PersistenceLane T),
      (queue.lanes.set handle next)[other]? = some found →
        (other = handle ∧ found = next) ∨ (other ≠ handle ∧ queue.lanes[other]? = some found) := by
    intro other found present
    by_cases same : handle = other
    · subst same
      rw [getElem?_set_self inside] at present
      exact .inl ⟨rfl, (some.inj present).symm⟩
    · rw [getElem?_set_ne same] at present
      exact .inr ⟨Ne.symm same, present⟩
  refine ⟨sound.scheduled, sound.once, ?_, ?_, ?_, ?_⟩
  · intro other found present live
    rcases known other found present with ⟨rfl, rfl⟩ | ⟨_, earlier⟩
    · rw [market]
      exact sound.registered other lane there (retired ▸ live)
    · exact sound.registered other found earlier live
  · intro found mem
    rcases mem_or_eq_of_mem_set mem with earlier | rfl
    · exact sound.lanes found earlier
    · exact kept
  · intro other
    have counted := @countP_set_add _ _ _ _ phase (WriterPhase.writes other) working
    have before := sound.active other
    change (queue.writers.set writer phase).countP (WriterPhase.writes other) =
      ((queue.lanes.set handle next)[other]?.any PersistenceLane.writerActive).toNat
    by_cases same : other = handle
    · subst same
      rw [there, any_some] at before
      rw [getElem?_set_self inside, any_some]
      omega
    · rw [getElem?_set_ne (Ne.symm same)]
      rw [others other same] at counted
      omega
  · intro other found present live work
    have earlier : Awaited queue found.marketId other := by
      rcases known other found present with ⟨rfl, rfl⟩ | ⟨_, earlier⟩
      · rw [market]
        exact sound.awaited other lane there (retired ▸ live) (pending work)
      · exact sound.awaited other found earlier live work
    rcases earlier with inTurn | ⟨waiting, mem, comes⟩
    · exact .inl inTurn
    · by_cases same : waiting = old
      · subst same
        obtain ⟨rfl, moves⟩ := returns other found.marketId comes
        rcases known other found present with ⟨_, rfl⟩ | ⟨ne, _⟩
        · exact .inr ⟨phase, mem_set position phase, moves live work⟩
        · exact absurd rfl ne
      · obtain ⟨place, stands⟩ := getElem?_of_mem mem
        refine .inr ⟨waiting, ?_, comes⟩
        refine mem_of_getElem? ((getElem?_set_ne ?_).trans stands)
        rintro rfl
        exact same (some.inj (stands.symm.trans working))

theorem register {marketId streamEpoch : String}
    (registers : queue.register marketId streamEpoch limits = .ok after) : QueueSound after := by
  rcases MarketPersistence.register_cases registers with rfl | ⟨absent, budget, _, rfl⟩
  · exact sound
  have known : ∀ (other : Nat) (found : PersistenceLane T),
      (queue.lanes ++ [PersistenceLane.fresh marketId streamEpoch budget])[other]? = some found →
        queue.lanes[other]? = some found ∨
          other = queue.lanes.length ∧ found = PersistenceLane.fresh marketId streamEpoch budget := by
    intro other found present
    rw [getElem?_append] at present
    split at present
    · exact .inl present
    · rename_i outside
      have last : other - queue.lanes.length = 0 := by
        by_contra later
        rw [getElem?_singleton, if_neg later] at present
        cases present
      rw [last] at present
      exact .inr ⟨by omega, (some.inj present).symm⟩
  refine ⟨sound.scheduled, sound.once, ?_, ?_, ?_, ?_⟩
  · intro other found present live
    rw [TreeMap.getElem?_insert]
    rcases known other found present with earlier | ⟨rfl, rfl⟩
    · have registered := sound.registered other found earlier live
      rw [if_neg, registered]
      intro same
      rw [Std.LawfulEqCmp.compare_eq_iff_eq] at same
      rw [← same, absent] at registered
      cases registered
    · rw [if_pos]
      exact Std.ReflCmp.compare_self
  · intro found mem
    rcases mem_append.mp mem with earlier | last
    · exact sound.lanes found earlier
    · obtain rfl := mem_singleton.mp last
      refine ⟨fun _ => rfl, ?_, fun abandoned => absurd rfl abandoned, rfl⟩
      rintro _ _ ⟨⟩
  · intro other
    have before := sound.active other
    change queue.writers.countP (WriterPhase.writes other) = _
    rw [before, getElem?_append]
    split
    · rfl
    · rename_i outside
      rw [getElem?_eq_none (Nat.le_of_not_lt outside)]
      rcases Nat.eq_zero_or_pos (other - queue.lanes.length) with last | later
      · rw [last]
        rfl
      · rw [getElem?_eq_none (by exact later)]
  · intro other found present live work
    rcases known other found present with earlier | ⟨rfl, rfl⟩
    · exact sound.awaited other found earlier live work
    · exact absurd rfl work

/-- New work waits with a turn for its market. -/
theorem push (there : queue.lanes[handle]? = some lane)
    (pushing : lane.hold = some (.pushing pending charge)) :
    QueueSound (queue.push handle lane pending) := by
  have kept := sound.lanes lane (mem_of_getElem? there)
  obtain ⟨live, whole⟩ := kept.pushing pending charge pushing
  have commute : queue.push handle lane pending =
      (queue.schedule lane.marketId).setLane handle
        { lane with
          pending := lane.pending ++ [pending]
          hold := none
          admitted := lane.admitted ++ [pending.work] } := by
    unfold MarketPersistence.push MarketPersistence.schedule MarketPersistence.setLane
    split <;> rfl
  rw [commute]
  refine @replaceLane _ _ _ lane _ (sound.schedule lane.marketId) ?_ _ rfl rfl rfl ?_ ?_
  · rwa [queue.schedule_lanes]
  · intro _
    exact .inr (sound.mem_turn_schedule.mpr (.inr rfl))
  · rw [queue.schedule_accepting]
    refine ⟨?_, ?_, kept.closed, ?_⟩
    · intro retired
      exact absurd (live.symm.trans retired) (by decide)
    · rintro _ _ ⟨⟩
    · have history := kept.history
      rw [whole, append_nil] at history ⊢
      rw [history, map_append, append_assoc]
      rfl

end

variable {marketId : String}

section

variable (sound : QueueSound queue)
include sound

/-- A writer holds the market it takes out of the turn. -/
theorem select
    (idle : queue.writers[writer]? = some .idle) (front : queue.turn = marketId :: turn) :
    QueueSound (queue.select writer marketId turn) := by
  have inside := (List.getElem?_eq_some_iff.mp idle).1
  have once := sound.once
  rw [front, nodup_cons] at once
  refine ⟨?_, once.2, sound.registered, sound.lanes, ?_, ?_⟩
  · intro other
    change other ∈ queue.scheduled.erase marketId ↔ other ∈ turn
    rw [Std.ExtTreeSet.mem_erase, sound.scheduled, front, mem_cons]
    constructor
    · rintro ⟨ne, rfl | inTurn⟩
      · exact absurd Std.ReflCmp.compare_self ne
      · exact inTurn
    · intro inTurn
      refine ⟨?_, .inr inTurn⟩
      rw [ne_eq, Std.LawfulEqCmp.compare_eq_iff_eq]
      rintro rfl
      exact once.1 inTurn
  · intro handle
    have counted := @countP_set_add _ _ _ _ (.selected marketId queue.registry[marketId]?)
      (WriterPhase.writes handle) idle
    exact (Nat.add_right_cancel counted).trans (sound.active handle)
  · intro handle lane there live pending
    rcases sound.awaited handle lane there live pending with inTurn | ⟨phase, mem, comes⟩
    · rw [front, mem_cons] at inTurn
      rcases inTurn with same | inTurn
      · refine .inr ⟨_, mem_set inside _, .inl ?_⟩
        rw [← same, sound.registered handle lane there live]
      · exact .inl inTurn
    · refine .inr ⟨phase, ?_, comes⟩
      obtain ⟨place, stands⟩ := getElem?_of_mem mem
      refine mem_of_getElem? ((getElem?_set_ne ?_).trans stands)
      rintro rfl
      obtain rfl := some.inj (stands.symm.trans idle)
      exact WriterPhase.not_returns_idle comes

/-- A writer looks at the lane and takes the work in front, if it may. -/
theorem examine (selected : queue.writers[writer]? = some (.selected marketId (some handle)))
    (there : queue.lanes[handle]? = some lane) :
    QueueSound (queue.examine writer marketId handle lane) := by
  have returned : ∀ (other : Nat) (market : String),
      (WriterPhase.selected marketId (some handle) : WriterPhase T).Returns market other →
        other = handle ∧ market = marketId := by
    rintro other market (same | ⟨_, never⟩)
    · cases same
      exact ⟨rfl, rfl⟩
    · cases never
  unfold MarketPersistence.examine
  cases taken : MarketPersistence.takes lane with
  | none =>
    refine sound.replaceWriter selected (fun _ => rfl) ?_
    intro other known present live work comes
    obtain ⟨rfl, market⟩ := returned other known.marketId comes
    obtain rfl := some.inj (there.symm.trans present)
    refine .inr (.inr ⟨none, ?_⟩)
    rw [market, live, isEmpty_eq_false_iff.mpr work]
    rfl
  | some found =>
    obtain ⟨work, rest⟩ := found
    unfold MarketPersistence.takes at taken
    cases waiting : lane.pending with
    | nil =>
      rw [waiting] at taken
      cases taken
    | cons first pending =>
      rw [waiting] at taken
      dsimp only at taken
      split at taken
      · rename_i free
        simp only [and_eq_true, not_eq_true'] at free
        obtain ⟨⟨live, inactive⟩, _⟩ := free
        cases taken
        have kept := sound.lanes lane (mem_of_getElem? there)
        refine sound.replaceBoth there selected rfl rfl ?_ ⟨?_, kept.pushing, kept.closed, ?_⟩
          ?_ ?_ ?_
        · intro _
          rw [waiting]
          exact cons_ne_nil _ _
        · intro retired
          exact absurd (live.symm.trans retired) (by decide)
        · have history := kept.history
          rw [waiting] at history
          simpa using history
        · rw [inactive]
          simp [WriterPhase.writes]
        · intro other ne
          exact beq_false_of_ne (Ne.symm ne)
        · intro other market comes
          obtain ⟨rfl, rfl⟩ := returned other market comes
          refine ⟨rfl, fun live work => .inr ⟨some first.work, ?_⟩⟩
          rw [live, isEmpty_eq_false_iff.mpr work]
          rfl
      · cases taken

/-- The market goes back when the writer said so. -/
theorem settle
    (examined : queue.writers[writer]? = some (.examined marketId handle work retry)) :
    QueueSound (queue.settle writer marketId handle work retry) := by
  have writes : ∀ other, (WriterPhase.resumed handle work).writes other =
      (WriterPhase.examined marketId handle work retry).writes other := by
    intro other
    cases work <;> rfl
  have returned : ∀ (other : Nat) (market : String),
      (WriterPhase.examined marketId handle work retry).Returns market other →
        other = handle ∧ market = marketId ∧ retry = true := by
    rintro other market (never | ⟨_, same⟩)
    · cases never
    · cases same
      exact ⟨rfl, rfl, rfl⟩
  unfold MarketPersistence.settle
  dsimp only
  split
  · have commute : ∀ phase : WriterPhase T, (queue.setWriter writer phase).schedule marketId =
        (queue.schedule marketId).setWriter writer phase := by
      intro phase
      unfold MarketPersistence.schedule MarketPersistence.setWriter
      split <;> rfl
    rw [commute]
    refine (sound.schedule marketId).replaceWriter ?_ writes ?_
    · rwa [queue.schedule_writers]
    · intro other lane _ _ _ comes
      exact .inl (sound.mem_turn_schedule.mpr (.inr (returned other lane.marketId comes).2.1))
  · rename_i stays
    refine sound.replaceWriter examined writes ?_
    intro other lane present live _ comes
    obtain ⟨rfl, rfl, again⟩ := returned other lane.marketId comes
    exact absurd ⟨again, sound.registered other lane present live⟩ stays

/-- A lane without work leaves the registry and the turn. -/
theorem finishRetire (there : queue.lanes[handle]? = some lane) (unlocked : lane.hold = none)
    (checked : queue.checkRetire handle lane = .ok ()) :
    QueueSound (queue.finishRetire handle lane) := by
  have inside := (List.getElem?_eq_some_iff.mp there).1
  obtain ⟨_, ready, current⟩ := bind_ok.mp checked
  simp only [ensure_ok, and_eq_true, not_eq_true', List.isEmpty_iff, beq_iff_eq] at ready current
  obtain ⟨⟨⟨⟨_, live⟩, empty⟩, _⟩, inactive⟩ := ready
  have known : ∀ (other : Nat) (found : PersistenceLane T),
      (queue.lanes.set handle { lane with retired := true })[other]? = some found →
        found.retired = false → other ≠ handle ∧ queue.lanes[other]? = some found := by
    intro other found present live
    by_cases same : handle = other
    · subst same
      rw [getElem?_set_self inside] at present
      cases present
      cases live
    · rw [getElem?_set_ne same] at present
      exact ⟨Ne.symm same, present⟩
  have elsewhere : ∀ (other : Nat) (found : PersistenceLane T), other ≠ handle →
      queue.lanes[other]? = some found → found.retired = false →
        found.marketId ≠ lane.marketId := by
    intro other found ne present live same
    have registered := sound.registered other found present live
    rw [same, current] at registered
    exact ne (some.inj registered).symm
  refine ⟨?_, sound.once.filter _, ?_, ?_, ?_, ?_⟩
  · intro other
    change other ∈ queue.scheduled.erase lane.marketId ↔ other ∈ queue.turn.filter _
    rw [Std.ExtTreeSet.mem_erase, sound.scheduled, mem_filter, bne_iff_ne, ne_eq,
      Std.LawfulEqCmp.compare_eq_iff_eq, and_comm, eq_comm]
  · intro other found present live
    obtain ⟨ne, earlier⟩ := known other found present live
    change (queue.registry.erase lane.marketId)[found.marketId]? = some other
    rw [getElem?_erase, if_neg, sound.registered other found earlier live]
    rw [Std.LawfulEqCmp.compare_eq_iff_eq]
    exact Ne.symm (elsewhere other found ne earlier live)
  · intro found mem
    rcases mem_or_eq_of_mem_set mem with earlier | rfl
    · exact sound.lanes found earlier
    · have kept := sound.lanes lane (mem_of_getElem? there)
      refine ⟨fun _ => empty, ?_, kept.closed, kept.history⟩
      intro pending charge pushing
      rw [unlocked] at pushing
      cases pushing
  · intro other
    change queue.writers.countP (WriterPhase.writes other) =
      ((queue.lanes.set handle { lane with retired := true })[other]?.any
        PersistenceLane.writerActive).toNat
    rw [sound.active other]
    by_cases same : handle = other
    · subst same
      rw [getElem?_set_self inside, there]
      rfl
    · rw [getElem?_set_ne same]
  · intro other found present live work
    obtain ⟨ne, earlier⟩ := known other found present live
    rcases sound.awaited other found earlier live work with inTurn | returns
    · refine .inl (mem_filter.mpr ⟨inTurn, ?_⟩)
      exact bne_iff_ne.mpr (elsewhere other found ne earlier live)
    · exact .inr returns

end

/-- Every step keeps the queue sound. -/
theorem step {action : PersistenceAction T}
    (sound : QueueSound queue) (taken : PersistenceStep queue action after) : QueueSound after := by
  -- Steps that only change what keeps a lane locked, its budget or its fence.
  have frame : ∀ {handle : Nat} {lane : PersistenceLane T} (next : PersistenceLane T)
      (aggregate : Budget), queue.lanes[handle]? = some lane → next.marketId = lane.marketId →
      next.retired = lane.retired → next.writerActive = lane.writerActive →
      next.pending = lane.pending → next.admitted = lane.admitted → next.handed = lane.handed →
      next.abandoned = lane.abandoned →
      (∀ pending charge, next.hold = some (.pushing pending charge) →
        lane.retired = false ∧ lane.abandoned = []) →
      QueueSound { queue.setLane handle next with aggregate } := by
    intro handle lane next aggregate there market retired active pending admitted handed abandoned
      pushing
    have kept := sound.lanes lane (mem_of_getElem? there)
    refine sound.replaceLane there aggregate market retired active ?_ ⟨?_, ?_, ?_, ?_⟩
    · rw [pending]
      exact .inl
    · rw [retired, pending]
      exact kept.retired
    · rw [retired, abandoned]
      exact pushing
    · rw [abandoned]
      exact kept.closed
    · rw [admitted, handed, pending, abandoned]
      exact kept.history
  cases taken with
  | registered registers => exact sound.register registers
  | rejected | fenced => exact sound
  | @begun handle lane pending there unlocked market epoch checked =>
    obtain ⟨_, fence, accepts⟩ := bind_ok.mp checked
    simp only [ensure_ok, and_eq_true, not_eq_true'] at fence
    have kept := sound.lanes lane (mem_of_getElem? there)
    refine frame _ _ there rfl rfl rfl rfl rfl rfl rfl fun _ _ _ => ⟨fence.2, ?_⟩
    by_contra abandoned
    rw [kept.closed abandoned] at accepts
    cases accepts
  | @reserved handle lane pending charge part there pushing next =>
    have kept := (sound.lanes lane (mem_of_getElem? there)).pushing pending charge pushing
    unfold MarketPersistence.reserve
    split
    · exact frame _ _ there rfl rfl rfl rfl rfl rfl rfl fun _ _ _ => kept
    · exact frame _ _ there rfl rfl rfl rfl rfl rfl rfl fun _ _ _ => kept
    · exact frame _ _ there rfl rfl rfl rfl rfl rfl rfl fun _ _ _ => kept
  | pushed there pushing charged current => exact sound.push there pushing
  | @displaced handle lane pending charge there pushing charged displaced =>
    have kept := (sound.lanes lane (mem_of_getElem? there)).pushing pending charge pushing
    exact frame _ _ there rfl rfl rfl rfl rfl rfl rfl fun _ _ _ => kept
  | refunded there refunding counted | failed there refunding refunded =>
    refine frame _ _ there rfl rfl rfl rfl rfl rfl rfl ?_
    rintro _ _ ⟨⟩
  | @readied handle position lane pending there waiting =>
    have kept := sound.lanes lane (mem_of_getElem? there)
    refine sound.replaceLane there _ rfl rfl rfl ?_ ⟨?_, kept.pushing, kept.closed, ?_⟩
    · intro work
      refine .inl fun empty => work ?_
      change lane.pending.set position _ = []
      rw [empty]
      rfl
    · intro retired
      change lane.pending.set position _ = []
      rw [kept.retired retired]
      rfl
    · have same : (lane.pending.set position { pending with readyForDisk := true }).map
          PendingWork.work = lane.pending.map PendingWork.work := by
        have worked : (lane.pending.map PendingWork.work)[position]? = some pending.work := by
          rw [getElem?_map, waiting]
          rfl
        obtain ⟨inside, work⟩ := List.getElem?_eq_some_iff.mp worked
        rw [map_set]
        rw [← work, set_getElem_self]
      change lane.admitted = lane.handed ++ List.map PendingWork.work _ ++ lane.abandoned
      rw [same]
      exact kept.history
  | started =>
    refine ⟨sound.scheduled, sound.once, sound.registered, sound.lanes, ?_, ?_⟩
    · intro handle
      change (queue.writers ++ [WriterPhase.idle]).countP (WriterPhase.writes handle) = _
      rw [countP_append, sound.active handle]
      rfl
    · intro handle lane there live pending
      rcases sound.awaited handle lane there live pending with inTurn | ⟨phase, mem, comes⟩
      · exact .inl inTurn
      · exact .inr ⟨phase, mem_append_left _ mem, comes⟩
  | selected idle front => exact sound.select idle front
  | missed selected =>
    refine sound.replaceWriter selected (fun _ => rfl) ?_
    rintro _ _ _ _ _ (never | ⟨_, never⟩) <;> cases never
  | examined selected there unlocked => exact sound.examine selected there
  | @busy writer marketId handle selected =>
    refine sound.replaceWriter selected (fun _ => rfl) ?_
    rintro _ _ _ _ _ (same | ⟨_, never⟩)
    · cases same
      exact .inr (.inr ⟨none, rfl⟩)
    · cases never
  | settled examined => exact sound.settle examined
  | completed holding =>
    refine sound.replaceWriter holding (fun _ => rfl) ?_
    rintro _ _ _ _ _ (never | ⟨_, never⟩) <;> cases never
  | @released writer handle lane charge part releasing there counted =>
    have kept := sound.lanes lane (mem_of_getElem? there)
    have given := frame { lane with budget := lane.budget.giveBack .market part charge.size }
      (queue.aggregate.giveBack .aggregate part charge.size) there rfl rfl rfl rfl rfl rfl rfl
      kept.pushing
    refine given.replaceWriter releasing (fun _ => rfl) ?_
    rintro _ _ _ _ _ (never | ⟨_, never⟩) <;> cases never
  | @freed writer handle lane charge releasing there released =>
    have kept := sound.lanes lane (mem_of_getElem? there)
    have active : lane.writerActive = true := by
      have counted := sound.active handle
      rw [there, any_some] at counted
      have positive : 0 < queue.writers.countP (WriterPhase.writes handle) :=
        countP_pos_iff.mpr ⟨_, mem_of_getElem? releasing, beq_self_eq_true handle⟩
      by_contra inactive
      rw [not_eq_true] at inactive
      rw [counted, inactive] at positive
      exact absurd positive (by decide)
    refine sound.replaceBoth there releasing rfl rfl id
      ⟨kept.retired, kept.pushing, kept.closed, kept.history⟩ ?_ ?_ ?_
    · rw [active]
      simp [WriterPhase.writes]
    · intro other ne
      exact (beq_false_of_ne (Ne.symm ne)).symm
    · rintro _ _ (never | ⟨_, never⟩) <;> cases never
  | @drained handle lane there unlocked live | @drainCanceled handle lane there unlocked live =>
    refine frame _ _ there rfl rfl rfl rfl rfl rfl rfl ?_
    exact (sound.lanes lane (mem_of_getElem? there)).pushing
  | retired there unlocked checked => exact sound.finishRetire there unlocked checked
  | closed =>
    refine ⟨sound.scheduled, sound.once, sound.registered, ?_, sound.active, sound.awaited⟩
    intro lane mem
    have kept := sound.lanes lane mem
    exact ⟨kept.retired, kept.pushing, fun _ => rfl, kept.history⟩
  | @abandoned handle lane there unlocked closed =>
    have kept := sound.lanes lane (mem_of_getElem? there)
    refine sound.replaceLane there _ rfl rfl rfl ?_ ⟨fun _ => rfl, ?_, fun _ => closed, ?_⟩
    · intro work
      exact absurd rfl work
    · rintro _ _ ⟨⟩
    · rw [kept.history]
      simp
  | forgot there abandoning counted | forgotten there abandoning released =>
    refine frame _ _ there rfl rfl rfl rfl rfl rfl rfl ?_
    rintro _ _ ⟨⟩
  | unlocked there abandoning =>
    refine frame _ _ there rfl rfl rfl rfl rfl rfl rfl ?_
    rintro _ _ ⟨⟩

end QueueSound

/-- Every queue of a run is sound. -/
theorem queueSound_of_run (run : PersistenceRun aggregate actions queue) : QueueSound queue := by
  obtain ⟨fresh, made, steps⟩ := run
  exact steps.preserves (fun _ _ _ sound taken => sound.step taken) (QueueSound.fresh made)

/-! ## No work is stranded -/

/-- A market is scheduled exactly while it has its one turn. Pending work is
awaited, each lane has one writer at most, and its work is handed out in the
order in which it was admitted. -/
structure TurnsKept (queue : MarketPersistence T) : Prop where
  scheduled : ∀ marketId, marketId ∈ queue.scheduled ↔ queue.turn.count marketId = 1
  once : ∀ marketId, queue.turn.count marketId ≤ 1
  oneWriter : ∀ handle, queue.writers.countP (WriterPhase.writes handle) ≤ 1
  awaited : ∀ (handle : Nat) (lane : PersistenceLane T), queue.lanes[handle]? = some lane →
    lane.retired = false → lane.pending ≠ [] →
      lane.marketId ∈ queue.turn ∨ ∃ phase ∈ queue.writers, phase.Returns lane.marketId handle
  notStranded : queue.turn = [] →
    (∀ phase ∈ queue.writers, ∀ marketId handle, ¬phase.Returns marketId handle) →
      ∀ lane ∈ queue.lanes, lane.pending = []
  fifo : ∀ lane ∈ queue.lanes,
    lane.admitted = lane.handed ++ lane.pending.map PendingWork.work ++ lane.abandoned ∧
      (lane.abandoned ≠ [] → queue.accepting = false)

def sampleLimits : Limits where
  batches := 2
  bytes := 10

def samplePending : PendingWork Nat where
  work :=
    { marketId := "a"
      streamEpoch := "epoch"
      marketCursor := none
      payload := 1
      bytes := 3 }
  readyForDisk := true

def sampleBudget : Budget where
  limits := sampleLimits
  batches := 0
  bytes := 0
  someBatches := by decide
  someBytes := by decide

def sampleQueue : MarketPersistence Nat where
  registry := (∅ : TreeMap String Nat).insert "a" 0
  scheduled := ∅
  turn := []
  lanes := [PersistenceLane.fresh "a" "epoch" sampleBudget]
  aggregate := sampleBudget
  accepting := true
  writers := []

theorem sampleQueue_run :
    PersistenceRun sampleLimits [.register "a" "epoch" sampleLimits] sampleQueue :=
  ⟨_, rfl, Run.single (.registered rfl)⟩

/-- One item is pushed, and a writer takes its market. -/
theorem exists_selected :
    ∃ (actions : List (PersistenceAction Nat)) (queue : MarketPersistence Nat),
      PersistenceRun sampleLimits actions queue ∧ queue.turn = [] ∧ queue.scheduled = ∅ ∧
        queue.writers = [.selected "a" (some 0)] ∧
        ∃ lane, queue.lanes = [lane] ∧ lane.marketId = "a" ∧ lane.retired = false ∧
          lane.writerActive = false ∧ lane.pending = [samplePending] := by
  obtain ⟨fresh, made, registered⟩ := sampleQueue_run
  have begun := Run.snoc registered
    (@PersistenceStep.begun _ _ 0 _ samplePending rfl rfl rfl rfl rfl)
  have first := Run.snoc begun (@PersistenceStep.reserved _ _ 0 _ _ _ _ rfl rfl rfl)
  have second := Run.snoc first (@PersistenceStep.reserved _ _ 0 _ _ _ _ rfl rfl rfl)
  have third := Run.snoc second (@PersistenceStep.reserved _ _ 0 _ _ _ _ rfl rfl rfl)
  have fourth := Run.snoc third (@PersistenceStep.reserved _ _ 0 _ _ _ _ rfl rfl rfl)
  have pushed := Run.snoc fourth (@PersistenceStep.pushed _ _ 0 _ _ _ rfl rfl rfl rfl)
  have started := Run.snoc pushed PersistenceStep.started
  have selected := Run.snoc started (@PersistenceStep.selected _ _ 0 _ _ rfl rfl)
  exact ⟨_, _, ⟨fresh, made, selected⟩, rfl, rfl, rfl, _, rfl, rfl, rfl, rfl, rfl⟩

end MarketCow.Source
