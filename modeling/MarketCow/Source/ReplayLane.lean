import MarketCow.Library.Fallible
import MarketCow.Library.MapValues
import MarketCow.Source.ReplayStore

/-!
# The lanes of the replay

The groups of a live lane are the ones after its floor. A plan takes or gives
back exactly what it changes in its lane, and so does an acknowledgement.
-/

namespace MarketCow.Source

open Library List

variable {T S : Type}

/-! ## Lanes -/

def retainedBytes (groups : List (MarketGroup T)) : Nat :=
  (groups.map MarketGroup.retainedBytes).sum

/-- The cursors of a live lane. -/
structure LaneKept (lane : Lane T S) : Prop where
  cursors : lane.groups.map MarketGroup.marketCursor =
    List.range' (lane.replayFloor + 1) (lane.published - lane.replayFloor)
  floor : lane.replayFloor ≤ lane.published
  durable : lane.durable ≤ lane.published

variable {lane : Lane T S}

theorem LaneKept.length (kept : LaneKept lane) :
    lane.groups.length = lane.published - lane.replayFloor := by
  rw [← length_map MarketGroup.marketCursor, kept.cursors, length_range']

/-- Evicting groups moves the floor and gives back their bytes. -/
theorem Lane.evict_eq {count : Nat} {lane : Lane T S} (enough : count ≤ lane.groups.length)
    (cursors : lane.groups.map MarketGroup.marketCursor =
      List.range' (lane.replayFloor + 1) lane.groups.length) :
    lane.evict count =
      { lane with
        groups := lane.groups.drop count
        replayFloor := lane.replayFloor + count
        replayBytes := lane.replayBytes - retainedBytes (lane.groups.take count) } := by
  induction count generalizing lane with
  | zero => rfl
  | succ count ih =>
    cases groups : lane.groups with
    | nil =>
      rw [groups] at enough
      cases enough
    | cons evicted rest =>
      rw [groups, map_cons, length_cons, range'_succ, List.cons.injEq] at cursors
      obtain ⟨first, others⟩ := cursors
      rw [groups, length_cons, Nat.add_le_add_iff_right] at enough
      unfold Lane.evict
      rw [groups]
      dsimp only
      rw [ih enough (by rw [first]; exact others)]
      simp only [first, drop_succ_cons, take_succ_cons, retainedBytes,
        map_cons, sum_cons, Nat.sub_sub, Nat.add_right_comm, Nat.add_assoc]

/-! ## Plans -/

/-- What a plan says about a lane: it publishes the next cursor, evicts groups
there are, and takes or gives back exactly the difference. -/
structure Planned (lane : Lane T S) (publishing : Publishing T S) : Prop where
  live : lane.retired = false
  next : publishing.group.marketCursor = lane.published + 1
  evicted : publishing.evictedGroups ≤ lane.groups.length
  balance : publishing.growth + retainedBytes (lane.groups.take publishing.evictedGroups) =
    publishing.refundOnCommit + publishing.group.retainedBytes
  refund : publishing.refundOnCommit ≤
    retainedBytes (lane.groups.take publishing.evictedGroups)
  slot : publishing.slot = true → lane.replaySlot = false

theorem retainedBytes_take_succ
    (old : MarketGroup T) (groups : List (MarketGroup T)) (count : Nat) :
    retainedBytes ((old :: groups).take (count + 1)) =
      old.retainedBytes + retainedBytes (groups.take count) := by
  rw [take_succ_cons, retainedBytes, map_cons, sum_cons]
  rfl

/-- The first eviction counts some of the oldest groups and their bytes. -/
theorem evictLocal_counts
    (limits : ReplayLimits) (durable : Nat) (groups : List (MarketGroup T)) (eviction : Eviction) :
    ∃ count ≤ groups.length,
      (evictLocal limits durable groups eviction).evictedGroups = eviction.evictedGroups + count ∧
      (evictLocal limits durable groups eviction).evictedBytes =
        eviction.evictedBytes + retainedBytes (groups.take count) := by
  induction groups generalizing eviction with
  | nil => exact ⟨0, le_rfl, rfl, rfl⟩
  | cons old groups ih =>
    unfold evictLocal
    split
    · exact ⟨0, Nat.zero_le _, rfl, rfl⟩
    · split
      · exact ⟨0, Nat.zero_le _, rfl, rfl⟩
      · obtain ⟨count, inside, counted, bytes⟩ := ih
          { retainedBytes := fetchSub eviction.retainedBytes old.retainedBytes
            retainedGroups := eviction.retainedGroups - 1
            evictedBytes := eviction.evictedBytes + old.retainedBytes
            evictedGroups := eviction.evictedGroups + 1 }
        refine ⟨count + 1, Nat.succ_le_succ inside, ?_, ?_⟩
        · rw [counted]
          dsimp only
          omega
        · rw [bytes, retainedBytes_take_succ]
          dsimp only
          omega

variable {limits : ReplayLimits}

/-- The second eviction takes the bytes of some more groups from the total. -/
theorem evictAggregate_counts
    (evicts : evictAggregate limits durable groups (projectedTotal, evictedGroups) = .ok result) :
    ∃ count ≤ groups.length,
      result.2 = evictedGroups + count ∧
        result.1 + retainedBytes (groups.take count) = projectedTotal := by
  induction groups generalizing projectedTotal evictedGroups with
  | nil =>
    cases evicts
    exact ⟨0, le_rfl, rfl, rfl⟩
  | cons old groups ih =>
    unfold evictAggregate at evicts
    split at evicts
    · cases evicts
      exact ⟨0, Nat.zero_le _, rfl, rfl⟩
    · split at evicts
      · cases evicts
        exact ⟨0, Nat.zero_le _, rfl, rfl⟩
      · split at evicts
        · cases evicts
        · rename_i enough
          obtain ⟨count, inside, counted, bytes⟩ := ih evicts
          refine ⟨count + 1, Nat.succ_le_succ inside, ?_, ?_⟩
          · rw [counted]
            omega
          · rw [retainedBytes_take_succ]
            omega

variable {request : PublishRequest T S}

theorem reserveSlot_taken
    (reserves : reserveSlot limits totalBytes occupiedMarketSlots lane request = .ok true) :
    lane.replaySlot = false ∧
      ∃ limit, limits.maximumMarketSlots = some limit ∧ occupiedMarketSlots < limit := by
  unfold reserveSlot at reserves
  split at reserves
  · cases reserves
  · rename_i empty
    refine ⟨by simpa using empty, ?_⟩
    split at reserves
    · cases reserves
    · rename_i limit limited
      split at reserves
      · cases reserves
      · rename_i free
        exact ⟨limit, limited, not_le.mp free⟩

/-- A publication that is staged is planned for its lane. -/
theorem planned_of_stage
    {store : ReplayStore T S} (stages : store.stagePublish limits cell request = .ok publishing) :
    Planned cell.lane publishing ∧ publishing.reserved = false ∧
      (publishing.slot = true → ∃ limit, limits.maximumMarketSlots = some limit ∧
        store.occupiedMarketSlots < limit) := by
  obtain ⟨⟨groupSha256, commit, eviction⟩, validates, plans⟩ := bind_ok.mp stages
  have lane : cell.lane.retired = false ∧
      eviction = evictLocal limits cell.lane.durable cell.lane.groups
        { retainedBytes := (cell.lane.replayBytes + request.retainedCharge) % 2 ^ 64
          retainedGroups := cell.lane.groups.length + 1
          evictedBytes := 0
          evictedGroups := 0 } := by
    unfold validatePublish at validates
    simp only [bind_ok, ensure_ok] at validates
    obtain ⟨_, _, _, _, _, _, _, live, _, _, _, _, _, _, _, _, _, _, checked⟩ := validates
    refine ⟨by simpa using live, ?_⟩
    split at checked
    · cases checked
    · split at checked
      · cases checked
      · split at checked
        · cases checked
        · injection checked with same
          injection same with _ rest
          injection rest with _ last
          exact last.symm
  obtain ⟨live, evicted⟩ := lane
  obtain ⟨first, firstInside, firstGroups, firstBytes⟩ :=
    evictLocal_counts limits cell.lane.durable cell.lane.groups
      { retainedBytes := (cell.lane.replayBytes + request.retainedCharge) % 2 ^ 64
        retainedGroups := cell.lane.groups.length + 1
        evictedBytes := 0
        evictedGroups := 0 }
  rw [← evicted, Nat.zero_add] at firstGroups firstBytes
  unfold planPublish at plans
  obtain ⟨slot, slots, _, enough, rest⟩ := bind₂_ok.mp plans
  obtain ⟨⟨projectedTotal, evictedGroups⟩, evicts, rest⟩ := bind_ok.mp rest
  obtain ⟨second, secondInside, secondGroups, secondBytes⟩ := evictAggregate_counts evicts
  rw [ensure_ok, and_eq_true, decide_eq_true_eq, decide_eq_true_eq] at enough
  rw [firstGroups] at secondGroups secondInside secondBytes
  rw [firstBytes] at secondBytes enough
  rw [length_drop] at secondInside
  dsimp only at secondGroups secondBytes
  have all : retainedBytes (cell.lane.groups.take (first + second)) =
      retainedBytes (cell.lane.groups.take first) +
        retainedBytes ((cell.lane.groups.drop first).take second) := by
    rw [take_add, retainedBytes, map_append, sum_append]
    rfl
  dsimp only at rest
  split at rest
  · cases rest
  · cases rest
    refine ⟨⟨live, rfl, ?_, ?_, ?_, ?_⟩, rfl, ?_⟩
    · dsimp only
      omega
    · dsimp only
      rw [secondGroups, all]
      omega
    · dsimp only
      rw [secondGroups, all]
      omega
    · rintro rfl
      exact (reserveSlot_taken slots).1
    · rintro rfl
      exact (reserveSlot_taken slots).2

/-- Planned evictions leave the groups after the new floor. -/
theorem LaneKept.committed {lane : Lane T S} {publishing : Publishing T S}
    (kept : LaneKept lane) (bytes : lane.replayBytes = retainedBytes lane.groups)
    (planned : Planned lane publishing) :
    LaneKept (lane.committed publishing) ∧
      (lane.committed publishing).replayBytes = retainedBytes (lane.committed publishing).groups ∧
      (lane.committed publishing).replayBytes + publishing.refundOnCommit =
        lane.replayBytes + publishing.growth := by
  have length := kept.length
  have floor := kept.floor
  have durable := kept.durable
  have enough := planned.evicted
  have balance := planned.balance
  have split : retainedBytes lane.groups =
      retainedBytes (lane.groups.take publishing.evictedGroups) +
        retainedBytes (lane.groups.drop publishing.evictedGroups) := by
    rw [retainedBytes, retainedBytes, retainedBytes, ← sum_append, ← map_append, take_append_drop]
  have cursors : (lane.groups ++ [publishing.group]).map MarketGroup.marketCursor =
      List.range' (lane.replayFloor + 1) (lane.groups.length + 1) := by
    rw [map_append, kept.cursors, map_singleton, planned.next, ← length, range'_concat]
    congr 2
    omega
  have evicted := @Lane.evict_eq T S publishing.evictedGroups
    { lane with
      published := publishing.group.marketCursor
      replayBytes := lane.replayBytes + publishing.group.retainedBytes
      replaySlot := lane.replaySlot || publishing.slot
      groups := lane.groups ++ [publishing.group] }
    (by simp; omega) (by simpa using cursors)
  have dropped : (lane.groups ++ [publishing.group]).drop publishing.evictedGroups =
      lane.groups.drop publishing.evictedGroups ++ [publishing.group] :=
    drop_append_of_le_length enough
  have taken : (lane.groups ++ [publishing.group]).take publishing.evictedGroups =
      lane.groups.take publishing.evictedGroups :=
    take_append_of_le_length enough
  have last : retainedBytes (lane.groups.drop publishing.evictedGroups ++ [publishing.group]) =
      retainedBytes (lane.groups.drop publishing.evictedGroups) +
        publishing.group.retainedBytes := by
    rw [retainedBytes, map_append, sum_append]
    simp [retainedBytes]
  rw [dropped, taken] at evicted
  unfold Lane.committed
  dsimp only
  rw [evicted]
  unfold Lane.bumped
  dsimp only
  refine ⟨⟨?_, ?_, ?_⟩, ?_, ?_⟩
  · dsimp only
    rw [← dropped, map_drop, cursors, drop_range', planned.next]
    congr 1 <;> omega
  · dsimp only
    rw [planned.next]
    omega
  · dsimp only
    rw [planned.next]
    omega
  · rw [last]
    omega
  · omega

/-- Giving back a part of the bytes of one group. -/
theorem retainedBytes_release
    {groups : List (MarketGroup T)} {group : MarketGroup T} {release : Nat}
    (distinct : (groups.map MarketGroup.marketCursor).Nodup) (mem : group ∈ groups)
    (enough : release ≤ group.retainedBytes) :
    retainedBytes (groups.map fun other =>
      if other.marketCursor = group.marketCursor then
        { other with retainedBytes := other.retainedBytes - release }
      else other) + release = retainedBytes groups := by
  induction groups with
  | nil => cases mem
  | cons first groups ih =>
    rw [map_cons, nodup_cons] at distinct
    have split : ∀ (head : MarketGroup T) (tail : List (MarketGroup T)),
        retainedBytes (head :: tail) = head.retainedBytes + retainedBytes tail := by
      intro head tail
      rw [retainedBytes, map_cons, sum_cons]
      rfl
    rw [map_cons, split, split]
    by_cases same : first.marketCursor = group.marketCursor
    · have isFirst : group = first := by
        rcases mem_cons.mp mem with isFirst | later
        · exact isFirst
        · exact absurd (same ▸ mem_map_of_mem later) distinct.1
      have others : (groups.map fun other =>
          if other.marketCursor = group.marketCursor then
            { other with retainedBytes := other.retainedBytes - release }
          else other) = groups := by
        conv_rhs => rw [← map_id groups]
        apply map_congr_left
        intro other inGroups
        rw [if_neg]
        · rfl
        · intro equal
          exact distinct.1 (same ▸ equal ▸ mem_map_of_mem inGroups)
      rw [if_pos same, others]
      subst isFirst
      dsimp only
      omega
    · rcases mem_cons.mp mem with isFirst | later
      · exact absurd (congrArg MarketGroup.marketCursor isFirst.symm) same
      · have rest := ih distinct.2 later
        rw [if_neg same]
        omega

/-- An acknowledgement gives back what it says. -/
theorem LaneKept.acknowledged
    {lane after : Lane T S} {streamEpoch : String} {marketCursor release : Nat}
    (live : lane.retired = false → LaneKept lane)
    (bytes : lane.replayBytes = retainedBytes lane.groups)
    (acknowledges : lane.acknowledgeDurable streamEpoch marketCursor = .ok (after, release)) :
    LaneKept after ∧ after.replayBytes = retainedBytes after.groups ∧
      after.replayBytes + release = lane.replayBytes ∧ after.replaySlot = lane.replaySlot := by
  unfold Lane.acknowledgeDurable at acknowledges
  simp only [bind_ok, ensure_ok] at acknowledges
  obtain ⟨_, open', _, _, _, published, answered⟩ := acknowledges
  have kept := live (by simpa using open')
  rw [and_eq_true, decide_eq_true_eq, decide_eq_true_eq] at published
  split at answered
  · simp only [bind_ok, ensure_ok] at answered
    obtain ⟨_, _, _, next, answered⟩ := answered
    split at answered
    · injection answered with same
      injection same with isAfter isRelease
      subst isAfter
      subst isRelease
      exact ⟨⟨kept.cursors, kept.floor, published.2⟩, bytes, rfl, rfl⟩
    · rename_i group found
      simp only [bind_ok, ensure_ok] at answered
      obtain ⟨_, refundable, answered⟩ := answered
      injection answered with same
      injection same with isAfter isRelease
      subst isAfter
      subst isRelease
      have mem := mem_of_find?_eq_some found
      have cursor : group.marketCursor = marketCursor := by simpa using find?_some found
      have enough : group.releaseAfterDurable ≤ group.retainedBytes ∧
          group.releaseAfterDurable ≤ lane.replayBytes := by
        simp only [or_eq_true, beq_iff_eq, and_eq_true, decide_eq_true_eq] at refundable
        omega
      have distinct : (lane.groups.map MarketGroup.marketCursor).Nodup := by
        rw [kept.cursors]
        exact nodup_range'
      have sum := retainedBytes_release distinct mem enough.1
      rw [cursor] at sum
      have cursors : ((lane.groups.map fun other =>
          if other.marketCursor = marketCursor then
            { other with
              retainedBytes := other.retainedBytes - group.releaseAfterDurable }
          else other).map MarketGroup.marketCursor) =
          lane.groups.map MarketGroup.marketCursor := by
        rw [map_map]
        apply map_congr_left
        intro other _
        dsimp only [Function.comp]
        split <;> rfl
      refine ⟨⟨?_, kept.floor, published.2⟩, ?_, ?_, rfl⟩
      · rw [cursors]
        exact kept.cursors
      · dsimp only
        omega
      · dsimp only
        omega
  · injection answered with same
    injection same with isAfter isRelease
    subst isAfter
    subst isRelease
    exact ⟨kept, bytes, rfl, rfl⟩

end MarketCow.Source
