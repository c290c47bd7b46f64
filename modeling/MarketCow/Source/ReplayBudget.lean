import MarketCow.Source.ReplayLane

/-!
# The budget of the replay

The totals are exactly what the lanes and the publications in flight hold, and
a publication that fails leaves no trace.
-/

namespace MarketCow.Source

open Library List

variable {T S : Type}

/-! ## The store -/

/-- The growth that a publication in flight has reserved. -/
def growthInFlight (cell : LaneCell T S) : Nat :=
  match cell.publishing with
  | some publishing => if publishing.reserved then publishing.growth else 0
  | none => 0

/-- The slot that a publication in flight has reserved. -/
def slotInFlight (cell : LaneCell T S) : Nat :=
  match cell.publishing with
  | some publishing => publishing.slot.toNat
  | none => 0

def chargedBytes (cell : LaneCell T S) : Nat :=
  cell.lane.replayBytes + growthInFlight cell

def chargedSlots (cell : LaneCell T S) : Nat :=
  cell.lane.replaySlot.toNat + slotInFlight cell

structure CellHeld (cell : LaneCell T S) : Prop where
  lane : cell.lane.retired = false → LaneKept cell.lane
  bytes : cell.lane.replayBytes = retainedBytes cell.lane.groups
  planned : ∀ publishing, cell.publishing = some publishing → Planned cell.lane publishing

/-- The totals are what the cells are charged. -/
structure StoreHeld (limits : ReplayLimits) (store : ReplayStore T S) : Prop where
  cells : ∀ cell ∈ store.cells, CellHeld cell
  total : store.totalBytes = (store.cells.map chargedBytes).sum
  bounded : store.totalBytes ≤ limits.maximumTotalBytes
  slots : store.occupiedMarketSlots = (store.cells.map chargedSlots).sum
  slotsBounded : ∀ limit, limits.maximumMarketSlots = some limit → store.occupiedMarketSlots ≤ limit
  unlimited : limits.maximumMarketSlots = none → store.occupiedMarketSlots = 0

namespace StoreHeld

variable {limits : ReplayLimits} {store after : ReplayStore T S} {handle : Nat}
  {cell : LaneCell T S}

theorem empty : StoreHeld limits (.empty : ReplayStore T S) := by
  refine ⟨?_, rfl, Nat.zero_le _, rfl, fun _ _ => Nat.zero_le _, fun _ => rfl⟩
  intro cell mem
  cases mem

theorem totalWord (held : StoreHeld limits store) : store.totalBytes < 2 ^ 64 :=
  held.bounded.trans_lt limits.totalWord

theorem slotsWord (held : StoreHeld limits store) : store.occupiedMarketSlots < 2 ^ 64 := by
  cases limited : limits.maximumMarketSlots with
  | none =>
    rw [held.unlimited limited]
    decide
  | some limit => exact (held.slotsBounded limit limited).trans_lt (limits.slotsWord limit limited)

section

variable (held : StoreHeld limits store)
include held

theorem charged_le (there : store.cells[handle]? = some cell) :
    chargedBytes cell ≤ store.totalBytes ∧ chargedSlots cell ≤ store.occupiedMarketSlots := by
  rw [held.total, held.slots]
  exact ⟨le_sum_map chargedBytes there, le_sum_map chargedSlots there⟩

/-- Replacing a cell keeps the totals when they change by what the cell is
charged. -/
theorem replace
    (next : LaneCell T S) (there : store.cells[handle]? = some cell) (nextHeld : CellHeld next)
    (cells : after.cells = store.cells.set handle next)
    (bytes : after.totalBytes + chargedBytes cell = store.totalBytes + chargedBytes next)
    (bounded : after.totalBytes ≤ limits.maximumTotalBytes)
    (slots : after.occupiedMarketSlots + chargedSlots cell =
      store.occupiedMarketSlots + chargedSlots next)
    (slotsBounded : ∀ limit, limits.maximumMarketSlots = some limit →
      after.occupiedMarketSlots ≤ limit)
    (unlimited : limits.maximumMarketSlots = none → after.occupiedMarketSlots = 0) :
    StoreHeld limits after := by
  have bytesSum := @sum_map_set _ _ _ _ next chargedBytes there
  have slotsSum := @sum_map_set _ _ _ _ next chargedSlots there
  have total := held.total
  have occupied := held.slots
  refine ⟨?_, ?_, bounded, ?_, slotsBounded, unlimited⟩
  · intro other mem
    rw [cells] at mem
    rcases mem_or_eq_of_mem_set mem with earlier | rfl
    · exact held.cells other earlier
    · exact nextHeld
  · rw [cells]
    omega
  · rw [cells]
    omega

/-- Adding a lane adds nothing to the totals. -/
theorem append [Inhabited S]
    (cells : after.cells = store.cells ++ [⟨marketId, Lane.fresh streamEpoch durableCursor, none⟩])
    (total : after.totalBytes = store.totalBytes)
    (slots : after.occupiedMarketSlots = store.occupiedMarketSlots) :
    StoreHeld limits after := by
  have fresh : CellHeld (⟨marketId, Lane.fresh streamEpoch durableCursor, none⟩ : LaneCell T S) := by
    refine ⟨fun _ => ⟨?_, le_rfl, le_rfl⟩, rfl, ?_⟩
    · simp [Lane.fresh]
    · rintro _ ⟨⟩
  refine ⟨?_, ?_, total.symm ▸ held.bounded, ?_, slots.symm ▸ held.slotsBounded,
    slots.symm ▸ held.unlimited⟩
  · intro other mem
    rw [cells, mem_append, mem_singleton] at mem
    rcases mem with earlier | rfl
    · exact held.cells other earlier
    · exact fresh
  · rw [cells, total, held.total, map_append, sum_append]
    rfl
  · rw [cells, slots, held.slots, map_append, sum_append]
    rfl

end

end StoreHeld

/-! ## Steps -/

/-- A slot in flight is given back. -/
theorem releaseSlot_eq {store : ReplayStore T S}
    (word : store.occupiedMarketSlots < 2 ^ 64) (planned : cell.publishing = some publishing)
    (charged : chargedSlots cell ≤ store.occupiedMarketSlots) :
    store.releaseSlot publishing + chargedSlots cell =
        store.occupiedMarketSlots + chargedSlots { cell with publishing := none } ∧
      store.releaseSlot publishing ≤ store.occupiedMarketSlots := by
  unfold ReplayStore.releaseSlot
  simp only [chargedSlots, slotInFlight, planned] at charged ⊢
  cases slot : publishing.slot with
  | false => simp
  | true =>
    rw [slot, Bool.toNat_true] at charged
    rw [if_pos rfl, fetchSub_of_le word (by omega), Bool.toNat_true]
    omega

theorem Lane.replaySlot_evict (count : Nat) (lane : Lane T S) :
    (lane.evict count).replaySlot = lane.replaySlot := by
  induction count generalizing lane with
  | zero => rfl
  | succ count ih =>
    unfold Lane.evict
    cases lane.groups with
    | nil => rfl
    | cons evicted groups => exact ih _

theorem Lane.replaySlot_committed (lane : Lane T S) (publishing : Publishing T S) :
    (lane.committed publishing).replaySlot = (lane.replaySlot || publishing.slot) := by
  unfold Lane.committed Lane.bumped
  rw [Lane.replaySlot_evict]

/-- A lane that is emptied gives back all it was charged. -/
theorem released_held {store after : ReplayStore T S} {handle : Nat} {lane : Lane T S}
    (held : StoreHeld limits store) (there : store.cells[handle]? = some cell)
    (unlocked : cell.publishing = none) (live : lane.retired = false → LaneKept lane)
    (groups : lane.groups = []) (bytes : lane.replayBytes = 0) (slot : lane.replaySlot = false)
    (same : after = { store.released handle cell lane with registry := after.registry }) :
    StoreHeld limits after := by
  have charged := held.charged_le there
  have chargedIs : chargedBytes cell = cell.lane.replayBytes ∧
      chargedSlots cell = cell.lane.replaySlot.toNat := by
    simp [chargedBytes, chargedSlots, growthInFlight, slotInFlight, unlocked]
  rw [chargedIs.1, chargedIs.2] at charged
  have total := fetchSub_of_le held.totalWord charged.1
  have empty : chargedBytes { cell with lane } = 0 ∧ chargedSlots { cell with lane } = 0 := by
    simp [chargedBytes, chargedSlots, growthInFlight, slotInFlight, unlocked, bytes, slot]
  have slots : after.occupiedMarketSlots + cell.lane.replaySlot.toNat =
      store.occupiedMarketSlots := by
    rw [same]
    dsimp only [ReplayStore.released]
    cases occupied : cell.lane.replaySlot with
    | false => rfl
    | true =>
      rw [occupied, Bool.toNat_true] at charged
      rw [if_pos rfl, fetchSub_of_le held.slotsWord charged.2, Bool.toNat_true]
      omega
  have totalIs : after.totalBytes = store.totalBytes - cell.lane.replayBytes := by
    rw [same]
    exact total
  refine held.replace { cell with lane } there ⟨live, ?_, ?_⟩ (by rw [same]; rfl) ?_ ?_ ?_ ?_ ?_
  · dsimp only
    rw [bytes, groups]
    rfl
  · intro publishing planned
    rw [unlocked] at planned
    cases planned
  · rw [chargedIs.1, empty.1]
    omega
  · have bounded := held.bounded
    omega
  · rw [chargedIs.2, empty.2]
    omega
  · intro limit limited
    have bound := held.slotsBounded limit limited
    omega
  · intro none
    have zero := held.unlimited none
    omega

section Step

variable [Inhabited S] {limits : ReplayLimits} {store after : ReplayStore T S}
  {marketId streamEpoch : String}

section

variable (held : StoreHeld limits store)
include held

theorem registerFromDurable_held
    (registers : store.registerFromDurable marketId streamEpoch durableCursor = .ok after) :
    StoreHeld limits after := by
  unfold ReplayStore.registerFromDurable at registers
  simp only [bind_ok] at registers
  obtain ⟨_, _, _, _, registered⟩ := registers
  injection registered with same
  subst same
  exact held.append rfl rfl rfl

theorem ensureRegistered_held
    (registers : store.ensureRegistered marketId streamEpoch = .ok after) :
    StoreHeld limits after := by
  unfold ReplayStore.ensureRegistered at registers
  obtain ⟨_, _, registers⟩ := bind_ok.mp registers
  split at registers
  · obtain ⟨_, _, registered⟩ := bind_ok.mp registers
    injection registered with same
    exact same ▸ held
  · injection registers with same
    subst same
    exact held.append rfl rfl rfl

/-- Every step keeps the lanes and the totals. -/
theorem StoreHeld.step {action : ReplayAction T S}
    (taken : ReplayStep limits store action after) :
    StoreHeld limits after := by
  have word := held.totalWord
  have slotsWord := held.slotsWord
  have bounded := held.bounded
  cases taken with
  | registered _ registers => exact registerFromDurable_held held registers
  | ensured registers => exact ensureRegistered_held held registers
  | @staged handle cell request publishing there unlocked _ stages =>
    have cellHeld := held.cells cell (mem_of_getElem? there)
    obtain ⟨planned, unreserved, free⟩ := planned_of_stage stages
    have slot : publishing.slot.toNat = if publishing.slot then 1 else 0 := by
      cases publishing.slot <;> rfl
    refine held.replace { cell with publishing := some publishing } there
      ⟨cellHeld.lane, cellHeld.bytes, ?_⟩ rfl ?_ bounded ?_ ?_ ?_
    · rintro _ ⟨⟩
      exact planned
    · simp [ReplayStore.staged, ReplayStore.setCell, chargedBytes, growthInFlight, unlocked,
        unreserved]
    · simp only [ReplayStore.staged, chargedSlots, slotInFlight, unlocked, slot]
      omega
    · intro limit limited
      have bound := held.slotsBounded limit limited
      dsimp only [ReplayStore.staged]
      split
      · rename_i taken
        obtain ⟨other, same, below⟩ := free taken
        rw [limited] at same
        cases same
        exact below
      · exact bound
    · intro none
      have zero := held.unlimited none
      dsimp only [ReplayStore.staged]
      split
      · rename_i taken
        obtain ⟨other, same, _⟩ := free taken
        rw [none] at same
        cases same
      · exact zero
  | rejected => exact held
  | @reserved handle cell publishing there planned unreserved fits =>
    have cellHeld := held.cells cell (mem_of_getElem? there)
    refine held.replace { cell with publishing := some { publishing with reserved := true } }
      there ⟨cellHeld.lane, cellHeld.bytes, ?_⟩ rfl ?_ fits ?_ held.slotsBounded held.unlimited
    · rintro _ ⟨⟩
      obtain ⟨live, next, evicted, balance, refund, slot⟩ := cellHeld.planned publishing planned
      exact ⟨live, next, evicted, balance, refund, slot⟩
    · simp only [ReplayStore.reserved, chargedBytes, growthInFlight, planned, unreserved]
      simp only [false_eq_true, if_false, if_true]
      omega
    · simp only [ReplayStore.reserved, ReplayStore.setCell, chargedSlots, slotInFlight, planned]
  | @raced handle cell publishing there planned unreserved _ =>
    have cellHeld := held.cells cell (mem_of_getElem? there)
    have charged := (held.charged_le there).2
    obtain ⟨slots, fewer⟩ := releaseSlot_eq slotsWord planned charged
    refine held.replace { cell with publishing := none } there
      ⟨cellHeld.lane, cellHeld.bytes, fun _ never => nomatch never⟩ rfl ?_ bounded
      slots (fun limit limited => fewer.trans (held.slotsBounded limit limited))
      (fun none => Nat.le_zero.mp (fewer.trans (held.unlimited none).le))
    simp [ReplayStore.raced, ReplayStore.setCell, chargedBytes, growthInFlight, planned, unreserved]
  | @committed handle cell publishing there planned reserved =>
    have cellHeld := held.cells cell (mem_of_getElem? there)
    have plan := cellHeld.planned publishing planned
    obtain ⟨kept, bytes, balance⟩ := (cellHeld.lane plan.live).committed cellHeld.bytes plan
    have charged := (held.charged_le there).1
    have growth : growthInFlight cell = publishing.growth := by
      rw [growthInFlight, planned]
      exact if_pos reserved
    have enough : publishing.refundOnCommit ≤ store.totalBytes := by
      have evicted := plan.refund
      have part : retainedBytes (cell.lane.groups.take publishing.evictedGroups) ≤
          retainedBytes cell.lane.groups := by
        unfold retainedBytes
        exact List.Sublist.sum_le_sum ((take_sublist _ _).map _) (fun _ _ => Nat.zero_le _)
      rw [chargedBytes, cellHeld.bytes] at charged
      omega
    have total := fetchSub_of_le word enough
    refine held.replace { cell with lane := cell.lane.committed publishing, publishing := none }
      there ⟨fun _ => kept, bytes, fun _ never => nomatch never⟩ rfl ?_ ?_ ?_
      held.slotsBounded held.unlimited
    · simp only [ReplayStore.committed, chargedBytes, growth, total]
      simp only [growthInFlight]
      omega
    · simp only [ReplayStore.committed, total]
      omega
    · have slot := Lane.replaySlot_committed cell.lane publishing
      simp only [ReplayStore.committed, ReplayStore.setCell, chargedSlots, slotInFlight, planned,
        slot]
      cases taken : publishing.slot with
      | false => simp
      | true => simp [plan.slot taken]
  | @refused handle cell publishing cause there planned reserved =>
    have cellHeld := held.cells cell (mem_of_getElem? there)
    obtain ⟨charged, chargedSlots⟩ := held.charged_le there
    obtain ⟨slots, fewer⟩ := releaseSlot_eq slotsWord planned chargedSlots
    have growth : growthInFlight cell = publishing.growth := by
      rw [growthInFlight, planned]
      exact if_pos reserved
    have total : fetchSub store.totalBytes publishing.growth =
        store.totalBytes - publishing.growth :=
      fetchSub_of_le word (by rw [chargedBytes, growth] at charged; omega)
    refine held.replace { cell with publishing := none } there
      ⟨cellHeld.lane, cellHeld.bytes, fun _ never => nomatch never⟩ rfl ?_ ?_
      slots (fun limit limited => fewer.trans (held.slotsBounded limit limited))
      (fun none => Nat.le_zero.mp (fewer.trans (held.unlimited none).le))
    · rw [chargedBytes, growth] at charged
      simp only [ReplayStore.refused, chargedBytes, growth, total]
      simp only [growthInFlight]
      omega
    · simp only [ReplayStore.refused, total]
      omega
  | @acknowledged handle cell lane streamEpoch marketCursor release there unlocked _ acknowledges =>
    have cellHeld := held.cells cell (mem_of_getElem? there)
    obtain ⟨kept, bytes, balance, slot⟩ :=
      LaneKept.acknowledged cellHeld.lane cellHeld.bytes acknowledges
    have charged := (held.charged_le there).1
    have total : fetchSub store.totalBytes release = store.totalBytes - release :=
      fetchSub_of_le word (by rw [chargedBytes] at charged; omega)
    refine held.replace { cell with lane } there ⟨fun _ => kept, bytes, ?_⟩ rfl ?_ ?_ ?_
      held.slotsBounded held.unlimited
    · intro publishing planned
      rw [unlocked] at planned
      cases planned
    · rw [chargedBytes] at charged
      simp only [chargedBytes, growthInFlight, unlocked, total]
      omega
    · simp only [total]
      omega
    · simp only [ReplayStore.setCell, chargedSlots, slotInFlight, slot]
  | replayed => exact held
  | @stateChanged handle cell change there unlocked =>
    have cellHeld := held.cells cell (mem_of_getElem? there)
    refine held.replace
      { cell with lane := { cell.lane with state := change cell.lane.state }.bumped } there
      ⟨fun live => ?_, cellHeld.bytes, ?_⟩ rfl rfl bounded rfl held.slotsBounded held.unlimited
    · obtain ⟨cursors, floor, durable⟩ := cellHeld.lane live
      exact ⟨cursors, floor, durable⟩
    · intro publishing planned
      rw [unlocked] at planned
      cases planned
  | @invalidated handle cell invalidation there unlocked _ =>
    refine released_held held there unlocked (fun live => ?_) rfl rfl rfl rfl
    have kept := (held.cells cell (mem_of_getElem? there)).lane live
    refine ⟨?_, le_rfl, kept.durable⟩
    simp [Lane.invalidated, Lane.bumped]
  | @retired handle cell streamEpoch allowGap there unlocked _ checked =>
    refine released_held held there unlocked (fun live => ?_) rfl rfl rfl rfl
    have never : true = false := live
    cases never

end

theorem storeHeld_of_run (run : ReplayRun limits actions store) :
    StoreHeld limits store :=
  run.preserves (fun _ _ _ held taken => held.step taken) StoreHeld.empty

end Step

/-! ## What runs keep -/

/-- The lane an operation is about. -/
def ReplayAction.handle? : ReplayAction T S → Option Nat
  | .register .. => none
  | .ensureRegistered .. => none
  | .stage handle _ => some handle
  | .reject handle _ _ => some handle
  | .reserve handle => some handle
  | .race handle => some handle
  | .commit handle => some handle
  | .refuse handle _ => some handle
  | .acknowledge handle _ _ => some handle
  | .replay handle _ _ _ _ => some handle
  | .changeState handle _ => some handle
  | .invalidate handle _ => some handle
  | .retire handle _ _ => some handle

/-- A publication that was staged fails. -/
def ReplayAction.Fails (handle : Nat) : ReplayAction T S → Prop
  | .race other => other = handle
  | .refuse other _ => other = handle
  | _ => False

/-- A publication that was staged comes to its end. -/
def ReplayAction.Ends (handle : Nat) : ReplayAction T S → Prop
  | .commit other => other = handle
  | action => action.Fails handle

/-- A failed publication leaves its lane as it was, and what it took from the
totals is given back: they differ by what the other lanes took or gave. -/
structure PublishUndone (handle : Nat) (before after : ReplayStore T S) : Prop where
  lane : after.cells[handle]? = before.cells[handle]?
  bytes : after.totalBytes + ((before.cells.eraseIdx handle).map chargedBytes).sum =
    before.totalBytes + ((after.cells.eraseIdx handle).map chargedBytes).sum
  slots : after.occupiedMarketSlots + ((before.cells.eraseIdx handle).map chargedSlots).sum =
    before.occupiedMarketSlots + ((after.cells.eraseIdx handle).map chargedSlots).sum

/-- What holds in every state of the store. -/
structure ReplayKept
    [Inhabited S] (limits : ReplayLimits) (store : ReplayStore T S) : Prop where
  lanes : ∀ cell ∈ store.cells, cell.lane.retired = false →
    LaneKept cell.lane ∧ cell.lane.replayBytes = retainedBytes cell.lane.groups
  total : store.totalBytes =
    (store.cells.map fun cell => cell.lane.replayBytes).sum +
      (store.cells.map growthInFlight).sum
  bounded : store.totalBytes ≤ limits.maximumTotalBytes
  slots : store.occupiedMarketSlots =
    (store.cells.countP fun cell => cell.lane.replaySlot) + (store.cells.map slotInFlight).sum
  slotsBounded : ∀ limit, limits.maximumMarketSlots = some limit → store.occupiedMarketSlots ≤ limit
  rejected : ∀ handle request cause after,
    ReplayStep limits store (.reject handle request cause) after → after = store
  undone : ∀ handle request first middle last ending after,
    ReplayStep limits store (.stage handle request) first →
      Run (ReplayStep limits) first middle last →
        (∀ action ∈ middle, ¬action.Ends handle) →
          ending.Fails handle → ReplayStep limits last ending after →
            PublishUndone handle store after
  isolated : ∀ action after, ReplayStep limits store action after →
    ∀ handle cell, store.cells[handle]? = some cell → action.handle? ≠ some handle →
      after.cells[handle]? = some cell

section Run

variable [Inhabited S] {limits : ReplayLimits} {store after : ReplayStore T S} {handle : Nat}
  {cell : LaneCell T S}

theorem getElem?_append_of_some {α : Type} {items : List α} {position : Nat} {item : α}
    (more : List α) (there : items[position]? = some item) :
    (items ++ more)[position]? = some item := by
  rw [List.getElem?_append_left (List.getElem?_eq_some_iff.mp there).1]
  exact there

/-- Only the lane an operation is about can change. -/
theorem step_isolated
    (taken : ReplayStep limits store action after) (there : store.cells[handle]? = some cell)
    (ne : action.handle? ≠ some handle) :
    after.cells[handle]? = some cell := by
  have set : ∀ {other : Nat} (next : LaneCell T S), some other ≠ some handle →
      (store.cells.set other next)[handle]? = some cell := by
    intro other next apart
    rw [getElem?_set_ne fun same => apart (congrArg some same)]
    exact there
  cases taken with
  | registered _ registers =>
    unfold ReplayStore.registerFromDurable at registers
    simp only [bind_ok] at registers
    obtain ⟨_, _, _, _, registered⟩ := registers
    injection registered with same
    subst same
    exact getElem?_append_of_some _ there
  | ensured registers =>
    unfold ReplayStore.ensureRegistered at registers
    obtain ⟨_, _, registers⟩ := bind_ok.mp registers
    split at registers
    · obtain ⟨_, _, registered⟩ := bind_ok.mp registers
      injection registered with same
      exact same ▸ there
    · injection registers with same
      subst same
      exact getElem?_append_of_some _ there
  | rejected | replayed => exact there
  | staged | reserved | raced | committed | refused | acknowledged | stateChanged | invalidated
  | retired => exact set _ ne

/-- While a publication keeps a lane locked, the lane does not change. -/
theorem locked_step
    (there : store.cells[handle]? = some { cell with publishing := some publishing })
    (taken : ReplayStep limits store action after) (continues : ¬action.Ends handle) :
    ∃ later, after.cells[handle]? = some { cell with publishing := some later } := by
  by_cases same : action.handle? = some handle
  · have locked : ∀ {other : LaneCell T S} {position : Nat},
        store.cells[position]? = some other → some position = some handle →
          other.publishing = none → False := by
      intro other position present isHandle unlocked
      cases isHandle
      obtain rfl := some.inj (there.symm.trans present)
      cases unlocked
    cases taken with
    | registered | ensured => cases same
    | staged present unlocked _ _ => exact (locked present same unlocked).elim
    | rejected | replayed => exact ⟨publishing, there⟩
    | @reserved position other plan present planned _ _ =>
      cases same
      obtain rfl := some.inj (there.symm.trans present)
      refine ⟨{ plan with reserved := true }, ?_⟩
      exact List.getElem?_set_self (List.getElem?_eq_some_iff.mp there).1
    | raced | committed | refused => exact absurd (some.inj same) continues
    | acknowledged present unlocked _ _ => exact (locked present same unlocked).elim
    | stateChanged present unlocked => exact (locked present same unlocked).elim
    | invalidated present unlocked _ => exact (locked present same unlocked).elim
    | retired present unlocked _ _ => exact (locked present same unlocked).elim
  · exact ⟨publishing, step_isolated taken there same⟩

theorem locked_run (there : store.cells[handle]? = some { cell with publishing := some publishing })
    (run : Run (ReplayStep limits) store actions after)
    (continues : ∀ action ∈ actions, ¬action.Ends handle) :
    ∃ later, after.cells[handle]? = some { cell with publishing := some later } := by
  induction run with
  | nil => exact ⟨publishing, there⟩
  | snoc _ taken ih =>
    obtain ⟨middle, present⟩ := ih fun action mem => continues action (mem_append_left _ mem)
    exact locked_step present taken (continues _ (mem_append_right _ (by simp)))

/-- A publication that fails leaves its lane as it was when it was staged. -/
theorem publish_undone
    (held : StoreHeld limits store) (stages : ReplayStep limits store (.stage handle request) first)
    (run : Run (ReplayStep limits) first middle last)
    (continues : ∀ action ∈ middle, ¬action.Ends handle) (fails : ending.Fails handle)
    (ends : ReplayStep limits last ending after) :
    PublishUndone handle store after := by
  have afterHeld : StoreHeld limits after :=
    ((run.preserves (fun _ _ _ held taken => held.step taken) (held.step stages))).step ends
  cases stages with
  | @staged _ cell _ publishing there unlocked _ _ =>
    have inside := (List.getElem?_eq_some_iff.mp there).1
    have locked : (store.staged handle cell publishing).cells[handle]? =
        some { cell with publishing := some publishing } :=
      getElem?_set_self inside
    obtain ⟨later, present⟩ := locked_run locked run continues
    have restored : after.cells[handle]? = some cell := by
      have open' : ({ cell with publishing := none } : LaneCell T S) = cell := by
        cases cell
        cases unlocked
        rfl
      have set : ∀ other : LaneCell T S, last.cells[handle]? = some other →
          (last.cells.set handle { other with publishing := none })[handle]? = some cell := by
        intro other known
        obtain rfl := some.inj (present.symm.trans known)
        rw [List.getElem?_set_self (List.getElem?_eq_some_iff.mp present).1]
        exact congrArg some open'
      cases ends with
      | raced known _ _ _ | refused known _ _ =>
        obtain rfl := fails
        exact set _ known
      | registered | ensured | staged | rejected | reserved | committed | acknowledged
      | replayed | stateChanged | invalidated | retired => exact fails.elim
    have before := sum_map_eraseIdx chargedBytes there
    have beforeSlots := sum_map_eraseIdx chargedSlots there
    have final := sum_map_eraseIdx chargedBytes restored
    have finalSlots := sum_map_eraseIdx chargedSlots restored
    rw [← held.total] at before
    rw [← held.slots] at beforeSlots
    rw [← afterHeld.total] at final
    rw [← afterHeld.slots] at finalSlots
    exact ⟨restored.trans there.symm, by omega, by omega⟩

theorem replayKept_of_run
    {actions : List (ReplayAction T S)} (run : ReplayRun limits actions store) :
    ReplayKept limits store := by
  have held := storeHeld_of_run run
  refine ⟨?_, ?_, held.bounded, ?_, held.slotsBounded, ?_, ?_, ?_⟩
  · intro cell member live
    have cellHeld := held.cells cell member
    exact ⟨cellHeld.lane live, cellHeld.bytes⟩
  · rw [held.total, ← sum_map_add]
    rfl
  · rw [held.slots, ← sum_map_toNat, ← sum_map_add]
    rfl
  · intro handle request cause after taken
    cases taken
    rfl
  · intro handle request first middle last ending after stages run continues fails ends
    exact publish_undone held stages run continues fails ends
  · intro action after taken handle cell there different
    exact step_isolated taken there different

end Run

/-! ## A publication in flight -/

def sampleReplayLimits : ReplayLimits where
  maximumGroupsPerMarket := 2
  maximumBytesPerMarket := 10
  maximumTotalBytes := 20
  maximumMarketSlots := some 1
  expireUndurableGroups := true
  someGroups := by decide
  someBytes := by decide
  within := by decide
  totalWord := by decide
  slotsWord := by
    rintro _ ⟨⟩
    decide

def samplePublishRequest : PublishRequest Unit Unit where
  expectedCursor := 1
  events := [.object [("market_id", .string "m"), ("event_id", .string "e")]]
  payload := ()
  bytes := 1
  retainedCharge := 4
  durableCharge := 2
  prepare := fun _ => .ok id

def sampleRegistered : ReplayStore Unit Unit where
  registry := (∅ : TreeMap String Nat).insert "m" 0
  cells := [⟨"m", Lane.fresh "epoch" 0, none⟩]
  totalBytes := 0
  occupiedMarketSlots := 0
  budgetHolder := none

theorem sampleRegistered_run :
    ReplayRun sampleReplayLimits [.register "m" "epoch" 0] sampleRegistered :=
  Run.single (.registered (by decide) rfl)

theorem exists_samplePublishing :
    ∃ publishing, sampleRegistered.stagePublish sampleReplayLimits
        ⟨"m", Lane.fresh "epoch" 0, none⟩ samplePublishRequest = .ok publishing ∧
      publishing.slot = true ∧ publishing.growth = 4 ∧ publishing.refundOnCommit = 0 ∧
        publishing.reserved = false := by
  have planned : (sampleRegistered.stagePublish sampleReplayLimits
      ⟨"m", Lane.fresh "epoch" 0, none⟩ samplePublishRequest).toOption.map (fun publishing =>
        (publishing.slot, publishing.growth, publishing.refundOnCommit, publishing.reserved)) =
      some (true, 4, 0, false) := by
    decide +kernel
  cases stages : sampleRegistered.stagePublish sampleReplayLimits
      ⟨"m", Lane.fresh "epoch" 0, none⟩ samplePublishRequest with
  | error _ =>
    rw [stages] at planned
    cases planned
  | ok publishing =>
    rw [stages] at planned
    injection planned with planned
    injection planned with slot planned
    injection planned with growth planned
    injection planned with refund unreserved
    exact ⟨publishing, rfl, slot, growth, refund, unreserved⟩

/-- The first publication of a market holds a slot before its lane does. -/
theorem staged_slot_before_lane :
    ∃ (limits : ReplayLimits) (actions : List (ReplayAction Unit Unit))
      (store : ReplayStore Unit Unit),
      ReplayRun limits actions store ∧
        store.occupiedMarketSlots ≠ store.cells.countP fun cell => cell.lane.replaySlot := by
  obtain ⟨publishing, stages, slot, _⟩ := exists_samplePublishing
  refine ⟨sampleReplayLimits, _, _,
    .snoc sampleRegistered_run (@ReplayStep.staged _ _ _ _ _ 0 _ _ _ rfl rfl rfl stages), ?_⟩
  dsimp only [ReplayStore.staged]
  rw [slot]
  exact Nat.one_ne_zero

theorem replayKept_sample :
    ∃ store : ReplayStore Unit Unit, store.totalBytes = 4 ∧
      ReplayKept sampleReplayLimits store := by
  obtain ⟨publishing, stages, _, growth, refund, unreserved⟩ := exists_samplePublishing
  have fits : 0 + publishing.growth ≤ 20 := by
    rw [growth]
    decide
  have staged := Run.snoc sampleRegistered_run
    (@ReplayStep.staged _ _ _ _ _ 0 _ _ _ rfl rfl rfl stages)
  have reserved := Run.snoc staged (@ReplayStep.reserved _ _ _ _ _ 0 _ _ rfl rfl unreserved fits)
  have run := Run.snoc reserved (@ReplayStep.committed _ _ _ _ _ 0 _ _ rfl rfl rfl)
  refine ⟨_, ?_, replayKept_of_run run⟩
  simp [ReplayStore.committed, ReplayStore.reserved, ReplayStore.staged, ReplayStore.setCell,
    sampleRegistered, growth, refund, fetchSub]

end MarketCow.Source
