import MarketCow.Source.ReplayBudget

/-!
# The pages of a replay

A caller pages through the groups of a market, from the cursor where its last
page ended, while groups are published and evicted. Each page continues the one
before it, or the caller is told why it ends.
-/

namespace MarketCow.Source

open Library List

variable {T S : Type}

/-- The lane that is registered for a market. -/
def ReplayStore.lane? (store : ReplayStore T S) (marketId : String) : Option (Lane T S) :=
  (store.registry[marketId]?).bind fun handle => (store.cells[handle]?).map LaneCell.lane

def ReplayStore.replay (store : ReplayStore T S) (marketId streamEpoch : String)
    (after maximumGroups maximumBytes : Nat) : Except SourceError (MarketPage T) :=
  match store.lane? marketId with
  | none => .error (.message "market replay not registered")
  | some lane => lane.replay streamEpoch after maximumGroups maximumBytes

/-! ## One page -/

/-- A page has the groups that follow the cursor, and is empty only when there
are none. -/
structure PageExact (lane : Lane T S) (after : Nat) (page : MarketPage T) : Prop where
  within : lane.replayFloor ≤ after ∧ after ≤ lane.published
  retained : page.groups ⊆ lane.groups
  cursors : page.groups.map MarketGroup.marketCursor = List.range' (after + 1) page.groups.length
  next : page.nextCursor = after + page.groups.length
  bound : page.nextCursor ≤ lane.published
  caughtUp : page.caughtUp = true ↔ page.nextCursor = lane.published
  progress : page.groups = [] → after = lane.published

/-- Why a caller is given no page. -/
inductive Stops (lane : Option (Lane T S)) (streamEpoch : String)
    (after maximumGroups maximumBytes : Nat) : SourceError → Prop
  | unregistered :
      lane = none →
      Stops lane streamEpoch after maximumGroups maximumBytes
        (.message "market replay not registered")
  | budget :
      maximumGroups = 0 ∨ maximumBytes = 0 →
      Stops lane streamEpoch after maximumGroups maximumBytes
        (.message "market replay page budget")
  | retired :
      (∀ live ∈ lane, live.retired = true) →
      Stops lane streamEpoch after maximumGroups maximumBytes (.message "market replay retired")
  | epoch :
      (∀ live ∈ lane, live.epoch ≠ streamEpoch) →
      Stops lane streamEpoch after maximumGroups maximumBytes
        (.message "market replay epoch changed")
  | future :
      (∀ live ∈ lane, live.published < after) →
      Stops lane streamEpoch after maximumGroups maximumBytes
        (.message "future market replay cursor")
  | expired :
      (∀ live ∈ lane, after < live.replayFloor) →
      Stops lane streamEpoch after maximumGroups maximumBytes (.message "market replay expired")
  | group (group : MarketGroup T) :
      (∀ live ∈ lane, group ∈ live.groups) →
      group.marketCursor = after + 1 →
      maximumBytes < group.bytes →
      Stops lane streamEpoch after maximumGroups maximumBytes (.groupBudget group.bytes maximumBytes)

/-- Groups that follow a cursor are taken from the first on. Only the first one
can be refused. -/
theorem pageGroups_cases
    (some : 0 < maximumGroups) (groups : List (MarketGroup T)) (next bytes : Nat)
    (page : List (MarketGroup T))
    (cursors : groups.map MarketGroup.marketCursor = List.range' (next + 1) groups.length) :
    (∃ count ≤ groups.length,
      Lane.pageGroups maximumGroups maximumBytes groups next bytes page =
          .ok (page ++ groups.take count, next + count) ∧
        (page = [] → groups ≠ [] → 0 < count)) ∨
    ∃ group ∈ groups, page = [] ∧ group.marketCursor = next + 1 ∧
      maximumBytes - bytes < group.bytes ∧
        Lane.pageGroups maximumGroups maximumBytes groups next bytes page =
          .error (.groupBudget group.bytes maximumBytes) := by
  induction groups generalizing next bytes page with
  | nil =>
    refine .inl ⟨0, le_rfl, ?_, fun _ nonempty => absurd rfl nonempty⟩
    rw [take_nil, append_nil]
    rfl
  | cons group groups ih =>
    rw [map_cons, length_cons, range'_succ] at cursors
    obtain ⟨first, rest⟩ := cons_eq_cons.mp cursors
    unfold Lane.pageGroups
    by_cases full : page.length = maximumGroups ∨ group.bytes > maximumBytes - bytes
    · rw [if_pos full]
      by_cases empty : page = []
      · rw [if_pos empty]
        refine .inr ⟨group, mem_cons_self, empty, first, ?_, rfl⟩
        rcases full with filled | large
        · rw [empty, length_nil] at filled
          omega
        · exact large
      · rw [if_neg empty]
        refine .inl ⟨0, Nat.zero_le _, ?_, fun isEmpty => absurd isEmpty empty⟩
        rw [take_zero, append_nil]
        rfl
    · rw [if_neg full, if_neg (not_not.mpr first), first]
      rcases ih (next + 1) (bytes + group.bytes) (page ++ [group]) rest with
        ⟨count, bound, taken, _⟩ | ⟨_, _, empty, _⟩
      · refine .inl ⟨count + 1, Nat.succ_le_succ bound, ?_, fun _ _ => Nat.succ_pos count⟩
        rw [taken, append_assoc, take_succ_cons]
        congr 2
        omega
      · exact absurd empty (append_ne_nil_of_right_ne_nil _ (cons_ne_nil _ _))

/-- The groups of a lane after a cursor of its window. -/
theorem LaneKept.following {lane : Lane T S} {after : Nat}
    (kept : LaneKept lane) (above : lane.replayFloor ≤ after) (below : after ≤ lane.published) :
    (lane.groups.filter fun group => decide (group.marketCursor > after)).map
        MarketGroup.marketCursor =
      List.range' (after + 1) (lane.published - after) := by
  have whole : List.range' (lane.replayFloor + 1) (lane.published - lane.replayFloor) =
      List.range' (lane.replayFloor + 1) (after - lane.replayFloor) ++
        List.range' (after + 1) (lane.published - after) := by
    rw [show after + 1 = lane.replayFloor + 1 + (after - lane.replayFloor) by omega,
      range'_append_1]
    congr 1
    omega
  have filtered : (lane.groups.filter fun group => decide (group.marketCursor > after)).map
      MarketGroup.marketCursor =
        (lane.groups.map MarketGroup.marketCursor).filter fun cursor => decide (cursor > after) := by
    rw [filter_map]
    rfl
  rw [filtered, kept.cursors, whole, filter_append, filter_eq_nil_iff.mpr,
    nil_append, filter_eq_self]
  · intro cursor mem
    have bounds := mem_range'_1.mp mem
    simp only [decide_eq_true_eq]
    omega
  · intro cursor mem
    have bounds := mem_range'_1.mp mem
    simp only [decide_eq_true_eq]
    omega

/-- A live lane gives an exact page, or says why not. -/
theorem replay_cases
    {lane : Lane T S} (live : lane.retired = false → LaneKept lane) (streamEpoch : String)
    (after maximumGroups maximumBytes : Nat) :
    (∃ page, lane.replay streamEpoch after maximumGroups maximumBytes = .ok page ∧
      PageExact lane after page) ∨
    ∃ cause, lane.replay streamEpoch after maximumGroups maximumBytes = .error cause ∧
      Stops (some lane) streamEpoch after maximumGroups maximumBytes cause := by
  have refused : ∀ {condition : Bool} {text : String}, condition = false →
      ensure condition text = .error (.message text) := by
    rintro _ text rfl
    rfl
  have passed : ∀ {condition : Bool} {text : String}, condition = true →
      ensure condition text = .ok () := by
    rintro _ text rfl
    rfl
  have itself : ∀ {property : Lane T S → Prop}, property lane →
      ∀ other ∈ some lane, property other := by
    intro property holds other same
    rw [← some.inj same]
    exact holds
  unfold Lane.replay
  by_cases budget : 0 < maximumGroups ∧ 0 < maximumBytes
  case neg =>
    rw [refused (by simpa using budget)]
    exact .inr ⟨_, rfl, .budget (by omega)⟩
  rw [passed (by simpa using budget)]
  cases retired : lane.retired with
  | true => exact .inr ⟨_, rfl, .retired (itself retired)⟩
  | false =>
    have kept := live retired
    rw [passed (show (!false) = true from rfl)]
    by_cases epoch : lane.epoch = streamEpoch
    case neg =>
      rw [refused (by simpa using epoch)]
      exact .inr ⟨_, rfl, .epoch (itself epoch)⟩
    rw [passed (by simpa using epoch)]
    by_cases below : after ≤ lane.published
    case neg =>
      rw [refused (by simpa using below)]
      exact .inr ⟨_, rfl, .future (itself (Nat.lt_of_not_le below))⟩
    rw [passed (by simpa using below)]
    by_cases above : lane.replayFloor ≤ after
    case neg =>
      rw [refused (by simpa using above)]
      exact .inr ⟨_, rfl, .expired (itself (Nat.lt_of_not_le above))⟩
    rw [passed (by simpa using above)]
    have cursors := kept.following above below
    have length : (lane.groups.filter fun group => decide (group.marketCursor > after)).length =
        lane.published - after := by
      rw [← length_map MarketGroup.marketCursor, cursors, length_range']
    have subset : (lane.groups.filter fun group => decide (group.marketCursor > after)) ⊆
        lane.groups := filter_subset_self _
    revert cursors length subset
    generalize (lane.groups.filter fun group => decide (group.marketCursor > after)) = groups
    intro cursors length subset
    rw [← length] at cursors
    rcases pageGroups_cases budget.1 groups after 0 [] cursors with
      ⟨count, bound, taken, progress⟩ | ⟨group, mem, _, first, large, refusal⟩
    · have reaches : after = lane.published ∨ after + count > after := by
        by_cases nothing : groups = []
        · rw [nothing, length_nil] at length
          omega
        · have some := progress rfl nothing
          omega
      have counted : (groups.take count).length = count := by
        rw [length_take]
        omega
      refine .inl ⟨⟨groups.take count, after + count, lane.published, lane.durable,
        after + count == lane.published⟩, ?_, ⟨above, below⟩, ?_, ?_, ?_, ?_, ?_, ?_⟩
      · change (Lane.pageGroups maximumGroups maximumBytes groups after 0 [] >>= _) = _
        rw [taken]
        change (ensure (after == lane.published || decide (after + count > after))
          "market replay expired" >>= _) = _
        rw [passed (by simpa using reaches)]
        rfl
      · exact List.Subset.trans (take_subset _ _) subset
      · dsimp only
        rw [map_take, cursors, counted, take_range'_of_length_ge bound]
      · dsimp only
        rw [counted]
      · dsimp only
        omega
      · simp
      · dsimp only
        intro empty
        rw [empty, length_nil] at counted
        omega
    · refine .inr ⟨.groupBudget group.bytes maximumBytes, ?_,
        .group group (itself (subset mem)) first large⟩
      change (Lane.pageGroups maximumGroups maximumBytes groups after 0 [] >>= _) = _
      rw [refusal]
      rfl

/-! ## Page after page -/

/-- What a caller is given: an exact page of the registered lane, or a reason. -/
def Answers (store : ReplayStore T S) (marketId streamEpoch : String)
    (after maximumGroups maximumBytes : Nat) : Prop :=
  (∃ lane page, store.lane? marketId = some lane ∧
    store.replay marketId streamEpoch after maximumGroups maximumBytes = .ok page ∧
      PageExact lane after page) ∨
  ∃ cause, store.replay marketId streamEpoch after maximumGroups maximumBytes = .error cause ∧
    Stops (store.lane? marketId) streamEpoch after maximumGroups maximumBytes cause

theorem answers_of_held (held : StoreHeld limits store) (marketId streamEpoch : String)
    (after maximumGroups maximumBytes : Nat) :
    Answers store marketId streamEpoch after maximumGroups maximumBytes := by
  unfold Answers ReplayStore.replay
  cases found : store.lane? marketId with
  | none => exact .inr ⟨_, rfl, .unregistered rfl⟩
  | some lane =>
    obtain ⟨handle, _, there⟩ := bind_eq_some_iff.mp found
    obtain ⟨cell, present, rfl⟩ := map_eq_some_iff.mp there
    have live := (held.cells cell (mem_of_getElem? present)).lane
    rcases replay_cases live streamEpoch after maximumGroups maximumBytes with
      ⟨page, given, exact⟩ | stops
    · exact .inl ⟨cell.lane, page, rfl, given, exact⟩
    · exact .inr stops
/-- Pages of a market, each from the cursor where the one before it ended, while
the store goes on. -/
inductive Chained
    [Inhabited S] (limits : ReplayLimits) (marketId streamEpoch : String)
    (after : Nat) : ReplayStore T S → List (MarketPage T) → Nat → Prop
  | begin
      {store : ReplayStore T S}
      {actions : List (ReplayAction T S)} :
      ReplayRun limits actions store →
      Chained limits marketId streamEpoch after store [] after
  | moved
      {store later : ReplayStore T S}
      {pages : List (MarketPage T)}
      {next : Nat}
      {action : ReplayAction T S} :
      Chained limits marketId streamEpoch after store pages next →
      ReplayStep limits store action later →
      Chained limits marketId streamEpoch after later pages next
  | page
      {store : ReplayStore T S}
      {pages : List (MarketPage T)}
      {next maximumGroups maximumBytes : Nat}
      {page : MarketPage T} :
      Chained limits marketId streamEpoch after store pages next →
      store.replay marketId streamEpoch next maximumGroups maximumBytes = .ok page →
      Chained limits marketId streamEpoch after store (pages ++ [page]) page.nextCursor

section Chains

variable [Inhabited S] {limits : ReplayLimits} {store : ReplayStore T S}
  {marketId streamEpoch : String} {after next : Nat} {pages : List (MarketPage T)}

theorem held_of_chained (chained : Chained limits marketId streamEpoch after store pages next) :
    StoreHeld limits store := by
  induction chained with
  | begin run => exact storeHeld_of_run run
  | moved _ taken ih => exact ih.step taken
  | page _ _ ih => exact ih

/-- Chained pages have every cursor after the first one exactly once and in
order, and the next call gives the next groups or says why it stops. -/
theorem pages_exact (chained : Chained limits marketId streamEpoch after store pages next) :
    after ≤ next ∧
      pages.flatMap (fun page => page.groups.map MarketGroup.marketCursor) =
        List.range' (after + 1) (next - after) ∧
      ∀ maximumGroups maximumBytes,
        Answers store marketId streamEpoch next maximumGroups maximumBytes := by
  suffices whole : after ≤ next ∧
      pages.flatMap (fun page => page.groups.map MarketGroup.marketCursor) =
        List.range' (after + 1) (next - after) from
    ⟨whole.1, whole.2, answers_of_held (held_of_chained chained) marketId streamEpoch next⟩
  induction chained with
  | begin run => simp
  | moved _ _ ih => exact ih
  | @page store pages next maximumGroups maximumBytes page before given ih =>
    obtain ⟨reached, cursors⟩ := ih
    rcases answers_of_held (held_of_chained before) marketId streamEpoch next maximumGroups
      maximumBytes with ⟨lane, other, _, same, exact⟩ | ⟨cause, refused, _⟩
    · obtain rfl := ok.inj (same.symm.trans given)
      refine ⟨?_, ?_⟩
      · rw [exact.next]
        omega
      · rw [flatMap_append, flatMap_singleton, cursors, exact.cursors, exact.next,
          show next + 1 = after + 1 + (next - after) by omega, range'_append_1]
        congr 1
        omega
    · rw [refused] at given
      cases given

theorem Chained.run (chained : Chained limits marketId streamEpoch after store pages next)
    (run : Run (ReplayStep limits) store actions later) :
    Chained limits marketId streamEpoch after later pages next := by
  induction run with
  | nil => exact chained
  | snoc _ taken ih => exact .moved ih taken

/-- A publication with nothing in between: staged, reserved and committed. -/
def ReplayStore.publish? (limits : ReplayLimits) (store : ReplayStore T S) (handle : Nat)
    (request : PublishRequest T S) : Option (ReplayStore T S) :=
  (store.cells[handle]?).bind fun cell =>
    match store.stagePublish limits cell request with
    | .error _ => none
    | .ok publishing =>
      if cell.publishing.isNone ∧ store.budgetHolder.isNone ∧ publishing.reserved = false ∧
          store.totalBytes + publishing.growth ≤ limits.maximumTotalBytes then
        let locked := { cell with publishing := some publishing }
        let taken := { cell with publishing := some { publishing with reserved := true } }
        some (((store.staged handle cell publishing).reserved handle locked publishing).committed
          handle taken { publishing with reserved := true })
      else none

theorem run_publish (published : store.publish? limits handle request = some later) :
    Run (ReplayStep limits) store [.stage handle request, .reserve handle, .commit handle]
      later := by
  obtain ⟨cell, there, planned⟩ := bind_eq_some_iff.mp published
  cases stages : store.stagePublish limits cell request with
  | error cause =>
    rw [stages] at planned
    cases planned
  | ok publishing =>
    rw [stages] at planned
    obtain ⟨⟨unlocked, free, unreserved, fits⟩, same⟩ := Option.ite_none_right_eq_some.mp planned
    cases same
    have inside : handle < store.cells.length := (List.getElem?_eq_some_iff.mp there).1
    have staged : ReplayStep limits store _ _ := .staged there (isNone_iff_eq_none.mp unlocked)
      (isNone_iff_eq_none.mp free) stages
    have locked : (store.staged handle cell publishing).cells[handle]? =
        some { cell with publishing := some publishing } :=
      List.getElem?_set_self inside
    have reserved : ReplayStep limits _ _ _ := .reserved locked rfl unreserved fits
    refine ((Run.single staged).snoc reserved).snoc (.committed ?_ rfl rfl)
    apply List.getElem?_set_self
    rw [ReplayStore.staged, ReplayStore.setCell, length_set]
    exact inside

end Chains

/-! ## Pages across an eviction -/

theorem ok_of_toOption
    {ε α : Type} {result : Except ε α} {value : α} (given : result.toOption = some value) :
    result = .ok value := by
  cases result with
  | error cause => cases given
  | ok other => rw [some.inj given]

def sampleRequest (expectedCursor bytes : Nat) : PublishRequest Unit Unit :=
  { samplePublishRequest with expectedCursor, bytes }

/-- The first group is evicted between two pages, and neither misses one. -/
theorem pages_exact_evicted :
    ∃ (store : ReplayStore Unit Unit) (pages : List (MarketPage Unit)),
      Chained sampleReplayLimits "m" "epoch" 0 store pages 3 ∧ pages.length = 2 ∧
        (store.lane? "m").map Lane.replayFloor = some 1 ∧
          pages.flatMap (fun page => page.groups.map MarketGroup.marketCursor) = [1, 2, 3] ∧
            ∀ maximumGroups maximumBytes,
              Answers store "m" "epoch" 3 maximumGroups maximumBytes := by
  have played : ((sampleRegistered.publish? sampleReplayLimits 0 (sampleRequest 1 1)).bind
      fun first => (first.publish? sampleReplayLimits 0 (sampleRequest 2 1)).bind
      fun second => (second.replay "m" "epoch" 0 1 9).toOption.bind
      fun page => (second.publish? sampleReplayLimits 0 (sampleRequest 3 1)).bind
      fun third => (third.replay "m" "epoch" page.nextCursor 9 9).toOption.map
      fun last => (last.nextCursor, (third.lane? "m").map Lane.replayFloor)) =
        some (3, some 1) := by
    decide +kernel
  obtain ⟨first, one, played⟩ := bind_eq_some_iff.mp played
  obtain ⟨second, two, played⟩ := bind_eq_some_iff.mp played
  obtain ⟨page, given, played⟩ := bind_eq_some_iff.mp played
  obtain ⟨third, three, played⟩ := bind_eq_some_iff.mp played
  obtain ⟨last, again, shape⟩ := map_eq_some_iff.mp played
  obtain ⟨reached, floor⟩ := Prod.mk.inj shape
  have two := ((sampleRegistered_run.append (run_publish one)).append (run_publish two))
  have paged := (Chained.begin two).page (ok_of_toOption given)
  have chained := (paged.run (run_publish three)).page (ok_of_toOption again)
  rw [reached] at chained
  obtain ⟨_, cursors, answers⟩ := pages_exact chained
  exact ⟨third, _, chained, rfl, floor, cursors, answers⟩

/-- A page that is too small for the next group stops with a reason of its own. -/
theorem stopped_by_group :
    ∃ (actions : List (ReplayAction Unit Unit)) (store : ReplayStore Unit Unit),
      ReplayRun sampleReplayLimits actions store ∧
        store.replay "m" "epoch" 0 1 1 = .error (.groupBudget 2 1) := by
  have played : ((sampleRegistered.publish? sampleReplayLimits 0 (sampleRequest 1 2)).map
      fun store => match store.replay "m" "epoch" 0 1 1 with
        | .ok _ => none
        | .error cause => some cause) = some (some (.groupBudget 2 1)) := by
    decide +kernel
  obtain ⟨store, published, refused⟩ := map_eq_some_iff.mp played
  refine ⟨_, store, sampleRegistered_run.append (run_publish published), ?_⟩
  cases answer : store.replay "m" "epoch" 0 1 1 with
  | ok page =>
    rw [answer] at refused
    cases refused
  | error cause =>
    rw [answer] at refused
    rw [some.inj refused]

end MarketCow.Source
