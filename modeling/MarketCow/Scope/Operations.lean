import MarketCow.Library.MapLoads
import MarketCow.Scope.State

/-!
# Operations on the state of the scope

Markets are admitted, and leave through a retirement that is settled or cancelled.
A retirement that is cancelled leaves what was admitted meanwhile, and nothing else.
-/

namespace MarketCow.Scope

open Library List
open TreeMap (getElem?_insert_eq length_toList mem_iff_isSome_getElem? mem_insert not_mem_empty)
open Discovery (ensure need field ensure_ok need_ok)

/-! ## Admission -/

/-- Add a record, or find the one of the same identity. -/
def State.admitRecord (state : State) (record : Json) : Except String State := do
  let id ← need (marketId record).asString? "admission identity"
  ensure (!state.retiringRecords.contains id) "runtime retirement pending"
  match state.records[id]? with
  | some old => do
    ensure (field old "identity" == field record "identity") "runtime identity changed"
    return state
  | none => return { state with records := state.records.insert id record }

/-- Add records, and mark markets as acquired. -/
def State.admitRecords (state : State) (records : List Json) (acquisition : TreeSet String) :
    Except String State := do
  let next ← records.foldlM State.admitRecord state
  return { next with
    acquisitionMarketIds := next.acquisitionMarketIds.claim acquisition.toList }

/-! ## Retirement -/

/-- Move a record to the retiring ones. -/
def State.retireMarket (state : State) (id : String) : Except String State := do
  let record ← need state.records[id]? "runtime retirement unknown market"
  return { state with
    records := state.records.erase id
    retiringRecords := state.retiringRecords.insert id record
    acquisitionMarketIds := state.acquisitionMarketIds.erase id }

/-- The markets that are being retired. -/
def State.isRetiring (state : State) (markets : TreeSet String) (ticket : UInt64) : Bool :=
  state.retirementTicket == some ticket && state.retiringRecords.keys == markets.toList

/-- Fill the one retirement slot with markets and their ticket. -/
def State.retire (state : State) (markets : TreeSet String) (ticket : UInt64) :
    Except String State := do
  ensure (state.retiringRecords.isEmpty && decide (0 < ticket)) "runtime retirement slot busy"
  let next ← markets.toList.foldlM State.retireMarket { state with
    retiringAcquisitionMarketIds :=
      some (markets.filter fun id => state.acquisitionMarketIds.contains id) }
  return { next with retirementTicket := some ticket }

/-- The retirement is durable. -/
def State.settle (state : State) : State :=
  { state with
    retiringRecords := ∅
    retirementTicket := none
    retiringAcquisitionMarketIds := none }

/-- A record that goes back among the records. -/
def restoreRecord (records : TreeMap String Json) (entry : String × Json) :
    Except String (TreeMap String Json) := do
  ensure (!records.contains entry.1) "runtime cancellation duplicate"
  return records.insert entry.1 entry.2

/-- Put the retiring records and their acquisition back, when the caller names the retirement
exactly. -/
def State.cancelUnstartedRetirement (state : State) (markets : TreeSet String) (ticket : UInt64)
    (expectedRevision : UInt64) (expectedCatalogRevision : String) : Except String State := do
  ensure (state.isRetiring markets ticket && state.activeRevision == expectedRevision &&
    state.catalogRevision == expectedCatalogRevision) "runtime retirement cancellation identity"
  let acquired ← need state.retiringAcquisitionMarketIds
    "runtime prior hot membership unknown; keep retirement pending"
  let records ← state.retiringRecords.toList.foldlM restoreRecord state.records
  return { state with
    records
    retiringRecords := ∅
    acquisitionMarketIds := state.acquisitionMarketIds.claim acquired.toList
    retirementTicket := none
    retiringAcquisitionMarketIds := none }

/-! ## The operations of the journal -/

/-- What the control worker asks of the journal. -/
inductive Operation
  | admitRecords (records : List Json) (acquisition : TreeSet String)
  | retire (markets : TreeSet String) (ticket : UInt64)
  | settled (ticket : UInt64)
  | cancel (markets : TreeSet String) (ticket expectedRevision : UInt64)
      (expectedCatalogRevision : String)

/-- The state that an operation commits, if it commits one. -/
def Operation.next (operation : Operation) (state : State) : Except String (Option State) :=
  match operation with
  | .admitRecords records acquisition => (state.admitRecords records acquisition).map some
  | .retire markets ticket =>
    -- A retry of the same retirement has nothing to commit.
    if state.isRetiring markets ticket then .ok none
    else (state.retire markets ticket).map some
  | .settled ticket =>
    if state.retirementTicket.any fun pending => decide (pending ≤ ticket) then
      .ok (some state.settle)
    else .ok none
  | .cancel markets ticket expectedRevision expectedCatalogRevision =>
    (state.cancelUnstartedRetirement markets ticket expectedRevision
      expectedCatalogRevision).map some

/-! ## What admission does -/

/-- The ids of the markets that some records name. -/
def names (records : List Json) (id : String) : Prop :=
  ∃ record ∈ records, marketId record = .string id

/-- An admission adds the named markets, none of which is being retired. -/
structure Admits (added : List Json) (state next : State) : Prop where
  records : ∀ id, id ∈ next.records ↔ id ∈ state.records ∨ names added id
  fresh : ∀ id, names added id → id ∉ state.retiringRecords
  retiring : next.retiringRecords = state.retiringRecords
  ticket : next.retirementTicket = state.retirementTicket
  retiringAcquisition : next.retiringAcquisitionMarketIds = state.retiringAcquisitionMarketIds

variable {state next : State}

theorem admitRecord_ok_iff :
    state.admitRecord record = .ok next ↔
      ∃ id, marketId record = .string id ∧ id ∉ state.retiringRecords ∧
        ((∃ old, state.records[id]? = some old ∧ field old "identity" = field record "identity" ∧
            next = state) ∨
          (state.records[id]? = none ∧
            next = { state with records := state.records.insert id record })) := by
  unfold State.admitRecord
  simp only [bind_ok, need_ok, ensure_ok, exists_const,
    asString?_eq_some_iff, not_eq_true', ← not_eq_true, TreeMap.contains_iff_mem]
  refine exists_congr fun id => and_congr_right fun _ => and_congr_right fun _ => ?_
  cases state.records[id]? with
  | none => simp [pure, Except.pure, eq_comm]
  | some old =>
    rw [bind_ok]
    simp only [ensure_ok, beq_iff_eq, exists_const, pure, Except.pure, Except.ok.injEq,
      Option.some.injEq, exists_eq_left', reduceCtorEq, false_and, or_false]
    rw [@eq_comm _ state]

theorem Admits.refl (state : State) : Admits [] state state where
  records id := by simp [names]
  fresh id named := by
    obtain ⟨_, mem, _⟩ := named
    cases mem
  retiring := rfl
  ticket := rfl
  retiringAcquisition := rfl

theorem admits_of_admitRecord (admitted : state.admitRecord record = .ok next) :
    Admits [record] state next := by
  have named : ∀ other, names [record] other ↔ marketId record = .string other := by
    intro other
    unfold names
    simp
  obtain ⟨id, same, fresh, kept | added⟩ := admitRecord_ok_iff.mp admitted
  · obtain ⟨old, there, _, rfl⟩ := kept
    refine ⟨?_, ?_, rfl, rfl, rfl⟩
    · intro other
      rw [named, same]
      constructor
      · exact .inl
      · rintro (before | equal)
        · exact before
        · obtain rfl := Json.string.inj equal
          exact mem_iff_isSome_getElem?.mpr (by rw [there]; rfl)
    · intro other named'
      obtain rfl := Json.string.inj (same.symm.trans ((named other).mp named'))
      exact fresh
  · obtain ⟨absent, rfl⟩ := added
    refine ⟨?_, ?_, rfl, rfl, rfl⟩
    · intro other
      rw [named, same]
      rw [mem_insert, Std.LawfulEqCmp.compare_eq_iff_eq, or_comm, Json.string.injEq]
    · intro other named'
      obtain rfl := Json.string.inj (same.symm.trans ((named other).mp named'))
      exact fresh

/-- Admissions in turn are one admission. -/
theorem Admits.trans (one : Admits first state middle) (two : Admits second middle next) :
    Admits (first ++ second) state next := by
  have named : ∀ id, names (first ++ second) id ↔ names first id ∨ names second id := by
    intro id
    unfold names
    simp [or_and_right, exists_or]
  refine ⟨?_, ?_, two.retiring.trans one.retiring, two.ticket.trans one.ticket,
    two.retiringAcquisition.trans one.retiringAcquisition⟩
  · intro id
    rw [two.records, one.records, named, or_assoc]
  · intro id there
    rcases (named id).mp there with left | right
    · exact one.fresh id left
    · rw [← one.retiring]
      exact two.fresh id right

variable {records : List Json}

/-- Induction over the records. -/
theorem admits_of_foldlM (admitted : records.foldlM State.admitRecord state = .ok next) :
    Admits records state next := by
  induction records generalizing state with
  | nil =>
    obtain rfl := ok.inj admitted
    exact Admits.refl state
  | cons record records ih =>
    obtain ⟨middle, first, rest⟩ := foldlM_cons_ok.mp admitted
    exact (admits_of_admitRecord first).trans (ih rest)

theorem admits_of_admitRecords (admitted : state.admitRecords records acquisition = .ok next) :
    Admits records state next := by
  unfold State.admitRecords at admitted
  obtain ⟨middle, folded, rest⟩ := bind_ok.mp admitted
  cases rest
  have added := admits_of_foldlM folded
  exact ⟨added.records, added.fresh, added.retiring, added.ticket, added.retiringAcquisition⟩

/-! ## What a retirement does -/

/-- A state without its markets and its retirement. -/
def State.frame (state : State) : State :=
  { state with
    records := ∅
    acquisitionMarketIds := ∅
    retiringRecords := ∅
    retirementTicket := none
    retiringAcquisitionMarketIds := none }

/-- The markets leave the records and the acquisition. -/
structure Moves (ids : List String) (state next : State) : Prop where
  frame : next.frame = state.frame
  ticket : next.retirementTicket = state.retirementTicket
  retiringAcquisition : next.retiringAcquisitionMarketIds = state.retiringAcquisitionMarketIds
  known : ∀ id ∈ ids, id ∈ state.records
  records : ∀ id : String, next.records[id]? = if id ∈ ids then none else state.records[id]?
  retiring : ∀ id : String, next.retiringRecords[id]? =
    if id ∈ ids then state.records[id]? else state.retiringRecords[id]?
  acquisition : ∀ id, id ∈ next.acquisitionMarketIds ↔ id ∈ state.acquisitionMarketIds ∧ id ∉ ids

/-- Induction over the markets, none of which is moved twice. -/
theorem moves_of_foldlM
    (distinct : ids.Nodup) (folded : ids.foldlM State.retireMarket state = .ok next) :
    Moves ids state next := by
  induction ids generalizing state with
  | nil =>
    cases folded
    exact ⟨rfl, rfl, rfl, fun _ mem => absurd mem not_mem_nil, by simp, by simp, by simp⟩
  | cons first ids ih =>
    obtain ⟨absent, others⟩ := nodup_cons.mp distinct
    obtain ⟨middle, retired, rest⟩ := foldlM_cons_ok.mp folded
    have moved := ih others rest
    unfold State.retireMarket at retired
    obtain ⟨record, found, same⟩ := bind_ok.mp retired
    have there := need_ok.mp found
    cases same
    refine ⟨moved.frame, moved.ticket, moved.retiringAcquisition, ?_, ?_, ?_, ?_⟩
    · intro id mem
      rcases mem_cons.mp mem with rfl | inside
      · exact mem_iff_isSome_getElem?.mpr (by rw [there]; rfl)
      · exact Std.ExtTreeMap.mem_of_mem_erase (moved.known id inside)
    · intro id
      rw [moved.records, TreeMap.getElem?_erase_eq]
      by_cases same : first = id
      · simp [same]
      · simp [same, Ne.symm same]
    · intro id
      rw [moved.retiring, TreeMap.getElem?_erase_eq, getElem?_insert_eq]
      by_cases same : first = id
      · subst same
        simp [absent, there]
      · simp [same, Ne.symm same]
    · intro id
      rw [moved.acquisition]
      rw [Std.ExtTreeSet.mem_erase, ne_eq, Std.LawfulEqCmp.compare_eq_iff_eq, mem_cons,
        not_or, @eq_comm _ first]
      tauto

/-- A state with some of its markets under retirement. -/
structure Hides (markets : TreeSet String) (state hidden : State) : Prop where
  frame : hidden.frame = state.frame
  known : ∀ id ∈ markets, id ∈ state.records
  records : ∀ id : String, hidden.records[id]? = if id ∈ markets then none else state.records[id]?
  retiring : ∀ id : String, hidden.retiringRecords[id]? =
    if id ∈ markets then state.records[id]? else none
  acquisition : ∀ id, id ∈ hidden.acquisitionMarketIds ↔
    id ∈ state.acquisitionMarketIds ∧ id ∉ markets
  retiringAcquisition : ∃ acquired, hidden.retiringAcquisitionMarketIds = some acquired ∧
    ∀ id, id ∈ acquired ↔ id ∈ markets ∧ id ∈ state.acquisitionMarketIds

/-- No market is being retired. -/
structure State.Idle (state : State) : Prop where
  retiring : state.retiringRecords = ∅
  ticket : state.retirementTicket = none
  retiringAcquisition : state.retiringAcquisitionMarketIds = none

variable {markets : TreeSet String}

/-- A retirement hides the markets it names. -/
theorem retire_ok (retired : state.retire markets ticket = .ok next) :
    state.retiringRecords = ∅ ∧ next.retirementTicket = some ticket ∧ Hides markets state next := by
  unfold State.retire at retired
  obtain ⟨_, free, middle, folded, same⟩ := bind₂_ok.mp retired
  cases same
  have empty := TreeMap.isEmpty_iff.mp (Bool.and_eq_true_iff.mp (ensure_ok.mp free)).1
  have distinct : markets.toList.Nodup := by
    refine Std.ExtTreeSet.distinct_toList.imp ?_
    intro first second ne equal
    exact ne (Std.LawfulEqCmp.compare_eq_iff_eq.mpr equal)
  have moved := moves_of_foldlM distinct folded
  refine ⟨empty, rfl, moved.frame, ?_, ?_, ?_, ?_, _, moved.retiringAcquisition, ?_⟩
  · intro id mem
    exact moved.known id (Std.ExtTreeSet.mem_toList.mpr mem)
  · intro id
    rw [moved.records]
    simp only [Std.ExtTreeSet.mem_toList]
  · intro id
    rw [moved.retiring]
    simp only [Std.ExtTreeSet.mem_toList]
    rw [empty, getElem?_empty]
  · intro id
    rw [moved.acquisition, Std.ExtTreeSet.mem_toList]
  · intro id
    rw [Std.ExtTreeSet.mem_filter]
    simp only [Std.ExtTreeSet.get_eq, Std.ExtTreeSet.contains_iff_mem, exists_prop]

theorem State.eq_of_frame {first second : State}
    (frame : first.frame = second.frame) (records : first.records = second.records)
    (acquisition : first.acquisitionMarketIds = second.acquisitionMarketIds)
    (retiring : first.retiringRecords = second.retiringRecords)
    (ticket : first.retirementTicket = second.retirementTicket)
    (retiringAcquisition : first.retiringAcquisitionMarketIds =
      second.retiringAcquisitionMarketIds) :
    first = second := by
  cases first
  cases second
  unfold State.frame at frame
  simp only [State.mk.injEq] at frame
  simp_all

theorem restores : TreeMap.Inserts restoreRecord fun entry => .ok entry.2 := by
  intro records entry after restored
  unfold restoreRecord at restored
  obtain ⟨_, _, same⟩ := bind_ok.mp restored
  cases same
  exact ⟨entry.2, rfl, rfl⟩

/-- What a cancelled retirement leaves. -/
structure Cancels (state next : State) : Prop where
  frame : next.frame = state.frame
  records : ∀ (id : String) (record : Json), next.records[id]? = some record ↔
    state.retiringRecords[id]? = some record ∨
      (state.records[id]? = some record ∧ id ∉ state.retiringRecords)
  idle : next.Idle
  acquisition : ∃ acquired, state.retiringAcquisitionMarketIds = some acquired ∧
    ∀ id, id ∈ next.acquisitionMarketIds ↔ id ∈ state.acquisitionMarketIds ∨ id ∈ acquired

/-- A cancellation puts back what was hidden. -/
theorem cancels_of_cancel
    (cancelled : state.cancelUnstartedRetirement markets ticket expectedRevision
      expectedCatalogRevision = .ok next) :
    Cancels state next := by
  unfold State.cancelUnstartedRetirement at cancelled
  obtain ⟨_, _, acquired, found, records, folded, same⟩ := bind₃_ok.mp cancelled
  cases same
  refine ⟨rfl, ?_, ⟨rfl, rfl, rfl⟩, acquired, need_ok.mp found, ?_⟩
  · intro id record
    have listed : ∀ entry : String × Json, entry ∈ state.retiringRecords.toList ↔
        state.retiringRecords[entry.1]? = some entry.2 :=
      fun entry => mem_toList_iff_getElem?_eq_some
    rw [TreeMap.getElem?_of_load restores (TreeMap.pairwise_fst_toList _) folded]
    refine or_congr ?_ (and_congr_right fun _ => ?_)
    · constructor
      · rintro ⟨entry, mem, rfl, loaded⟩
        cases loaded
        exact (listed entry).mp mem
      · intro there
        exact ⟨(id, record), (listed (id, record)).mpr there, rfl, rfl⟩
    · rw [mem_iff_isSome_getElem?, not_eq_true, Option.isSome_eq_false_iff, isNone_iff_eq_none]
      constructor
      · intro absent
        refine Option.eq_none_iff_forall_ne_some.mpr fun other there => ?_
        exact absent (id, other) ((listed (id, other)).mpr there) rfl
      · rintro absent entry mem rfl
        rw [(listed entry).mp mem] at absent
        cases absent
  · intro id
    rw [TreeSet.mem_claim, Std.ExtTreeSet.mem_toList]

/-! ## Markets apart -/

/-- No market is among the records and under retirement. -/
def State.Apart (state : State) : Prop :=
  ∀ id ∈ state.records, id ∉ state.retiringRecords

/-- A market that the state knows. -/
def State.Knows (state : State) (id : String) : Prop :=
  id ∈ state.records ∨ id ∈ state.retiringRecords

theorem Admits.apart (admits : Admits records state next) (apart : state.Apart) :
    next.Apart := by
  intro id mem
  rw [admits.retiring]
  rcases (admits.records id).mp mem with before | named
  · exact apart id before
  · exact admits.fresh id named

theorem Admits.knows_iff (admits : Admits records state next) (id : String) :
    next.Knows id ↔ state.Knows id ∨ names records id := by
  unfold State.Knows
  rw [admits.records, admits.retiring, or_assoc, or_assoc, @or_comm (id ∈ state.retiringRecords)]

section Hidden

variable {markets : TreeSet String} {state hidden : State}

section

variable (hides : Hides markets state hidden)
include hides

theorem Hides.mem_records_iff (id : String) :
    id ∈ hidden.records ↔ id ∈ state.records ∧ id ∉ markets := by
  rw [mem_iff_isSome_getElem?, hides.records, mem_iff_isSome_getElem?]
  by_cases mem : id ∈ markets <;> simp [mem]

theorem Hides.mem_retiring_iff (id : String) :
    id ∈ hidden.retiringRecords ↔ id ∈ markets := by
  have known := hides.known id
  rw [mem_iff_isSome_getElem?] at known
  rw [mem_iff_isSome_getElem?, hides.retiring]
  by_cases mem : id ∈ markets
  · simp [mem, known mem]
  · simp [mem]

theorem Hides.apart :
    hidden.Apart := by
  intro id mem
  rw [hides.mem_retiring_iff]
  exact ((hides.mem_records_iff id).mp mem).2

theorem Hides.knows_iff (idle : state.Idle) (id : String) :
    hidden.Knows id ↔ state.Knows id := by
  unfold State.Knows
  rw [hides.mem_records_iff, hides.mem_retiring_iff, idle.retiring]
  have known := hides.known id
  have absent : id ∉ (∅ : TreeMap String Json) := not_mem_empty
  tauto

end

theorem Cancels.knows_iff (cancels : Cancels state next) (id : String) :
    next.Knows id ↔ state.Knows id := by
  have listed : id ∈ next.records ↔ state.Knows id := by
    have some_iff : ∀ records : TreeMap String Json,
        id ∈ records ↔ ∃ record, records[id]? = some record := by
      intro records
      rw [mem_iff_isSome_getElem?, isSome_iff_exists]
    rw [some_iff, exists_congr (cancels.records id), exists_or, exists_and_right,
      ← some_iff, ← some_iff]
    unfold State.Knows
    tauto
  have absent : id ∉ next.retiringRecords := by
    rw [cancels.idle.retiring]
    exact not_mem_empty
  rw [← listed]
  exact or_iff_left absent

end Hidden

/-! ## A retirement that is cancelled -/

/-- An admission of markets that are not under retirement. -/
def avoids (markets : TreeSet String) (admission : List Json × TreeSet String) : Prop :=
  (∀ id, names admission.1 id → id ∉ markets) ∧ ∀ id ∈ admission.2, id ∉ markets

/-- An admission of another market commutes with a retirement. -/
theorem Hides.admitRecord {state hidden next : State} {record : Json}
    (hides : Hides markets state hidden) (idle : state.Idle)
    (other : ∀ id, marketId record = .string id → id ∉ markets)
    (admitted : hidden.admitRecord record = .ok next) :
    ∃ shown, state.admitRecord record = .ok shown ∧ Hides markets shown next ∧ shown.Idle := by
  obtain ⟨id, same, _, cases⟩ := admitRecord_ok_iff.mp admitted
  have away := other id same
  have fresh : id ∉ state.retiringRecords := by
    rw [idle.retiring]
    exact not_mem_empty
  have alike := hides.records id
  rw [if_neg away] at alike
  rcases cases with ⟨old, there, identity, rfl⟩ | ⟨absent, rfl⟩
  · rw [alike] at there
    exact ⟨state, admitRecord_ok_iff.mpr ⟨id, same, fresh, .inl ⟨old, there, identity, rfl⟩⟩,
      hides, idle⟩
  · rw [alike] at absent
    refine ⟨_, admitRecord_ok_iff.mpr ⟨id, same, fresh, .inr ⟨absent, rfl⟩⟩, ?_,
      idle.retiring, idle.ticket, idle.retiringAcquisition⟩
    refine ⟨hides.frame, ?_, ?_, ?_, hides.acquisition, hides.retiringAcquisition⟩
    · intro market mem
      exact mem_insert.mpr (.inr (hides.known market mem))
    · intro market
      rw [getElem?_insert_eq, getElem?_insert_eq, hides.records]
      by_cases equal : id = market
      · subst equal
        simp [away]
      · simp [equal]
    · intro market
      rw [hides.retiring, getElem?_insert_eq]
      by_cases equal : id = market
      · subst equal
        simp [away]
      · simp [equal]

/-- Admissions of other markets commute with a retirement. -/
theorem Hides.foldlM
    {state hidden next : State} (hides : Hides markets state hidden) (idle : state.Idle)
    (others : ∀ id, names records id → id ∉ markets)
    (admitted : records.foldlM State.admitRecord hidden = .ok next) :
    ∃ shown, records.foldlM State.admitRecord state = .ok shown ∧
      Hides markets shown next ∧ shown.Idle := by
  induction records generalizing state hidden with
  | nil =>
    cases admitted
    exact ⟨state, rfl, hides, idle⟩
  | cons record records ih =>
    obtain ⟨middle, first, rest⟩ := foldlM_cons_ok.mp admitted
    obtain ⟨shown, one, hides, idle⟩ := hides.admitRecord idle
      (fun id named => others id ⟨record, mem_cons_self, named⟩) first
    obtain ⟨last, two, hides, idle⟩ := ih hides idle
      (fun id ⟨other, mem, named⟩ => others id ⟨other, mem_cons_of_mem _ mem, named⟩)
      rest
    exact ⟨last, foldlM_cons_ok.mpr ⟨shown, one, two⟩, hides, idle⟩

/-- Markets under retirement have no part in the admission of others. -/
theorem Hides.admitRecords {state hidden next : State}
    (hides : Hides markets state hidden) (idle : state.Idle) (others : avoids markets admission)
    (admitted : hidden.admitRecords admission.1 admission.2 = .ok next) :
    ∃ shown, state.admitRecords admission.1 admission.2 = .ok shown ∧
      Hides markets shown next ∧ shown.Idle := by
  unfold State.admitRecords at admitted ⊢
  obtain ⟨middle, folded, same⟩ := bind_ok.mp admitted
  cases same
  obtain ⟨shown, alone, hides, idle⟩ := hides.foldlM idle others.1 folded
  have outside : ∀ id, id ∈ admission.2 → id ∉ markets := others.2
  refine ⟨_, bind_ok.mpr ⟨shown, alone, rfl⟩, ?_, idle.retiring, idle.ticket,
    idle.retiringAcquisition⟩
  obtain ⟨acquired, held, listed⟩ := hides.retiringAcquisition
  refine ⟨hides.frame, hides.known, hides.records, hides.retiring, ?_, acquired, held, ?_⟩
  · intro id
    rw [TreeSet.mem_claim, TreeSet.mem_claim, hides.acquisition, Std.ExtTreeSet.mem_toList]
    have away := outside id
    tauto
  · intro id
    rw [listed, TreeSet.mem_claim, Std.ExtTreeSet.mem_toList]
    have away := outside id
    tauto

theorem nodup_toList (records : TreeMap String Json) : records.toList.Nodup :=
  (TreeMap.pairwise_fst_toList records).imp fun ne same => ne (by rw [same])

theorem Hides.entries_perm
    {state hidden : State} (hides : Hides markets state hidden) (idle : state.Idle) :
    hidden.entries.Perm state.entries := by
  have listed : ∀ (records : TreeMap String Json) (entry : String × Json),
      entry ∈ records.toList ↔ records[entry.1]? = some entry.2 :=
    fun _ _ => mem_toList_iff_getElem?_eq_some
  unfold State.entries
  rw [idle.retiring, TreeMap.toList_eq_nil_iff.mpr rfl, append_nil]
  refine (perm_ext_iff_of_nodup ?_ (nodup_toList _)).mpr ?_
  · refine nodup_append.mpr ⟨nodup_toList _, nodup_toList _, ?_⟩
    rintro entry shown _ hidden rfl
    rw [listed, hides.records] at shown
    rw [listed, hides.retiring] at hidden
    by_cases mem : entry.1 ∈ markets <;> simp [mem] at shown hidden
  · intro entry
    rw [mem_append, listed, listed, listed, hides.records, hides.retiring]
    by_cases mem : entry.1 ∈ markets <;> simp [mem]

/-- A state is valid with its markets under retirement only if it is valid with them back. -/
theorem Hides.valid {state hidden : State}
    (hides : Hides markets state hidden) (idle : state.Idle) (valid : hidden.Valid) :
    state.Valid := by
  have perm := hides.entries_perm idle
  have length := perm.length_eq
  unfold State.entries at length
  rw [length_append, length_append, length_toList, length_toList, length_toList, length_toList]
    at length
  have frame := hides.frame
  unfold State.frame at frame
  simp only [State.mk.injEq] at frame
  obtain ⟨schema, catalog, _, pool, config, revision, _⟩ := frame
  refine ⟨schema ▸ valid.schema, pool ▸ valid.pool, revision ▸ valid.revision,
    config ▸ catalog ▸ valid.catalog, ?_, length ▸ valid.capacity, ?_, ?_, ?_, ?_, ?_⟩
  · obtain ⟨id, record, there⟩ := TreeMap.isEmpty_false_iff.mp valid.filled
    refine TreeMap.isEmpty_false_iff.mpr ⟨id, record, ?_⟩
    rw [hides.records] at there
    by_cases mem : id ∈ markets
    · simp [mem] at there
    · simpa [mem] using there
  · rw [idle.retiring, idle.ticket]
    exact Std.ExtTreeMap.isEmpty_empty
  · intro ids held
    rw [idle.retiringAcquisition] at held
    cases held
  · intro entry mem
    exact valid.binary entry (perm.mem_iff.mpr mem)
  · exact (perm.flatMap_right _).nodup_iff.mp valid.tokens
  · intro id mem
    by_cases inside : id ∈ markets
    · exact hides.known id inside
    · have acquired := (hides.acquisition id).mpr ⟨mem, inside⟩
      exact ((hides.mem_records_iff id).mp (valid.acquisition id acquired)).1

/-- Markets whose retirement is cancelled are back as they were. -/
theorem Hides.eq_of_cancels {state hidden next : State}
    (hides : Hides markets state hidden) (idle : state.Idle) (cancels : Cancels hidden next) :
    next = state := by
  apply State.eq_of_frame
  · exact cancels.frame.trans hides.frame
  · apply TreeMap.ext_getElem?
    intro id
    refine Option.ext fun record => ?_
    rw [cancels.records, hides.mem_retiring_iff, hides.records, hides.retiring]
    by_cases mem : id ∈ markets <;> simp [mem]
  · apply Std.ExtTreeSet.ext_mem
    intro id
    obtain ⟨acquired, held, listed⟩ := cancels.acquisition
    obtain ⟨before, same, known⟩ := hides.retiringAcquisition
    obtain rfl := some.inj (same.symm.trans held)
    rw [listed, hides.acquisition, known]
    tauto
  · rw [cancels.idle.retiring, idle.retiring]
  · rw [cancels.idle.ticket, idle.ticket]
  · rw [cancels.idle.retiringAcquisition, idle.retiringAcquisition]

/-- Admissions one after another, each to a valid state. -/
def State.admitAll (state : State) (admissions : List (List Json × TreeSet String)) :
    Except String State :=
  admissions.foldlM (fun state admission => do
    let next ← state.admitRecords admission.1 admission.2
    next.validate
    return next) state

/-- A retirement that is cancelled leaves what the admissions alone would leave. -/
theorem Hides.admitAll
    {state hidden middle next : State} (hides : Hides markets state hidden) (idle : state.Idle)
    (others : ∀ admission ∈ admissions, avoids markets admission)
    (admitted : hidden.admitAll admissions = .ok middle) (cancels : Cancels middle next) :
    state.admitAll admissions = .ok next := by
  unfold State.admitAll at admitted ⊢
  induction admissions generalizing state hidden with
  | nil =>
    cases admitted
    exact congrArg Except.ok (hides.eq_of_cancels idle cancels).symm
  | cons admission admissions ih =>
    obtain ⟨after, first, rest⟩ := foldlM_cons_ok.mp admitted
    obtain ⟨added, made, _, valid, same⟩ := bind₂_ok.mp first
    cases same
    obtain ⟨shown, alone, hides, idle⟩ := hides.admitRecords idle
      (others admission mem_cons_self) made
    have fine := validate_ok_iff.mpr (hides.valid idle (validate_ok_iff.mp valid))
    have later := ih hides idle (fun other mem => others other (mem_cons_of_mem _ mem)) rest
    refine foldlM_cons_ok.mpr ⟨shown, ?_, later⟩
    exact bind_ok.mpr ⟨shown, alone, bind_ok.mpr ⟨(), fine, rfl⟩⟩

end MarketCow.Scope
