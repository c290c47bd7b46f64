import MarketCow.Discovery.Stored

/-!
# Opening sound files

What each part of opening reads from files that satisfy the invariants, and what
the writer that results is like.
-/

namespace MarketCow.Discovery

open Library List
open TreeMap (exists_load getElem?_empty length_toList mem_toList_iff_getElem?_eq_some not_mem_empty size_empty size_of_load)

section Reading

variable {externals : Externals}

theorem fromSlice_row (value : Json) :
    externals.json.fromSlice (externals.row value).payload = some value :=
  externals.json.fromSlice_toVec value

theorem sha256_row (value : Json) :
    sha256 (externals.row value).payload = (externals.row value).sha256 := rfl

/-! ## Recoveries -/

/-- The value that the load of the recoveries reads from an entry. -/
def readRecovery (externals : Externals) (entry : String × StoredRow) : Except String Json := do
  ensure (decide (entry.2.payload.length ≤ 65536) && sha256 entry.2.payload == entry.2.sha256)
    "recovery checksum/cap"
  let model ← need (externals.json.fromSlice entry.2.payload) "invalid recovery"
  ensure (isStoredRecovery entry.1 model) "recovery identity"
  .ok model

theorem loadTokenRecovery_eq (map : TreeMap String Json) (entry : String × StoredRow) :
    loadTokenRecovery externals map entry =
      (ensure (decide (map.size < maxSourceTokenIdentities)) "stored recovery limit" >>= fun _ =>
        readRecovery externals entry >>= fun model => .ok (map.insert entry.1 model)) := by
  unfold loadTokenRecovery readRecovery
  simp only [bind_assoc]
  rfl

theorem loadTokenRecovery_inserts :
    TreeMap.Inserts (loadTokenRecovery externals) (readRecovery externals) := by
  intro map entry after stepped
  rw [loadTokenRecovery_eq] at stepped
  obtain ⟨_, _, model, read, stepped⟩ := bind₂_ok.mp stepped
  exact ⟨model, read, (ok.inj stepped).symm⟩

/-- A stored model can be read back when it is sound and within the limits. -/
theorem readRecovery_row_iff :
    readRecovery externals (token, externals.row model) = .ok found ↔
      found = model ∧ ModelSound token model ∧ Fits externals token model := by
  unfold readRecovery
  constructor
  · intro read
    obtain ⟨_, checked, other, parsed, _, stored, read⟩ := bind₃_ok.mp read
    cases read
    rw [need_ok, fromSlice_row] at parsed
    cases parsed
    have body := ensure_ok.mp checked
    rw [and_eq_true] at body
    exact ⟨rfl, (isStoredRecovery_iff (of_decide_eq_true body.1)).mp (ensure_ok.mp stored)⟩
  · rintro ⟨rfl, sound, fits⟩
    refine bind_ok.mpr ⟨(), ?_, bind_ok.mpr ⟨found, ?_, bind_ok.mpr ⟨(), ?_, rfl⟩⟩⟩
    · apply ensure_ok.mpr
      rw [and_eq_true]
      exact ⟨decide_eq_true fits.body, beq_self_eq_true _⟩
    · rw [need_ok, fromSlice_row]
    · exact ensure_ok.mpr ((isStoredRecovery_iff fits.body).mpr ⟨sound, fits⟩)

/-- The rows of a table are those of the models in memory. -/
def TableOf (externals : Externals) (table : TreeMap String StoredRow)
    (models : TreeMap String Json) : Prop :=
  ∀ token : String, table[token]? = models[token]?.map externals.row

theorem TableOf.size (same : TableOf externals table models) : table.size = models.size := by
  have mapped : table = models.map fun _ model => externals.row model := by
    refine TreeMap.ext_getElem? fun token => ?_
    rw [same token, TreeMap.getElem?_map]
  rw [mapped, Std.ExtTreeMap.size_map]

variable {index : Index}

section

variable (table : TableOf externals index.sourceTokenRecoveries models)
include table

/-- The load of a table of sound models succeeds with all of them when they fit and
are not too many, and not otherwise. -/
theorem loadTokenRecoveries_iff
    (sound : ∀ (token : String) model, models[token]? = some model → ModelSound token model) :
    (∃ result, loadTokenRecoveries externals index = .ok result ∧ result.size = models.size) ↔
      models.size ≤ recoveryQueryLimit ∧
        ∀ (token : String) model, models[token]? = some model → Fits externals token model := by
  unfold loadTokenRecoveries
  have distinct := TreeMap.pairwise_fst_toList index.sourceTokenRecoveries
  have count : index.sourceTokenRecoveries.toList.length = models.size := by
    rw [length_toList, table.size]
  constructor
  · rintro ⟨result, loaded, sized⟩
    have read := size_of_load loadTokenRecovery_inserts
      (distinct.sublist (take_sublist _ _)) (fun _ _ => not_mem_empty) loaded
    rw [sized, size_empty, length_take, count] at read
    have few : models.size ≤ recoveryQueryLimit := by omega
    refine ⟨few, ?_⟩
    rw [take_of_length_le (by rw [count]; exact few)] at loaded
    intro token model there
    have stored : index.sourceTokenRecoveries[token]? = some (externals.row model) := by
      rw [table token, there]
      rfl
    obtain ⟨found, parsed⟩ := TreeMap.readable_of_load loadTokenRecovery_inserts loaded
      (token, externals.row model) (mem_toList_iff_getElem?_eq_some.mpr stored)
    exact (readRecovery_row_iff.mp parsed).2.2
  · rintro ⟨few, fits⟩
    rw [take_of_length_le (by rw [count]; exact few)]
    obtain ⟨result, loaded⟩ : ∃ result, index.sourceTokenRecoveries.toList.foldlM
        (loadTokenRecovery externals) ∅ = .ok result := by
      refine exists_load (readRecovery externals) maxSourceTokenIdentities ?_ ?_ ?_
      · intro map entry loaded read small
        rw [loadTokenRecovery_eq]
        refine bind_ok.mpr ⟨(), ensure_ok.mpr (decide_eq_true small),
          bind_ok.mpr ⟨loaded, read, rfl⟩⟩
      · rintro ⟨token, row⟩ mem
        have stored := mem_toList_iff_getElem?_eq_some.mp mem
        rw [table token] at stored
        obtain ⟨model, there, rfl⟩ := map_eq_some_iff.mp stored
        exact ⟨model, readRecovery_row_iff.mpr ⟨rfl, sound token model there,
          fits token model there⟩⟩
      · rw [count, size_empty]
        unfold recoveryQueryLimit at few
        unfold maxSourceTokenIdentities
        omega
    refine ⟨result, loaded, ?_⟩
    rw [size_of_load loadTokenRecovery_inserts distinct
      (fun _ _ => not_mem_empty) loaded, count, size_empty,
      Nat.zero_add]

/-- A load that reads as many recoveries as there are reads the models. -/
theorem eq_of_loadTokenRecoveries
    (loaded : loadTokenRecoveries externals index = .ok result)
    (sized : result.size = models.size) :
    result = models := by
  unfold loadTokenRecoveries at loaded
  have distinct := TreeMap.pairwise_fst_toList index.sourceTokenRecoveries
  have count : index.sourceTokenRecoveries.toList.length = models.size := by
    rw [length_toList, table.size]
  have read := size_of_load loadTokenRecovery_inserts
    (distinct.sublist (take_sublist _ _)) (fun _ _ => not_mem_empty) loaded
  rw [sized, size_empty, length_take, count] at read
  rw [take_of_length_le (by rw [count]; omega)] at loaded
  refine TreeMap.ext_getElem? fun token => ?_
  rw [TreeMap.getElem?_of_load_toList loadTokenRecovery_inserts loaded, table token]
  cases there : models[token]? with
  | none => rfl
  | some model =>
    have stored : index.sourceTokenRecoveries[token]? = some (externals.row model) := by
      rw [table token, there]
      rfl
    obtain ⟨found, parsed⟩ := TreeMap.readable_of_load loadTokenRecovery_inserts loaded
      (token, externals.row model) (mem_toList_iff_getElem?_eq_some.mpr stored)
    obtain ⟨rfl, _⟩ := readRecovery_row_iff.mp parsed
    change (readRecovery externals (token, externals.row found)).toOption = some found
    rw [parsed]
    rfl

end

/-! ## Closed markets -/

/-- A market with a lifecycle row that is not in the cold catalog. -/
def Index.isFenced (index : Index) (market : String) : Bool :=
  index.marketLifecycle.contains market && !index.isCold market

theorem loadTerminalMarket_row
    (stored : row.toStoredRow = externals.row model) (terminal : isTerminalState model = true) :
    loadTerminalMarket externals result (market, row) = .ok (result.insert market) := by
  unfold loadTerminalMarket
  rw [stored, ← sha256_row, beq_self_eq_true, fromSlice_row]
  change Except.ok (if isTerminalState model then result.insert market else result) = _
  rw [if_pos terminal]

private theorem contains_foldl_insert
    (keys : List String) (start : TreeSet String) (market : String) :
    (keys.foldl (fun result key => result.insert key) start).contains market = true ↔
      market ∈ keys ∨ start.contains market = true := by
  induction keys generalizing start with
  | nil => simp
  | cons key keys ih =>
    rw [foldl_cons, ih, Std.ExtTreeSet.contains_insert]
    simp only [mem_cons, or_eq_true, beq_iff_eq, Std.LawfulEqCmp.compare_eq_iff_eq]
    constructor
    · rintro (later | same | before)
      · exact .inl (.inr later)
      · exact .inl (.inl same.symm)
      · exact .inr before
    · rintro ((same | later) | before)
      · exact .inr (.inl same.symm)
      · exact .inl later
      · exact .inr (.inr before)

/-- The load of the closed markets reads the fenced ones. -/
theorem exists_loadTerminalMarkets (sound : IndexSound externals index) :
    ∃ result, loadTerminalMarkets externals index = .ok result ∧
      ∀ market, result.contains market = index.isFenced market := by
  unfold loadTerminalMarkets
  have folded : ∀ (entries : List (String × LifecycleRow)) (start : TreeSet String),
      (∀ entry ∈ entries, index.marketLifecycle[entry.1]? = some entry.2) →
        entries.foldlM (loadTerminalMarket externals) start =
          .ok ((entries.map Prod.fst).foldl (fun result key => result.insert key) start) := by
    intro entries
    induction entries with
    | nil => exact fun _ _ => rfl
    | cons entry entries ih =>
      intro start stored
      obtain ⟨model, row, terminal⟩ := sound.lifecycle entry.1 entry.2 (stored entry mem_cons_self)
      apply foldlM_cons_ok.mpr
      refine ⟨start.insert entry.1, loadTerminalMarket_row row terminal, ?_⟩
      rw [ih _ fun other mem => stored other (mem_cons_of_mem _ mem)]
      rfl
  refine ⟨_, folded _ ∅ ?_, ?_⟩
  · intro entry mem
    exact mem_toList_iff_getElem?_eq_some.mp (mem_of_mem_filter mem)
  · intro market
    rw [Bool.eq_iff_iff, contains_foldl_insert]
    unfold Index.isFenced
    simp only [mem_map, mem_filter, and_eq_true, not_eq_true', TreeMap.contains_iff_mem]
    constructor
    · rintro (⟨⟨other, row⟩, ⟨mem, warm⟩, rfl⟩ | never)
      · have stored := mem_toList_iff_getElem?_eq_some.mp mem
        exact ⟨mem_iff_isSome_getElem?.mpr (by rw [stored]; rfl), warm⟩
      · rw [Std.ExtTreeSet.contains_empty] at never
        cases never
    · rintro ⟨there, warm⟩
      obtain ⟨row, stored⟩ := isSome_iff_exists.mp (mem_iff_isSome_getElem?.mp there)
      have mem := mem_toList_iff_getElem?_eq_some.mpr stored
      exact .inl ⟨(market, row), ⟨mem, warm⟩, rfl⟩

/-! ## Book health -/

/-- The value that the load of the book health reads from an entry. -/
def readBook (externals : Externals) (entry : String × BookRow) : Except String BookHealth := do
  let book ← need (externals.json.fromSlice entry.2.payload) "invalid book"
  BookHealth.fromBook externals entry.2.marketId book

theorem loadBook_eq (map : TreeMap String BookHealth) (entry : String × BookRow) :
    loadBook externals map entry =
      (readBook externals entry >>= fun health => .ok (map.insert entry.1 health)) := by
  unfold loadBook readBook
  simp only [bind_assoc]

theorem loadBook_inserts : TreeMap.Inserts (loadBook externals) (readBook externals) := by
  intro map entry after stepped
  rw [loadBook_eq] at stepped
  obtain ⟨health, read, stepped⟩ := bind_ok.mp stepped
  exact ⟨health, read, (ok.inj stepped).symm⟩

theorem toOption_readBook (token : String) (row : BookRow) :
    (readBook externals (token, row)).toOption = healthOf externals row := by
  unfold readBook healthOf
  cases externals.json.fromSlice row.payload with
  | none | some book => rfl

/-- The load of sound books reads the health of each of them. -/
theorem exists_loadHealth (sound : IndexSound externals index) :
    ∃ result, loadHealth externals index = .ok result ∧
      ∀ token : String, result[token]? = index.books[token]?.bind (healthOf externals) := by
  unfold loadHealth
  obtain ⟨result, loaded⟩ : ∃ result,
      index.books.toList.foldlM (loadBook externals) ∅ = .ok result := by
    refine exists_load (readBook externals) index.books.size ?_ ?_ ?_
    · intro map entry loaded read _
      rw [loadBook_eq]
      exact bind_ok.mpr ⟨loaded, read, rfl⟩
    · rintro ⟨token, row⟩ mem
      have stored := mem_toList_iff_getElem?_eq_some.mp mem
      obtain ⟨book, rowOf, healthy⟩ := sound.book token row stored
      refine ⟨_, bind_ok.mpr ⟨book, ?_, Fallible.eq_ok_get healthy⟩⟩
      rw [need_ok, rowOf, fromSlice_row]
    · rw [length_toList, size_empty, Nat.zero_add]
  refine ⟨result, loaded, fun token => ?_⟩
  rw [TreeMap.getElem?_of_load_toList loadBook_inserts loaded]
  simp only [toOption_readBook]

end Reading

/-! ## Stale recoveries -/

section Reconcile

variable {externals : Externals} {index : Index} {models : TreeMap String Json}
  {closed : TreeSet String}

/-- The recoveries of markets that are not closed. -/
def liveRecoveries (closed : TreeSet String) (models : TreeMap String Json) :
    TreeMap String Json :=
  models.filter fun _ recovery => !isStale closed recovery

variable {ν : Type}

theorem getElem?_filterValues (map : TreeMap String ν) (keep : ν → Bool) (key : String) :
    (map.filter fun _ value => keep value)[key]? = map[key]?.filter keep := by
  rw [Std.ExtTreeMap.getElem?_filter']

theorem isEmpty_iff_forall {map : TreeMap String ν} :
    map.isEmpty = true ↔ ∀ key : String, map[key]? = none := by
  constructor
  · intro blank key
    rw [TreeMap.isEmpty_iff.mp blank, getElem?_empty]
  · intro absent
    apply TreeMap.isEmpty_iff.mpr
    exact TreeMap.ext_getElem? fun key => by rw [absent key, getElem?_empty]

/-- Nothing is stale exactly when no recovery is of a closed market. -/
theorem stale_isEmpty_iff :
    (models.filter fun _ recovery => isStale closed recovery).isEmpty = true ↔
      ∀ (token : String) model, models[token]? = some model → isStale closed model = false := by
  rw [isEmpty_iff_forall]
  constructor
  · intro absent token model there
    have none := absent token
    rw [getElem?_filterValues, there, Option.filter_eq_none_iff] at none
    exact Bool.eq_false_iff.mpr (none model rfl)
  · intro live token
    rw [getElem?_filterValues, Option.filter_eq_none_iff]
    intro model there
    rw [live token model there]
    exact Bool.false_ne_true

section

variable (live : ∀ (token : String) model, models[token]? = some model → isStale closed model = false)
include live

theorem liveRecoveries_eq_self :
    liveRecoveries closed models = models := by
  refine TreeMap.ext_getElem? fun token => ?_
  unfold liveRecoveries
  rw [getElem?_filterValues]
  cases there : models[token]? with
  | none => rfl
  | some model => simp [live token model there]

theorem reconcile_eq_self :
    index.reconcile closed models = index := by
  unfold Index.reconcile
  rw [if_pos (stale_isEmpty_iff.mpr live)]

end

/-- Dropping stale recoveries changes their table and their number. -/
theorem reconcile_frame (index : Index) (models : TreeMap String Json) (closed : TreeSet String) :
    index.reconcile closed models =
      { index with
        sourceTokenRecoveries := (index.reconcile closed models).sourceTokenRecoveries
        metadata :=
          { index.metadata with
            unresolvedGapCount :=
              (index.reconcile closed models).metadata.unresolvedGapCount } } := by
  unfold Index.reconcile
  dsimp only
  split <;> rfl

theorem reconcile_table
    (closed : TreeSet String) (table : TableOf externals index.sourceTokenRecoveries models)
    (counted : index.metadata.unresolvedGapCount = models.size) :
    TableOf externals (index.reconcile closed models).sourceTokenRecoveries
        (liveRecoveries closed models) ∧
      (index.reconcile closed models).metadata.unresolvedGapCount =
        (liveRecoveries closed models).size := by
  by_cases live : (models.filter fun _ recovery => isStale closed recovery).isEmpty = true
  · rw [reconcile_eq_self (stale_isEmpty_iff.mp live),
      liveRecoveries_eq_self (stale_isEmpty_iff.mp live)]
    exact ⟨table, counted⟩
  · unfold Index.reconcile
    rw [if_neg live]
    refine ⟨?_, rfl⟩
    intro token
    rw [getElem?_filterKeys]
    unfold liveRecoveries
    rw [getElem?_filterValues, table token]
    cases there : models[token]? with
    | none => simp
    | some model =>
      have mem : (models.filter fun _ recovery => isStale closed recovery).contains token =
          isStale closed model := by
        rw [Bool.eq_iff_iff, TreeMap.contains_iff_mem,
          mem_iff_isSome_getElem?, getElem?_filterValues, there]
        cases staleness : isStale closed model <;> simp [staleness]
      rw [mem]
      cases staleness : isStale closed model <;> simp [staleness]

end Reconcile

/-! ## The boundary -/

section Boundary

variable {externals : Externals} {files : Files} {maximumBatchBytes : Nat}
  {recoveries : TreeMap String Json} {index : Index}

/-- A sound log is accepted when it ends where the index says and its last line is
within the budget of a batch. -/
theorem checkLogTail_iff
    (sound : LogSound log index) (cursor : index.metadata.latestCursor < 2 ^ 63) :
    checkLogTail maximumBatchBytes log index = .ok () ↔
      log.length = index.metadata.eventLogSize ∧
        ∀ row, index.eventOffsets[index.metadata.latestCursor]? = some row →
          row.byteLength ≤ maximumBatchBytes := by
  unfold checkLogTail
  constructor
  · intro checked
    obtain ⟨_, sized, checked⟩ := bind_ok.mp checked
    refine ⟨beq_iff_eq.mp (ensure_ok.mp sized), ?_⟩
    intro row there
    by_cases start : index.metadata.latestCursor = 0
    · exact absurd (sound.keys _ row there).1 (by omega)
    · rw [if_neg start] at checked
      obtain ⟨_, _, other, found, _, bounded, _⟩ := bind₃_ok.mp checked
      obtain rfl := some.inj (there.symm.trans (need_ok.mp found))
      have facts := ensure_ok.mp bounded
      rw [and_eq_true] at facts
      exact of_decide_eq_true facts.1
  · rintro ⟨sized, short⟩
    refine bind_ok.mpr ⟨(), ensure_ok.mpr (beq_iff_eq.mpr sized), ?_⟩
    by_cases start : index.metadata.latestCursor = 0
    · rw [if_pos start]
    · rw [if_neg start]
      obtain ⟨row, there⟩ := sound.rows _ (Nat.pos_of_ne_zero start) le_rfl
      refine bind_ok.mpr ⟨(), ensure_ok.mpr (decide_eq_true cursor),
        bind_ok.mpr ⟨row, need_ok.mpr there, bind_ok.mpr ⟨(), ensure_ok.mpr ?_, ensure_ok.mpr ?_⟩⟩⟩
      · rw [and_eq_true]
        exact ⟨decide_eq_true (short row there), beq_iff_eq.mpr (sound.last row there)⟩
      · exact beq_iff_eq.mpr (sound.hash _ row there)

/-- A sound history is accepted when it still holds the last event. -/
theorem checkHistory_iff
    (sound : HistorySound history index) (cursor : index.metadata.latestCursor < 2 ^ 63)
    (noRecoveries : index.sourceTokenRecoveries.isEmpty = true → recoveries.isEmpty = true) :
    checkHistory history index recoveries = .ok () ↔
      (index.metadata.latestCursor ≠ 0 →
        history.historyFloorCursor < index.metadata.latestCursor) := by
  unfold checkHistory
  by_cases start : index.metadata.latestCursor = 0
  · rw [if_pos start]
    have nothing : ∀ key : Nat, index.recentEvents[key]? = none := by
      intro key
      refine Option.eq_none_iff_forall_ne_some.mpr fun row there => ?_
      have place := (sound.rows key).mp ⟨row, there⟩
      omega
    have blank : index.recentEvents = ∅ := TreeMap.ext_getElem? fun key => by
      rw [nothing key, getElem?_empty]
    have bytes := sound.bytes
    have floor := sound.floor
    obtain ⟨size, books, table⟩ := sound.blank start
    rw [blank] at bytes ⊢
    have latest : (∅ : TreeMap Nat StoredRow).lastKey? = none :=
      TreeMap.lastKey?_eq_none_iff.mpr Std.ExtTreeMap.isEmpty_empty
    constructor
    · exact fun _ other => absurd start other
    · intro _
      refine bind_ok.mpr ⟨(), ensure_ok.mpr ?_, ensure_ok.mpr ?_⟩
      · rw [latest, size, ← bytes]
        unfold recentBytes
        rw [TreeMap.sum_empty]
        simp only [Option.isNone_none, beq_self_eq_true, Bool.and_self, Bool.true_and, beq_iff_eq]
        omega
      · rw [books, noRecoveries table]
        rfl
  · rw [if_neg start]
    constructor
    · intro checked _
      obtain ⟨_, latest, _⟩ := bind_ok.mp checked
      have last := beq_iff_eq.mp (ensure_ok.mp latest)
      exact ((sound.rows _).mp (TreeMap.lastKey?_eq_some_iff.mp last).1).1
    · intro kept
      have inside := kept start
      obtain ⟨row, there⟩ := (sound.rows _).mpr ⟨inside, le_rfl⟩
      refine bind_ok.mpr ⟨(), ensure_ok.mpr (beq_iff_eq.mpr ?_),
        bind_ok.mpr ⟨(), ensure_ok.mpr (decide_eq_true cursor),
          bind_ok.mpr ⟨row, need_ok.mpr there,
            bind_ok.mpr ⟨(), ensure_ok.mpr
              (beq_iff_eq.mpr (sound.hash _ row there)), ensure_ok.mpr ?_⟩⟩⟩⟩
      · apply TreeMap.lastKey?_eq_some_iff.mpr
        refine ⟨⟨row, there⟩, ?_⟩
        intro other value present
        exact ((sound.rows other).mp ⟨value, present⟩).2
      · rw [and_eq_true]
        refine ⟨beq_iff_eq.mpr sound.bytes, beq_iff_eq.mpr ?_⟩
        apply TreeMap.firstKey?_eq_some_iff.mpr
        refine ⟨(sound.rows _).mpr ⟨Nat.lt_succ_self _, inside⟩, ?_⟩
        intro other value present
        exact ((sound.rows other).mp ⟨value, present⟩).1

end Boundary

/-! ## The opened writer -/

section Opened

variable {externals : Externals} {files : Files} {maximumBatchBytes : Nat}
  {models : TreeMap String Json} {writer : Writer}

/-- The models of the stored recoveries. -/
structure Models (externals : Externals) (index : Index) (models : TreeMap String Json) : Prop where
  table : TableOf externals index.sourceTokenRecoveries models
  sound : ∀ (token : String) model, models[token]? = some model → ModelSound token model

theorem exists_models (sound : IndexSound externals index) :
    ∃ models, Models externals index models := by
  refine ⟨index.sourceTokenRecoveries.map fun _ row =>
    (externals.json.fromSlice row.payload).getD .null, ?_, ?_⟩
  · intro token
    rw [TreeMap.getElem?_map]
    cases there : index.sourceTokenRecoveries[token]? with
    | none => rfl
    | some row =>
      obtain ⟨model, rfl, _⟩ := sound.recovery token row there
      rw [map_some, fromSlice_row]
      rfl
  · intro token model there
    rw [TreeMap.getElem?_map] at there
    obtain ⟨row, stored, read⟩ := map_eq_some_iff.mp there
    obtain ⟨other, rfl, modelSound⟩ := sound.recovery token row stored
    rw [fromSlice_row] at read
    obtain rfl : other = model := read
    exact modelSound

/-- What the files must meet to be opened, beyond being sound. -/
structure Openable
    (externals : Externals) (maximumBatchBytes : Nat) (files : Files)
    (models : TreeMap String Json) : Prop where
  positive : 0 < maximumBatchBytes
  few : models.size ≤ recoveryQueryLimit
  fits : ∀ (token : String) model, models[token]? = some model → Fits externals token model
  logTail : files.index.metadata.history = none →
    files.log.length = files.index.metadata.eventLogSize ∧
      ∀ row, files.index.eventOffsets[files.index.metadata.latestCursor]? = some row →
        row.byteLength ≤ maximumBatchBytes
  newest : ∀ history, files.index.metadata.history = some history →
    files.index.metadata.latestCursor ≠ 0 →
      history.historyFloorCursor < files.index.metadata.latestCursor

/-- The writer that opening sound files makes. -/
structure Opened
    (externals : Externals) (maximumBatchBytes : Nat) (files : Files) (models : TreeMap String Json)
    (writer : Writer) : Prop where
  closed : ∀ market, writer.terminalMarkets.contains market = files.index.isFenced market
  written : writer.files =
    { files with
      index := files.index.reconcile writer.terminalMarkets models
      pending := false }
  recoveries : writer.recoveries = liveRecoveries writer.terminalMarkets models
  health : ∀ token : String,
    writer.health[token]? = files.index.books[token]?.bind (healthOf externals)
  budget : writer.maximumBatchBytes = maximumBatchBytes
  usable : writer.poisoned = false
  historyLimit : writer.historyLimit =
    files.index.metadata.history.map HistoryMetadata.boundedHistoryBytes
  tokenMarkets : writer.tokenMarkets = writer.health.map fun _ summary => summary.marketId

theorem reconcile_metadata_history
    (index : Index) (closed : TreeSet String) (models : TreeMap String Json) :
    (index.reconcile closed models).metadata.history = index.metadata.history := by
  rw [reconcile_frame]

/-- The table of the recoveries that stay is empty when the table was. -/
theorem isEmpty_of_table
    {table : TreeMap String StoredRow} (same : TableOf externals table models) :
    table.isEmpty = models.isEmpty := by
  rw [Bool.eq_iff_iff, isEmpty_iff_forall, isEmpty_iff_forall]
  refine forall_congr' fun token => ?_
  rw [same token, map_eq_none_iff]

theorem isEmpty_liveRecoveries {closed : TreeSet String} (blank : models.isEmpty = true) :
    (liveRecoveries closed models).isEmpty = true := by
  rw [isEmpty_iff_forall] at blank ⊢
  intro token
  unfold liveRecoveries
  rw [getElem?_filterValues, blank token]
  rfl

/-- Sound files stay sound when stale recoveries are dropped. -/
theorem FilesSound.reconcile
    (sound : FilesSound externals files) (stored : Models externals files.index models)
    (closed : TreeSet String) (pending : Bool) :
    FilesSound externals
      { files with index := files.index.reconcile closed models, pending := pending } := by
  have counted : files.index.metadata.unresolvedGapCount = models.size := by
    rw [sound.index.gapCount, stored.table.size]
  obtain ⟨table, count⟩ := reconcile_table closed stored.table counted
  have frame := reconcile_frame files.index models closed
  have metadata := congrArg Index.metadata frame
  have liveSound : ∀ (token : String) model,
      (liveRecoveries closed models)[token]? = some model → ModelSound token model := by
    intro token model there
    unfold liveRecoveries at there
    rw [getElem?_filterValues, Option.filter_eq_some_iff] at there
    exact stored.sound token model there.1
  refine ⟨⟨?_, ?_, ?_, ?_, ?_, ?_, ?_, ?_⟩, ?_⟩
  · rw [metadata]
    exact sound.index.schema
  · have gaps := congrArg Index.unresolvedGaps frame
    rw [gaps]
    exact sound.index.gaps
  · rw [metadata]
    exact sound.index.cursor
  · rw [count]
    exact table.size.symm
  · intro token row there
    rw [table token] at there
    obtain ⟨model, present, rfl⟩ := map_eq_some_iff.mp there
    exact ⟨model, rfl, liveSound token model present⟩
  · have lifecycle := congrArg Index.marketLifecycle frame
    rw [lifecycle]
    exact sound.index.lifecycle
  · have books := congrArg Index.books frame
    rw [books]
    exact sound.index.book
  · have books := congrArg Index.books frame
    rw [books]
    exact sound.index.names
  · have events := sound.events
    unfold EventsSound at events ⊢
    rw [reconcile_metadata_history]
    cases mode : files.index.metadata.history with
    | none =>
      rw [mode] at events
      have offsets := congrArg Index.eventOffsets frame
      refine ⟨?_, ?_, ?_, ?_, ?_, ?_⟩
      · rw [metadata]
        exact events.size
      · rw [metadata, offsets]
        exact events.rows
      · rw [metadata, offsets]
        exact events.keys
      · rw [metadata, offsets]
        exact events.within
      · rw [offsets]
        exact events.hash
      · rw [metadata, offsets]
        exact events.last
    | some history =>
      rw [mode] at events
      have recent := congrArg Index.recentEvents frame
      have books := congrArg Index.books frame
      refine ⟨?_, ?_, ?_, ?_, ?_⟩
      · rw [metadata]
        exact events.floor
      · rw [metadata, recent]
        exact events.rows
      · rw [recent]
        exact events.hash
      · rw [recent]
        exact events.bytes
      · rw [isEmpty_of_table table, metadata, books]
        intro start
        obtain ⟨size, noBooks, noRecoveries⟩ := events.blank start
        rw [isEmpty_of_table stored.table] at noRecoveries
        exact ⟨size, noBooks, isEmpty_liveRecoveries noRecoveries⟩

/-- The boundary of sound files after stale recoveries are dropped. -/
theorem checkBoundary_reconcile_iff (maximumBatchBytes : Nat) (sound : FilesSound externals files)
    (stored : Models externals files.index models) (closed : TreeSet String) :
    checkBoundary maximumBatchBytes files.log (files.index.reconcile closed models)
        (liveRecoveries closed models) = .ok () ↔
      (files.index.metadata.history = none →
        files.log.length = files.index.metadata.eventLogSize ∧
          ∀ row, files.index.eventOffsets[files.index.metadata.latestCursor]? = some row →
            row.byteLength ≤ maximumBatchBytes) ∧
      ∀ history, files.index.metadata.history = some history →
        files.index.metadata.latestCursor ≠ 0 →
          history.historyFloorCursor < files.index.metadata.latestCursor := by
  have after := sound.reconcile stored closed files.pending
  have counted : files.index.metadata.unresolvedGapCount = models.size := by
    rw [sound.index.gapCount, stored.table.size]
  obtain ⟨table, _⟩ := reconcile_table closed stored.table counted
  have frame := reconcile_frame files.index models closed
  have metadata := congrArg Index.metadata frame
  have offsets := congrArg Index.eventOffsets frame
  have events := after.events
  have cursor := after.index.cursor
  unfold EventsSound at events
  unfold checkBoundary
  rw [reconcile_metadata_history] at events ⊢
  cases mode : files.index.metadata.history with
  | none =>
    rw [mode] at events
    rw [checkLogTail_iff events cursor, metadata, offsets]
    constructor
    · intro tail
      exact ⟨fun _ => tail, fun _ never => nomatch never⟩
    · rintro ⟨tail, _⟩
      exact tail rfl
  | some history =>
    rw [mode] at events
    rw [checkHistory_iff events cursor fun blank => (isEmpty_of_table table) ▸ blank, metadata]
    constructor
    · intro newest
      refine ⟨nofun, ?_⟩
      intro other same
      cases same
      exact newest
    · rintro ⟨_, newest⟩
      exact newest history rfl

theorem readRecoveries_iff (maximumBatchBytes : Nat) (sound : IndexSound externals files.index)
    (stored : Models externals files.index models) :
    (∃ result, readRecoveries externals maximumBatchBytes files.index = .ok result) ↔
      0 < maximumBatchBytes ∧ models.size ≤ recoveryQueryLimit ∧
        ∀ (token : String) model, models[token]? = some model → Fits externals token model := by
  have counted : files.index.metadata.unresolvedGapCount = models.size := by
    rw [sound.gapCount, stored.table.size]
  rw [← loadTokenRecoveries_iff stored.table stored.sound]
  unfold readRecoveries
  constructor
  · rintro ⟨result, read⟩
    obtain ⟨_, positive, _, _, read⟩ := bind₂_ok.mp read
    obtain ⟨recoveries, loaded, _, sized, read⟩ := bind₂_ok.mp read
    have same := beq_iff_eq.mp (ensure_ok.mp sized)
    exact ⟨of_decide_eq_true (ensure_ok.mp positive), recoveries, loaded, same.symm.trans counted⟩
  · rintro ⟨positive, recoveries, loaded, sized⟩
    obtain ⟨closed, closedLoaded, _⟩ := exists_loadTerminalMarkets sound
    refine ⟨(recoveries, closed), ?_⟩
    refine bind_ok.mpr ⟨(), ensure_ok.mpr (decide_eq_true positive),
      bind_ok.mpr ⟨(), ensure_ok.mpr (beq_iff_eq.mpr sound.schema),
        bind_ok.mpr ⟨recoveries, loaded,
          bind_ok.mpr ⟨(), ensure_ok.mpr ?_,
            bind_ok.mpr ⟨(), ensure_ok.mpr ?_, bind_ok.mpr ⟨closed, closedLoaded, rfl⟩⟩⟩⟩⟩⟩
    · rw [counted, sized]
      exact beq_self_eq_true _
    · rw [sound.gaps]
      rfl

/-- What opening reads first: the stored models and the fenced markets. -/
theorem readRecoveries_ok
    (sound : IndexSound externals files.index) (stored : Models externals files.index models)
    (read : readRecoveries externals maximumBatchBytes files.index = .ok result) :
    result.1 = models ∧ ∀ market, result.2.contains market = files.index.isFenced market := by
  have counted : files.index.metadata.unresolvedGapCount = models.size := by
    rw [sound.gapCount, stored.table.size]
  unfold readRecoveries at read
  iterate 2 obtain ⟨_, _, read⟩ := bind_ok.mp read
  obtain ⟨recoveries, loaded, _, sized, read⟩ := bind₂_ok.mp read
  obtain ⟨_, _, closed, closedLoaded, read⟩ := bind₂_ok.mp read
  cases read
  have same := beq_iff_eq.mp (ensure_ok.mp sized)
  obtain ⟨other, otherLoaded, fenced⟩ := exists_loadTerminalMarkets sound
  obtain rfl := ok.inj (closedLoaded.symm.trans otherLoaded)
  exact ⟨eq_of_loadTokenRecoveries stored.table loaded (same.symm.trans counted), fenced⟩

/-- Sound files are opened exactly when they are openable, and the writer is the one
they describe. What a failed attempt leaves is sound. -/
theorem openWriter_spec (maximumBatchBytes : Nat) (sound : FilesSound externals files)
    (stored : Models externals files.index models) :
    ((∃ writer, (openWriter externals maximumBatchBytes files).1 = .ok writer) ↔
        Openable externals maximumBatchBytes files models) ∧
      (∀ writer, (openWriter externals maximumBatchBytes files).1 = .ok writer →
        Opened externals maximumBatchBytes files models writer ∧
          (openWriter externals maximumBatchBytes files).2 = writer.files) ∧
      FilesSound externals (openWriter externals maximumBatchBytes files).2 := by
  have readable := readRecoveries_iff maximumBatchBytes sound.index stored
  unfold openWriter
  cases read : readRecoveries externals maximumBatchBytes files.index with
  | error cause =>
    refine ⟨?_, nofun, sound⟩
    constructor
    · rintro ⟨_, never⟩
      cases never
    · intro openable
      obtain ⟨result, other⟩ := readable.mpr ⟨openable.positive, openable.few, openable.fits⟩
      rw [read] at other
      cases other
  | ok result =>
    obtain ⟨loaded, closed⟩ := result
    obtain ⟨sameModels, fenced⟩ := readRecoveries_ok sound.index stored read
    subst sameModels
    obtain ⟨positive, few, fits⟩ := readable.mp ⟨_, read⟩
    have after := sound.reconcile stored closed
    obtain ⟨health, healthLoaded, healthSound⟩ := exists_loadHealth (after files.pending).index
    have books := congrArg Index.books (reconcile_frame files.index loaded closed)
    dsimp only at healthLoaded healthSound ⊢
    rw [books] at healthSound
    have boundary := checkBoundary_reconcile_iff maximumBatchBytes sound stored closed
    unfold liveRecoveries at boundary
    cases checked : checkBoundary maximumBatchBytes files.log (files.index.reconcile closed loaded)
        (loaded.filter fun _ recovery => !isStale closed recovery) with
    | error cause =>
      rw [checked] at boundary
      refine ⟨?_, nofun, after files.pending⟩
      constructor
      · rintro ⟨_, never⟩
        cases never
      · intro openable
        have never := boundary.mpr ⟨openable.logTail, openable.newest⟩
        cases never
    | ok _ =>
      rw [checked] at boundary
      obtain ⟨logTail, newest⟩ := boundary.mp rfl
      have whole : (.ok () >>= fun _ =>
          loadHealth externals (files.index.reconcile closed loaded)) = .ok health :=
        healthLoaded
      rw [whole]
      refine ⟨?_, ?_, after false⟩
      · constructor
        · intro _
          exact ⟨positive, few, fits, logTail, newest⟩
        · intro _
          exact ⟨_, rfl⟩
      · intro writer made
        cases made
        refine ⟨⟨fenced, rfl, rfl, healthSound, rfl, rfl, ?_, rfl⟩, rfl⟩
        rw [reconcile_metadata_history]

end Opened

end MarketCow.Discovery
