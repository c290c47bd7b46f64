import MarketCow.Discovery.EventStores

/-!
# Commits keep the invariants

The rest of the transaction after the events, the writer after a commit, and every
way in which a commit ends.
-/

namespace MarketCow.Discovery

open Library List
open Library.Fallible (foldlM_invariant)

/-! ## Groups -/

/-- What the groups change. -/
def GroupsFrame (before after : Index) : Prop :=
  after =
    { before with
      marketStreams := after.marketStreams
      marketGroups := after.marketGroups
      marketNativeGroups := after.marketNativeGroups
      marketNativeStreams := after.marketNativeStreams }

theorem GroupsFrame.refl (index : Index) : GroupsFrame index index := rfl

theorem GroupsFrame.trans (before : GroupsFrame first second) (after : GroupsFrame second third) :
    GroupsFrame first third := by
  unfold GroupsFrame at before after ⊢
  rw [after, before]

variable {before after : Index}

theorem groupsFrame_storeGroup (stored : storeGroup before group = .ok after) :
    GroupsFrame before after := by
  unfold storeGroup at stored
  iterate 4 obtain ⟨_, _, stored⟩ := bind_ok.mp stored
  cases native : group.nativeCursor with
  | false =>
    rw [native, if_neg Bool.false_ne_true] at stored
    obtain ⟨middle, same, stored⟩ := bind_ok.mp stored
    cases same
    cases stored
    rfl
  | true =>
    rw [native, if_pos rfl] at stored
    obtain ⟨middle, nativeStored, stored⟩ := bind_ok.mp stored
    cases stored
    unfold storeNativeGroup at nativeStored
    iterate 4 obtain ⟨_, _, nativeStored⟩ := bind_ok.mp nativeStored
    cases nativeStored
    rfl

theorem groupsFrame_of_foldlM
    {groups : List MarketGroupProof} (stored : groups.foldlM storeGroup before = .ok after) :
    GroupsFrame before after := by
  refine foldlM_invariant (GroupsFrame before) ?_ (GroupsFrame.refl before) stored
  intro middle group _ next kept step
  exact kept.trans (groupsFrame_storeGroup step)

/-! ## Recoveries -/

section Recoveries

variable {externals : Externals} {before after : TreeMap String Json}
  {table : TreeMap String StoredRow}

private theorem getElem?_foldl_store (entries : List (String × Json))
    (distinct : entries.Pairwise fun first second => first.1 ≠ second.1)
    (start : TreeMap String StoredRow) (token : String) :
    (entries.foldl
      (fun table entry =>
        if before[entry.1]? = some entry.2 then table
        else table.insert entry.1 (externals.row entry.2))
      start)[token]? = match entries.find? fun entry => entry.1 == token with
        | none => start[token]?
        | some entry =>
          if before[entry.1]? = some entry.2 then start[token]?
          else some (externals.row entry.2) := by
  induction entries generalizing start with
  | nil => rfl
  | cons entry entries ih =>
    obtain ⟨apart, distinct⟩ := pairwise_cons.mp distinct
    rw [foldl_cons, ih distinct, find?_cons]
    by_cases same : entry.1 = token
    · subst same
      have absent : entries.find? (fun other => other.1 == entry.1) = none := by
        apply find?_eq_none.mpr
        intro other mem equal
        exact apart other mem (beq_iff_eq.mp equal).symm
      rw [absent, beq_self_eq_true]
      dsimp only
      split
      · rfl
      · rw [TreeMap.getElem?_insert_eq, if_pos rfl]
    · rw [beq_eq_false_iff_ne.mpr same]
      have kept : (if before[entry.1]? = some entry.2 then start
          else start.insert entry.1 (externals.row entry.2))[token]? = start[token]? := by
        split
        · rfl
        · rw [TreeMap.getElem?_insert_eq, if_neg same]
      rw [kept]

/-- The table holds the rows of the recoveries after a commit when it held those
before. -/
theorem tableOf_storeRecoveries (stored : TableOf externals table before) :
    TableOf externals (storeRecoveries externals before after table) after := by
  intro token
  unfold storeRecoveries
  rw [getElem?_foldl_store _ (TreeMap.pairwise_fst_toList after), TreeMap.getElem?_foldl_erase]
  cases there : after[token]? with
  | none =>
    have absent : after.toList.find? (fun entry => entry.1 == token) = none := by
      apply find?_eq_none.mpr
      rintro ⟨other, model⟩ mem same
      obtain rfl := beq_iff_eq.mp same
      rw [mem_toList_iff_getElem?_eq_some, there] at mem
      cases mem
    rw [absent]
    dsimp only
    cases old : before[token]? with
    | none =>
      rw [stored token, old]
      split <;> rfl
    | some model =>
      have gone : token ∈ before.keyList.filter fun token => !after.contains token := by
        rw [mem_filter, TreeMap.mem_keyList, not_eq_true', contains_eq_isSome_getElem?, there]
        exact ⟨⟨model, old⟩, rfl⟩
      rw [if_pos gone]
      rfl
  | some model =>
    have found : after.toList.find? (fun entry => entry.1 == token) = some (token, model) := by
      cases search : after.toList.find? fun entry => entry.1 == token with
      | none =>
        have mem := mem_toList_iff_getElem?_eq_some.mpr there
        exact absurd (beq_self_eq_true token) (find?_eq_none.mp search _ mem)
      | some entry =>
        obtain ⟨other, value⟩ := entry
        have mem := mem_of_find?_eq_some search
        have same := find?_some search
        obtain rfl := beq_iff_eq.mp same
        rw [mem_toList_iff_getElem?_eq_some, there] at mem
        cases mem
        rfl
    rw [found]
    dsimp only
    split
    · rename_i unchanged
      have kept : token ∉ before.keyList.filter fun token => !after.contains token := by
        rw [mem_filter]
        rintro ⟨_, absent⟩
        rw [contains_eq_isSome_getElem?, there] at absent
        cases absent
      rw [if_neg kept, stored token, unchanged]
    · rfl

end Recoveries

/-! ## Recoveries stay sound -/

section Models

variable {externals : Externals}

/-- What an event of a commit is like for the recoveries. -/
structure EventBound
    (tokenMarkets : TreeMap String String) (event : Json) : Prop where
  cursor : ∃ value, (field event "cursor").asU64? = some value ∧ 0 < value
  recovery : isTokenRecovery event = true → RecoverySound event ∧
    ∃ token market, required event "token_id" = .ok token ∧
      required event "market_id" = .ok market ∧ tokenMarkets[token]? = some market

def ModelsSound (models : TreeMap String Json) : Prop :=
  ∀ (token : String) model, models[token]? = some model → ModelSound token model

theorem ModelsSound.erase (sound : ModelsSound models) (token : String) :
    ModelsSound (models.erase token) := by
  intro other model there
  rw [TreeMap.getElem?_erase_eq] at there
  split at there
  · cases there
  · exact sound other model there

theorem ModelSound.withSnapshot
    (sound : ModelSound token model) (taken : cursor.asU64? = some value) (positive : 0 < value) :
    ModelSound token (setField model "snapshot_cursor" cursor) := by
  refine ⟨asObject?_setField sound.isObject, sound.some_token, ?_, ?_, ?_, ?_, ?_, ?_, ?_, ?_, ?_⟩
  · rw [field_setField_of_ne sound.isObject (by decide)]
    exact sound.tokenId
  · rw [field_setField_of_ne sound.isObject (by decide)]
    exact sound.gapTokenId
  · rw [field_setField_of_ne sound.isObject (by decide)]
    exact sound.gapResolved
  · rw [field_setField_of_ne sound.isObject (by decide)]
    exact sound.gapCode
  · rw [field_setField_of_ne sound.isObject (by decide)]
    exact sound.gapDetectedAt
  · rw [field_setField_of_ne sound.isObject (by decide)]
    exact sound.marketId
  · rw [field_setField_of_ne sound.isObject (by decide)]
    exact sound.conditionId
  · rw [field_setField_of_ne sound.isObject (by decide)]
    exact sound.recoveryId
  · rw [field_setField_self sound.isObject]
    exact .inr ⟨value, taken, positive⟩

variable {tokenMarkets : TreeMap String String} {event : Json}

theorem modelSound_recoveryModel
    (names : ∀ (token : String) market, tokenMarkets[token]? = some market →
      token ≠ "" ∧ market ≠ "")
    (bound : EventBound tokenMarkets event)
    (recovers : isTokenRecovery event = true)
    (started : field event "event_type" = .string "recovery_started")
    (named : required event "token_id" = .ok token) :
    ModelSound token (recoveryModel token event) := by
  obtain ⟨recovery, other, market, otherNamed, marketNamed, owned⟩ := bound.recovery recovers
  obtain rfl := ok.inj (named.symm.trans otherNamed)
  obtain ⟨someToken, someMarket⟩ := names token market owned
  obtain ⟨gapToken, gapResolved, gapCode, gapDetected⟩ := recovery.gap started token named
  have marketField : field (recoveryModel token event) "market_id" = .string market :=
    (field_of_required marketNamed : field event "market_id" = _)
  exact ⟨rfl, someToken, rfl, gapToken, gapResolved, gapCode, gapDetected,
    ⟨market, marketField, someMarket⟩, recovery.conditionId, recovery.recoveryId, .inl rfl⟩

variable {models after : TreeMap String Json}

section

variable (sound : ModelsSound models)
  (names : ∀ (token : String) market, tokenMarkets[token]? = some market → token ≠ "" ∧ market ≠ "")
include sound names

/-- One event keeps the recoveries sound. -/
theorem ModelsSound.apply
    (bound : EventBound tokenMarkets event)
    (applied : applyTokenRecovery models event = .ok after) :
    ModelsSound after := by
  unfold applyTokenRecovery at applied
  by_cases snapshot : isFullSnapshot event = true
  · rw [if_pos snapshot] at applied
    obtain ⟨token, named, applied⟩ := bind_ok.mp applied
    cases there : models[token]? with
    | none =>
      rw [there] at applied
      cases applied
      exact sound
    | some current =>
      rw [there] at applied
      cases applied
      obtain ⟨value, taken, positive⟩ := bound.cursor
      intro other model found
      rw [TreeMap.getElem?_insert_eq] at found
      split at found
      · rename_i same
        subst same
        cases found
        exact (sound token current there).withSnapshot taken positive
      · exact sound other model found
  · rw [if_neg snapshot] at applied
    by_cases recovers : isTokenRecovery event = true
    · rw [if_pos recovers] at applied
      obtain ⟨token, named, applied⟩ := bind_ok.mp applied
      by_cases started : field event "event_type" = .string "recovery_started"
      · rw [if_pos (beq_iff_eq.mpr started)] at applied
        obtain ⟨_, _, applied⟩ := bind_ok.mp applied
        cases applied
        intro other model found
        rw [TreeMap.getElem?_insert_eq] at found
        split at found
        · rename_i same
          subst same
          cases found
          exact modelSound_recoveryModel names bound recovers started named
        · exact sound other model found
      · rw [if_neg fun same => started (beq_iff_eq.mp same)] at applied
        iterate 2 obtain ⟨_, _, applied⟩ := bind_ok.mp applied
        cases applied
        exact sound.erase token
    · rw [if_neg recovers] at applied
      cases applied
      exact sound

/-- A batch keeps the recoveries sound. -/
theorem ModelsSound.next
    (bound : ∀ event ∈ events, EventBound tokenMarkets event)
    (taken : nextRecoveries terminal events models = .ok after) :
    ModelsSound after := by
  unfold nextRecoveries at taken
  obtain ⟨middle, retired, applied⟩ := bind_ok.mp taken
  have middleSound : ModelsSound middle := by
    unfold retireRecoveries at retired
    cases terminal with
    | false =>
      rw [if_neg Bool.false_ne_true] at retired
      cases retired
      exact sound
    | true =>
      rw [if_pos rfl] at retired
      obtain ⟨first, _, tokens, _, retired⟩ := bind₂_ok.mp retired
      refine foldlM_invariant ModelsSound ?_ sound retired
      intro state token _ next kept step
      obtain ⟨name, _, step⟩ := bind_ok.mp step
      cases step
      exact kept.erase name
  refine foldlM_invariant ModelsSound ?_ middleSound applied
  intro state event mem next kept step
  exact kept.apply names (bound event mem) step

end

end Models

end MarketCow.Discovery
