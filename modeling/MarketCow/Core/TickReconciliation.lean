import MarketCow.Core.Settlement

/-!
# Reconciling instrument ticks

A reconciliation edits the instrument facts of active markets and nothing else.
When it succeeds, every market whose two books share a tick carries this tick,
and every public market with facts is such a market; when it fails it changes
nothing, and some public market with facts is not.
-/

namespace MarketCow.Core

open Library

/-- A market without the tick of its instrument facts and their revision. -/
def MarketRecord.identity (market : MarketRecord) : MarketRecord :=
  { market with
    instrumentFacts := market.instrumentFacts.map fun facts =>
      { facts with
        priceIncrement := 0
        revision := "" } }

/-- Every market is stored under its own name. -/
def CanonicalState.Keyed (state : CanonicalState) : Prop :=
  ∀ (marketId : String) (market : MarketRecord),
    state.markets[marketId]? = some market → market.marketId = marketId

/-- A market with an update written to its facts. -/
def MarketRecord.withTick (market : MarketRecord) (update : TickUpdate) : MarketRecord :=
  { market with
    instrumentFacts := market.instrumentFacts.map fun facts =>
      { facts with
        priceIncrement := update.priceIncrement
        revision := update.revision } }

namespace MarketRecord

variable (market : MarketRecord)

@[simp] theorem identity_withTick (update : TickUpdate) :
    (market.withTick update).identity = market.identity := by
  unfold withTick identity
  cases market.instrumentFacts <;> rfl

@[simp] theorem withTick_withTick (update : TickUpdate) :
    (market.withTick update).withTick update = market.withTick update := by
  unfold withTick
  cases market.instrumentFacts <;> rfl

end MarketRecord

variable {markets after : TreeMap String MarketRecord} {update : TickUpdate}

/-- An update replaces one record by the record with the update. -/
theorem applyTickUpdate_ok (applied : applyTickUpdate markets update = .ok after) :
    ∃ market, markets[update.marketId]? = some market ∧
      after = markets.insert update.marketId (market.withTick update) := by
  unfold applyTickUpdate at applied
  cases known : markets[update.marketId]? with
  | none => rw [known] at applied; cases applied
  | some market =>
    rw [known] at applied
    cases facts : market.instrumentFacts with
    | none => simp only [facts] at applied; cases applied
    | some value =>
      simp only [facts] at applied
      refine ⟨market, rfl, ?_⟩
      rw [← ok.inj applied]
      unfold MarketRecord.withTick
      rw [facts]
      rfl

variable {updates : List TickUpdate}

section

variable (applied : updates.foldlM applyTickUpdate markets = .ok after)
include applied

/-- Updates keep the identity of every record. -/
theorem identity_of_foldlM_applyTickUpdate
    (marketId : String) :
    after[marketId]?.map MarketRecord.identity = markets[marketId]?.map MarketRecord.identity := by
  refine Fallible.foldlM_invariant
    (fun current : TreeMap String MarketRecord =>
      current[marketId]?.map MarketRecord.identity =
        markets[marketId]?.map MarketRecord.identity) ?_ rfl applied
  intro before update _ next same taken
  obtain ⟨market, known, rfl⟩ := applyTickUpdate_ok taken
  rw [← same, TreeMap.getElem?_insert]
  by_cases here : update.marketId = marketId
  · subst here
    simp [known]
  · simp [here]

/-- After all updates a record is the original one, with its update if it has
one. -/
theorem getElem?_foldlM_applyTickUpdate
    (determined : ∀ first ∈ updates, ∀ second ∈ updates,
      first.marketId = second.marketId → first = second)
    (marketId : String) :
    (∀ update ∈ updates, update.marketId = marketId →
        after[marketId]? = markets[marketId]?.map (·.withTick update)) ∧
      ((∀ update ∈ updates, update.marketId ≠ marketId) →
        after[marketId]? = markets[marketId]?) := by
  induction updates using List.reverseRecOn generalizing after with
  | nil =>
    cases applied
    simp
  | append_singleton front last ih =>
    obtain ⟨middle, before, lastStep⟩ := foldlM_append_ok.mp applied
    obtain ⟨written, taken, finished⟩ := foldlM_cons_ok.mp lastStep
    cases finished
    obtain ⟨market, known, rfl⟩ := applyTickUpdate_ok taken
    obtain ⟨updated, untouched⟩ := ih before (by
      intro first inFront second inFront'
      exact determined first (by simp [inFront]) second (by simp [inFront']))
    rw [TreeMap.getElem?_insert]
    simp only [compare_eq_iff_eq]
    by_cases here : last.marketId = marketId
    · subst here
      rw [if_pos rfl]
      constructor
      · intro update mem same
        obtain rfl := determined update mem last (by simp) same
        by_cases earlier : ∃ other ∈ front, other.marketId = update.marketId
        · obtain ⟨other, inFront, sameId⟩ := earlier
          obtain rfl := determined other (by simp [inFront]) update mem sameId
          have touched := updated other inFront rfl
          rw [known] at touched
          cases original : markets[other.marketId]? with
          | none => rw [original] at touched; cases touched
          | some value =>
            rw [original] at touched
            cases touched
            simp
        · have same := untouched (by
            intro other inFront sameId
            exact earlier ⟨other, inFront, sameId⟩)
          rw [← same, known]
          rfl
      · intro ne
        exact absurd rfl (ne last (by simp))
    · rw [if_neg here]
      constructor
      · intro update mem same
        rcases List.mem_append.mp mem with inFront | isLast
        · exact updated update inFront same
        · obtain rfl := List.mem_singleton.mp isLast
          exact absurd same here
      · intro ne
        exact untouched fun other inFront => ne other (by simp [inFront])

end

/-- What a reconciliation establishes. -/
structure Reconciliation
    (state : CanonicalState) (consistent : Bool) (reconciled : CanonicalState) : Prop where
  onlyMarkets : reconciled = { state with markets := reconciled.markets }
  identity : ∀ marketId : String,
    reconciled.markets[marketId]?.map MarketRecord.identity =
      state.markets[marketId]?.map MarketRecord.identity
  refused : consistent = false →
    reconciled = state ∧ state.catalogRevision.isSome = true ∧
      ∃ market ∈ state.activeMarkets, market.instrumentFacts.isSome = true ∧
        state.marketIsPublic market.marketId = true ∧ commonTick state market = none
  agreed : consistent = true → state.catalogRevision.isSome = true → state.Keyed →
    ∀ (marketId : String) (market : MarketRecord) (facts : MarketInstrumentFacts),
      reconciled.markets[marketId]? = some market → market.isActive = true →
        market.instrumentFacts = some facts →
          (∃ versions, commonTick state market = some (facts.priceIncrement, versions)) ∨
            (state.marketIsPublic marketId = false ∧ commonTick state market = none)

variable {state : CanonicalState}

theorem mem_activeMarkets :
    market ∈ state.activeMarkets ↔
      (∃ marketId : String, state.markets[marketId]? = some market) ∧ market.isActive = true := by
  unfold CanonicalState.activeMarkets
  rw [List.mem_filter, mem_valueList]

/-- The update of a market with facts and a common tick. -/
theorem tickUpdate_eq_ok_some (updates : tickUpdate platform state market = .ok (some update)) :
    update.marketId = market.marketId ∧
      ∃ versions, commonTick state market = some (update.priceIncrement, versions) := by
  unfold tickUpdate at updates
  split at updates
  · cases updates
  · split at updates
    · split at updates <;> cases updates
    · rename_i tick firstVersion secondVersion common
      obtain rfl := some.inj (ok.inj updates)
      exact ⟨rfl, _, common⟩

theorem reconciliation
    (succeeded :
      reconcileActiveMarketInstrumentTicks platform state = .ok (consistent, reconciled)) :
    Reconciliation state consistent reconciled := by
  unfold reconcileActiveMarketInstrumentTicks at succeeded
  split at succeeded
  · rename_i bare
    obtain ⟨rfl, rfl⟩ := Prod.mk.inj (ok.inj succeeded)
    exact
      { onlyMarkets := rfl
        identity := fun _ => rfl
        refused := by simp
        agreed := by
          intro _ installed
          simp only [isNone_iff_eq_none] at bare
          simp [bare] at installed }
  · rename_i installed
    have catalogInstalled : state.catalogRevision.isSome = true := by
      simpa [Option.isSome_iff_ne_none] using installed
    split at succeeded
    · rename_i visited
      obtain ⟨rfl, rfl⟩ := Prod.mk.inj (ok.inj succeeded)
      refine ⟨rfl, fun _ => rfl, fun _ => ⟨rfl, catalogInstalled, ?_⟩, by simp⟩
      obtain ⟨market, active, failed⟩ := Fallible.exists_of_mapM_eq_error visited
      refine ⟨market, active, ?_⟩
      unfold tickUpdate at failed
      split at failed
      · cases failed
      · rename_i facts known
        split at failed
        · rename_i disagreeing
          split at failed
          · rename_i isPublic
            exact ⟨by simp [known], isPublic, disagreeing⟩
          · cases failed
        · cases failed
    · rename_i updates visited
      obtain ⟨markets, folded, finished⟩ := bind_ok.mp succeeded
      obtain ⟨rfl, rfl⟩ := Prod.mk.inj (ok.inj finished)
      obtain ⟨forward, backward⟩ := Fallible.mem_of_mapM_ok visited
      refine ⟨rfl, identity_of_foldlM_applyTickUpdate folded, by simp, ?_⟩
      intro _ _ keyed marketId market facts known active priced
      -- An update belongs to the one record stored under its name.
      have source : ∀ update ∈ updates.filterMap id, ∃ original,
          state.markets[update.marketId]? = some original ∧
            tickUpdate platform state original = .ok (some update) := by
        intro update mem
        obtain ⟨result, present, isUpdate⟩ := List.mem_filterMap.mp mem
        obtain rfl : result = some update := isUpdate
        obtain ⟨original, listed, updated⟩ := backward _ present
        obtain ⟨⟨key, stored⟩, _⟩ := mem_activeMarkets.mp listed
        have named := (tickUpdate_eq_ok_some updated).1
        refine ⟨original, ?_, updated⟩
        rw [named, keyed key original stored]
        exact stored
      have determined : ∀ first ∈ updates.filterMap id, ∀ second ∈ updates.filterMap id,
          first.marketId = second.marketId → first = second := by
        intro first inFirst second inSecond same
        obtain ⟨original, stored, updated⟩ := source first inFirst
        obtain ⟨other, stored', updated'⟩ := source second inSecond
        rw [same, stored'] at stored
        cases stored
        rw [updated] at updated'
        exact some.inj (ok.inj updated')
      obtain ⟨touched, untouched⟩ := getElem?_foldlM_applyTickUpdate folded determined marketId
      have identities := identity_of_foldlM_applyTickUpdate folded marketId
      rw [known] at identities
      cases original : state.markets[marketId]? with
      | none => rw [original] at identities; cases identities
      | some record =>
        rw [original] at identities
        have sameIdentity : market.identity = record.identity := some.inj identities
        have sameActive : record.isActive = true := by
          have := congrArg MarketRecord.isActive sameIdentity
          exact this.symm.trans active
        have sameCommon : commonTick state market = commonTick state record := by
          have := congrArg MarketRecord.outcomes sameIdentity
          unfold commonTick
          rw [show market.outcomes = record.outcomes from this]
        have listed : record ∈ state.activeMarkets :=
          mem_activeMarkets.mpr ⟨⟨marketId, original⟩, sameActive⟩
        obtain ⟨result, present, visitedRecord⟩ := forward record listed
        have named := keyed marketId record original
        cases result with
        | some update =>
          obtain ⟨sameName, versions, common⟩ := tickUpdate_eq_ok_some visitedRecord
          have mem : update ∈ updates.filterMap id :=
            List.mem_filterMap.mpr ⟨some update, present, rfl⟩
          have written := touched update mem (sameName.trans named)
          rw [known, original] at written
          cases written
          cases recorded : record.instrumentFacts with
          | none => simp [MarketRecord.withTick, recorded] at priced
          | some old =>
            simp only [MarketRecord.withTick, recorded, map_some, Option.some.injEq] at priced
            refine .inl ⟨versions, ?_⟩
            rw [sameCommon, common, ← priced]
        | none =>
          have absent : ∀ update ∈ updates.filterMap id, update.marketId ≠ marketId := by
            intro update mem same
            obtain ⟨other, stored, updated⟩ := source update mem
            rw [same, original] at stored
            cases stored
            rw [updated] at visitedRecord
            cases visitedRecord
          have same := untouched absent
          rw [known, original] at same
          cases same
          unfold tickUpdate at visitedRecord
          simp only [priced] at visitedRecord
          split at visitedRecord
          · rename_i disagreeing
            split at visitedRecord
            · cases visitedRecord
            · rename_i hidden
              rw [named] at hidden
              exact .inr ⟨by simpa using hidden, disagreeing⟩
          · cases visitedRecord

end MarketCow.Core
