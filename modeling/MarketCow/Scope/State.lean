import MarketCow.Discovery.Events
import MarketCow.Library.Claims

/-!
# The state of the scope journal

What an operator keeps of a scope: the metadata of its markets, those that are
acquired, and those that are being retired. A valid state gives every token to at
most one market.
-/

namespace MarketCow.Scope

open Library
open Discovery (ensure need field items ensure_ok need_ok)

/-- The restart state of a process: its configuration, the records of its markets, and the one
retirement that may be pending. -/
structure State where
  schemaVersion : String
  catalogRevision : String
  catalogManifestSha256 : String
  pool : String
  activeConfig : Json
  activeRevision : UInt64
  catalogSource : Json
  records : TreeMap String Json
  acquisitionMarketIds : TreeSet String
  retiringRecords : TreeMap String Json
  retirementTicket : Option UInt64
  -- Without a value, a pending state that did not record the acquired markets.
  retiringAcquisitionMarketIds : Option (TreeSet String)

/-! ## Validation -/

/-- A record names its market in its identity. -/
def marketId (record : Json) : Json :=
  field (field record "identity") "market_id"

/-- The outcomes of a market record. -/
def outcomes (record : Json) : Json :=
  field (field record "identity") "outcomes"

/-- The condition of a market record. -/
def conditionId (record : Json) : Json :=
  field (field record "identity") "condition_id"

/-- The token of an outcome. -/
def tokenId (outcome : Json) : Option String :=
  (field outcome "token_id").asString?

/-- The tokens of a record. -/
def tokenIds (record : Json) : List String :=
  (items (outcomes record)).filterMap tokenId

/-- The markets of a state with their metadata, those that are being retired last. -/
def State.entries (state : State) : List (String × Json) :=
  state.records.toList ++ state.retiringRecords.toList

/-- A token belongs to one outcome. -/
def claimToken (tokens : TreeSet String) (outcome : Json) : Except String (TreeSet String) := do
  let token ← need (tokenId outcome) "runtime token"
  ensure (!token.isEmpty && decide (token.utf8ByteSize ≤ 128) && !tokens.contains token)
    "runtime token ownership"
  return tokens.insert token

/-- The metadata of a market is its own, and names two outcomes. -/
def claimMarket (tokens : TreeSet String) (entry : String × Json) :
    Except String (TreeSet String) := do
  ensure (!entry.1.isEmpty && marketId entry.2 == .string entry.1) "runtime metadata identity"
  let outcomes ← need (outcomes entry.2).asArray? "runtime outcomes"
  ensure (outcomes.length == 2 && (conditionId entry.2).asString?.any fun condition =>
    !condition.isEmpty) "runtime binary identity"
  outcomes.foldlM claimToken tokens

/-- What a state has to satisfy to be written or read. -/
def State.validate (state : State) : Except String Unit := do
  ensure ((state.schemaVersion == "marketcow.runtime-scope-state.v1" ||
      state.schemaVersion == "marketcow.runtime-scope-state.v2") &&
    (state.pool == "live" || state.pool == "discovery") && decide (0 < state.activeRevision))
    "runtime state identity"
  ensure (field state.activeConfig "catalog_revision" == .string state.catalogRevision)
    "runtime active catalog"
  ensure (!state.records.isEmpty &&
    decide (state.records.size + state.retiringRecords.size ≤ 8192)) "runtime metadata capacity"
  ensure (state.retiringRecords.isEmpty == state.retirementTicket.isNone)
    "runtime retirement binding"
  ensure (state.retiringAcquisitionMarketIds.all fun ids =>
    ids.toList.all fun id => state.retiringRecords.contains id)
    "runtime retiring acquisition binding"
  let _ ← state.entries.foldlM claimMarket ∅
  ensure (state.acquisitionMarketIds.toList.all fun id => state.records.contains id)
    "runtime acquisition metadata absent"

/-- An outcome names a token. -/
def Named (outcome : Json) : Prop :=
  ∃ token, tokenId outcome = some token ∧ token ≠ "" ∧ token.utf8ByteSize ≤ 128

/-- A market with two outcomes under its own name. -/
structure Binary (entry : String × Json) : Prop where
  named : entry.1 ≠ ""
  identity : marketId entry.2 = .string entry.1
  condition : ∃ condition, conditionId entry.2 = .string condition ∧ condition ≠ ""
  outcomes : ∃ first second, outcomes entry.2 = .array [first, second] ∧ Named first ∧ Named second

/-- What validation promises of a state. -/
structure State.Valid (state : State) : Prop where
  schema : state.schemaVersion = "marketcow.runtime-scope-state.v1" ∨
    state.schemaVersion = "marketcow.runtime-scope-state.v2"
  pool : state.pool = "live" ∨ state.pool = "discovery"
  revision : 0 < state.activeRevision
  catalog : field state.activeConfig "catalog_revision" = .string state.catalogRevision
  filled : state.records.isEmpty = false
  capacity : state.records.size + state.retiringRecords.size ≤ 8192
  ticket : state.retiringRecords.isEmpty = state.retirementTicket.isNone
  retiringAcquisition : ∀ ids, state.retiringAcquisitionMarketIds = some ids →
    ∀ id ∈ ids, id ∈ state.retiringRecords
  binary : ∀ entry ∈ state.entries, Binary entry
  tokens : (state.entries.flatMap fun entry => tokenIds entry.2).Nodup
  acquisition : ∀ id ∈ state.acquisitionMarketIds, id ∈ state.records

/-! ## What validation accepts -/

variable {value : Json}

theorem asString?_eq_some_iff : value.asString? = some text ↔ value = .string text := by
  cases value <;> simp [Json.asString?]

theorem asArray?_eq_some_iff : value.asArray? = some entries ↔ value = .array entries := by
  cases value <;> simp [Json.asArray?]

theorem contains_eq_false_iff {tokens : TreeSet String} :
    tokens.contains token = false ↔ token ∉ tokens := by
  rw [← Std.ExtTreeSet.contains_iff_mem, not_eq_true]

theorem isEmpty_eq_false_iff : text.isEmpty = false ↔ text ≠ "" := by
  rw [← not_eq_true, String.isEmpty_iff]

theorem claims_token : Claims claimToken Named fun outcome => (tokenId outcome).toList := by
  intro taken outcome after
  unfold claimToken Named
  dsimp only
  cases found : tokenId outcome with
  | none => simp [need, bind, Except.bind]
  | some token =>
    have free : Free taken (some token).toList ↔ token ∉ taken := by simp [Free]
    have claimed : taken.claim (some token).toList = taken.insert token := rfl
    rw [free, claimed, bind_ok]
    simp only [need_ok, Option.some.injEq, exists_eq_left', bind_ok,
      ensure_ok, and_eq_true, not_eq_true', decide_eq_true_eq,
      contains_eq_false_iff, isEmpty_eq_false_iff, exists_const, pure, Except.pure,
      Except.ok.injEq]
    rw [and_assoc, eq_comm]

theorem tokenIds_pair (pair : outcomes record = .array [first, second]) :
    tokenIds record = (tokenId first).toList ++ (tokenId second).toList := by
  unfold tokenIds items
  rw [pair]
  change [first, second].filterMap tokenId = _
  cases one : tokenId first <;> cases two : tokenId second <;> simp [one, two]

theorem flatMap_pair (first second : Json) :
    ([first, second].flatMap fun outcome => (tokenId outcome).toList) =
      (tokenId first).toList ++ (tokenId second).toList := by
  simp

theorem condition_iff :
    (value.asString?.any fun condition => !condition.isEmpty) = true ↔
      ∃ condition, value = .string condition ∧ condition ≠ "" := by
  cases value <;> simp [Json.asString?]

theorem claims_market : Claims claimMarket Binary fun entry => tokenIds entry.2 := by
  intro taken entry after
  unfold claimMarket
  rw [bind_ok]
  simp only [bind_ok, ensure_ok, need_ok, and_eq_true,
    not_eq_true', isEmpty_eq_false_iff, beq_iff_eq, asArray?_eq_some_iff, exists_const,
    claims_token.foldlM_ok_iff, condition_iff]
  constructor
  · rintro ⟨⟨named, identity⟩, pair, listed, ⟨two, condition⟩, fine, free, claimed⟩
    obtain ⟨first, second, rfl⟩ := List.length_eq_two.mp two
    rw [flatMap_pair, ← tokenIds_pair listed] at free claimed
    exact ⟨⟨named, identity, condition, first, second, listed, fine first (by simp),
      fine second (by simp)⟩, free, claimed⟩
  · rintro ⟨⟨named, identity, condition, first, second, listed, one, two⟩, free, claimed⟩
    rw [tokenIds_pair listed, ← flatMap_pair] at free claimed
    refine ⟨⟨named, identity⟩, _, listed, ⟨rfl, condition⟩, ?_, free, claimed⟩
    intro outcome mem
    rcases List.mem_pair.mp mem with rfl | rfl
    · exact one
    · exact two

/-- Validation accepts the valid states. -/
theorem validate_ok_iff {state : State} : state.validate = .ok () ↔ state.Valid := by
  have fresh : ∀ keys : List String, Free (∅ : TreeSet String) keys ↔ keys.Nodup := by
    intro keys
    unfold Free
    simp
  have listed : ∀ (ids : TreeSet String) (records : TreeMap String Json),
      (ids.toList.all fun id => records.contains id) = true ↔ ∀ id ∈ ids, id ∈ records := by
    intro ids records
    simp only [List.all_eq_true, Std.ExtTreeSet.mem_toList, TreeMap.contains_iff_mem]
  unfold State.validate
  rw [bind_ok]
  simp only [bind_ok, ensure_ok, and_eq_true, or_eq_true,
    not_eq_true', beq_iff_eq, decide_eq_true_eq, exists_const, Option.all_eq_true, listed,
    claims_market.foldlM_ok_iff, fresh]
  constructor
  · rintro ⟨⟨⟨schema, pool⟩, revision⟩, catalog, ⟨filled, capacity⟩, ticket, retiring, _,
      ⟨binary, tokens, _⟩, acquisition⟩
    exact ⟨schema, pool, revision, catalog, filled, capacity, ticket, retiring, binary, tokens,
      acquisition⟩
  · intro valid
    exact ⟨⟨⟨valid.schema, valid.pool⟩, valid.revision⟩, valid.catalog,
      ⟨valid.filled, valid.capacity⟩, valid.ticket, valid.retiringAcquisition, _,
      ⟨valid.binary, valid.tokens, rfl⟩, valid.acquisition⟩

variable {state : State}

/-- Two markets of a valid state have no token in common. -/
theorem State.Valid.apart (valid : state.Valid) :
    state.entries.Pairwise fun first second =>
      ∀ token ∈ tokenIds first.2, token ∉ tokenIds second.2 := by
  have parts := (List.nodup_flatMap.mp valid.tokens).2
  exact parts.imp fun disjoint token first second => disjoint first second

/-! ## Markets for a restart -/

/-- A market to acquire. -/
structure Market where
  marketId : String
  conditionId : String
  tokenIds : String × String

/-- A recorded market with its condition and two tokens. -/
def State.market (state : State) (id : String) : Except String Market := do
  let record ← need state.records[id]? "runtime market missing"
  let _ ← need (outcomes record).asArray? "runtime outcomes"
  let condition ← need (conditionId record).asString? "runtime condition"
  let first ← need (tokenId (Discovery.item (outcomes record) 0)) "runtime token"
  let second ← need (tokenId (Discovery.item (outcomes record) 1)) "runtime token"
  return { marketId := id, conditionId := condition, tokenIds := (first, second) }

/-- The recorded markets of some identifiers. -/
def State.marketsByIds (state : State) (ids : TreeSet String) : Except String (List Market) :=
  ids.toList.mapM state.market

/-- The markets that are acquired. -/
def State.markets (state : State) : Except String (List Market) :=
  state.marketsByIds state.acquisitionMarketIds

/-- The ids that some values name. -/
def insertIds (name : Json → Json) (message : String) (ids : TreeSet String)
    (values : List Json) : Except String (TreeSet String) :=
  values.foldlM (fun ids value => do
    let id ← need (name value).asString? message
    return ids.insert id) ids

/-- The configured markets of a live scope, with those their records relate to them. -/
def State.liveMarkets (state : State) : Except String (TreeSet String) := do
  let configured ← need (field state.activeConfig "configured_markets").asArray?
    "restart configured markets"
  let roots ← insertIds (fun market => field market "market_id") "restart scope market" ∅
    configured
  roots.toList.foldlM (fun ids id => do
    let record ← need state.records[id]? "restart scope metadata missing"
    match (field record "relations").asArray? with
    | none => return ids
    | some relations =>
      relations.foldlM (fun ids relation => do
        let pairs ← need (field relation "outcome_pairs").asArray? "restart relation pairs"
        insertIds (fun pair => field pair "market_id") "restart relation market" ids pairs)
        ids) roots

/-- The markets of a discovery scope, with those of its relations. -/
def State.discoveryMarkets (state : State) : Except String (TreeSet String) := do
  let markets ← need (field state.activeConfig "market_ids").asArray? "restart discovery markets"
  let ids ← insertIds id "restart discovery market" ∅ markets
  let relations ← need (field state.activeConfig "relations").asArray?
    "restart discovery relations"
  relations.foldlM (fun ids relation => do
    let members ← need (field relation "member_market_ids").asArray? "restart discovery members"
    insertIds id "restart discovery member" ids members) ids

/-- The markets that the active configuration names. -/
def State.scopeMarkets (state : State) : Except String (TreeSet String) :=
  if state.pool == "live" then state.liveMarkets else state.discoveryMarkets

/-- The markets that a new process acquires. On demand, only those of the active scope. -/
def State.restartMarkets (state : State) (onDemand : Bool) : Except String (List Market) :=
  if !onDemand then state.markets
  else do
    let ids ← state.scopeMarkets
    ensure (ids.toList.all fun id => state.acquisitionMarketIds.contains id)
      "restart scope is not prepared"
    state.marketsByIds ids

theorem mem_records_of_marketsByIds
    (named : state.marketsByIds ids = .ok markets) (mem : market ∈ markets) :
    market.marketId ∈ state.records := by
  obtain ⟨id, _, made⟩ := (Fallible.mem_of_mapM_ok named).2 market mem
  unfold State.market at made
  obtain ⟨record, found, rest⟩ := bind_ok.mp made
  iterate 4 obtain ⟨_, _, rest⟩ := bind_ok.mp rest
  cases rest
  exact mem_iff_isSome_getElem?.mpr (isSome_iff_exists.mpr ⟨record, need_ok.mp found⟩)

/-- A restart acquires only markets that are not being retired. -/
theorem mem_records_of_restartMarkets
    (restarted : state.restartMarkets onDemand = .ok markets) (mem : market ∈ markets) :
    market.marketId ∈ state.records := by
  unfold State.restartMarkets at restarted
  split at restarted
  · exact mem_records_of_marketsByIds restarted mem
  · obtain ⟨ids, _, _, _, named⟩ := bind₂_ok.mp restarted
    exact mem_records_of_marketsByIds named mem

end MarketCow.Scope
