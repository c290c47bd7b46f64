import MarketCow.Finality.Decision

/-!
# The fact store

Revisions of the rules of a market, and settlements. A settlement is stored once for
a market key and comes with the permission to import it; a key names a revision of
the rules.
-/

namespace MarketCow.Finality

open Library
open Live (Codec MarketKey RecordIdentity ensure need)
open Sdk (EvidenceReference)

/-! ## Rules -/

/-- How a market resolves, as far as it was verified. -/
structure ResolutionTerms where
  verification : String
  sourceInstrument : Option String
  quoteCurrency : Option String
  priceMethod : Option String
  averagingSeconds : Option Nat
  openingSelection : Option String
  closingSelection : Option String
  intervalConvention : Option String
  comparison : Option String
  equalityOutcome : Option String
  provenance : Option String
  evidenceId : Option String
  reportTimeSemantics : Option String
  openingBoundaryOffsetMs : Option Int
  closingBoundaryOffsetMs : Option Int
  maximumReportLookbackMs : Option Nat
  deriving DecidableEq

/-- One revision of the rules of a market. -/
structure RulesRecord where
  identity : Option RecordIdentity
  marketId : String
  conditionId : String
  windowId : String
  startAt : String
  endAt : String
  upTokenId : String
  downTokenId : String
  description : String
  resolutionSource : String
  resolution : Option ResolutionTerms
  evidence : List EvidenceReference
  deriving DecidableEq

/-! ## The store -/

/-- A settlement, under the sequence that the database gave it. -/
structure Settlement where
  sequence : Nat
  key : MarketKey
  payload : FinalityResponse
  deriving DecidableEq

/-- The revisions of rules and the settlements, in the order they were stored. -/
structure FactStore where
  rules : List RulesRecord
  settlements : List Settlement
  lastSequence : Nat
  deriving DecidableEq

/-- A store without facts. -/
def FactStore.empty : FactStore := ⟨[], [], 0⟩

/-! ## Binding rules -/

/-- The text is there and not empty. -/
def filled (text : Option String) : Bool := text.any fun content => !content.isEmpty

/-- Verified terms say all that the outcome depends on. -/
def validateTerms (terms : ResolutionTerms) : Except String Unit := do
  ensure (["verified", "unverified", "unsupported"].contains terms.verification)
    "rule verification"
  if terms.verification ≠ "verified" then .ok ()
  else do
    ensure (filled terms.sourceInstrument && filled terms.quoteCurrency &&
      terms.priceMethod.any (fun method => method == "spot" || method == "twap") &&
      filled terms.openingSelection && filled terms.closingSelection &&
      filled terms.intervalConvention && filled terms.comparison &&
      terms.equalityOutcome.any (fun outcome => outcome == "Up" || outcome == "Down") &&
      terms.provenance.any (fun origin =>
        origin == "official_rule" || origin == "explicit_configuration") &&
      filled terms.evidenceId) "verified rule terms incomplete"
    ensure (filled terms.reportTimeSemantics && terms.openingBoundaryOffsetMs.isSome &&
      terms.closingBoundaryOffsetMs.isSome && terms.maximumReportLookbackMs.isSome)
      "rule report selection incomplete"
    ensure (decide (terms.priceMethod ≠ some "twap") ||
      terms.averagingSeconds.any fun seconds => decide (0 < seconds)) "TWAP interval missing"

/-- Rules are about a market, a window and two different tokens, are described, and are not
numbered yet. -/
def validateRules (codec : Codec) (rules : RulesRecord) : Except String Unit := do
  ensure rules.identity.isNone "rules identity must be allocated by store"
  ensure (!rules.marketId.isEmpty && !rules.conditionId.isEmpty && !rules.windowId.isEmpty &&
    !rules.description.isEmpty && decide (rules.description.utf8ByteSize ≤ 256 * 1024) &&
    !rules.resolutionSource.isEmpty) "rules fields"
  ensure (!rules.upTokenId.isEmpty && !rules.downTokenId.isEmpty &&
    rules.upTokenId != rules.downTokenId) "rules token binding"
  let start ← need (codec.rfc3339 rules.startAt) "invalid time"
  let finish ← need (codec.rfc3339 rules.endAt) "invalid time"
  ensure (decide (start < finish)) "rules interval"
  match rules.resolution with
  | some terms => validateTerms terms
  | none => .ok ()

/-- The revision of the rules, zero before they are stored. -/
def RulesRecord.revision (rules : RulesRecord) : Nat :=
  (rules.identity.map RecordIdentity.revision).getD 0

/-- The latest rules of a market. -/
def FactStore.latestRules (store : FactStore) (marketId : String) : Option RulesRecord :=
  (store.rules.filter fun rules => rules.marketId == marketId).foldl
    (fun found rules => if found.all fun before => decide (before.revision < rules.revision)
      then some rules else found) none

/-- The next identity of the rules of a market. -/
def nextIdentity (fresh : String) (previous : Option RulesRecord) :
    Except String RecordIdentity :=
  match previous with
  | some prior => do
    let identity ← need prior.identity "stored rules identity"
    ensure (decide (identity.revision + 1 < 2 ^ 64)) "rules revision overflow"
    .ok ⟨identity.id, identity.revision + 1⟩
  | none => .ok ⟨fresh, 1⟩

/-- Store rules under a new revision, unless they are the latest ones already. -/
def bindRules
    (codec : Codec) (fresh : String) (rules : RulesRecord)
    (store : FactStore) : Except String (RulesRecord × FactStore) := do
  validateRules codec rules
  let previous := store.latestRules rules.marketId
  match previous.filter fun prior => decide ({ prior with identity := none } = rules) with
  | some prior => .ok (prior, store)
  | none => do
    let identity ← nextIdentity fresh previous
    ensure (decide (identity.revision < 2 ^ 63))
      "out of range integral type conversion attempted"
    ensure (!store.rules.any fun other => decide (other.identity = some identity))
      "UNIQUE constraint failed"
    let bound := { rules with identity := some identity }
    .ok (bound, { store with rules := store.rules ++ [bound] })

/-- The rules of an identity. -/
def FactStore.rulesOf (store : FactStore) (identity : RecordIdentity) :
    Except String (Option RulesRecord) := do
  ensure (!identity.id.isEmpty && decide (0 < identity.revision)) "rules identity"
  ensure (decide (identity.revision < 2 ^ 63)) "out of range integral type conversion attempted"
  .ok (store.rules.find? fun rules => decide (rules.identity = some identity))

/-- A key names stored rules of its own market. -/
def validateNativeKey (codec : Codec) (store : FactStore) (key : MarketKey) :
    Except String RulesRecord := do
  validateKey codec key
  let identity ← need key.rules "rules_missing"
  let found ← store.rulesOf identity
  let rules ← need found "rules_not_found"
  ensure (rules.marketId == key.marketId && rules.conditionId == key.conditionId &&
    rules.windowId == key.windowId && rules.startAt == key.startAt && rules.endAt == key.endAt &&
    rules.upTokenId == key.upTokenId && rules.downTokenId == key.downTokenId)
    "rule_identity_mismatch"
  .ok rules

/-! ## Settlements -/

/-- The settlement stored under a key. -/
def FactStore.settlement (store : FactStore) (key : MarketKey) : Option Settlement :=
  store.settlements.find? fun settlement => decide (settlement.key = key)

/-- The response that is stored for a decision. -/
def FinalityResponse.commit (value : FinalityResponse) (sequence : Nat) : FinalityResponse :=
  { value with
    status := "verified_final"
    durable := true
    settlementImportAllowed := true
    durableSequence := some sequence
    requestId := "" }

/-- Look the settlement of a key up, or store a decision as the settlement of its key. -/
def finality (key : MarketKey) (value : Option FinalityResponse)
    (store : FactStore) : Except String (Option FinalityResponse × FactStore) :=
  match store.settlement key with
  | some old => do
    ensure (value.all fun new => decide (old.payload.payouts = new.payouts) &&
      decide (old.payload.denominator = new.denominator)) "finality_durable_conflict"
    .ok (some old.payload, store)
  | none =>
    match value with
    | none => .ok (none, store)
    | some value => do
      ensure (value.status == "awaiting_durability" && decide (0 < value.validProviderCount) &&
        value.providerReadsCompletedBeforeDecision) "finality_not_committable"
      ensure (decide (store.lastSequence + 1 < 2 ^ 63)) "database or disk is full"
      let stored := value.commit (store.lastSequence + 1)
      .ok (some stored,
        { store with
          settlements := store.settlements ++ [⟨store.lastSequence + 1, key, stored⟩]
          lastSequence := store.lastSequence + 1 })

end MarketCow.Finality
