import MarketCow.Library.Numerals
import MarketCow.Sdk.PriceState

/-!
# The decision on a settlement

Two providers are asked how a market was settled. One valid answer is enough, two
must agree, and a valid answer has payouts that sum to its denominator.
-/

namespace MarketCow.Finality

open Library List
open Nat (digits_def' mod_lt toList_repr)
open Live (Codec MarketKey RecordIdentity ensure need ensure_ok need_ok)
open Sdk (EvidenceReference)

/-! ## Messages -/

/-- The block at which a provider read. -/
structure FinalizedBlock where
  hash : String
  number : String
  sourceTimeMs : Option Int
  deriving DecidableEq

/-- What a token pays, over the denominator of its market. -/
structure TokenPayout where
  tokenId : String
  numerator : String
  deriving DecidableEq

/-- What one provider answered, or that it did not. -/
structure FinalityProvider where
  providerId : String
  operatorId : String
  failureDomain : String
  configuration : Option RecordIdentity
  status : String
  reason : Option String
  block : Option FinalizedBlock
  observedAtNs : Option Int
  chainId : Option String
  ctfAddress : Option String
  collateral : Option String
  payouts : List TokenPayout
  denominator : Option String
  tokenBindingVerified : Bool
  deploymentCodeVerified : Bool
  endpointIdentityVerified : Bool
  evidence : List EvidenceReference
  deriving DecidableEq

/-- Whom a fact is about, and when and from what it was observed. -/
structure FactMeta where
  identity : Option RecordIdentity
  key : Option MarketKey
  observedAtNs : Int
  evidence : List EvidenceReference
  deriving DecidableEq

/-- A question about one market. -/
structure MarketRequest where
  requestId : String
  key : Option MarketKey
  deriving DecidableEq

/-- The decision about a market with the answers it rests on. -/
structure FinalityResponse where
  schemaVersion : String
  requestId : String
  factMeta : Option FactMeta
  status : String
  policy : String
  providerReadsRequested : Nat
  providerReadsCompletedBeforeDecision : Bool
  validProviderCount : Nat
  decisionStrategy : String
  providers : List FinalityProvider
  payouts : List TokenPayout
  denominator : Option String
  settlementImportAllowed : Bool
  durable : Bool
  durableSequence : Option Nat
  reason : Option String
  identityAssurance : String
  perProviderDeadlineMs : Nat
  deriving DecidableEq

/-! ## Identities -/

/-- A text of hexadecimal digits for a number of bytes. -/
def hexIdentity (value : String) (bytes : Nat) : Bool :=
  value.utf8ByteSize == 2 + bytes * 2 && Text.startsWith value "0x" &&
    (value.toList.drop 2).all Text.isHexDigit

/-- The greatest 256-bit number. -/
def uint256Max : String :=
  "115792089237316195423570985008687907853269984665640564039457584007913129639935"

/-- A number below 2 ^ 256 in decimal digits, without leading zeros. -/
def uint256 (value : String) : Except String Unit :=
  ensure (!value.isEmpty && value.toList.all Char.isDigit &&
    (value == "0" || !Text.startsWith value "0") &&
    (decide (value.utf8ByteSize < uint256Max.utf8ByteSize) ||
      decide (value.utf8ByteSize = uint256Max.utf8ByteSize) && decide (value ≤ uint256Max)))
    "invalid_uint256"

/-- A record has a short name and a positive revision. -/
def validateIdentity (identity : RecordIdentity) : Except String Unit :=
  ensure (!identity.id.isEmpty && decide (identity.id.utf8ByteSize ≤ 128) &&
    decide (0 < identity.revision)) "invalid_record_identity"

/-- A key names its market, condition and window, a window of positive length and two different
tokens. -/
def validateKey (codec : Codec) (key : MarketKey) : Except String Unit := do
  ensure (!key.marketId.isEmpty && decide (key.marketId.utf8ByteSize ≤ 20) &&
    key.marketId.toList.all Char.isDigit) "invalid_market_id"
  ensure (hexIdentity key.conditionId 32) "invalid_condition_id"
  ensure (!key.windowId.isEmpty && decide (key.windowId.utf8ByteSize ≤ 160)) "invalid_window_id"
  let start ← need (codec.rfc3339 key.startAt) "invalid time"
  let finish ← need (codec.rfc3339 key.endAt) "invalid time"
  ensure (decide (start < finish)) "invalid_window"
  ensure (key.upTokenId != key.downTokenId) "invalid_token_pair"
  ensure (key.upTokenId != "0" && key.downTokenId != "0") "invalid_token_id"
  uint256 key.upTokenId
  uint256 key.downTokenId
  let rules ← need key.rules "missing_rules_identity"
  validateIdentity rules

/-- The key of a request that is named and has a valid one. -/
def validateRequest (codec : Codec) (request : MarketRequest) : Except String MarketKey := do
  ensure (!request.requestId.isEmpty && decide (request.requestId.utf8ByteSize ≤ 128))
    "invalid_request_id"
  let key ← need request.key "missing_market_key"
  validateKey codec key
  .ok key

/-- The fact is identified, observed and about this key. -/
def validateMeta (facts : FactMeta) (key : MarketKey) : Except String Unit := do
  let identity ← need facts.identity "missing_record_identity"
  validateIdentity identity
  ensure (decide (facts.key = some key) && decide (0 < facts.observedAtNs))
    "fact_identity_mismatch"

/-! ## Sums of decimal texts -/

/-- The character of a digit. -/
def digitChar (value : Nat) : Char := Char.ofNat ('0'.toNat + value)

/-- The value of a digit. -/
def digitValue (character : Char) : Nat := character.toNat - '0'.toNat

/-- Add a carry to decimal digits, the last digit first. -/
def carryDigits : List Char → Nat → List Char
  | [], carry => if carry = 0 then [] else [digitChar carry]
  | digit :: digits, carry =>
    let value := digitValue digit + carry
    digitChar (value % 10) :: carryDigits digits (value / 10)

/-- Add decimal digits, the last digit first. -/
def addDigits : List Char → List Char → Nat → List Char
  | [], seconds, carry => carryDigits seconds carry
  | first :: firsts, [], carry => carryDigits (first :: firsts) carry
  | first :: firsts, second :: seconds, carry =>
    let value := digitValue first + digitValue second + carry
    digitChar (value % 10) :: addDigits firsts seconds (value / 10)

/-- The sum of two decimal texts, digit by digit. -/
def addUnsigned (first second : String) : String :=
  let digits := addDigits first.toList.reverse second.toList.reverse 0
  String.ofList (if digits.isEmpty then ['0'] else digits).reverse

/-! ## Providers -/

/-- The tokens of the key are paid, in order, and together the denominator. -/
def checkPayouts (key : MarketKey) (payouts : List TokenPayout) (denominator : Option String) :
    Except String Unit :=
  match payouts with
  | [up, down] => do
    ensure (up.tokenId == key.upTokenId && down.tokenId == key.downTokenId)
      "payout_token_binding"
    let denominator ← need denominator "payout_denominator_missing"
    uint256 denominator
    ensure (denominator != "0") "provider_not_resolved"
    uint256 up.numerator
    uint256 down.numerator
    ensure (addUnsigned up.numerator down.numerator == denominator) "payout_sum_mismatch"
  | _ => .error "payout_token_binding"

/-- A provider is identified; one that says resolved verified its contract and proves payouts at
a finalized block. -/
def validProvider (provider : FinalityProvider) (key : MarketKey) : Except String Unit := do
  ensure (!provider.providerId.isEmpty && !provider.operatorId.isEmpty &&
    !provider.failureDomain.isEmpty) "provider_identity_missing"
  let configuration ← need provider.configuration "provider_configuration_missing"
  validateIdentity configuration
  ensure (["valid_resolved", "unresolved", "failed", "timed_out", "invalid"].contains
    provider.status) "nonterminal_provider_read"
  if provider.status ≠ "valid_resolved" then .ok ()
  else do
    ensure (provider.tokenBindingVerified && provider.deploymentCodeVerified &&
      provider.endpointIdentityVerified) "provider_not_verified"
    let block ← need provider.block "finalized_block_missing"
    ensure (hexIdentity block.hash 32) "invalid_finalized_block"
    uint256 block.number
    ensure (provider.observedAtNs.any (fun time => decide (0 < time)) &&
      provider.chainId.any (fun chain => !chain.isEmpty) &&
      provider.ctfAddress.any (fun address => hexIdentity address 20) &&
      provider.collateral.any fun address => hexIdentity address 20) "provider_facts_missing"
    checkPayouts key provider.payouts provider.denominator

/-! ## The decision -/

/-- Two valid answers that differ. -/
def disagree : List FinalityProvider → Bool
  | [first, second] => decide (first.chainId ≠ second.chainId) ||
      decide (first.ctfAddress ≠ second.ctfAddress) ||
      decide (first.collateral ≠ second.collateral) ||
      decide (first.payouts ≠ second.payouts) || decide (first.denominator ≠ second.denominator)
  | _ => false

/-- A contradiction first, then the absence of any valid answer, then whether the decision is
stored. -/
def decisionStatus (conflict durable : Bool) (providers valid : List FinalityProvider) : String :=
  if conflict then "conflict"
  else if valid.isEmpty then
    if providers.any fun provider => provider.status == "unresolved" then "unresolved"
    else "provider_failed"
  else if durable then "verified_final"
  else "awaiting_durability"

/-- One valid answer decides, two that differ are a conflict. Both providers are read first. -/
def decideFinality
    (codec : Codec) (request : MarketRequest) (facts : FactMeta) (first second : FinalityProvider)
    (durableSequence : Option Nat)
    (perProviderDeadlineMs : Nat) : Except String FinalityResponse := do
  ensure (decide (5000 ≤ perProviderDeadlineMs ∧ perProviderDeadlineMs ≤ 120000))
    "invalid_provider_deadline"
  let key ← validateRequest codec request
  validateMeta facts key
  ensure (first.providerId != second.providerId) "duplicate_provider"
  validProvider first key
  validProvider second key
  let valid := [first, second].filter fun provider => provider.status == "valid_resolved"
  let conflict := disagree valid
  let durable := durableSequence.any (fun sequence => decide (0 < sequence)) && !valid.isEmpty &&
    !conflict
  .ok
    { schemaVersion := "marketcow.facts.finality.v1"
      requestId := request.requestId
      factMeta := some facts
      status := decisionStatus conflict durable [first, second] valid
      policy := "parallel_two_endpoints_at_least_one_valid_finalized_no_conflict_v2"
      providerReadsRequested := 2
      providerReadsCompletedBeforeDecision := true
      validProviderCount := valid.length
      decisionStrategy := "wait_both_bounded_reads_no_late_commit"
      providers := [first, second]
      payouts := if conflict then [] else (valid.head?.map FinalityProvider.payouts).getD []
      denominator := if conflict then none else valid.head?.bind FinalityProvider.denominator
      settlementImportAllowed := durable
      durable
      durableSequence := if durable then durableSequence else none
      reason := if conflict then some "finality_provider_disagreement" else none
      identityAssurance := "registry_bound_https_operator_endpoints"
      perProviderDeadlineMs }

/-! ## What a sum is -/

section Sums

/-- The value of a decimal text. -/
def textValue (text : String) : Nat := Text.digitsValue text.toList

theorem textValue_repr (number : Nat) : textValue number.repr = number := by
  unfold textValue
  rw [toList_repr, Text.digitsValue_toDigits]

theorem isDigit_repr (number : Nat) : number.repr.toList.all Char.isDigit = true := by
  rw [toList_repr, all_eq_true]
  intro digit mem
  exact Nat.isDigit_of_mem_toDigits (by omega) (by omega) mem

theorem startsWith_zero_iff :
    Text.startsWith value "0" = false ↔ value.toList.head? ≠ some '0' := by
  have zero : "0".toList = ['0'] := rfl
  unfold Text.startsWith
  rw [zero]
  cases value.toList with
  | nil => simp
  | cons digit rest =>
    by_cases same : digit = '0'
    · simp [List.isPrefixOf, same]
    · simp [List.isPrefixOf, same, Ne.symm same]

/-- A text of digits without leading zeros is the notation of its value. -/
theorem repr_textValue
    (nonempty : value.isEmpty = false) (decimal : value.toList.all Char.isDigit = true)
    (leading : value = "0" ∨ Text.startsWith value "0" = false) :
    (textValue value).repr = value := by
  rw [← String.toList_inj, toList_repr]
  apply Text.toDigits_digitsValue _ decimal
  · rcases leading with rfl | other
    · exact .inl rfl
    · exact .inr (startsWith_zero_iff.mp other)
  · intro empty
    rw [String.toList_eq_nil_iff.mp empty] at nonempty
    cases nonempty

theorem utf8ByteSize_uint256Max : uint256Max.utf8ByteSize = 78 := by
  decide +kernel

theorem uint256Max_eq_repr : uint256Max = (2 ^ 256 - 1).repr := by
  decide +kernel

/-- The comparison with the largest number, first by length and then as texts. -/
theorem textValue_lt_iff (canonical : (textValue value).repr = value) :
    (value.utf8ByteSize < uint256Max.utf8ByteSize ∨
      value.utf8ByteSize = uint256Max.utf8ByteSize ∧ value ≤ uint256Max) ↔
      textValue value < 2 ^ 256 := by
  have decimal := canonical ▸ isDigit_repr (textValue value)
  have maxDecimal := uint256Max_eq_repr ▸ isDigit_repr (2 ^ 256 - 1)
  have maxSize := Text.utf8ByteSize_of_isDigit maxDecimal
  rw [Text.utf8ByteSize_of_isDigit decimal, ← String.not_lt, String.lt_iff_toList_lt]
  rw [utf8ByteSize_uint256Max] at maxSize ⊢
  by_cases same : value.toList.length = 78
  · have maxValue : Text.digitsValue uint256Max.toList = 2 ^ 256 - 1 := by
      rw [uint256Max_eq_repr]
      exact textValue_repr _
    rw [Text.lt_iff_digitsValue_lt (maxSize.symm.trans same.symm) maxDecimal decimal, maxValue]
    unfold textValue
    omega
  · have digits : value.toList = Nat.toDigits 10 (textValue value) := by
      rw [← toList_repr, canonical]
    have short : value.toList.length ≤ 77 ↔ textValue value < 10 ^ 77 := by
      rw [digits]
      exact Nat.length_toDigits_le_iff (by omega) (by omega)
    have long : value.toList.length ≤ 78 ↔ textValue value < 10 ^ 78 := by
      rw [digits]
      exact Nat.length_toDigits_le_iff (by omega) (by omega)
    omega

/-- The accepted texts are the notations of the numbers below 2 ^ 256. -/
theorem uint256_ok : uint256 value = .ok result ↔ ∃ number < 2 ^ 256, value = number.repr := by
  unfold uint256
  rw [ensure_ok]
  simp only [and_eq_true, or_eq_true, not_eq_true', beq_iff_eq, decide_eq_true_eq]
  constructor
  · rintro ⟨⟨⟨nonempty, decimal⟩, leading⟩, bounded⟩
    have canonical := repr_textValue nonempty decimal leading
    exact ⟨textValue value, (textValue_lt_iff canonical).mp bounded, canonical.symm⟩
  · rintro ⟨number, bounded, rfl⟩
    refine ⟨⟨⟨?_, isDigit_repr number⟩, ?_⟩, ?_⟩
    · exact Bool.eq_false_iff.mpr fun empty => Nat.repr_ne_empty (String.isEmpty_iff.mp empty)
    · rcases Nat.eq_zero_or_pos number with rfl | positive
      · exact .inl rfl
      · refine .inr (startsWith_zero_iff.mpr ?_)
        rw [toList_repr]
        exact Text.head?_toDigits_ne positive
    · apply (textValue_lt_iff (by rw [textValue_repr])).mpr
      rwa [textValue_repr]

theorem digitChar_eq (small : value < 10) : digitChar value = Nat.digitChar value := by
  interval_cases value <;> rfl

theorem digitValue_digitChar (small : value < 10) : digitValue (Nat.digitChar value) = value :=
  Nat.toNat_digitChar_sub_48_of_lt_ten small

/-- Induction over the digits: a carry adds one. -/
theorem carryDigits_digits (number carry : Nat) (small : carry ≤ 1) :
    carryDigits ((Nat.digits 10 number).map Nat.digitChar) carry =
      (Nat.digits 10 (number + carry)).map Nat.digitChar := by
  induction number using Nat.strong_induction_on generalizing carry with
  | _ number ih =>
    rcases Nat.eq_zero_or_pos number with rfl | positive
    · interval_cases carry <;> simp [carryDigits, digitChar]
    · have below : number % 10 < 10 := mod_lt _ (by omega)
      have sumPositive : 0 < number + carry := by omega
      rw [digits_def' (by omega) sumPositive, digits_def' (by omega) positive, map_cons, map_cons]
      unfold carryDigits
      dsimp only
      rw [digitValue_digitChar below, ih (number / 10) (by omega) _ (by omega),
        digitChar_eq (mod_lt _ (by omega))]
      have last : (number % 10 + carry) % 10 = (number + carry) % 10 := by omega
      have others : number / 10 + (number % 10 + carry) / 10 = (number + carry) / 10 := by omega
      rw [last, others]

/-- Adding digit by digit gives the digits of the sum. -/
theorem addDigits_digits (first second carry : Nat) (small : carry ≤ 1) :
    addDigits ((Nat.digits 10 first).map Nat.digitChar) ((Nat.digits 10 second).map Nat.digitChar)
        carry = (Nat.digits 10 (first + second + carry)).map Nat.digitChar := by
  induction first using Nat.strong_induction_on generalizing second carry with
  | _ first ih =>
    rcases Nat.eq_zero_or_pos first with rfl | positive
    · rw [Nat.digits_zero, Nat.zero_add, ← carryDigits_digits second carry small]
      rfl
    · rcases Nat.eq_zero_or_pos second with rfl | otherPositive
      · rw [Nat.add_zero, ← carryDigits_digits first carry small, digits_def' (by omega) positive]
        rfl
      · have below : first % 10 < 10 := mod_lt _ (by omega)
        have otherBelow : second % 10 < 10 := mod_lt _ (by omega)
        have sumPositive : 0 < first + second + carry := by omega
        rw [digits_def' (by omega) sumPositive, digits_def' (by omega) positive,
          digits_def' (by omega) otherPositive, map_cons, map_cons, map_cons]
        unfold addDigits
        dsimp only
        rw [digitValue_digitChar below, digitValue_digitChar otherBelow,
          ih (first / 10) (by omega) _ _ (by omega), digitChar_eq (mod_lt _ (by omega))]
        have last : (first % 10 + second % 10 + carry) % 10 = (first + second + carry) % 10 := by
          omega
        have others : first / 10 + second / 10 + (first % 10 + second % 10 + carry) / 10 =
            (first + second + carry) / 10 := by
          omega
        rw [last, others]

/-- Adding texts adds numbers. -/
theorem addUnsigned_repr (first second : Nat) :
    addUnsigned first.repr second.repr = (first + second).repr := by
  have below : first % 10 < 10 := mod_lt _ (by omega)
  have otherBelow : second % 10 < 10 := mod_lt _ (by omega)
  have digits : addDigits first.repr.toList.reverse second.repr.toList.reverse 0 =
      (first + second).repr.toList.reverse := by
    rw [toList_repr, toList_repr, toList_repr, Text.reverse_toDigits,
      Text.reverse_toDigits, Text.reverse_toDigits]
    unfold addDigits
    dsimp only
    rw [digitValue_digitChar below, digitValue_digitChar otherBelow,
      addDigits_digits _ _ _ (by omega), digitChar_eq (mod_lt _ (by omega))]
    have last : (first % 10 + second % 10 + 0) % 10 = (first + second) % 10 := by omega
    have others : first / 10 + second / 10 + (first % 10 + second % 10 + 0) / 10 =
        (first + second) / 10 := by
      omega
    rw [last, others]
  unfold addUnsigned
  rw [digits]
  dsimp only
  split
  · rename_i empty
    rw [List.isEmpty_iff, List.reverse_eq_nil_iff, toList_repr] at empty
    exact absurd empty Nat.toDigits_ne_nil
  · rw [reverse_reverse, String.ofList_toList]

end Sums

/-! ## What a decision is -/

/-- The payouts of an answer sum to its denominator. -/
def Sums (payouts : List TokenPayout) (denominator : Option String) : Prop :=
  ∃ up down total, payouts = [up, down] ∧ denominator = some total ∧ textValue total ≠ 0 ∧
    textValue up.numerator + textValue down.numerator = textValue total

/-- What makes a response fit to settle a market. -/
structure Decided (response : FinalityResponse) : Prop where
  answered : ∃ provider ∈ response.providers, provider.status = "valid_resolved"
  agreed : ∀ provider ∈ response.providers, provider.status = "valid_resolved" →
    provider.payouts = response.payouts ∧ provider.denominator = response.denominator
  sums : Sums response.payouts response.denominator

section Decisions

variable {codec : Codec} {key : MarketKey}

/-- Payouts are accepted when they are numbers that sum to the denominator. -/
theorem checkPayouts_ok :
    checkPayouts key payouts denominator = .ok result ↔ ∃ up down : Nat,
      payouts = [⟨key.upTokenId, up.repr⟩, ⟨key.downTokenId, down.repr⟩] ∧
        denominator = some (up + down).repr ∧ 0 < up + down ∧ up + down < 2 ^ 256 := by
  constructor
  · intro checked
    unfold checkPayouts at checked
    split at checked
    · rename_i first second
      obtain ⟨_, bound, total, present, _, totalValid, checked⟩ := bind₃_ok.mp checked
      obtain ⟨_, resolved, _, upValid, _, downValid, checked⟩ := bind₃_ok.mp checked
      obtain ⟨firstId, _⟩ := first
      obtain ⟨secondId, _⟩ := second
      obtain ⟨up, _, rfl⟩ := uint256_ok.mp upValid
      obtain ⟨down, _, rfl⟩ := uint256_ok.mp downValid
      obtain ⟨sum, small, rfl⟩ := uint256_ok.mp totalValid
      have same := beq_iff_eq.mp (ensure_ok.mp checked)
      rw [addUnsigned_repr] at same
      obtain rfl : up + down = sum := by rw [← textValue_repr (up + down), same, textValue_repr]
      have tokens := Bool.and_eq_true_iff.mp (ensure_ok.mp bound)
      obtain rfl := beq_iff_eq.mp tokens.1
      obtain rfl := beq_iff_eq.mp tokens.2
      refine ⟨up, down, rfl, need_ok.mp present, ?_, small⟩
      rw [Nat.pos_iff_ne_zero]
      intro zero
      rw [zero] at resolved
      cases resolved
    · cases checked
  · rintro ⟨up, down, rfl, rfl, positive, small⟩
    have resolved : (up + down).repr ≠ "0" := by
      intro zero
      have value := textValue_repr (up + down)
      rw [zero] at value
      exact absurd positive (value ▸ Nat.lt_irrefl 0)
    refine bind_ok.mpr ⟨(), ensure_ok.mpr (by simp), ?_⟩
    refine bind_ok.mpr ⟨_, need_ok.mpr rfl, ?_⟩
    refine bind_ok.mpr ⟨(), uint256_ok.mpr ⟨_, small, rfl⟩, ?_⟩
    refine bind_ok.mpr ⟨(), ensure_ok.mpr (bne_iff_ne.mpr resolved), ?_⟩
    refine bind_ok.mpr ⟨(), uint256_ok.mpr ⟨up, by omega, rfl⟩, ?_⟩
    refine bind_ok.mpr ⟨(), uint256_ok.mpr ⟨down, by omega, rfl⟩, ?_⟩
    exact ensure_ok.mpr (beq_iff_eq.mpr (addUnsigned_repr up down))

theorem sums_of_checkPayouts (checked : checkPayouts key payouts denominator = .ok result) :
    Sums payouts denominator := by
  obtain ⟨up, down, rfl, rfl, positive, _⟩ := checkPayouts_ok.mp checked
  refine ⟨_, _, _, rfl, rfl, ?_, ?_⟩
  · rw [textValue_repr]
    exact positive.ne'
  · rw [textValue_repr, textValue_repr, textValue_repr]

/-- A resolved answer that is valid pays out the denominator. -/
theorem sums_of_validProvider (valid : validProvider provider key = .ok result)
    (resolved : provider.status = "valid_resolved") :
    Sums provider.payouts provider.denominator := by
  iterate 4 obtain ⟨_, _, valid⟩ := bind_ok.mp valid
  rw [if_neg (fun ne => ne resolved)] at valid
  iterate 5 obtain ⟨_, _, valid⟩ := bind_ok.mp valid
  exact sums_of_checkPayouts valid

/-- A decision that waits for the store is one that settles a market. -/
theorem decided_of_decideFinality
    {request : MarketRequest} {facts : FactMeta} {first second : FinalityProvider}
    {response : FinalityResponse}
    (decides : decideFinality codec request facts first second none deadline = .ok response)
    (awaits : response.status = "awaiting_durability") :
    Decided response ∧ response.factMeta = some facts ∧
      ∃ key, request.key = some key ∧ facts.key = some key := by
  obtain ⟨_, _, key, requested, _, met, decides⟩ := bind₃_ok.mp decides
  obtain ⟨_, _, _, firstValid, _, secondValid, decides⟩ := bind₃_ok.mp decides
  cases decides
  have named : facts.key = some key := by
    iterate 2 obtain ⟨_, _, met⟩ := bind_ok.mp met
    exact of_decide_eq_true (Bool.and_eq_true_iff.mp (ensure_ok.mp met)).1
  have asked : request.key = some key := by
    obtain ⟨_, _, known, present, _, _, requested⟩ := bind₃_ok.mp requested
    cases requested
    exact need_ok.mp present
  refine ⟨?_, rfl, key, asked, named⟩
  unfold decisionStatus at awaits
  by_cases firstResolved : first.status = "valid_resolved"
  · by_cases secondResolved : second.status = "valid_resolved"
    · have listed : ([first, second].filter fun provider => provider.status == "valid_resolved") =
          [first, second] := by
        simp [firstResolved, secondResolved]
      rw [listed] at awaits ⊢
      cases differ : disagree [first, second] with
      | true =>
        rw [differ, if_pos rfl] at awaits
        dsimp only at awaits
        exact absurd awaits (by decide)
      | false =>
        unfold disagree at differ
        simp only [Bool.or_eq_false_iff, decide_eq_false_iff_not, not_not] at differ
        obtain ⟨⟨_, payouts⟩, denominator⟩ := differ
        refine ⟨⟨first, by simp, firstResolved⟩, ?_, sums_of_validProvider firstValid firstResolved⟩
        intro provider mem _
        simp only [mem_cons, not_mem_nil, or_false] at mem
        rcases mem with rfl | rfl
        · exact ⟨rfl, rfl⟩
        · exact ⟨payouts.symm, denominator.symm⟩
    · have listed : ([first, second].filter fun provider => provider.status == "valid_resolved") =
          [first] := by
        simp [firstResolved, secondResolved]
      rw [listed]
      refine ⟨⟨first, by simp, firstResolved⟩, ?_, sums_of_validProvider firstValid firstResolved⟩
      intro provider mem resolved
      simp only [mem_cons, not_mem_nil, or_false] at mem
      rcases mem with rfl | rfl
      · exact ⟨rfl, rfl⟩
      · exact absurd resolved secondResolved
  · by_cases secondResolved : second.status = "valid_resolved"
    · have listed : ([first, second].filter fun provider => provider.status == "valid_resolved") =
          [second] := by
        simp [firstResolved, secondResolved]
      rw [listed]
      refine ⟨⟨second, by simp, secondResolved⟩, ?_, sums_of_validProvider secondValid
        secondResolved⟩
      intro provider mem resolved
      simp only [mem_cons, not_mem_nil, or_false] at mem
      rcases mem with rfl | rfl
      · exact absurd resolved firstResolved
      · exact ⟨rfl, rfl⟩
    · have listed : ([first, second].filter fun provider => provider.status == "valid_resolved") =
          [] := by
        simp [firstResolved, secondResolved]
      rw [listed] at awaits
      dsimp only at awaits
      split at awaits
      · exact absurd awaits (by decide)
      · split at awaits
        · split at awaits
          · exact absurd awaits (by decide)
          · exact absurd awaits (by decide)
        · rename_i some
          exact absurd rfl some

end Decisions

end MarketCow.Finality
