import MarketCow.Finality.FactStore
import MarketCow.Library.Json

/-!
# Requests for a settlement

A request is answered from the store when its key is settled. Otherwise both providers
are asked, and a decision that can settle the market is stored before it is sent.
Requests run side by side, rules get new revisions, and the service restarts.
-/

namespace MarketCow.Finality

open Library
open Live (Codec MarketKey RecordIdentity ensure)

/-! ## Providers -/

/-- A configured provider and the contract it reads. -/
structure Provider where
  providerId : String
  operatorId : String
  failureDomain : String
  chainId : String
  contract : String
  collateral : String
  deploymentCode : Option (List UInt8)

/-- The service: its providers and budgets, times in milliseconds. -/
structure Setting where
  codec : Codec
  first : Provider
  second : Provider
  clients : Nat
  requestTimeout : Nat
  retryAfter : Nat

/-! ## Reading an observation -/

/-- The digits after the prefixes. -/
def trimHex : List Char → List Char
  | '0' :: 'x' :: rest => trimHex rest
  | rest => rest

/-- The value of a hexadecimal digit in either case. -/
def hexValue (digit : Char) : Nat :=
  if digit.isDigit then digit.toNat - '0'.toNat
  else if 'a' ≤ digit then digit.toNat - 'a'.toNat + 10
  else digit.toNat - 'A'.toNat + 10

/-- The value of hexadecimal digits. -/
def parseHexDigits (digits : List Char) : Option Nat :=
  if digits.isEmpty || !digits.all Text.isHexDigit then none
  else some (digits.foldl (fun value digit => 16 * value + hexValue digit) 0)

/-- An unsigned number of 128 bits. -/
def parseHexU128 (text : String) : Option Nat :=
  let value := match trimHex text.toList with
    | '+' :: digits => parseHexDigits digits
    | digits => parseHexDigits digits
  value.filter fun number => decide (number < 2 ^ 128)

/-- A signed number of 64 bits. -/
def parseHexI64 (text : String) : Option Int :=
  let value : Option Int := match trimHex text.toList with
    | '+' :: digits => (parseHexDigits digits).map fun number => (number : Int)
    | '-' :: digits => (parseHexDigits digits).map fun number => -(number : Int)
    | digits => (parseHexDigits digits).map fun number => (number : Int)
  value.filter fun number => decide (-2 ^ 63 ≤ number) && decide (number < 2 ^ 63)

/-- The number is a signed 64-bit one. -/
def inI64 (value : Int) : Bool := decide (-2 ^ 63 ≤ value) && decide (value < 2 ^ 63)

/-- A value that is a text. -/
def textAt (value : Option Json) : Option String := value.bind Json.asString?

/-- An item of a value that is a list. -/
def itemAt (value : Option Json) (index : Nat) : Option Json :=
  (value.bind Json.asArray?).bind fun items => items[index]?

/-- The block of an answer, with its time in milliseconds. -/
def readBlock (value : Json) : Option FinalizedBlock := do
  let block := value.get? "block"
  let number ← (textAt (block.bind fun fields => fields.get? "number")).bind parseHexU128
  let seconds ← (textAt (block.bind fun fields => fields.get? "timestamp")).bind parseHexI64
  let hash ← textAt (block.bind fun fields => fields.get? "hash")
  let milliseconds ← some (seconds * 1000) |>.filter inI64
  some ⟨hash, toString number, some milliseconds⟩

/-- Fill in the row of a provider from its answer, as far as the answer can be read. -/
def readObservation (codec : Codec) (provider : Provider) (key : MarketKey) (value : Json)
    (row : FinalityProvider) : FinalityProvider × Bool :=
  match readBlock value with
  | none => (row, false)
  | some block =>
    let row := { row with block := some block }
    match (textAt (value.get? "observed_at")).bind codec.rfc3339 with
    | none => (row, false)
    | some observed =>
      let row := { row with
        observedAtNs := some observed |>.filter inI64
        chainId := some provider.chainId
        ctfAddress := some provider.contract
        collateral := some provider.collateral }
      match textAt (value.get? "payout_denominator") with
      | none => (row, false)
      | some denominator =>
        let row := { row with denominator := some denominator }
        let numerators := value.get? "payout_numerators"
        match textAt (itemAt numerators 0), textAt (itemAt numerators 1) with
        | some up, some down =>
          ({ row with
            payouts := [⟨key.upTokenId, up⟩, ⟨key.downTokenId, down⟩]
            tokenBindingVerified :=
              decide (value.get? "standard_ctf_token_binding_verified" = some (.bool true))
            deploymentCodeVerified := true
            endpointIdentityVerified := true
            status := if denominator == "0" then "unresolved" else "valid_resolved" },
            true)
        | _, _ => (row, false)

/-- The row of a provider; a failed read says whether it ran out of time. -/
def nativeProvider
    (codec : Codec) (provider : Provider) (key : MarketKey) (configuration : RecordIdentity)
    (result : Except Bool Json) : FinalityProvider :=
  let row : FinalityProvider :=
    { providerId := provider.providerId
      operatorId := provider.operatorId
      failureDomain := provider.failureDomain
      configuration := some configuration
      status := "failed"
      reason := none
      block := none
      observedAtNs := none
      chainId := none
      ctfAddress := none
      collateral := none
      payouts := []
      denominator := none
      tokenBindingVerified := false
      deploymentCodeVerified := false
      endpointIdentityVerified := false
      evidence := [] }
  match result with
  | .error late =>
    if provider.deploymentCode.isNone then
      { row with status := "invalid", reason := some "deployment_code_registration_missing" }
    else if late then { row with status := "timed_out", reason := some "provider_deadline" }
    else { row with reason := some "provider_read_failed" }
  | .ok value =>
    match readObservation codec provider key value row with
    | (read, true) => read
    | (read, false) =>
      { read with status := "invalid", reason := some "provider_observation_invalid" }

/-! ## Calls -/

/-- The name of a market with its tokens. -/
def bindingKey (key : MarketKey) : String :=
  key.marketId ++ "|" ++ key.conditionId ++ "|" ++ key.upTokenId ++ "|" ++ key.downTokenId

/-- Ten times a number plus a digit, its last byte first, and the carry. -/
def shiftDigit (digit : Char) (bytes : List UInt8) : UInt16 × List UInt8 :=
  bytes.foldr
    (fun byte (carry, after) =>
      let current := byte.toUInt16 * 10 + carry
      (current >>> 8, current.toUInt8 :: after))
    ((digitValue digit).toUInt16, [])

/-- Append a decimal digit to a 256-bit number; what does not fit is refused. -/
def pushDigit (bytes : List UInt8) (digit : Char) : Except String (List UInt8) := do
  let (carry, after) := shiftDigit digit bytes
  ensure (carry == 0) "token exceeds uint256"
  .ok after

/-- A decimal text as a 256-bit word. -/
def decimalToU256 (value : String) : Except String String := do
  ensure (!value.isEmpty && decide (value.utf8ByteSize ≤ 78) && value.toList.all Char.isDigit)
    "token decimal identity"
  let bytes ← value.toList.foldlM pushDigit (List.replicate 32 0)
  .ok ("0x" ++ Text.hexEncode bytes)

/-- The binding and the two tokens of a query. -/
def validateQuery (key : MarketKey) : Except String (String × String × String) := do
  ensure (!key.marketId.isEmpty && decide (key.marketId.utf8ByteSize ≤ 20) &&
    key.marketId.toList.all Char.isDigit) "market identity"
  ensure (hexIdentity key.conditionId 32) "condition identity"
  ensure (key.upTokenId != key.downTokenId) "duplicate outcome token"
  let up ← decimalToU256 key.upTokenId
  let down ← decimalToU256 key.downTokenId
  .ok (bindingKey key, up, down)

/-- How far a call has come: its key is valid, no settlement is stored, the gate let it in, the
providers were decided on, or it was answered. -/
inductive Phase
  | checked (request : MarketRequest) (key : MarketKey)
  | missing (request : MarketRequest) (key : MarketKey)
  | admitted (request : MarketRequest) (key : MarketKey) (binding : String)
  | decided (request : MarketRequest) (key : MarketKey) (binding : String)
      (value : FinalityResponse)
  | failed (code : String) (status : Nat)
  | sent (status : Nat) (value : FinalityResponse)
  deriving DecidableEq

/-- What reads of providers take: permits, the bindings that are being read, those
whose readers are done, and the times of the last attempts. -/
structure Gate where
  taken : Nat
  inflight : List String
  dropped : List String
  attempts : List (String × Nat)
  deriving DecidableEq

/-- No call is in. -/
def Gate.empty : Gate := ⟨0, [], [], []⟩

/-- The read of a call is over. -/
def Gate.leave (gate : Gate) (binding : String) : Gate :=
  { gate with taken := gate.taken - 1, dropped := binding :: gate.dropped }

/-- The service and all that it sent. -/
structure System where
  store : FactStore
  gate : Gate
  now : Nat
  calls : Nat → Option Phase
  sent : List FinalityResponse

/-- What a call learns while it reads: the identities of its records, the answers of
the providers and the time; none stands for a failure. -/
structure Observations where
  configurations : Option (RecordIdentity × RecordIdentity)
  first : Except Bool Json
  second : Except Bool Json
  now : Option Int
  identity : Option RecordIdentity

/-- A step of a call, of the rules or of the clock. -/
inductive Label
  | tick (elapsed : Nat)
  | bind (fresh : String) (rules : RulesRecord)
  | ask (call : Nat) (request : MarketRequest)
  | look (call : Nat)
  | admitRequest (call : Nat)
  | decide (call : Nat) (observations : Observations)
  | commit (call : Nat)
  | forget (binding : String)
  | restart

section Steps

variable (setting : Setting)

/-- A call comes with its request and checks the key. -/
def ask (store : FactStore) (request : MarketRequest) : Phase :=
  match validateRequest setting.codec request with
  | .error _ => .failed "invalid_identity" 400
  | .ok key =>
    match validateNativeKey setting.codec store key with
    | .error _ => .failed "finality_store_or_identity_unavailable" 503
    | .ok _ => .checked request key

/-- A stored settlement answers the call. -/
def look (store : FactStore) (request : MarketRequest) (key : MarketKey) : Phase :=
  match finality key none store with
  | .ok (some value, _) => .sent 200 { value with requestId := request.requestId }
  | .ok (none, _) => .missing request key
  | .error _ => .failed "finality_store_or_identity_unavailable" 503

/-- A binding is read once at a time, and again after a while. -/
def admitRequest (gate : Gate) (now : Nat) (request : MarketRequest) (key : MarketKey) :
    Gate × Phase :=
  if setting.clients ≤ gate.taken then (gate, .failed "finality_capacity" 503)
  else
    match validateQuery key with
    | .error _ => (gate, .failed "invalid_identity" 400)
    | .ok (binding, _) =>
      if gate.inflight.contains binding then (gate, .failed "finality_read_inflight" 503)
      else
        let entered := { gate with
          taken := gate.taken + 1
          inflight := binding :: gate.inflight }
        if (gate.attempts.lookup binding).any fun time =>
            decide (now - time < setting.retryAfter) then
          (entered.leave binding, .failed "finality_retry_limited" 429)
        else
          ({ entered with attempts := (binding, now) :: gate.attempts },
            .admitted request key binding)

/-- The status of an answer that settles nothing. -/
def unsettledStatus (status : String) : Nat :=
  if status = "conflict" then 409 else if status = "provider_failed" then 503 else 202

/-- Ask both providers and decide. -/
def decideCall (request : MarketRequest) (key : MarketKey) (binding : String)
    (observations : Observations) : Phase :=
  match observations.configurations with
  | none => .failed "finality_configuration_store_failed" 503
  | some (one, other) =>
    if setting.first.collateral ≠ setting.second.collateral then
      .failed "finality_profile_disagreement" 503
    else
      let first := nativeProvider setting.codec setting.first key one observations.first
      let second := nativeProvider setting.codec setting.second key other observations.second
      match observations.now with
      | none => .failed "clock_unavailable" 503
      | some now =>
        match observations.identity with
        | none => .failed "finality_store_failed" 503
        | some identity =>
          match decideFinality setting.codec request ⟨some identity, some key, now, []⟩
              first second none (setting.requestTimeout % 2 ^ 32) with
          | .error _ => .failed "finality_observation_invalid" 502
          | .ok value =>
            if value.status = "awaiting_durability" then
              .decided request key binding value
            else .sent (unsettledStatus value.status)
              { value with requestId := request.requestId }

/-- Store a decision, and send what is stored. -/
def commitCall (store : FactStore) (request : MarketRequest) (key : MarketKey)
    (value : FinalityResponse) : FactStore × Phase :=
  match finality key (some value) store with
  | .ok (some stored, after) => (after, .sent 200 { stored with requestId := request.requestId })
  | .ok (none, after) => (after, .failed "finality_persistence_failed" 503)
  | .error _ => (store, .failed "finality_persistence_failed" 503)

/-- The decision that a call sent. -/
def Phase.response : Phase → List FinalityResponse
  | .sent _ value => [value]
  | _ => []

/-- The system after a call has moved. -/
def System.settle (system : System) (call : Nat) (phase : Phase) : System :=
  { system with
    calls := Function.update system.calls call (some phase)
    sent := system.sent ++ phase.response }

/-- The gate after a call has moved on or ended. -/
def System.leave (system : System) (binding : String) : Phase → System
  | .decided _ _ _ _ => system
  | _ => { system with gate := system.gate.leave binding }

/-- What a step leaves; a step that does not fit leaves everything as it is. -/
def System.step (system : System) : Label → System
  | .tick elapsed => { system with now := system.now + elapsed }
  | .bind fresh rules =>
    match bindRules setting.codec fresh rules system.store with
    | .ok (_, store) => { system with store }
    | .error _ => system
  | .ask call request =>
    match system.calls call with
    | some _ => system
    | none => system.settle call (ask setting system.store request)
  | .look call =>
    match system.calls call with
    | some (.checked request key) => system.settle call (look system.store request key)
    | _ => system
  | .admitRequest call =>
    match system.calls call with
    | some (.missing request key) =>
      let (gate, phase) := admitRequest setting system.gate system.now request key
      { system with gate }.settle call phase
    | _ => system
  | .decide call observations =>
    match system.calls call with
    | some (.admitted request key binding) =>
      let phase := decideCall setting request key binding observations
      (system.leave binding phase).settle call phase
    | _ => system
  | .commit call =>
    match system.calls call with
    | some (.decided request key binding value) =>
      let (store, phase) := commitCall system.store request key value
      ({ system with store }.leave binding phase).settle call phase
    | _ => system
  | .forget binding =>
    if system.gate.dropped.contains binding then
      { system with gate := { system.gate with
        inflight := system.gate.inflight.erase binding
        dropped := system.gate.dropped.erase binding } }
    else system
  | .restart => { system with gate := Gate.empty, calls := fun _ => none }

/-- A service with an empty store. -/
def System.opened : System where
  store := FactStore.empty
  gate := Gate.empty
  now := 0
  calls _ := none
  sent := []

/-- What the steps leave. -/
def System.run (system : System) (labels : List Label) : System :=
  labels.foldl (System.step setting) system

end Steps

end MarketCow.Finality
