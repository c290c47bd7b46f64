import MarketCow.Discovery.Events

/-!
# Validation of a batch

The checks that a batch of source events passes before it is published and
stored, what a batch that passed them is like, and the groups that its events
are bound to.
-/

namespace MarketCow.Discovery

open Library List

/-! ## Validation -/

/-- What the validation of a batch has seen so far. -/
structure Validation where
  grouped : TreeMap String (TreeSet String)
  lines : List Bytes
  total : Nat
  received : Option String
  handoffReceived : Option Int
  handoffCondition : Option String

def Validation.start : Validation where
  grouped := ∅
  lines := []
  total := 0
  received := none
  handoffReceived := none
  handoffCondition := none

def schemaVersion : String := "marketcow.polymarket.live.v2"

/-- The control events of a recovery concern one token. -/
def validateRecovery (tokenMarkets : TreeMap String String) (market : String) (event : Json) :
    Except String Unit := do
  let token ← required event "token_id"
  let payload := field event "canonical_payload"
  ensure (tokenMarkets[token]? == some market && field payload "token_id" == .string token)
    "recovery binding"
  let recoveryId ← required payload "recovery_id"
  ensure (!recoveryId.isEmpty && Json.isString (field event "condition_id")) "recovery binding"
  if field event "event_type" == .string "recovery_started" then do
    let gaps ← need (field event "gaps").asArray? "recovery gaps"
    let gap := item (field event "gaps") 0
    ensure (gaps.length == 1 && field gap "token_id" == .string token &&
        field gap "resolved" == .bool false && field gap "code" == .string "coverage_gap" &&
        Json.isString (field gap "detected_at"))
      "recovery must affect only own token"
    let reason ← required payload "reason"
    ensure (!reason.isEmpty) "recovery must affect only own token"
  else
    ensure (field event "gaps" == .array [] &&
        field payload "resolved_gap_token_ids" == .array [.string token] &&
        (match (field payload "snapshot_cursor").asU64?, (field event "cursor").asU64? with
         | some snapshot, some cursor => decide (0 < snapshot) && decide (snapshot < cursor)
         | _, _ => false))
      "recovery snapshot boundary"

/-- Closed without a resolution, or resolved with one. -/
def lifecycleValid (model : Json) : Bool :=
  (field model "lifecycle_state" == .string "closed" && field model "resolution" == .null) ||
    (field model "lifecycle_state" == .string "resolved" &&
      match field model "resolution" with
      | .string value => !value.isEmpty
      | _ => false)

def outcomesOf (event : Json) : Json :=
  field (field (field (field event "canonical_payload") "market") "identity") "outcomes"

def retiredItems (event : Json) : Except String (List Json) :=
  need (field (field event "canonical_payload") "retired_token_ids").asArray?
    "missing retired terminal tokens"

def retiredToken (token : Json) : Except String String :=
  need token.asString? "invalid retired token"

def validateTerminal
    (tokenMarkets : TreeMap String String) (market : String) (count : Nat)
    (event : Json) : Except String Unit := do
  let model := field (field event "canonical_payload") "market"
  ensure (count == 1 && field event "token_id" == .null &&
      field (field model "identity") "market_id" == .string market &&
      field (field model "identity") "condition_id" == field event "condition_id" &&
      lifecycleValid model && field model "closed" == .bool true &&
      field model "accepting_orders" == .bool false &&
      field model "lifecycle_source" == .string "polymarket_gamma" &&
      Json.isString (field model "terminal_at") &&
      Json.isString (field model "lifecycle_evidence_sha256"))
    "invalid terminal evidence"
  let outcomes ← need (outcomesOf event).asArray? "missing terminal tokens"
  ensure (outcomes.length == 2) "terminal identity must be binary"
  let retired ← retiredItems event
  ensure (retired.length == 2) "terminal retirement must be binary"
  let retired ← retired.mapM retiredToken
  let outcomeTokens ← outcomes.mapM fun outcome => required outcome "token_id"
  ensure (TreeSet.ofElements retired == TreeSet.ofElements outcomeTokens)
    "terminal retirement binding differs"
  ensure (outcomeTokens.all fun token => tokenMarkets[token]? == some market)
    "terminal token binding differs"

/-- The types of the observations that a handoff may hold. -/
def handoffTypes : List String :=
  ["book", "price_change", "tick_size_change", "last_trade_price"]

/-- The types of the observations that need not cover a whole market. -/
def observationTypes : List String :=
  ["book", "price_change", "tick_size_change", "last_trade_price", "best_bid_ask"]

def rawType (event : Json) : Option String :=
  (field (field event "raw_payload") "event_type").asString?

section Book

variable (externals : Externals) (tokenMarkets : TreeMap String String) (market : String)

/-- The receipt of a book: one for a batch, in order for a handoff. -/
def validateReceipt (handoff : Bool) (state : Validation) (event : Json) :
    Except String Validation := do
  let observed ← required event "received_at"
  if handoff then do
    let receivedAt ← need (externals.parseTime observed) "invalid received_at"
    ensure (state.handoffReceived.all fun previous => decide (previous ≤ receivedAt))
      "handoff receipt order regressed"
    let condition ← required event "condition_id"
    ensure (state.handoffCondition.all fun old => old == condition) "handoff condition changed"
    .ok { state with
      handoffReceived := some receivedAt
      handoffCondition := some condition }
  else
    match state.received with
    | some previous => do
      ensure (previous == observed) "mixed recovery observation boundary"
      .ok state
    | none => .ok { state with received := some observed }

def validateBook (handoff : Bool) (state : Validation) (event : Json) :
    Except String Validation := do
  let token ← required event "token_id"
  let state ← validateReceipt externals handoff state event
  let tokens := state.grouped.getD market ∅
  let firstForToken := !tokens.contains token
  ensure (handoff || firstForToken) "duplicate token"
  ensure (!handoff || !firstForToken || rawType event == some "book")
    "handoff token must start with supplier snapshot"
  ensure (!handoff || (rawType event).any fun type => handoffTypes.contains type)
    "handoff requires ordinary supplier book evidence"
  ensure (tokenMarkets[token]? == some market) "token is outside prepared market identity"
  ensure (field (field event "canonical_payload") "token_id" == .string token)
    "book token differs"
  .ok { state with grouped := state.grouped.insert market (tokens.insert token) }

end Book

section Validate

variable (externals : Externals)

/-- The line of an event: its text and a newline. -/
def lineOf (event : Json) : Bytes :=
  externals.json.toVec event ++ [Lines.newline]

/-- The checks that depend on the kind of the event. -/
def validateKind
    (terminal : Bool) (count : Nat) (tokenMarkets : TreeMap String String) (handoff : Bool)
    (market : String) (state : Validation) (event : Json) : Except String Validation :=
  if isTokenRecovery event then do
    validateRecovery tokenMarkets market event
    .ok state
  else if terminal then do
    validateTerminal tokenMarkets market count event
    .ok state
  else validateBook externals tokenMarkets market handoff state event

/-- The checks of one event, by its position in the batch. -/
def validateEvent
    (terminal : Bool) (cursor count : Nat) (tokenMarkets : TreeMap String String)
    (maximumBatchBytes : Nat) (handoff : Bool) (state : Validation)
    (entry : Json × Nat) : Except String Validation := do
  let (event, index) := entry
  let recovery := isTokenRecovery event
  ensure (!handoff || !recovery) "handoff cannot contain recovery control events"
  ensure ((field event "cursor").asU64? == checkedAdd cursor (index + 1))
    "noncontiguous source cursor"
  ensure ((field event "event_type" == .string (if terminal then "market_terminal" else "book") ||
        (recovery && !terminal)) &&
      field event "applied" == .bool true && (field event "gaps" == .array [] || recovery) &&
      field event "fail_closed_reason" == .null)
    "not an applicable complete snapshot"
  ensure (field event "schema_version" == .string schemaVersion) "wrong event schema"
  let market ← required event "market_id"
  let state ← validateKind externals terminal count tokenMarkets handoff market state event
  ensure (field event "canonical_payload_sha256" ==
        .string (externals.canonicalHash (field event "canonical_payload")) &&
      field event "raw_payload_sha256" ==
        .string (externals.canonicalHash (field event "raw_payload")))
    "payload checksum mismatch"
  let _ ← need event.asObject? "event is not object"
  ensure (field event "event_id" ==
      .string (externals.canonicalHash (removeField event "event_id")))
    "event identity mismatch"
  let line := lineOf externals event
  ensure (decide (state.total + line.length ≤ maximumBatchBytes)) "batch byte budget exceeded"
  .ok { state with
    lines := state.lines ++ [line]
    total := state.total + line.length }

/-- The checks of a batch. -/
def validateSourceEventsInner
    (events : List Json) (terminal : Bool) (cursor : Nat) (tokenMarkets : TreeMap String String)
    (maximumBatchBytes : Nat) (handoff : Bool) : Except String (List Bytes) := do
  ensure (!events.isEmpty && decide (events.length ≤ if handoff then 4096 else 256))
    "source event count exceeds selected transaction budget"
  ensure (!handoff || (!terminal && tokenMarkets.size == 2 &&
      (TreeSet.ofElements tokenMarkets.valueList).size == 1))
    "handoff requires one complete binary market"
  let state ← events.zipIdx.foldlM
    (validateEvent externals terminal cursor events.length tokenMarkets maximumBatchBytes handoff)
    Validation.start
  ensure (!handoff || (state.grouped.size == 1 &&
      state.grouped.valueList.all fun tokens => tokens.size == 2))
    "handoff final binary market coverage absent"
  ensure ((state.grouped.valueList.all fun tokens => tokens.size == 2) ||
      events.all fun event => isTokenRecovery event ||
        (rawType event).any fun type => observationTypes.contains type)
    "whole two-token market recovery required"
  .ok state.lines

def validateSourceEvents
    (events : List Json) (terminal : Bool) (cursor : Nat) (tokenMarkets : TreeMap String String)
    (maximumBatchBytes : Nat) : Except String (List Bytes) :=
  validateSourceEventsInner externals events terminal cursor tokenMarkets maximumBatchBytes false

end Validate

/-! ## What passed the checks -/

/-- What a control event says about the recovery of its token. -/
structure RecoverySound (event : Json) : Prop where
  conditionId : ∃ text, field event "condition_id" = .string text
  recoveryId : ∃ text, field (field event "canonical_payload") "recovery_id" = .string text ∧
    text ≠ ""
  gap : field event "event_type" = .string "recovery_started" →
    ∀ token, required event "token_id" = .ok token →
      field (item (field event "gaps") 0) "token_id" = .string token ∧
      field (item (field event "gaps") 0) "resolved" = .bool false ∧
      field (item (field event "gaps") 0) "code" = .string "coverage_gap" ∧
      Json.isString (field (item (field event "gaps") 0) "detected_at") = true

/-- An event that passed the checks at its position after a cursor. -/
structure EventSound
    (externals : Externals) (terminal : Bool) (cursor index : Nat) (event : Json) : Prop where
  cursor : (field event "cursor").asU64? = checkedAdd cursor (index + 1)
  marketId : ∃ market, required event "market_id" = .ok market
  identity : field event "event_id" =
    .string (externals.canonicalHash (removeField event "event_id"))
  lifecycle : terminal = true →
    field event "event_type" = .string "market_terminal" ∧
      lifecycleValid (field (field event "canonical_payload") "market") = true
  recovery : isTokenRecovery event = true → RecoverySound event

private theorem exists_of_isString (isText : Json.isString value = true) :
    ∃ text, value = .string text := by
  cases value with
  | string text => exact ⟨text, rfl⟩
  | _ => cases isText

theorem recoverySound_of_validateRecovery
    (validated : validateRecovery tokenMarkets market event = .ok value) :
    RecoverySound event := by
  unfold validateRecovery at validated
  obtain ⟨token, named, _, _, validated⟩ := bind₂_ok.mp validated
  obtain ⟨recoveryId, recoveryNamed, _, bound, validated⟩ := bind₂_ok.mp validated
  have binding := ensure_ok.mp bound
  rw [and_eq_true, not_eq_true'] at binding
  refine ⟨exists_of_isString binding.2, ⟨recoveryId, field_of_required recoveryNamed, ?_⟩, ?_⟩
  · intro blank
    rw [blank] at binding
    exact absurd binding.1 (by decide)
  · intro started other otherNamed
    obtain rfl := ok.inj (named.symm.trans otherNamed)
    rw [if_pos (beq_iff_eq.mpr started)] at validated
    obtain ⟨gaps, _, _, own, _⟩ := bind₂_ok.mp validated
    have facts := ensure_ok.mp own
    simp only [and_eq_true, beq_iff_eq] at facts
    obtain ⟨⟨⟨⟨_, sameToken⟩, open_⟩, code⟩, detected⟩ := facts
    exact ⟨sameToken, open_, code, detected⟩

section Sound

variable {externals : Externals} {terminal : Bool} {cursor count maximumBatchBytes : Nat}
  {tokenMarkets : TreeMap String String} {handoff : Bool} {before after : Validation} {event : Json}
  {market : String}

theorem validateBook_lines
    (validated : validateBook externals tokenMarkets market handoff before event = .ok after) :
    after.lines = before.lines ∧ after.total = before.total := by
  unfold validateBook at validated
  obtain ⟨token, _, middle, receipt, validated⟩ := bind₂_ok.mp validated
  have kept : middle.lines = before.lines ∧ middle.total = before.total := by
    unfold validateReceipt at receipt
    obtain ⟨observed, _, receipt⟩ := bind_ok.mp receipt
    cases handoff with
    | true =>
      rw [if_pos rfl] at receipt
      iterate 4 obtain ⟨_, _, receipt⟩ := bind_ok.mp receipt
      cases receipt
      exact ⟨rfl, rfl⟩
    | false =>
      rw [if_neg Bool.false_ne_true] at receipt
      cases received : before.received with
      | none =>
        rw [received] at receipt
        cases receipt
        exact ⟨rfl, rfl⟩
      | some previous =>
        rw [received] at receipt
        obtain ⟨_, _, receipt⟩ := bind_ok.mp receipt
        cases receipt
        exact ⟨rfl, rfl⟩
  iterate 5 obtain ⟨_, _, validated⟩ := bind_ok.mp validated
  cases validated
  exact kept

theorem lifecycleValid_of_validateTerminal
    (validated : validateTerminal tokenMarkets market count event = .ok value) :
    count = 1 ∧ lifecycleValid (field (field event "canonical_payload") "market") = true := by
  unfold validateTerminal at validated
  obtain ⟨_, evidence, _⟩ := bind_ok.mp validated
  have facts := ensure_ok.mp evidence
  simp only [and_eq_true, beq_iff_eq] at facts
  obtain ⟨⟨⟨⟨⟨⟨⟨⟨⟨single, _⟩, _⟩, _⟩, valid⟩, _⟩, _⟩, _⟩, _⟩, _⟩ := facts
  exact ⟨single, valid⟩

/-- One event that passes the checks is sound, and its line is added. -/
theorem eventSound_of_validateEvent
    (validated : validateEvent externals terminal cursor count tokenMarkets maximumBatchBytes
      handoff before (event, index) = .ok after) :
    EventSound externals terminal cursor index event ∧
      after.lines = before.lines ++ [lineOf externals event] ∧
      after.total = before.total + (lineOf externals event).length ∧
      after.total ≤ maximumBatchBytes := by
  unfold validateEvent at validated
  obtain ⟨_, _, _, contiguous, _, applicable, validated⟩ := bind₃_ok.mp validated
  obtain ⟨_, _, market, marketNamed, middle, checked, validated⟩ := bind₃_ok.mp validated
  iterate 2 obtain ⟨_, _, validated⟩ := bind_ok.mp validated
  obtain ⟨_, identified, _, fits, validated⟩ := bind₂_ok.mp validated
  cases validated
  unfold validateKind at checked
  have kinds : (middle.lines = before.lines ∧ middle.total = before.total) ∧
      (isTokenRecovery event = true → RecoverySound event) ∧
      (isTokenRecovery event = false → terminal = true →
        lifecycleValid (field (field event "canonical_payload") "market") = true) := by
    cases recovers : isTokenRecovery event with
    | true =>
      rw [recovers, if_pos rfl] at checked
      obtain ⟨_, recovery, same⟩ := bind_ok.mp checked
      cases same
      exact ⟨⟨rfl, rfl⟩, fun _ => recoverySound_of_validateRecovery recovery, nofun⟩
    | false =>
      rw [recovers, if_neg Bool.false_ne_true] at checked
      cases terminal with
      | true =>
        rw [if_pos rfl] at checked
        obtain ⟨_, evidence, same⟩ := bind_ok.mp checked
        cases same
        exact ⟨⟨rfl, rfl⟩, nofun, fun _ _ => (lifecycleValid_of_validateTerminal evidence).2⟩
      | false =>
        rw [if_neg Bool.false_ne_true] at checked
        exact ⟨validateBook_lines checked, nofun, fun _ never => nomatch never⟩
  obtain ⟨⟨sameLines, sameTotal⟩, recovery, lifecycle⟩ := kinds
  refine ⟨⟨beq_iff_eq.mp (ensure_ok.mp contiguous), ⟨market, marketNamed⟩,
    beq_iff_eq.mp (ensure_ok.mp identified), ?_, recovery⟩, ?_, ?_, ?_⟩
  · intro isTerminal
    subst isTerminal
    have facts := ensure_ok.mp applicable
    simp only [and_eq_true, or_eq_true, beq_iff_eq, if_true, Bool.not_true,
      false_eq_true, and_false, or_false] at facts
    obtain ⟨⟨⟨type, _⟩, _⟩, _⟩ := facts
    have notRecovery : isTokenRecovery event = false := by
      unfold isTokenRecovery
      rw [type]
      rfl
    exact ⟨type, lifecycle notRecovery rfl⟩
  · rw [sameLines]
  · rw [sameTotal]
  · exact of_decide_eq_true (ensure_ok.mp fits)

theorem sound_of_foldlM {entries : List (Json × Nat)}
    (folded : entries.foldlM
      (validateEvent externals terminal cursor count tokenMarkets maximumBatchBytes handoff)
      before = .ok after)
    (within : before.total ≤ maximumBatchBytes)
    (counted : before.total = (before.lines.map List.length).sum) :
    (∀ entry ∈ entries, EventSound externals terminal cursor entry.2 entry.1) ∧
      after.lines = before.lines ++ entries.map (fun entry => lineOf externals entry.1) ∧
      after.total ≤ maximumBatchBytes ∧
      after.total = (after.lines.map List.length).sum := by
  induction entries generalizing before with
  | nil =>
    cases folded
    refine ⟨fun _ mem => absurd mem not_mem_nil, ?_, within, counted⟩
    rw [map_nil, append_nil]
  | cons entry entries ih =>
    obtain ⟨middle, visited, rest⟩ := foldlM_cons_ok.mp folded
    obtain ⟨sound, lines, total, fits⟩ := eventSound_of_validateEvent visited
    have counting : middle.total = (middle.lines.map List.length).sum := by
      rw [total, lines, counted, map_append, sum_append]
      simp
    obtain ⟨sounds, allLines, allFit, allCounted⟩ := ih rest fits counting
    refine ⟨?_, ?_, allFit, allCounted⟩
    · intro other mem
      rcases mem_cons.mp mem with rfl | later
      · exact sound
      · exact sounds other later
    · rw [allLines, lines, append_assoc, map_cons]
      rfl

end Sound

/-- A batch whose events passed the checks one after another. -/
structure BatchSound
    (externals : Externals) (terminal : Bool) (cursor : Nat) (events : List Json)
    (lines : List Bytes) : Prop where
  some_events : events ≠ []
  lines_eq : lines = events.map (lineOf externals)
  event : ∀ index event, events[index]? = some event →
    EventSound externals terminal cursor index event

/-- A batch that passes the checks is sound and within its budget. -/
theorem batchSound_of_validate
    {events : List Json} {terminal : Bool} {cursor maximumBatchBytes : Nat} {handoff : Bool}
    (validated : validateSourceEventsInner externals events terminal cursor tokenMarkets
      maximumBatchBytes handoff = .ok lines) :
    BatchSound externals terminal cursor events lines ∧
      (lines.map List.length).sum ≤ maximumBatchBytes := by
  unfold validateSourceEventsInner at validated
  obtain ⟨_, counted, _, _, after, folded, validated⟩ := bind₃_ok.mp validated
  iterate 2 obtain ⟨_, _, validated⟩ := bind_ok.mp validated
  cases validated
  obtain ⟨sounds, allLines, fits, total⟩ := sound_of_foldlM folded (Nat.zero_le _) rfl
  have someEvents := ensure_ok.mp counted
  rw [and_eq_true, not_eq_true', isEmpty_eq_false_iff] at someEvents
  refine ⟨⟨someEvents.1, ?_, ?_⟩, total ▸ fits⟩
  · rw [allLines]
    have firsts : (events.zipIdx.map fun entry => lineOf externals entry.1) =
        (events.zipIdx.map Prod.fst).map (lineOf externals) := by
      rw [map_map]
      rfl
    rw [firsts, zipIdx_map_fst]
    rfl
  · intro index event there
    exact sounds (event, index) (mem_zipIdx_iff_getElem?.mpr there)

/-! ## Bound tokens -/

/-- The token of an event is bound to its market. -/
def EventOwned (tokenMarkets : TreeMap String String) (event : Json) : Prop :=
  ∃ token market, required event "token_id" = .ok token ∧ required event "market_id" = .ok market ∧
    tokenMarkets[token]? = some market

section Owned

variable {externals : Externals} {cursor count maximumBatchBytes : Nat}
  {tokenMarkets : TreeMap String String} {handoff : Bool} {before after : Validation}
  {market : String} {event : Json}

theorem eventOwned_of_validateRecovery (named : required event "market_id" = .ok market)
    (validated : validateRecovery tokenMarkets market event = .ok value) :
    EventOwned tokenMarkets event := by
  unfold validateRecovery at validated
  obtain ⟨token, tokenNamed, _, binding, _⟩ := bind₂_ok.mp validated
  have facts := ensure_ok.mp binding
  rw [and_eq_true, beq_iff_eq] at facts
  exact ⟨token, market, tokenNamed, named, facts.1⟩

theorem eventOwned_of_validateBook (named : required event "market_id" = .ok market)
    (validated : validateBook externals tokenMarkets market handoff before event = .ok after) :
    EventOwned tokenMarkets event := by
  unfold validateBook at validated
  obtain ⟨token, tokenNamed, middle, _, validated⟩ := bind₂_ok.mp validated
  iterate 3 obtain ⟨_, _, validated⟩ := bind_ok.mp validated
  obtain ⟨_, binding, _⟩ := bind_ok.mp validated
  exact ⟨token, market, tokenNamed, named, beq_iff_eq.mp (ensure_ok.mp binding)⟩

theorem eventOwned_of_validateEvent
    (validated : validateEvent externals false cursor count tokenMarkets maximumBatchBytes
      handoff before (event, index) = .ok after) :
    EventOwned tokenMarkets event := by
  unfold validateEvent at validated
  iterate 4 obtain ⟨_, _, validated⟩ := bind_ok.mp validated
  obtain ⟨market, named, middle, checked, _⟩ := bind₂_ok.mp validated
  unfold validateKind at checked
  cases recovers : isTokenRecovery event with
  | true =>
    rw [recovers, if_pos rfl] at checked
    obtain ⟨_, recovery, _⟩ := bind_ok.mp checked
    exact eventOwned_of_validateRecovery named recovery
  | false =>
    rw [recovers, if_neg Bool.false_ne_true, if_neg Bool.false_ne_true] at checked
    exact eventOwned_of_validateBook named checked

/-- Every event of a batch that passes the checks is of a bound token. -/
theorem eventOwned_of_validate
    (validated : validateSourceEventsInner externals events false cursor tokenMarkets
      maximumBatchBytes handoff = .ok lines) :
    ∀ event ∈ events, EventOwned tokenMarkets event := by
  unfold validateSourceEventsInner at validated
  iterate 2 obtain ⟨_, _, validated⟩ := bind_ok.mp validated
  obtain ⟨state, folded, _⟩ := bind_ok.mp validated
  have visited : ∀ (entries : List (Json × Nat)) (start finish : Validation),
      entries.foldlM (validateEvent externals false cursor events.length tokenMarkets
        maximumBatchBytes handoff) start = .ok finish →
        ∀ entry ∈ entries, EventOwned tokenMarkets entry.1 := by
    intro entries
    induction entries with
    | nil => exact fun _ _ _ _ mem => absurd mem not_mem_nil
    | cons entry entries ih =>
      intro start finish taken other mem
      obtain ⟨middle, step, rest⟩ := foldlM_cons_ok.mp taken
      rcases mem_cons.mp mem with rfl | later
      · exact eventOwned_of_validateEvent step
      · exact ih middle finish rest other later
  intro event mem
  obtain ⟨place, there⟩ := getElem?_of_mem mem
  exact visited _ _ _ folded (event, place) (mem_zipIdx_iff_getElem?.mpr there)

end Owned

end MarketCow.Discovery
