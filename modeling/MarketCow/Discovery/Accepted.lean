import MarketCow.Discovery.Lives

/-!
# Events that are accepted

Events that carry their own hashes pass the validation, and a usable writer commits
a valid event when the storage does not stop it.
-/

namespace MarketCow.Discovery

open Library

/-! ## Drafts -/

/-- What an event says before its hashes are added. -/
structure EventDraft where
  eventType : String
  marketId : String
  tokenId : Json
  conditionId : Json
  payload : Json
  raw : Json
  gaps : Json
  cursor : Nat

namespace EventDraft

section Hashes

variable (hash : Json → String) (draft : EventDraft)

/-- The fields before the identity, in the order of their names. -/
def front : List (String × Json) :=
  [("applied", .bool true), ("canonical_payload", draft.payload),
   ("canonical_payload_sha256", .string (hash draft.payload)),
   ("condition_id", draft.conditionId), ("cursor", .integer draft.cursor)]

/-- The fields after the identity. -/
def back : List (String × Json) :=
  [("event_type", .string draft.eventType), ("fail_closed_reason", .null), ("gaps", draft.gaps),
   ("market_id", .string draft.marketId), ("raw_payload", draft.raw),
   ("raw_payload_sha256", .string (hash draft.raw)),
   ("schema_version", .string schemaVersion), ("token_id", draft.tokenId)]

/-- What the identity is the hash of. -/
def anonymous : Json :=
  .object (draft.front hash ++ draft.back hash)

/-- The event with its hashes. -/
def hashed : Json :=
  .object (draft.front hash ++ ("event_id", .string (hash (draft.anonymous hash))) ::
    draft.back hash)

/-- Only three values are hashed. -/
theorem hashed_congr {other : Json → String} (payload : other draft.payload = hash draft.payload)
    (raw : other draft.raw = hash draft.raw)
    (identity : other (draft.anonymous hash) = hash (draft.anonymous hash)) :
    draft.hashed other = draft.hashed hash := by
  have front : draft.front other = draft.front hash := by
    unfold EventDraft.front
    rw [payload]
  have back : draft.back other = draft.back hash := by
    unfold EventDraft.back
    rw [raw]
  have anonymous : draft.anonymous other = draft.anonymous hash := by
    unfold EventDraft.anonymous
    rw [front, back]
  unfold hashed
  rw [front, back, anonymous, identity]

end Hashes

variable (externals : Externals) (draft : EventDraft)

def event : Json := draft.hashed externals.canonicalHash

@[simp] theorem field_applied : field (draft.event externals) "applied" = .bool true := rfl

@[simp] theorem field_payload :
    field (draft.event externals) "canonical_payload" = draft.payload := rfl

@[simp] theorem field_payloadHash :
    field (draft.event externals) "canonical_payload_sha256" =
      .string (externals.canonicalHash draft.payload) := rfl

@[simp] theorem field_cursor : field (draft.event externals) "cursor" = .integer draft.cursor := rfl

@[simp] theorem field_eventId :
    field (draft.event externals) "event_id" =
      .string (externals.canonicalHash (draft.anonymous externals.canonicalHash)) := rfl

@[simp] theorem field_eventType :
    field (draft.event externals) "event_type" = .string draft.eventType := rfl

@[simp] theorem field_failClosed : field (draft.event externals) "fail_closed_reason" = .null := rfl

@[simp] theorem field_gaps : field (draft.event externals) "gaps" = draft.gaps := rfl

@[simp] theorem field_raw : field (draft.event externals) "raw_payload" = draft.raw := rfl

@[simp] theorem field_rawHash :
    field (draft.event externals) "raw_payload_sha256" =
      .string (externals.canonicalHash draft.raw) := rfl

@[simp] theorem field_schema :
    field (draft.event externals) "schema_version" = .string schemaVersion := rfl

/-- Without its identity the event is what the identity was made of. -/
@[simp] theorem removeField_event :
    removeField (draft.event externals) "event_id" = draft.anonymous externals.canonicalHash := rfl

end EventDraft

/-! ## Validation of one event -/

section Validate

variable {externals : Externals} {draft : EventDraft} {terminal : Bool}
  {cursor count index maximumBatchBytes : Nat} {tokenMarkets : TreeMap String String}

/-- The types that a batch of this kind holds. -/
def EventDraft.Typed (externals : Externals) (draft : EventDraft) (terminal : Bool) : Prop :=
  (draft.eventType = (if terminal then "market_terminal" else "book") ∧ draft.gaps = .array []) ∨
    (isTokenRecovery (draft.event externals) = true ∧ terminal = false)

/-- An event with its hashes passes when the checks of its kind do. -/
theorem validateEvent_event
    (position : draft.cursor = cursor + (index + 1)) (small : draft.cursor < 2 ^ 64)
    (typed : draft.Typed externals terminal)
    (checked : validateKind externals terminal count tokenMarkets false draft.marketId state
      (draft.event externals) = .ok middle)
    (fits : middle.total + (lineOf externals (draft.event externals)).length ≤ maximumBatchBytes) :
    validateEvent externals terminal cursor count tokenMarkets maximumBatchBytes false state
        (draft.event externals, index) =
      .ok { middle with
        lines := middle.lines ++ [lineOf externals (draft.event externals)]
        total := middle.total + (lineOf externals (draft.event externals)).length } := by
  unfold validateEvent
  refine bind_ok.mpr ⟨(), rfl, ?_⟩
  refine bind_ok.mpr ⟨(), ensure_ok.mpr ?_, ?_⟩
  · rw [EventDraft.field_cursor, Json.asU64?_integer small]
    apply beq_iff_eq.mpr
    exact (checkedAdd_eq_some_iff.mpr ⟨position.symm, small⟩).symm
  refine bind_ok.mpr ⟨(), ensure_ok.mpr ?_, ?_⟩
  · rcases typed with ⟨type, noGaps⟩ | ⟨recovers, ordinary⟩
    · simp [type, noGaps]
    · simp [recovers, ordinary]
  refine bind_ok.mpr ⟨(), ensure_ok.mpr ?_, ?_⟩
  · rw [EventDraft.field_schema]
    exact beq_self_eq_true _
  refine bind_ok.mpr ⟨draft.marketId, rfl, ?_⟩
  refine bind_ok.mpr ⟨middle, checked, ?_⟩
  refine bind_ok.mpr ⟨(), ensure_ok.mpr ?_, ?_⟩
  · simp
  refine bind_ok.mpr ⟨_, rfl, ?_⟩
  refine bind_ok.mpr ⟨(), ensure_ok.mpr ?_, ?_⟩
  · simp
  exact bind_ok.mpr ⟨(), ensure_ok.mpr (decide_eq_true fits), rfl⟩

/-- A batch of one control event that passes its checks. -/
theorem validateSourceEvents_event
    (position : draft.cursor = cursor + 1) (small : draft.cursor < 2 ^ 64)
    (typed : draft.Typed externals terminal)
    (checked : validateKind externals terminal 1 tokenMarkets false draft.marketId
      Validation.start (draft.event externals) = .ok Validation.start)
    (fits : (lineOf externals (draft.event externals)).length ≤ maximumBatchBytes) :
    validateSourceEvents externals [draft.event externals] terminal cursor tokenMarkets
        maximumBatchBytes =
      .ok [lineOf externals (draft.event externals)] := by
  have within : Validation.start.total + (lineOf externals (draft.event externals)).length ≤
      maximumBatchBytes := by
    change 0 + _ ≤ _
    rw [Nat.zero_add]
    exact fits
  have place : draft.cursor = cursor + (0 + 1) := position
  have visited := validateEvent_event place small typed checked within
  unfold validateSourceEvents validateSourceEventsInner
  refine bind_ok.mpr ⟨(), rfl, ?_⟩
  refine bind_ok.mpr ⟨(), rfl, ?_⟩
  refine bind_ok.mpr ⟨_, foldlM_cons_ok.mpr ⟨_, visited, rfl⟩, ?_⟩
  have nothing : (∅ : TreeMap String (TreeSet String)).valueList = [] := rfl
  refine bind_ok.mpr ⟨(), ensure_ok.mpr ?_, ?_⟩
  · rfl
  refine bind_ok.mpr ⟨(), ensure_ok.mpr ?_, ?_⟩
  · dsimp only [Validation.start]
    rw [nothing]
    rfl
  · rfl

end Validate

/-! ## Started recoveries -/

/-- What the start of a recovery says. -/
structure StartedRecovery where
  marketId : String
  tokenId : String
  conditionId : String
  recoveryId : String
  reason : String
  detectedAt : String
  cursor : Nat

namespace StartedRecovery

variable (externals : Externals) (started : StartedRecovery)

def gap : Json :=
  .object
    [("code", .string "coverage_gap"), ("detected_at", .string started.detectedAt),
     ("event_at", .null), ("expected", .null), ("observed", .null), ("resolution", .null),
     ("resolved", .bool false), ("token_id", .string started.tokenId)]

def payload : Json :=
  .object
    [("reason", .string started.reason), ("recovery_id", .string started.recoveryId),
     ("recovery_scope", .string "token"), ("token_id", .string started.tokenId)]

def draft : EventDraft where
  eventType := "recovery_started"
  marketId := started.marketId
  tokenId := .string started.tokenId
  conditionId := .string started.conditionId
  payload := started.payload
  raw := .object []
  gaps := .array [started.gap]
  cursor := started.cursor

def event : Json := started.draft.event externals

theorem isTokenRecovery_event : isTokenRecovery (started.event externals) = true := rfl

/-- The recovery that the event opens. -/
def model : Json :=
  .object
    [("condition_id", .string started.conditionId), ("gap", started.gap),
     ("market_id", .string started.marketId), ("recovery_id", .string started.recoveryId),
     ("snapshot_cursor", .null), ("token_id", .string started.tokenId)]

end StartedRecovery

section Started

variable {externals : Externals} {started : StartedRecovery} {cursor maximumBatchBytes : Nat}
  {tokenMarkets : TreeMap String String}

theorem validateRecovery_event (bound : tokenMarkets[started.tokenId]? = some started.marketId)
    (identified : started.recoveryId ≠ "") (reasoned : started.reason ≠ "") :
    validateRecovery tokenMarkets started.marketId (started.event externals) = .ok () := by
  unfold validateRecovery
  refine bind_ok.mpr ⟨started.tokenId, rfl, ?_⟩
  refine bind_ok.mpr ⟨(), ensure_ok.mpr ?_, ?_⟩
  · rw [bound, beq_self_eq_true]
    exact beq_self_eq_true (Json.string started.tokenId)
  refine bind_ok.mpr ⟨started.recoveryId, rfl, ?_⟩
  refine bind_ok.mpr ⟨(), ensure_ok.mpr ?_, ?_⟩
  · rw [and_eq_true, isEmpty_eq_false_iff]
    exact ⟨identified, rfl⟩
  have type : (field (started.event externals) "event_type" == .string "recovery_started") =
      true := rfl
  rw [if_pos type]
  refine bind_ok.mpr ⟨[started.gap], rfl, ?_⟩
  refine bind_ok.mpr ⟨(), ensure_ok.mpr ?_, ?_⟩
  · have own : (field (item (field (started.event externals) "gaps") 0) "token_id" ==
        .string started.tokenId) = true := beq_self_eq_true (Json.string started.tokenId)
    rw [own]
    rfl
  exact bind_ok.mpr ⟨started.reason, rfl, ensure_ok.mpr (isEmpty_eq_false_iff.mpr reasoned)⟩

/-- The start of a recovery passes the validation. -/
theorem validateSourceEvents_started
    (position : started.cursor = cursor + 1) (small : started.cursor < 2 ^ 64)
    (bound : tokenMarkets[started.tokenId]? = some started.marketId)
    (identified : started.recoveryId ≠ "") (reasoned : started.reason ≠ "")
    (fits : (lineOf externals (started.event externals)).length ≤ maximumBatchBytes) :
    validateSourceEvents externals [started.event externals] false cursor tokenMarkets
        maximumBatchBytes =
      .ok [lineOf externals (started.event externals)] := by
  refine validateSourceEvents_event position small
    (.inr ⟨started.isTokenRecovery_event externals, rfl⟩) ?_ fits
  unfold validateKind
  have recovers : isTokenRecovery (started.draft.event externals) = true :=
    started.isTokenRecovery_event externals
  rw [if_pos recovers]
  exact bind_ok.mpr ⟨(), validateRecovery_event bound identified reasoned, rfl⟩

end Started

/-! ## Commits that succeed -/

section Commits

variable {externals : Externals} {writer : Writer} {input : CommitInput}
  {recoveries : TreeMap String Json} {session : Session} {index : Index}

/-- A commit whose parts succeed is announced. -/
theorem commitEncoded_ok (checked : checkCommit externals writer input none = .ok recoveries)
    (events : appendEvents externals writer.historyLimit.isSome input.terminal
      (input.marketGroups.any MarketGroupProof.nativeCursor) input.cursor input.materializedBooks
      input.events input.lines (startSession writer) = .ok session)
    (finish : finishTransaction externals writer input recoveries session = .ok index)
    (head : input.events.head? = some first)
    (named : required first "market_id" = .ok market)
    (noScratch : writer.files.pending = false) :
    ∃ after, commitEncoded externals input none writer = (.ok (), after) ∧
      after.recoveries = recoveries ∧ after.poisoned = false ∧ after.index = index := by
  have stored : transaction externals { writer with poisoned := true } input recoveries none =
      .ok (session, index) := by
    unfold transaction
    refine bind_ok.mpr ⟨session, events, ?_⟩
    refine bind_ok.mpr ⟨index, ?_, rfl⟩
    have same : finishTransaction externals { writer with poisoned := true } input recoveries
        session = .ok index := finish
    rw [same]
    rfl
  have memory : ∃ terminalMarkets, commitMemory { writer with poisoned := true } input recoveries
      session index = .ok (committedWriter { writer with poisoned := true } session index
        recoveries terminalMarkets) := by
    unfold commitMemory
    cases input.terminal with
    | false =>
      refine ⟨writer.terminalMarkets, ?_⟩
      exact bind_ok.mpr ⟨first, need_ok.mpr head, rfl⟩
    | true =>
      refine ⟨writer.terminalMarkets.insert market, ?_⟩
      exact bind_ok.mpr ⟨first, need_ok.mpr head, bind_ok.mpr ⟨market, named, rfl⟩⟩
  obtain ⟨terminalMarkets, memory⟩ := memory
  unfold commitEncoded
  rw [checked]
  dsimp only
  rw [stored]
  dsimp only
  rw [memory]
  dsimp only
  unfold writeIndexManifest
  have free : ¬(committedWriter { writer with poisoned := true } session index recoveries
      terminalMarkets).files.pending = true := by
    change ¬writer.files.pending = true
    rw [noScratch]
    exact Bool.false_ne_true
  rw [if_neg free]
  exact ⟨_, rfl, rfl, rfl, rfl⟩

/-- What a batch of one event brings to a commit. -/
def singleInput (externals : Externals) (writer : Writer) (terminal : Bool) (event : Json) :
    CommitInput where
  events := [event]
  lines := [lineOf externals event]
  terminal := terminal
  cursor := writer.cursor
  materializedBooks := ∅
  marketGroups := []

end Commits

/-! ## The start of a recovery is one commit -/

section StartedCommits

variable {externals : Externals} {writer : Writer} {started : StartedRecovery}

/-- The line of the start of a recovery goes into the bounded history. -/
theorem appendEvents_started
    {cursor : Nat} (session : Session) (position : started.cursor = cursor + 1)
    (small : started.cursor < 2 ^ 63)
    (fresh : session.index.recentEvents.contains started.cursor = false) :
    ∃ after, appendEvents externals true false false cursor ∅ [started.event externals]
        [lineOf externals (started.event externals)] session = .ok after ∧
      after.index.metadata = session.index.metadata ∧
      after.index.marketLifecycle = session.index.marketLifecycle := by
  have word : started.cursor < 2 ^ 64 := by omega
  have inserted : insertRecentEvent started.cursor (lineOf externals (started.event externals))
      session.index = .ok _ :=
    bind_ok.mpr ⟨started.cursor, bind_ok.mpr ⟨(), ensure_ok.mpr (decide_eq_true small), rfl⟩,
      bind_ok.mpr ⟨(), ensure_ok.mpr (by rw [fresh]; rfl), rfl⟩⟩
  have number : (field (started.event externals) "cursor").asU64? = some started.cursor := by
    have literal : field (started.event externals) "cursor" = .integer started.cursor := rfl
    rw [literal, Json.asU64?_integer word]
  obtain ⟨after, stored, metadata, lifecycle⟩ : ∃ after, storeEvent externals true false false
      cursor ∅ (started.event externals) (lineOf externals (started.event externals)) 0 session =
        .ok after ∧
      after.index.metadata = session.index.metadata ∧
      after.index.marketLifecycle = session.index.marketLifecycle :=
    ⟨_, bind_ok.mpr ⟨started.marketId, rfl, bind_ok.mpr ⟨_, need_ok.mpr number,
      bind_ok.mpr ⟨_, need_ok.mpr (checkedAdd_eq_some_iff.mpr ⟨position.symm, word⟩),
        bind_ok.mpr ⟨(), ensure_ok.mpr (beq_self_eq_true started.cursor),
          bind_ok.mpr ⟨_, inserted, bind_ok.mpr ⟨_, rfl, rfl⟩⟩⟩⟩⟩⟩, rfl, rfl⟩
  refine ⟨after, ?_, metadata, lifecycle⟩
  unfold appendEvents
  refine foldlM_cons_ok.mpr ⟨after, ?_, rfl⟩
  unfold appendEvent
  dsimp only
  rw [if_pos rfl, stored]
  rfl

/-- Appending the start of a recovery is the commit of one event. -/
theorem appendMarketBatch_started (stop : Option Stop) (usable : writer.poisoned = false)
    (position : started.cursor = writer.cursor + 1) (small : started.cursor < 2 ^ 64)
    (bound : writer.tokenMarkets[started.tokenId]? = some started.marketId)
    (identified : started.recoveryId ≠ "") (reasoned : started.reason ≠ "")
    (fits : (lineOf externals (started.event externals)).length ≤ writer.maximumBatchBytes) :
    appendMarketBatch externals stop [started.event externals] writer =
      commitEncoded externals (singleInput externals writer false (started.event externals)) stop
        writer := by
  have validated := validateSourceEvents_started position small bound identified reasoned fits
  have checked : (ensure (!writer.poisoned) "writer requires restart/recovery after failed commit"
      >>= fun _ => validateSourceEvents externals [started.event externals] false writer.cursor
        writer.tokenMarkets writer.maximumBatchBytes) =
        .ok [lineOf externals (started.event externals)] :=
    bind_ok.mpr ⟨(), by rw [usable]; rfl, validated⟩
  unfold appendMarketBatch appendSourceEvents Writer.attempt
  rw [checked]
  rfl

end StartedCommits

end MarketCow.Discovery
