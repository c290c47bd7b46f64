import MarketCow.Polynode.Isolation

/-!
# Runs of receipts

Over every run a consumer of one token holds the book of the connection after
each receipt and gets no frame of its chain twice. A faulty update stays with its
token as long as no update comes that fails its frame.
-/

namespace MarketCow.Polynode

open Library List

/-! ## Chains -/

section Chains

variable {provider : Provider} {connection after : Connection} {token : String}
  {context : FrameContext} {held : Option Held} {ledger : Ledger}

/-- No frame of a ledger is later than its book. -/
theorem Follows.sequence_le {frames : List Json} {book : TokenBook} {frame : Json} {last : Nat}
    (follows : Follows provider frames book) (mem : frame ∈ frames)
    (standing : book.sequence = some last) :
    ∃ sequence, frameSequence frame = some sequence ∧ sequence ≤ last := by
  let earlier (first second : Json) : Prop :=
    ∃ before after, frameSequence first = some before ∧ frameSequence second = some after ∧
      before < after
  have transitive : IsTrans Json earlier := by
    refine ⟨?_⟩
    rintro first second third ⟨a, b, firstAt, secondAt, less⟩ ⟨c, d, middleAt, thirdAt, more⟩
    cases secondAt.symm.trans middleAt
    exact ⟨a, d, firstAt, thirdAt, less.trans more⟩
  have ordered : frames.Pairwise earlier := by
    refine isChain_iff_pairwise.mp (follows.consecutive.imp ?_)
    rintro first second ⟨sequence, firstAt, secondAt⟩
    exact ⟨sequence, sequence + 1, firstAt, secondAt, Nat.lt_succ_self sequence⟩
  obtain ⟨final, number, ending, numbered, here, _⟩ := follows.last
  obtain rfl := some.inj (here.symm.trans standing)
  obtain ⟨front, rfl⟩ := getLast?_eq_some_iff.mp ending
  rcases mem_append.mp mem with inFront | isFinal
  · obtain ⟨before, after, at_, finalAt, less⟩ :=
      (pairwise_append.mp ordered).2.2 frame inFront final (by simp)
    cases finalAt.symm.trans numbered
    exact ⟨before, at_, less.le⟩
  · rw [mem_singleton.mp isFinal]
    exact ⟨number, numbered, le_rfl⟩

/-- A delta is none of the frames of its chain before it. -/
theorem fresh_of_processUpdate {update : Json} {frames : List Json}
    (sound : TokenSound provider token (some frames) connection)
    (taken : processUpdate provider context update connection = (.ok processed, after))
    (accepted : processed.effect = .accepted receipt) (same : receipt.tokenId = token)
    (delta : isAnchor processed.update = false) : processed.update ∉ frames := by
  obtain ⟨effect, middle, ingested, taken⟩ := Effect.bind_ok.mp taken
  rw [Effect.get_bind] at taken
  cases taken
  subst accepted
  have step := updateStep_of_ingest provider context update connection
  rw [ingested] at step
  cases step with
  | @depth other condition book _ _ named there step =>
    cases step with
    | accepted typed applies received =>
      have here : other = token := (receiptOf_tokenId received).symm.trans same
      subst here
      obtain ⟨_, previous, standing, _, next⟩ := (TokenBook.applyDepth_ok applies).continues delta
      intro mem
      obtain ⟨sequence, at_, bounded⟩ :=
        ((sound _ there).follows frames rfl).sequence_le mem standing
      cases at_.symm.trans next
      exact absurd bounded (Nat.not_succ_le_self previous)

/-- What holds when a receipt of the token is written: the consumer that has
followed the updates so far holds the book of the connection. -/
def ReceiptHolds
    (provider : Provider) (token : String) (held : Option Held) (updates : List Processed)
    (receipt : DepthReceipt) (connection : Connection) : Prop :=
  ∃ item entry, updates.foldlM (follow token) held = .ok (some item) ∧
    connection.tokens[token]? = some entry ∧ item.depth = entry.2.depth ∧
    receipt.providerChecksum = entry.2.checksum provider

/-- Every receipt of a frame is followed, and every delta is new to its chain. -/
theorem receipts_of_ingestUpdates
    (mirrors : Mirrors token held connection) (sound : TokenSound provider token ledger connection)
    (taken : ingestUpdates provider context updates connection = (.ok processed, after))
    (split : processed = front ++ current :: back) (accepted : current.effect = .accepted receipt)
    (same : receipt.tokenId = token) :
    ReceiptHolds provider token held (front ++ [current]) receipt current.after ∧
      (isAnchor current.update = false → ∀ frames,
        front.foldl (recordLedger token) ledger = some frames → current.update ∉ frames) := by
  induction updates generalizing connection held ledger processed front with
  | nil =>
    cases taken
    exact absurd split (by simp)
  | cons update updates ih =>
    obtain ⟨first, rest, middle, now, later, rfl⟩ := Effect.collect_cons_ok_iff.mp taken
    obtain ⟨next, followed, mirrorsMiddle, last, received⟩ := mirrors.processUpdate now
    have soundMiddle := sound.processUpdate now
    cases front with
    | nil =>
      cases split
      obtain ⟨item, entry, held, there, depth, checksum⟩ := received receipt accepted same
      subst held
      refine ⟨⟨item, entry, ?_, last ▸ there, depth, checksum⟩, ?_⟩
      · exact foldlM_cons_ok.mpr ⟨_, followed, rfl⟩
      · intro delta frames standing
        change ledger = some frames at standing
        subst standing
        exact fresh_of_processUpdate sound now accepted same delta
    | cons head front =>
      cases split
      obtain ⟨⟨item, entry, held, rest⟩, fresh⟩ := ih mirrorsMiddle soundMiddle later rfl
      exact ⟨⟨item, entry, foldlM_cons_ok.mpr ⟨next, followed, held⟩, rest⟩, fresh⟩

/-- The receipt of an update, if it has one. -/
def Processed.receipt? (processed : Processed) : Option DepthReceipt :=
  match processed.effect with
  | .accepted receipt => some receipt
  | .ignored | .fenced _ => none

/-- A frame with updates is its updates, and nothing it controls. -/
theorem FrameStep.listed
    (step : FrameStep provider raw socketReceivedAt connection ingested after) :
    ingested.updates = [] ∨ ∃ context updates,
      ingestUpdates provider context updates connection = (.ok ingested.updates, after) := by
  cases step with
  | acknowledged _ _ bare _ => exact .inl bare
  | resynced _ _ _ _ resyncs =>
    obtain ⟨names, middle, _, resyncs⟩ := Effect.bind_ok.mp resyncs
    cases resyncs
    exact .inl rfl
  | controlled _ _ _ bare _ => exact .inl bare
  | data _ _ _ _ taken =>
    obtain ⟨⟨time, updates⟩, _, taken⟩ := Effect.lift_bind_ok.mp taken
    obtain ⟨processed, middle, listed, taken⟩ := Effect.bind_ok.mp taken
    cases taken
    exact .inr ⟨_, updates, listed⟩

/-- The receipts of updates, in their order. -/
theorem verifiedDepth_foldl_record (updates : List Processed) (outcome : IngestOutcome) :
    (updates.foldl IngestOutcome.record outcome).verifiedDepth =
      outcome.verifiedDepth ++ updates.filterMap Processed.receipt? := by
  induction updates generalizing outcome with
  | nil => exact (append_nil _).symm
  | cons first updates ih =>
    rw [foldl_cons, ih, filterMap_cons]
    unfold IngestOutcome.record Processed.receipt?
    cases first.effect with
    | ignored | fenced => rfl
    | accepted receipt => exact append_assoc _ _ _

/-- The receipts of a frame are those of its updates. -/
theorem FrameStep.verifiedDepth
    (step : FrameStep provider raw socketReceivedAt connection ingested after) :
    ingested.outcome.verifiedDepth = ingested.updates.filterMap Processed.receipt? := by
  cases step with
  | acknowledged _ _ bare silent => rw [bare, silent, filterMap_nil]
  | resynced _ _ _ _ resyncs =>
    obtain ⟨names, middle, _, resyncs⟩ := Effect.bind_ok.mp resyncs
    cases resyncs
    rfl
  | controlled _ _ _ bare silent => rw [bare, silent, filterMap_nil]
  | data _ _ _ _ taken =>
    obtain ⟨⟨time, updates⟩, _, taken⟩ := Effect.lift_bind_ok.mp taken
    obtain ⟨processed, middle, listed, taken⟩ := Effect.bind_ok.mp taken
    cases taken
    exact verifiedDepth_foldl_record processed .empty

end Chains

/-! ## What a run promises -/

/-- An update its book rejects, or with a number that is no `Decimal`. -/
def Faulty
    (provider : Provider) (connection : Connection) (token : String) (update : Json) : Prop :=
  ∃ entry, connection.tokens[token]? = some entry ∧
    ((∃ cause after, entry.2.applyDepth provider update = (.error cause, after)) ∨
      ∃ changes, frameLevels update = .ok changes ∧ ∃ change ∈ changes,
        provider.decimalFromStr change.price = none ∨ provider.decimalFromStr change.size = none)

/-- The run goes on for the other tokens as if a frame had only the given
updates. -/
structure UnchangedOff
    (provider : Provider) (token : String) (connection : Connection) (raw socketReceivedAt : String)
    (context : FrameContext) (updates : List Json) (later : List (String × String)) : Prop where
  receipts : (connection.ingest provider raw socketReceivedAt).1.map (·.off token) =
    (Connection.ingestList provider context updates connection).1.map (·.off token)
  laterReceipts :
    (Connection.outcomes provider (connection.ingest provider raw socketReceivedAt).2 later).map
        (Except.map (·.off token)) =
      (Connection.outcomes provider
        (Connection.ingestList provider context updates connection).2 later).map
          (Except.map (·.off token))
  books : ∀ soon rest, later = soon ++ rest → AgreeOff token
    ((connection.ingest provider raw socketReceivedAt).2.afterFrames provider soon)
    ((Connection.ingestList provider context updates connection).2.afterFrames provider soon)

/-- What the receipts of a run say of one token. -/
structure ReceiptsSound
    (provider : Provider) (connection : Connection) (frames : List (String × String))
    (token : String) : Prop where
  /-- A consumer never meets a broken chain, and holds the book of a token as
  long as it is verified. -/
  followed : ∃ held, (followRun provider token connection frames).2 = .ok held ∧
    Mirrors token held (connection.afterFrames provider frames)
  /-- The receipts of a frame are those of its updates, in their order. -/
  listed : ∀ earlier raw socketReceivedAt later,
    frames = earlier ++ (raw, socketReceivedAt) :: later → ∀ ingested after,
    (connection.afterFrames provider earlier).ingestRecorded provider raw socketReceivedAt =
      (.ok ingested, after) →
    ingested.outcome.verifiedDepth = ingested.updates.filterMap Processed.receipt?
  /-- The consumer holds the book after each receipt, and no delta is a frame of
  its chain again. -/
  received : ∀ earlier raw socketReceivedAt later,
    frames = earlier ++ (raw, socketReceivedAt) :: later → ∀ ingested after,
    (connection.afterFrames provider earlier).ingestRecorded provider raw socketReceivedAt =
      (.ok ingested, after) →
    ∀ front current back receipt, ingested.updates = front ++ current :: back →
      current.effect = .accepted receipt → receipt.tokenId = token →
      (∃ held, (followRun provider token connection earlier).2 = .ok held ∧
        ReceiptHolds provider token held (front ++ [current]) receipt current.after) ∧
      (isAnchor current.update = false → ∀ chain,
        front.foldl (recordLedger token) (ingestRun provider token connection earlier).2 =
          some chain → current.update ∉ chain)
  /-- A faulty depth update of the token changes nothing of the others. -/
  isolated : ∀ earlier raw socketReceivedAt later,
    frames = earlier ++ (raw, socketReceivedAt) :: later → ∀ context front update back,
    FrameUpdates provider (connection.afterFrames provider earlier) raw socketReceivedAt context
      (front ++ update :: back) →
    IsDepthOf token update → ∀ processed middle,
    ingestUpdates provider context front (connection.afterFrames provider earlier) =
      (.ok processed, middle) →
    Faulty provider middle token update →
    UnchangedOff provider token (connection.afterFrames provider earlier) raw socketReceivedAt
      context (front ++ back) later

section Runs

variable {provider : Provider} {connection : Connection} {token : String}

theorem runCalm_append (calm : RunCalm provider connection (earlier ++ later)) :
    RunCalm provider connection earlier ∧
      RunCalm provider (connection.afterFrames provider earlier) later := by
  induction earlier generalizing connection with
  | nil => exact ⟨trivial, calm⟩
  | cons frame earlier ih =>
    obtain ⟨here, rest⟩ := calm
    obtain ⟨front, back⟩ := ih rest
    exact ⟨⟨here, front⟩, back⟩

theorem unchangedOff_of_calm (calm : RunCalm provider connection ((raw, socketReceivedAt) :: later))
    (data : FrameUpdates provider connection raw socketReceivedAt context (front ++ update :: back))
    (depth : IsDepthOf token update)
    (visited : ingestUpdates provider context front connection = (.ok processed, middle))
    (faulty : Faulty provider middle token update) :
    UnchangedOff provider token connection raw socketReceivedAt context (front ++ back) later := by
  obtain ⟨entry, there, _⟩ := faulty
  have agrees := ingestList_agrees (calm.1 context _ data) visited depth there
  rw [← ingest_of_frameUpdates data] at agrees
  refine ⟨map_off_of_agrees agrees.result, (outcomes_agree agrees.state calm.2).1, ?_⟩
  rintro soon rest rfl
  exact (outcomes_agree agrees.state (runCalm_append calm.2).1).2

/-- A run without an update that fails its frame keeps its promises for every token. -/
theorem receipts_of_run (provider : Provider) (epoch : String) (tokens : TreeMap String String)
    (connection : Connection) (created : Connection.new epoch tokens = .ok connection)
    (frames : List (String × String)) (calm : RunCalm provider connection frames)
    (token : String) : ReceiptsSound provider connection frames token := by
  have all : AllAccumulated provider connection := by
    intro other entry there
    rw [new_tokens created there]
    exact accumulated_empty
  have bare : TokenSound provider token none connection := by
    intro entry there
    rw [new_tokens created there]
    exact BookSound.empty
  have start : Mirrors token none connection := by
    intro entry there
    rw [new_tokens created there]
    exact ⟨rfl, by rintro _ ⟨⟩⟩
  refine ⟨followRun_mirrors all bare start frames, ?_, ?_, ?_⟩
  · intro earlier raw socketReceivedAt later _ ingested after taken
    exact (frameStep_of_ingest taken).verifiedDepth
  · intro earlier raw socketReceivedAt later _ ingested after taken front current back receipt
      split accepted same
    obtain ⟨held, followed, mirrors⟩ := followRun_mirrors all bare start earlier
    have sound := ingestRun_sound all bare earlier
    rw [ingestRun_connection] at sound
    rcases (frameStep_of_ingest taken).listed with none | ⟨context, updates, listed⟩
    · exact absurd (none.symm.trans split) (by simp)
    · obtain ⟨holds, fresh⟩ := receipts_of_ingestUpdates mirrors sound listed split accepted same
      exact ⟨⟨held, followed, holds⟩, fresh⟩
  · rintro earlier raw socketReceivedAt later rfl context front update back data depth processed
      middle visited faulty
    exact unchangedOff_of_calm (runCalm_append calm).2 data depth visited faulty

end Runs

/-! ### Examples -/

/-- A data frame that is one update, with an envelope and numbers, fails nothing. -/
theorem frameCalm_of_sole (read : provider.fromStr raw = some value)
    (sole : ∀ kind, (value.get? "type").bind Json.asString? = some kind →
      updatesOf value kind = .ok (none, [value]))
    (enveloped : (value.get? "integrity").isNone = false)
    (decimal : ¬Undecimal provider value) :
    FrameCalm provider connection raw socketReceivedAt := by
  rintro context updates ⟨_, same, _, typed, _, _, listed⟩
  cases read.symm.trans same
  cases (sole _ typed).symm.trans listed
  rintro front update back split _ _ _ ⟨_, _, _, _, fails⟩
  have whole : update = value := by
    have mem : update ∈ [value] := by
      rw [split]
      simp
    exact mem_singleton.mp mem
  subst whole
  rcases fails with ⟨bare, _⟩ | ⟨undecimal, _⟩
  · rw [enveloped] at bare
    cases bare
  · exact decimal undecimal

/-- Every price of the anchor is a `Decimal`. -/
theorem sampleAnchor_decimal : ¬Undecimal sampleProvider sampleAnchor := by
  rintro ⟨_, envelope, next, price, read, built, mem, undecimal⟩
  have listed : (((readEnvelope sampleAnchor).bind
      (anchorBook sampleProvider sampleAnchor)).map fun next =>
        (next.bids.toList, next.asks.toList)).toOption = some ([("0.5", "10")], []) := by
    decide +kernel
  have bound : (readEnvelope sampleAnchor).bind (anchorBook sampleProvider sampleAnchor) =
      .ok next := bind_ok.mpr ⟨envelope, read, built⟩
  rw [bound] at listed
  obtain ⟨bids, asks⟩ := Prod.mk.inj (some.inj listed)
  rcases mem with mem | mem
  · obtain ⟨size, found⟩ := isSome_iff_exists.mp (mem_iff_isSome_getElem?.mp mem)
    have entry := mem_toList_iff_getElem?_eq_some.mpr found
    rw [bids, mem_singleton] at entry
    cases entry
    exact absurd undecimal (by decide +kernel)
  · obtain ⟨size, found⟩ := isSome_iff_exists.mp (mem_iff_isSome_getElem?.mp mem)
    have entry := mem_toList_iff_getElem?_eq_some.mpr found
    rw [asks] at entry
    cases entry

theorem sampleFrames_calm :
    RunCalm sampleProvider sampleConnection sampleFrames := by
  refine ⟨?_, frameCalm_of_sole (by decide +kernel : _ = some sampleAnchor) ?_ rfl
      sampleAnchor_decimal,
    frameCalm_of_sole (by decide +kernel : _ = some sampleDelta) ?_ rfl
      fun undecimal => absurd undecimal.1 (by decide), trivial⟩
  · rintro context updates ⟨_, read, _, typed, _, inner, _⟩
    have value : sampleProvider.fromStr acknowledgementText = some sampleAcknowledgement := by
      decide +kernel
    cases value.symm.trans read
    cases typed
    cases inner
  · rintro _ ⟨⟩
    rfl
  · rintro _ ⟨⟩
    rfl

/-- An acknowledged token with an anchor and the delta that continues it. -/
theorem receipts_sample :
    ReceiptsSound sampleProvider sampleConnection sampleFrames sampleToken ∧
      (followRun sampleProvider sampleToken sampleConnection sampleFrames).2.toOption.bind
        (Option.map fun held => (held.depth.bids.toList, held.depth.asks.toList)) =
          some ([], [("0.6", "4")]) := by
  refine ⟨receipts_of_run sampleProvider "epoch-a" sampleTokens sampleConnection ?_ sampleFrames
    sampleFrames_calm sampleToken, by decide +kernel⟩
  unfold Connection.new
  rw [if_neg (by decide +kernel), if_neg (by decide +kernel)]
  rfl

def otherToken : String := "210987654321"

def otherCondition : String :=
  "0xbbbbbbbbbbbbbbbbbbbbbbbbbbbbbbbbbbbbbbbbbbbbbbbbbbbbbbbbbbbbbbbb"

def pairConnection : Connection where
  epoch := "epoch-a"
  tokens := (sampleTokens.insert otherToken otherCondition).map fun _ condition =>
    (condition, TokenBook.empty)
  subscribed := false

def pairAcknowledgement : Json :=
  .object [("type", .string "subscribed"), ("markets", .integer 2),
    ("integrity", .object [("enabled", .bool true), ("protocol", .string "pn1")])]

def pairAcknowledgementText : String :=
  "\x7b\"type\":\"subscribed\",\"markets\":2,\"integrity\":\x7b\"enabled\":true,\"protocol\":\"pn1\"\x7d\x7d"

/-- The checksum of a book with one bid of size 1 at a price of 32 digits. -/
def undecimalChecksum : String :=
  "6d760a9d451f3f2d901e45782ba0042ede15f35d6dd0f5a4d51b90ddffbe947e"

def undecimalAnchor : Json :=
  .object [("type", .string "book_snapshot"), ("asset_id", .string otherToken),
    ("market", .string otherCondition),
    ("bids", .array [.object [("price", .string "10000000000000000000000000000000"),
      ("size", .string "1")]]), ("asks", .array []),
    ("integrity", .object [("protocol", .string "pn1"), ("anchor", .bool true),
      ("seq", .integer 1), ("checksum", .string undecimalChecksum)])]

def undecimalText : String :=
  "\x7b\"type\":\"book_snapshot\",\"asset_id\":\"210987654321\",\"market\":\"" ++ otherCondition ++
    "\",\"bids\":[\x7b\"price\":\"10000000000000000000000000000000\",\"size\":\"1\"\x7d]," ++
    "\"asks\":[],\"integrity\":\x7b\"protocol\":\"pn1\",\"anchor\":true,\"seq\":1," ++
    "\"checksum\":\"" ++ undecimalChecksum ++ "\"\x7d\x7d"

def pairProvider : Provider where
  sha256 := Sha256.hash
  fromStr := fun text =>
    [(pairAcknowledgementText, pairAcknowledgement), (anchorText, sampleAnchor),
      (undecimalText, undecimalAnchor)].lookup text
  decimalFromStr := sampleProvider.decimalFromStr

def pairFrames : List (String × String) :=
  [(pairAcknowledgementText, "2026-10-09T00:00:00Z"), (anchorText, "2026-10-09T00:00:01Z"),
    (undecimalText, "2026-10-09T00:00:02Z")]

/-- One token is verified and the other lists a price of 32 digits: the frame
fails, and both are fenced. -/
theorem receipts_undecimal :
    Connection.new "epoch-a" (sampleTokens.insert otherToken otherCondition) = .ok pairConnection ∧
      ¬ReceiptsSound pairProvider pairConnection pairFrames otherToken := by
  constructor
  · unfold Connection.new
    rw [if_neg (by decide +kernel), if_neg (by decide +kernel)]
    rfl
  · intro sound
    let connection := pairConnection.afterFrames pairProvider (pairFrames.take 2)
    have read : pairProvider.fromStr undecimalText = some undecimalAnchor := by decide +kernel
    have subscribed : connection.subscribed = true := by decide +kernel
    have data : FrameUpdates pairProvider connection undecimalText "2026-10-09T00:00:02Z"
        (frameContext pairProvider undecimalText "2026-10-09T00:00:02Z" none)
        ([] ++ undecimalAnchor :: []) :=
      .of_value (by decide +kernel) read rfl rfl subscribed rfl rfl
    have there : (connection.tokens[otherToken]?).isSome = true := by decide +kernel
    obtain ⟨entry, present⟩ := isSome_iff_exists.mp there
    have faulty : Faulty pairProvider connection otherToken undecimalAnchor :=
      ⟨entry, present, .inr ⟨_, rfl, _, mem_singleton.mpr rfl, .inl (by decide +kernel)⟩⟩
    have unchanged := sound.isolated (pairFrames.take 2) undecimalText "2026-10-09T00:00:02Z" []
      rfl _ [] undecimalAnchor [] data ⟨⟨_, rfl, rfl⟩, rfl⟩ [] connection rfl faulty
    have fails : ((connection.ingest pairProvider undecimalText
        "2026-10-09T00:00:02Z").1.map (·.off otherToken)).toOption = none := by decide +kernel
    rw [unchanged.receipts] at fails
    cases fails

end MarketCow.Polynode
