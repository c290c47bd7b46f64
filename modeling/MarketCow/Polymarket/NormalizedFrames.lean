import MarketCow.Core.BookSoundness
import MarketCow.Polymarket.Normalizer

/-!
# What normalized frames hold

Every event that the normalizer makes of a frame carries quantities that are
not negative and new ticks that are not zero. The books of a run of such events
are sound.
-/

namespace MarketCow.Polymarket

open Library MarketCow.Core List

variable {α : Type}

theorem okOr_ok_iff :
    okOr value cause = .ok result ↔ value = some result := by
  cases value with
  | none => constructor <;> intro never <;> cases never
  | some present =>
    constructor
    · exact fun read => congrArg some (ok.inj read)
    · exact fun same => congrArg Except.ok (some.inj same)

theorem orInvalidDecimal_ok_iff :
    orInvalidDecimal parsed = .ok result ↔ parsed = .ok result := by
  cases parsed with
  | error cause => constructor <;> intro never <;> cases never
  | ok value =>
    constructor
    · exact fun read => congrArg Except.ok (ok.inj read)
    · exact fun read => congrArg Except.ok (ok.inj read)

/-! ## Decimals -/

section Decimals

variable {decimal : String → Option Decimal}

/-- A parsed level has no negative quantity. -/
theorem level_of_new
    (parsed : Level.new decimal price quantity = .ok level) :
    0 ≤ level.quantity := by
  unfold Level.new at parsed
  split at parsed
  · cases parsed
  · split at parsed
    · cases parsed
    · rename_i quantity _ nonnegative
      obtain ⟨_, _, built⟩ := bind_ok.mp parsed
      cases built
      exact not_lt.mp nonnegative

theorem ne_zero_of_parseTick
    (parsed : Price.parseTick decimal text = .ok tick) :
    tick ≠ 0 := by
  unfold Price.parseTick at parsed
  obtain ⟨value, _, checked⟩ := bind_ok.mp parsed
  split at checked
  · cases checked
  · rename_i nonzero
    cases checked
    exact Price.isZero_eq_false_iff.mp (by simpa using nonzero)

end Decimals

section Frames

variable {platform : Platform} {parsers : Parsers} {value : Option Json}

theorem nonneg_of_parseLevels
    (parsed : parseLevels parsers value = .ok levels) :
    ∀ level ∈ levels, 0 ≤ level.quantity := by
  unfold parseLevels at parsed
  obtain ⟨items, _, visited⟩ := bind_ok.mp parsed
  intro level mem
  obtain ⟨item, _, read⟩ := (Fallible.mem_of_mapM_ok visited).2 level mem
  unfold parseLevel at read
  obtain ⟨fields, _, price, _, size, _, read⟩ := bind₃_ok.mp read
  exact level_of_new (orInvalidDecimal_ok_iff.mp read)

theorem ne_zero_of_requiredTick
    (read : requiredTick parsers value field = .ok tick) :
    tick ≠ 0 := by
  unfold requiredTick at read
  obtain ⟨text, _, parsed⟩ := bind_ok.mp read
  exact ne_zero_of_parseTick (orInvalidDecimal_ok_iff.mp parsed)

/-! ## Price changes -/

/-- No change of a token has a negative quantity. -/
def AtomicPriceChanges.Normalized (atomic : AtomicPriceChanges) : Prop :=
  ∀ change ∈ atomic.changes, ∀ level ∈ change.levels, 0 ≤ level.quantity

theorem AtomicPriceChanges.Normalized.assign
    {atomic : AtomicPriceChanges} (normalized : atomic.Normalized) (side : Side) {level : Level}
    (nonnegative : 0 ≤ level.quantity) :
    (atomic.assign side level).Normalized := by
  intro change mem other inLevels
  unfold AtomicPriceChanges.assign at mem
  split at mem
  · rename_i position _
    obtain ⟨index, bound, rfl⟩ := getElem_of_mem mem
    rw [getElem_modify] at inLevels
    rw [length_modify] at bound
    have original : atomic.changes[index] ∈ atomic.changes := getElem_mem bound
    split at inLevels
    · rcases mem_or_eq_of_mem_set inLevels with kept | rfl
      · exact normalized _ original other kept
      · exact nonnegative
    · exact normalized _ original other inLevels
  · dsimp only at mem
    rcases mem_append.mp mem with kept | added
    · exact normalized change kept other inLevels
    · rw [mem_singleton] at added
      subst added
      rw [mem_singleton] at inLevels
      exact inLevels ▸ nonnegative

/-- The changes that a frame has collected for each token. -/
def AllNormalized (byToken : TreeMap String AtomicPriceChanges) : Prop :=
  ∀ (tokenId : String) (atomic : AtomicPriceChanges),
    byToken[tokenId]? = some atomic → atomic.Normalized

theorem AllNormalized.readPriceChange
    {byToken after : TreeMap String AtomicPriceChanges} {change : Json}
    (normalized : AllNormalized byToken)
    (read : readPriceChange parsers byToken change = .ok after) :
    AllNormalized after := by
  unfold Polymarket.readPriceChange at read
  obtain ⟨item, _, changed, _, side, _, read⟩ := bind₃_ok.mp read
  obtain ⟨price, _, size, _, level, parsed, read⟩ := bind₃_ok.mp read
  have nonnegative := level_of_new (orInvalidDecimal_ok_iff.mp parsed)
  split at read
  · cases read
  · obtain ⟨bestBid, _, bestAsk, _, read⟩ := bind₂_ok.mp read
    split at read
    · cases read
    · dsimp only at read
      split at read
      · cases read
      · cases read
        have entry : ((byToken[changed]?).getD
            (AtomicPriceChanges.start bestBid bestAsk)).Normalized := by
          cases known : byToken[changed]? with
          | none => exact fun change mem => nomatch mem
          | some atomic => exact normalized changed atomic known
        intro tokenId atomic present
        rw [TreeMap.getElem?_insert] at present
        split at present
        · cases present
          exact entry.assign side nonnegative
        · exact normalized tokenId atomic present

variable {context : FrameContext} {raw : RawFields} {events : List CanonicalEvent}
  {config : NormalizerConfig} {firstCursor : Nat}

/-- Every event of a price change is normalized. -/
theorem normalized_of_readPriceChanges
    (read : readPriceChanges platform parsers config context firstCursor raw = .ok events) :
    ∀ event ∈ events, event.kind.Normalized := by
  unfold readPriceChanges at read
  obtain ⟨changes, _, read⟩ := bind_ok.mp read
  split at read
  · cases read
  · obtain ⟨byToken, collected, visited⟩ := bind_ok.mp read
    have normalized : AllNormalized byToken := by
      refine Fallible.foldlM_invariant AllNormalized ?_ ?_ collected
      · intro before item _ after held taken
        exact held.readPriceChange taken
      · intro tokenId atomic present
        simp at present
    intro event mem
    obtain ⟨⟨⟨tokenId, atomic⟩, offset⟩, listed, built⟩ :=
      (Fallible.mem_of_mapM_ok visited).2 event mem
    dsimp only at built
    split at built
    · cases built
      have present : (tokenId, atomic) ∈ byToken.toList := fst_mem_of_mem_zipIdx listed
      exact normalized tokenId atomic (mem_toList_iff_getElem?_eq_some.mp present)
    · cases built

variable {verifiedBookTick : Option Price} {single : NamedKind}

theorem normalized_of_readBook
    (read : readBook platform parsers verifiedBookTick raw = .ok single) :
    single.kind.Normalized := by
  unfold readBook at read
  obtain ⟨tokenId, _, tickSize, _, read⟩ := bind₂_ok.mp read
  obtain ⟨bids, parsedBids, asks, parsedAsks, read⟩ := bind₂_ok.mp read
  cases read
  intro level mem
  rcases mem_append.mp mem with bid | ask
  · exact nonneg_of_parseLevels parsedBids level bid
  · exact nonneg_of_parseLevels parsedAsks level ask

theorem normalized_of_readTickSizeChange
    (read : readTickSizeChange platform parsers context raw = .ok single) :
    single.kind.Normalized := by
  unfold readTickSizeChange at read
  obtain ⟨tokenId, _, newTickSize, parsed, oldTickSize, _, read⟩ := bind₃_ok.mp read
  cases read
  exact ne_zero_of_requiredTick parsed

/-- What another frame than a price change is read as: a book, a new tick, or an
event without quantities of a book. -/
theorem readSingle_cases
    (read : readSingle platform parsers context verifiedBookTick raw eventType = .ok single) :
    (eventType = "book" ∧ readBook platform parsers verifiedBookTick raw = .ok single) ∨
      readTickSizeChange platform parsers context raw = .ok single ∨
      (single.kind.Normalized ∧ ∀ tokenId bids asks tickSize version,
        single.kind ≠ .fullBook tokenId bids asks tickSize version) := by
  unfold readSingle at read
  split at read
  · unfold readCatalogRevision at read
    iterate 4 obtain ⟨_, _, read⟩ := bind_ok.mp read
    cases read
    exact .inr (.inr ⟨trivial, nofun⟩)
  split at read
  · unfold readNewMarket at read
    obtain ⟨_, _, read⟩ := bind_ok.mp read
    cases read
    exact .inr (.inr ⟨trivial, nofun⟩)
  split at read
  · unfold readMarketResolved at read
    obtain ⟨_, _, read⟩ := bind_ok.mp read
    cases read
    exact .inr (.inr ⟨trivial, nofun⟩)
  split at read
  · unfold readSourceGap at read
    iterate 2 obtain ⟨_, _, read⟩ := bind_ok.mp read
    cases read
    exact .inr (.inr ⟨trivial, nofun⟩)
  split at read
  · rename_i book
    exact .inl ⟨book, read⟩
  split at read
  · unfold readBestBidAsk at read
    obtain ⟨_, _, read⟩ := bind_ok.mp read
    split at read
    · cases read
    · obtain ⟨_, _, _, _, read⟩ := bind₂_ok.mp read
      split at read
      · cases read
      · cases read
        exact .inr (.inr ⟨trivial, nofun⟩)
  split at read
  · unfold readLastTradePrice at read
    iterate 2 obtain ⟨_, _, read⟩ := bind_ok.mp read
    cases read
    exact .inr (.inr ⟨trivial, nofun⟩)
  split at read
  · exact .inr (.inl read)
  · cases read

variable {receivedAt : DateTime} {rawPayload : Json}

section

variable (normalized : normalizeFrameWithBookTick platform parsers config rawPayload receivedAt
      firstCursor verifiedBookTick = .ok events)
include normalized

/-- A frame is read as price changes, or as one other event. -/
theorem normalizeFrame_cases :
    ∃ raw eventType context, rawPayload.asObject? = some raw ∧
      stringAlias raw ["event_type", "type"] = some eventType ∧
      ((eventType = "price_change" ∧
          readPriceChanges platform parsers config context firstCursor raw = .ok events) ∨
        ∃ single,
          readSingle platform parsers context verifiedBookTick raw eventType = .ok single ∧
            events = [buildEvent platform config context firstCursor single.name single.kind]) := by
  unfold normalizeFrameWithBookTick at normalized
  obtain ⟨_, _, raw, object, eventType, aliased, read⟩ := bind₃_ok.mp normalized
  have found := okOr_ok_iff.mp object
  have named := okOr_ok_iff.mp aliased
  split at read
  · cases read
  · obtain ⟨observedAt, _, read⟩ := bind_ok.mp read
    split at read
    · rename_i change
      exact ⟨raw, eventType, _, found, named, .inl ⟨change, read⟩⟩
    · obtain ⟨single, taken, built⟩ := bind_ok.mp read
      exact ⟨raw, eventType, _, found, named, .inr ⟨single, taken, (ok.inj built).symm⟩⟩

/-- Every event that the normalizer makes of a frame is normalized. -/
theorem normalized_of_normalizeFrame :
    ∀ event ∈ events, event.kind.Normalized := by
  obtain ⟨raw, _, context, _, _, ⟨_, read⟩ | ⟨single, read, rfl⟩⟩ := normalizeFrame_cases normalized
  · exact normalized_of_readPriceChanges read
  · intro event mem
    rw [mem_singleton.mp mem]
    rcases readSingle_cases read with ⟨_, book⟩ | tick | ⟨plain, _⟩
    · exact normalized_of_readBook book
    · exact normalized_of_readTickSizeChange tick
    · exact plain

end

end Frames

/-! ## Runs of normalized events -/

/-- The kind of an event that the normalizer makes of some frame. -/
def Produces (platform : Platform) (parsers : Parsers) (kind : EventKind) : Prop :=
  ∃ config rawPayload receivedAt firstCursor verifiedBookTick events,
    normalizeFrameWithBookTick platform parsers config rawPayload receivedAt firstCursor
        verifiedBookTick = .ok events ∧
      ∃ event ∈ events, event.kind = kind

theorem Produces.normalized
    (produced : Produces platform parsers kind) :
    kind.Normalized := by
  obtain ⟨_, _, _, _, _, events, normalized, event, mem, rfl⟩ := produced
  exact normalized_of_normalizeFrame normalized event mem

/-- In every state that events of the normalizer reach from the start, in any
order, all published and all monitored books are sound; and no such event makes
the next step divide by a zero tick. -/
theorem booksSound_of_normalized
    (platform : Platform) (parsers : Parsers) (enforce : Bool) (scopeId : String)
    (labels : List EvaluatedEvent) (state : CanonicalState)
    (run : EvaluationRun platform enforce (.bootstrap scopeId) labels state)
    (produced : ∀ label ∈ labels, Produces platform parsers label.event.kind) :
    (∀ (tokenId : String) (book : Book),
        state.books[tokenId]? = some book ∨ state.monitoringBooks[tokenId]? = some book →
          book.Sound) ∧
      ∀ (event : CanonicalEvent) (validateRawPayload validateDuplicate : Bool),
        Produces platform parsers event.kind →
          evaluateEvent platform validateRawPayload validateDuplicate enforce
            state event ≠ .error divisionByZero := by
  have sound : state.BooksSound := by
    induction run with
    | nil => exact .bootstrap scopeId
    | snoc _ evaluates ih =>
      have earlier := ih fun label member =>
        produced label (mem_append_left _ member)
      exact evaluates.booksSound earlier
        (produced _ (mem_append_right _ (mem_singleton_self _))).normalized
  refine ⟨sound, ?_⟩
  intro event validateRawPayload validateDuplicate next
  exact evaluateEvent_ne_divisionByZero sound next.normalized

/-! ## The book of one frame -/

/-- Parsers of the texts in the frame below. -/
def sampleParsers : Parsers where
  decimal := fun text => [("0.25", (1 : ℚ) / 4), ("0.75", 3 / 4), ("1", 1)].lookup text
  timestampMillis := fun milliseconds => some (milliseconds * 1000000)
  rfc3339 := fun _ => none
  marketRecords := fun _ => none
  negativeRiskRelations := fun _ => none

def sampleConfig : NormalizerConfig := NormalizerConfig.new "scope" "config"

def sampleLevel (price : String) : Json :=
  .object [("price", .string price), ("size", .string "1")]

/-- A full book of two levels. -/
def sampleBookFrame : Json :=
  .object
    [("asks", .array [sampleLevel "0.75"]), ("asset_id", .string "t1"),
     ("bids", .array [sampleLevel "0.25"]),
     ("event_type", .string "book"),
     ("tick_size", .string "0.25"),
     ("timestamp", .integer 0)]

def sampleFrameEvents : List CanonicalEvent :=
  (normalizeFrame samplePlatform sampleParsers sampleConfig sampleBookFrame 0 1).toOption.get
    (by decide +kernel)

def sampleFrameRun : List EvaluatedEvent × CanonicalState :=
  (evaluateAll samplePlatform true (CanonicalState.bootstrap "scope") sampleFrameEvents).get
    (by decide +kernel)

theorem sampleFrameRun_produced (label : EvaluatedEvent) (mem : label ∈ sampleFrameRun.1) :
    Produces samplePlatform sampleParsers label.event.kind := by
  have listed : sampleFrameRun.1.all (fun label => label.event ∈ sampleFrameEvents) = true := by
    decide +kernel
  have produced : label.event ∈ sampleFrameEvents :=
    of_decide_eq_true (all_eq_true.mp listed label mem)
  exact ⟨sampleConfig, sampleBookFrame, 0, 1, none, sampleFrameEvents,
    Fallible.eq_ok_get _, label.event, produced, rfl⟩

/-- The book of the frame is sound. -/
theorem booksSound_of_normalized_sample :
    ∃ book, sampleFrameRun.2.books["t1"]? = some book ∧ book.Sound := by
  have valid : sampleFrameEvents.all (evidenceIsValid samplePlatform true) = true := by
    decide +kernel
  have run : EvaluationRun samplePlatform true (.bootstrap "scope")
      sampleFrameRun.1 sampleFrameRun.2 :=
    evaluateAll_run (all_eq_true.mp valid) (some_get _).symm
  obtain ⟨book, present⟩ : ∃ book, sampleFrameRun.2.books["t1"]? = some book :=
    isSome_iff_exists.mp (by decide +kernel)
  exact ⟨book, present, (booksSound_of_normalized samplePlatform sampleParsers true "scope"
    sampleFrameRun.1 sampleFrameRun.2 run sampleFrameRun_produced).1 "t1" book (.inl present)⟩

end MarketCow.Polymarket
