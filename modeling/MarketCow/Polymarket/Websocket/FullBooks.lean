import MarketCow.Polymarket.NormalizedFrames
import MarketCow.Polymarket.Websocket.ReadyBooks

/-!
# Full books

A book frame becomes one full book, and no other frame brings one. The engine
installs a full book with its tick, or rejects it and keeps the books it has.
-/

namespace MarketCow.Websocket

open Library MarketCow.Core Polymarket

/-! ## The events of a frame -/

section Frames

variable {platform : Platform} {parsers : Parsers} {config : NormalizerConfig}
  {context : FrameContext} {raw : RawFields} {rawPayload : Json} {receivedAt : DateTime}
  {firstCursor : Nat} {verifiedBookTick : Option Price} {events : List CanonicalEvent}

/-- No price change is a full book. -/
theorem increments_of_readPriceChanges
    (read : readPriceChanges platform parsers config context firstCursor raw = .ok events) :
    ∀ event ∈ events, Adapter.isFullBook event.kind = false := by
  unfold readPriceChanges at read
  obtain ⟨changes, _, read⟩ := bind_ok.mp read
  split at read
  · cases read
  · obtain ⟨byToken, _, visited⟩ := bind_ok.mp read
    intro event mem
    obtain ⟨entry, _, built⟩ := (Fallible.mem_of_mapM_ok visited).2 event mem
    dsimp only at built
    split at built
    · cases built
      rfl
    · cases built

/-- Only a book is read as a full book. -/
theorem increment_of_readSingle (noBook : eventType ≠ "book")
    (read : readSingle platform parsers context verifiedBookTick raw eventType = .ok single) :
    Adapter.isFullBook single.kind = false := by
  rcases readSingle_cases read with ⟨book, _⟩ | tick | ⟨_, other⟩
  · exact absurd book noBook
  · unfold readTickSizeChange at tick
    iterate 3 obtain ⟨_, _, tick⟩ := bind_ok.mp tick
    cases tick
    rfl
  · cases kind : single.kind with
    | fullBook => exact absurd kind (other _ _ _ _ _)
    | _ => rfl

/-- The field that a text is read from. -/
theorem get?_of_text
    (read : (field value name).asString? = some text) : value.get? name = some (.string text) := by
  unfold field at read
  cases present : value.get? name with
  | none =>
    rw [present] at read
    cases read
  | some content =>
    rw [present] at read
    cases content with
    | string found => exact congrArg (fun text => some (Json.string text)) (some.inj read)
    | _ => cases read

/-- A text is also the first alias of its field. -/
theorem stringAlias_of_text
    (read : (field (.object fields) name).asString? = some text) :
    stringAlias fields (name :: others) = some text := by
  have present : fields.lookup name = some (.string text) := get?_of_text read
  unfold stringAlias
  rw [List.findSome?_cons, present]
  rfl

section

variable (named : (field rawPayload "event_type").asString? = some kind)
include named

/-- The type of a frame is the one that it names. -/
theorem eq_of_named
    (object : rawPayload.asObject? = some raw)
    (aliased : stringAlias raw ["event_type", "type"] = some eventType) :
    rawPayload = .object raw ∧ eventType = kind := by
  have shape : rawPayload = .object raw := by
    cases rawPayload with
    | object others => exact congrArg Json.object (some.inj object)
    | _ => cases object
  rw [shape] at named
  exact ⟨shape, some.inj (aliased.symm.trans (stringAlias_of_text named))⟩

/-- Another frame than a book has no full book among its events. -/
theorem increments_of_normalize
    (noBook : kind ≠ "book")
    (normalized : normalizeFrameWithBookTick platform parsers config rawPayload receivedAt
      firstCursor verifiedBookTick = .ok events) :
    ∀ event ∈ events, Adapter.isFullBook event.kind = false := by
  obtain ⟨fields, _, _, object, aliased, ⟨_, read⟩ | ⟨single, read, rfl⟩⟩ :=
    normalizeFrame_cases normalized
  · exact increments_of_readPriceChanges read
  · obtain ⟨_, same⟩ := eq_of_named named object aliased
    intro event mem
    rw [List.mem_singleton.mp mem]
    exact increment_of_readSingle (same ▸ noBook) read

end

/-- A full book and the frame it is read from. -/
structure ReadsBook
    (parsers : Parsers) (verifiedBookTick : Option Price) (rawPayload : Json) (kind : EventKind)
    (token : String) (tick : Price) : Prop where
  full : ∃ bids asks version, kind = .fullBook token bids asks tick version
  fields : ∃ fields, rawPayload = .object fields ∧
    nonemptyAlias fields ["asset_id", "token_id"] = some token ∧
    readBookTick parsers verifiedBookTick fields = .ok tick

/-- A book frame has one event, the full book that it names. -/
theorem fullBook_of_normalize (named : (field rawPayload "event_type").asString? = some "book")
    (normalized : normalizeFrameWithBookTick platform parsers config rawPayload receivedAt
      firstCursor verifiedBookTick = .ok events) :
    ∃ event token tick, events = [event] ∧
      ReadsBook parsers verifiedBookTick rawPayload event.kind token tick := by
  obtain ⟨fields, _, _, object, aliased, ⟨change, _⟩ | ⟨single, read, rfl⟩⟩ :=
    normalizeFrame_cases normalized
  · obtain ⟨_, rfl⟩ := eq_of_named named object aliased
    exact absurd change (by decide)
  · obtain ⟨shape, rfl⟩ := eq_of_named named object aliased
    have readBook : Polymarket.readBook platform parsers verifiedBookTick fields = .ok single :=
      read
    unfold Polymarket.readBook at readBook
    obtain ⟨token, token_eq, tick, tick_eq, readBook⟩ := bind₂_ok.mp readBook
    obtain ⟨bids, _, asks, _, readBook⟩ := bind₂_ok.mp readBook
    cases readBook
    exact ⟨_, token, tick, rfl, ⟨bids, asks, _, rfl⟩,
      fields, shape, okOr_ok_iff.mp token_eq, tick_eq⟩

end Frames

/-! ## Full books in the engine -/

/-- A full book is installed with its tick, or changes no book. -/
theorem books_of_fullBook
    (kind : event.kind = .fullBook token bids asks tick version)
    (evaluated : evaluateEvent platform validateRawPayload validateDuplicate
      enforce state event = .ok (next, persisted)) :
    (persisted.applied = false ∧ next.books = state.books) ∨
      (persisted.applied = true ∧
        ∃ book, next.books[token]? = some book ∧ book.tickSize = some tick) := by
  obtain ⟨phases⟩ := phases_of_evaluateEvent evaluated
  have books := phases.afterDecision.books
  have admitted : (admittedState state event).books = state.books := by
    obtain ⟨health, shape, _⟩ := admittedState_eq state event
    rw [shape]
    rfl
  rw [books, phases.applied_eq]
  have effect := phases.decided
  generalize phases.decision = decision at effect
  cases effect with
  | sourceRejected => exact .inl ⟨rfl, admitted⟩
  | superseded fresh overtaken =>
    rw [incrementalSupersededByBook_eq_false _ (by rw [kind]; rfl) (by rw [kind]; rfl)] at overtaken
    cases overtaken
  | decided fresh current effect =>
    rw [rewriteEvent_of_plain _ _ (by rw [kind]; rfl)] at effect
    cases effect with
    | fullBook kindAgain =>
      rw [kind] at kindAgain
      cases kindAgain
      exact .inr ⟨rfl, _, getElem?_insert_self, rfl⟩
    | tokenRejected => exact .inl ⟨rfl, admitted⟩
    | catalogRejected other | catalogInstalled other | newMarket other =>
      rw [kind] at other
      cases other
    | resolutionRejected _ other | resolved other =>
      rw [kind] at other
      cases other
    | bookChanged _ _ _ changed =>
      cases changed with
      | delta other | atomicDelta other | bestBidAsk other | lastTradePrice other
      | tickSizeChange other =>
        rw [kind] at other
        cases other

end MarketCow.Websocket
