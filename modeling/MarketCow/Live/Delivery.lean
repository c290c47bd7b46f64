import MarketCow.Live.LaneRun

/-!
# What a connection delivers

A client that is sent a captured state whole, and later ones whole or as changes
against the state before, shows each state after its frame. Changes need more:
a book of another revision has other facts, and its new levels fit the client
while they are added.
-/

namespace MarketCow.Live

open Library List Function
open Library.Proto
open Library.SortedDiff
open MarketCow.Core (Decimal Side)

/-- A client that holds what a lane may send. -/
structure Generous (budget : DeliveryBudget) : Prop where
  frameBytes : maxBytes ≤ budget.maximumFrameBytes
  stateBytes : maxBytes ≤ budget.maximumStateBytes
  levels : maxLevels ≤ budget.maximumLevelsPerSide
  changes : maxChanges ≤ budget.maximumChanges

/-! ## Metadata -/

section Metadata

variable {codec : Codec} {tokenId outcome : String} {metadata other : TokenMetadata}
  {depths others : Depths} {book after : TokenBook}

section

variable (captured : Captured codec tokenId outcome metadata depths book)
include captured

/-- A client accepts the metadata of a captured book. -/
theorem Captured.accepted :
    clientMetadata codec metadata tokenId outcome = .ok () := by
  have named : (metadata.tokenId == tokenId && metadata.outcome == outcome &&
      decide (0 < metadata.bookRevision)) = true := by
    rw [and_eq_true, and_eq_true, beq_iff_eq, beq_iff_eq, decide_eq_true_iff]
    exact ⟨⟨captured.token, captured.outcome⟩, captured.revision⟩
  have ticked : checkDecimal codec true metadata.tickSize = .ok () := by
    cases found : metadata.tickSize with
    | none => rfl
    | some tick =>
      obtain ⟨value, readable, positive, rfl⟩ := captured.tick tick found
      have read : clientDecimal codec (codec.text value) true = .ok value :=
        readable.clientDecimal (decide_eq_true positive)
      exact bind_ok.mpr ⟨value, read, rfl⟩
  have traded : checkDecimal codec false (metadata.lastTrade.map Trade.price) = .ok () := by
    cases found : metadata.lastTrade with
    | none => rfl
    | some trade =>
      obtain ⟨value, readable, nonnegative, same⟩ := captured.trade trade found
      have read : clientDecimal codec (codec.text value) false = .ok value :=
        readable.clientDecimal (decide_eq_true nonnegative)
      rw [map_some, same]
      exact bind_ok.mpr ⟨value, read, rfl⟩
  have bound : checkBinding metadata metadata.confirmation = .ok () := by
    cases found : metadata.confirmation with
    | none => rfl
    | some confirmation =>
      obtain ⟨revision, quote, source⟩ := captured.confirmation confirmation found
      refine ensure_ok.mpr ?_
      rw [and_eq_true, and_eq_true, beq_iff_eq, beq_iff_eq, source]
      exact ⟨⟨revision, quote.symm⟩, rfl⟩
  exact bind_ok.mpr ⟨(), ensure_ok.mpr named,
    bind_ok.mpr ⟨(), ticked, bind_ok.mpr ⟨(), traded, bound⟩⟩⟩

/-- A client reads the tick of a captured book. -/
theorem Captured.tickRead :
    (clientTick codec metadata).map codec.text = metadata.tickSize ∧
      ∀ value ∈ clientTick codec metadata, codec.Readable value := by
  unfold clientTick
  cases ticked : metadata.tickSize with
  | none => exact ⟨rfl, nofun⟩
  | some tick =>
    obtain ⟨value, readable, positive, rfl⟩ := captured.tick tick ticked
    have read : clientDecimal codec (codec.text value) true = .ok value :=
      readable.clientDecimal (decide_eq_true positive)
    rw [Option.bind_some, read]
    refine ⟨rfl, ?_⟩
    rintro found ⟨⟩
    exact readable

/-- A client finds the same facts in the metadata of two captured books of a
token when the lane does. -/
theorem Captured.economicMetadataEqual_iff
    (capturedAfter : Captured codec tokenId outcome other others after) :
    economicMetadataEqual codec metadata other = true ↔ metadata.facts = other.facts := by
  obtain ⟨text, readable⟩ := captured.tickRead
  obtain ⟨otherText, otherReadable⟩ := capturedAfter.tickRead
  have ticks : clientTick codec metadata = clientTick codec other ↔
      metadata.tickSize = other.tickSize := by
    rw [← text, ← otherText]
    constructor
    · exact congrArg _
    · cases first : clientTick codec metadata with
      | none =>
        cases second : clientTick codec other with
        | none => exact fun _ => rfl
        | some value => exact nofun
      | some value =>
        cases second : clientTick codec other with
        | none => exact nofun
        | some otherValue =>
          intro same
          rw [map_some, map_some, Option.some.injEq,
            (readable value first).text_inj (otherReadable otherValue second)] at same
          rw [same]
  unfold economicMetadataEqual
  simp only [and_eq_true, beq_iff_eq, TokenMetadata.facts, Facts.mk.injEq, ticks]
  rw [captured.token, captured.outcome, capturedAfter.token, capturedAfter.outcome]
  simp only [true_and, and_assoc]

/-- Two captured books of a token have the same facts when their depths and
their metadata have. -/
theorem Captured.sameBook_iff
    (capturedAfter : Captured codec tokenId outcome other others after) :
    sameBook book after = true ↔ depths = others ∧ metadata.facts = other.facts := by
  rw [Live.sameBook_iff, captured.bids, captured.asks, capturedAfter.bids, capturedAfter.asks,
    captured.described, capturedAfter.described,
    wireSide_inj captured.sound.bids capturedAfter.sound.bids,
    wireSide_inj captured.sound.asks capturedAfter.sound.asks, map_some, map_some,
    Option.some.injEq, ← and_assoc]
  obtain ⟨bids, asks⟩ := depths
  obtain ⟨otherBids, otherAsks⟩ := others
  rw [Depths.mk.injEq]

theorem Captured.revisionOf_eq :
    revisionOf (some book) = metadata.bookRevision := by
  unfold revisionOf
  rw [Option.bind_some, captured.described, elim_some]

/-- What a revision says about two captured books of a token. -/
theorem NotBefore.revision
    (capturedAfter : Captured codec tokenId outcome other others after)
    (later : NotBefore book after) :
    metadata.bookRevision < other.bookRevision ∨
      metadata.bookRevision = other.bookRevision ∧ depths = others ∧
        metadata.facts = other.facts := by
  unfold NotBefore at later
  rw [captured.sameBook_iff capturedAfter, captured.revisionOf_eq, capturedAfter.revisionOf_eq]
    at later
  exact later

end

end Metadata

/-! ## Snapshots -/

theorem sameSide_self (levels : ClientSide) : sameSide levels levels = true := by
  unfold sameSide
  rw [beq_self_eq_true, Bool.true_and, all_eq_true]
  intro pair mem
  have same : pair.1 = pair.2 := by
    rw [zip_eq_zipWith, zipWith_self, mem_map] at mem
    obtain ⟨level, _, rfl⟩ := mem
    rfl
  rw [same, beq_self_eq_true, beq_self_eq_true, Bool.and_self]

section Snapshots

variable {codec : Codec} {tokenId outcome : String} {maximum : Nat}
  {metadata earlier : TokenMetadata} {depths earlierDepths : Depths} {book before : TokenBook}

section

variable (captured : Captured codec tokenId outcome metadata depths book)
include captured

/-- A client that holds an earlier book takes a captured one. -/
theorem checkRevision_eq
    (capturedBefore : Captured codec tokenId outcome earlier earlierDepths before)
    (later : NotBefore before book) :
    checkRevision codec (some (bookOf codec earlier earlierDepths)) (bookOf codec metadata depths) =
      .ok () := by
  have revisions := NotBefore.revision capturedBefore captured later
  unfold checkRevision bookOf
  refine bind_ok.mpr ⟨(), ensure_ok.mpr (decide_eq_true ?_), ?_⟩
  · dsimp only
    omega
  dsimp only
  split
  · rename_i same
    rcases revisions with less | ⟨_, rfl, facts⟩
    · omega
    · rw [(captured.economicMetadataEqual_iff capturedBefore).mpr facts.symm, sameSide_self,
        sameSide_self]
      rfl
  · rfl

theorem replaceBook_eq
    (large : maxLevels ≤ maximum)
    (checked : checkRevision codec old (bookOf codec metadata depths) = .ok ()) :
    replaceBook codec maximum tokenId outcome old book = .ok (bookOf codec metadata depths) := by
  unfold replaceBook
  rw [captured.described, captured.bids, captured.asks]
  refine bind_ok.mpr ⟨metadata, need_ok.mpr rfl, ?_⟩
  refine bind_ok.mpr ⟨(), captured.accepted, ?_⟩
  have bids := (clientSide_eq captured.sound.bids (captured.sound.bidsBounded.trans large)).1
  have asks := (clientSide_eq captured.sound.asks (captured.sound.asksBounded.trans large)).1
  refine bind_ok.mpr ⟨_, bids, bind_ok.mpr ⟨_, asks, ?_⟩⟩
  exact bind_ok.mpr ⟨(), checked, rfl⟩

end

end Snapshots

/-! ## Clients that mirror a state -/

/-- A client that holds a state. -/
structure Mirrors (codec : Codec) (state : State) (view : View) (client : MarketState) : Prop where
  key : client.key = state.key
  streamId : client.streamId = state.streamId
  sequence : client.sequence = some state.sequence
  books : client.books = [bookOf codec (view.metadata .up) (view.depths .up),
    bookOf codec (view.metadata .down) (view.depths .down)]
  sourceStatus : client.sourceStatus = state.snapshot.sourceStatus
  reason : client.reason = state.snapshot.reason

/-- A client that waits for the first frame, or for the one after a state. -/
def Awaits (codec : Codec) (previous : Option State) (client : MarketState) : Prop :=
  match previous with
  | none => client.sequence = none ∧ client.books = []
  | some before => ∃ view, CapturedState codec before view ∧ Mirrors codec before view client

section Mirrors

variable {codec : Codec} {state before : State} {view earlier : View}
  {client after : MarketState} {publishedAt : String} {previous : Option State}

/-- A client shows the state it holds. -/
theorem Mirrors.snapshot
    (captured : CapturedState codec state view) (mirrors : Mirrors codec state view client) :
    client.snapshot = some (message state client.publishedAt (.snapshot state.snapshot)) := by
  have shown : ∀ slot, (bookOf codec (view.metadata slot) (view.depths slot)).tokenBook =
      view.book codec slot := by
    intro slot
    unfold Book.tokenBook bookOf View.book
    rw [levels_sideMap (captured.book slot).sound.bids,
      levels_sideMap (captured.book slot).sound.asks]
  unfold MarketState.snapshot message
  rw [mirrors.sequence, mirrors.books, mirrors.key, mirrors.streamId, mirrors.sourceStatus,
    mirrors.reason, map_some, map_cons, map_cons, map_nil, shown, shown,
    ← captured.books]

/-- A client takes the frame of a later state when it takes its body. -/
theorem apply_message
    (key : client.key = state.key) (streamId : client.streamId = state.streamId)
    (later : ∀ sequence ∈ client.sequence, sequence < state.sequence)
    (taken : client.takeBody codec body = .ok result) :
    client.apply codec (message state publishedAt body) =
      .ok { result with sequence := some state.sequence, publishedAt } := by
  have identity : (marketSchema == marketSchema && some state.key == some client.key &&
      state.streamId == client.streamId && client.sequence.all fun sequence =>
        decide (sequence < state.sequence)) = true := by
    rw [key, streamId, beq_self_eq_true, beq_self_eq_true, beq_self_eq_true, Bool.true_and,
      Bool.true_and, Bool.true_and, Option.all_eq_true]
    intro sequence mem
    exact decide_eq_true (later sequence mem)
  unfold MarketState.apply message
  exact bind_ok.mpr ⟨(), ensure_ok.mpr identity,
    bind_ok.mpr ⟨body, rfl, bind_ok.mpr ⟨result, taken, rfl⟩⟩⟩

/-- The books of a waiting client let a captured state take their place. -/
theorem Awaits.checkRevisions
    (awaits : Awaits codec previous client) (captured : CapturedState codec state view)
    (later : ∀ before ∈ previous, SameLane before state) :
    checkRevision codec client.books[0]? (bookOf codec (view.metadata .up) (view.depths .up)) =
        .ok () ∧
      checkRevision codec client.books[1]?
        (bookOf codec (view.metadata .down) (view.depths .down)) = .ok () := by
  cases previous with
  | none =>
    rw [awaits.2]
    exact ⟨rfl, rfl⟩
  | some before =>
    obtain ⟨earlier, capturedBefore, mirrors⟩ := awaits
    have same := later before rfl
    have books := same.books
    rw [capturedBefore.books, captured.books] at books
    have up := capturedBefore.book .up
    have down := capturedBefore.book .down
    rw [same.key] at up down
    rw [mirrors.books]
    cases books with
    | cons upLater rest =>
      cases rest with
      | cons downLater _ =>
        exact ⟨checkRevision_eq (captured.book .up) up upLater,
          checkRevision_eq (captured.book .down) down downLater⟩

/-- A waiting client takes a captured state whole. -/
theorem Awaits.apply_snapshot
    (awaits : Awaits codec previous client) (generous : Generous client.budget)
    (captured : CapturedState codec state view) (key : client.key = state.key)
    (streamId : client.streamId = state.streamId)
    (later : ∀ before ∈ previous, SameLane before state ∧ before.sequence < state.sequence) :
    ∃ after, client.apply codec (message state publishedAt (.snapshot state.snapshot)) = .ok after ∧
      Mirrors codec state view after ∧ after.publishedAt = publishedAt ∧
        after.budget = client.budget := by
  obtain ⟨upChecked, downChecked⟩ := awaits.checkRevisions captured fun before mem =>
    (later before mem).1
  have up := captured.book .up
  have down := captured.book .down
  rw [← key] at up down
  have replaced : client.replace codec state.snapshot = .ok
      { client with
        books := [bookOf codec (view.metadata .up) (view.depths .up),
          bookOf codec (view.metadata .down) (view.depths .down)]
        sourceStatus := state.snapshot.sourceStatus
        reason := state.snapshot.reason } := by
    unfold MarketState.replace
    rw [captured.books]
    refine bind_ok.mpr ⟨(), ensure_ok.mpr (decide_eq_true ?_), ?_⟩
    · exact captured.bounded.trans generous.stateBytes
    · exact bind_ok.mpr ⟨_, replaceBook_eq up generous.levels upChecked,
        bind_ok.mpr ⟨_, replaceBook_eq down generous.levels downChecked, rfl⟩⟩
  have sequences : ∀ sequence ∈ client.sequence, sequence < state.sequence := by
    intro sequence mem
    cases previous with
    | none =>
      rw [awaits.1] at mem
      cases mem
    | some before =>
      obtain ⟨_, _, mirrors⟩ := awaits
      rw [mirrors.sequence] at mem
      cases mem
      exact (later before rfl).2
  exact ⟨_, apply_message key streamId sequences replaced, ⟨key, streamId, rfl, rfl, rfl, rfl⟩,
    rfl, rfl⟩

end Mirrors

/-! ## Changes -/

/-- The price of a level of a state. -/
def priced (codec : Codec) (level : PriceLevel) : Decimal × PriceLevel :=
  ((codec.parse level.price).getD 0, level)

/-- The new levels of a side fit a limit while they are added. -/
def SideFits (codec : Codec) (side : Side) (limit : Nat) (olds news : List PriceLevel) : Prop :=
  Fits (sideOrder side) 0 limit (olds.map (priced codec)) (news.map (priced codec))

/-- A book of another revision has other facts, and its new levels fit a limit
while they are added. -/
structure BookSteady (codec : Codec) (limit : Nat) (before book : TokenBook) : Prop where
  facts : revisionOf (some before) < revisionOf (some book) → sameBook before book = false
  bids : SideFits codec .bid limit before.bids book.bids
  asks : SideFits codec .ask limit before.asks book.asks

/-- The changes between two states are sent as such. -/
def SentAsChanges (codec : Codec) (before state : State) (publishedAt : String) : Prop :=
  continues before state = true ∧ ∃ changes, depthChanges codec before state = .ok changes ∧
    changes.length ≤ maxChanges ∧
      (message state publishedAt (.priceChange (priceChange before state changes))).encodedLength ≤
        maxBytes

/-- What it takes to send changes. -/
def Steady (codec : Codec) (limit : Nat) (before state : State) (publishedAt : String) : Prop :=
  SentAsChanges codec before state publishedAt →
    List.Forall₂ (BookSteady codec limit) before.snapshot.books state.snapshot.books

section Changes

variable {codec : Codec} {limit : Nat} {state before : State} {view earlier : View}
  {client : MarketState} {publishedAt : String}

theorem SideFits.entries
    (oldSound : SideValues codec side olds) (newSound : SideValues codec side news)
    (fits : SideFits codec side limit (wireSide codec olds) (wireSide codec news)) :
    Fits (sideOrder side) 0 limit (entries codec olds) (entries codec news) := by
  have keys : ∀ {values : List (Decimal × Decimal)}, SideValues codec side values →
      (Live.entries codec values).map Prod.fst =
        ((wireSide codec values).map (priced codec)).map Prod.fst := by
    intro values sound
    unfold Live.entries wireSide
    rw [map_map, map_map, map_map]
    refine map_congr_left fun value mem => ?_
    have read := (sound.level value mem).price.parse
    unfold Function.comp priced wireLevel
    rw [read, getD_some]
  exact Fits.congr_keys (keys oldSound) (keys newSound) fits

variable {key : MarketKey}

theorem slotOf_tokenOf (ne : key.upTokenId ≠ key.downTokenId)
    (slot : Slot) : slotOf key (tokenOf key slot) = .ok slot := by
  unfold slotOf tokenOf
  cases slot with
  | up => exact if_pos rfl
  | down => rw [if_neg ne.symm, if_pos rfl]

/-- The lane lists the changes of both books by their values. -/
theorem depthChanges_eq (capturedBefore : CapturedState codec before earlier)
    (captured : CapturedState codec state view) :
    depthChanges codec before state = .ok
      (changesOf codec (tokenOf state.key .up) (earlier.depths .up) (view.depths .up) ++
        changesOf codec (tokenOf state.key .down) (earlier.depths .down) (view.depths .down)) := by
  have book : ∀ slot, bookChanges codec (earlier.book codec slot, view.book codec slot) =
      .ok (changesOf codec (tokenOf state.key slot) (earlier.depths slot) (view.depths slot)) := by
    intro slot
    have oldSound := (capturedBefore.book slot).sound
    have newSound := (captured.book slot).sound
    refine bind_ok.mpr ⟨view.metadata slot, need_ok.mpr rfl, ?_⟩
    rw [(captured.book slot).token]
    exact bind_ok.mpr ⟨_, sideChanges_eq _ oldSound.bids newSound.bids,
      bind_ok.mpr ⟨_, sideChanges_eq _ oldSound.asks newSound.asks, rfl⟩⟩
  unfold depthChanges
  rw [capturedBefore.books, captured.books]
  rw [zip_cons_cons, zip_cons_cons, zip_nil_left, mapM_cons, mapM_cons, mapM_nil, book, book]
  refine congrArg Except.ok ?_
  rw [flatten_cons, flatten_cons, flatten_nil, append_nil]

variable {metadata after : TokenMetadata} {tokenId outcome : String} {first second : TokenBook}
  {depths others : Depths}

/-- The metadata of a steady book fits the client's book. -/
theorem checkPost_eq (captured : Captured codec tokenId outcome metadata depths first)
    (capturedAfter : Captured codec tokenId outcome after others second)
    (later : NotBefore first second) (steady : BookSteady codec limit first second) :
    checkPost codec (bookOf codec metadata depths) (decide (depths ≠ others))
      { tokenId := metadata.tokenId, bookRevision := metadata.bookRevision } after = .ok () := by
  unfold checkPost bookOf
  rw [captured.token, captured.outcome]
  refine bind_ok.mpr ⟨(), capturedAfter.accepted, ?_⟩
  refine bind_ok.mpr ⟨(), ensure_ok.mpr (by simp), ?_⟩
  refine ensure_ok.mpr ?_
  have facts := steady.facts
  rw [captured.revisionOf_eq, capturedAfter.revisionOf_eq, Bool.eq_false_iff, ne_eq,
    captured.sameBook_iff capturedAfter] at facts
  have same := captured.economicMetadataEqual_iff capturedAfter
  rcases NotBefore.revision captured capturedAfter later with less | ⟨equal, rfl, metadataFacts⟩
  · have changed : (decide (depths ≠ others) || !economicMetadataEqual codec metadata after) =
        true := by
      rw [or_eq_true, decide_eq_true_iff, not_eq_true', Bool.eq_false_iff, ne_eq, ne_eq, same]
      exact not_and_or.mp (facts less)
    rw [changed, if_pos rfl]
    exact decide_eq_true less
  · rw [same.mpr metadataFacts, decide_eq_false (not_not.mpr rfl), Bool.not_true, Bool.or_false,
      if_neg Bool.false_ne_true, equal, beq_self_eq_true]

/-- The changes between two states are staged for both books. -/
theorem stage_both (lawful : codec.Lawful) (books : Books) (ne : key.upTokenId ≠ key.downTokenId)
    (there : ∀ slot, books.book slot = bookOf codec (earlier.metadata slot) (earlier.depths slot))
    (oldSound : ∀ slot, (earlier.depths slot).Sound codec)
    (newSound : ∀ slot, (view.depths slot).Sound codec) (large : maxLevels ≤ limit)
    (room : ∀ slot, Depths.Room codec limit (earlier.depths slot) (view.depths slot)) :
    ∃ staging, (changesOf codec (tokenOf key .up) (earlier.depths .up) (view.depths .up) ++
        changesOf codec (tokenOf key .down) (earlier.depths .down) (view.depths .down)).foldlM
          (stageChange codec key limit books) (.start books) = .ok staging ∧
      (∀ slot, staging.changed slot = decide (earlier.depths slot ≠ view.depths slot)) ∧
        (∀ slot, staging.bytes slot = (view.depths slot).bytes codec) ∧
          ∀ slot, (books.book slot).commitAll slot staging (view.metadata slot) =
            bookOf codec (view.metadata slot) (view.depths slot) := by
  have upUntouched : Untouched books .up (.start books) := ⟨rfl, rfl, fun _ => rfl, nofun⟩
  obtain ⟨middle, upFolded, up⟩ := stageBook lawful (slotOf_tokenOf ne .up) (oldSound .up)
    (newSound .up) (there .up) large (room .up) upUntouched
  have downUntouched : Untouched books .down middle := by
    refine ⟨?_, ?_, ?_, ?_⟩
    · rw [up.changed, update_of_ne (by decide)]
      rfl
    · rw [up.bytes, update_of_ne (by decide)]
      rfl
    · intro side
      rw [up.counts .down (by decide)]
      rfl
    · intro place mem
      rcases up.seen place mem with never | same
      · cases never
      · rw [same]
        decide
  obtain ⟨staging, downFolded, down⟩ := stageBook lawful (slotOf_tokenOf ne .down)
    (oldSound .down) (newSound .down) (there .down) large (room .down) downUntouched
  have staged : staging.staged =
      stagedBook codec .up (earlier.depths .up) (view.depths .up) ++
        stagedBook codec .down (earlier.depths .down) (view.depths .down) := by
    rw [down.staged, up.staged]
    rfl
  have bytes : ∀ slot, staging.bytes slot = (view.depths slot).bytes codec := by
    intro slot
    rw [down.bytes, up.bytes]
    cases slot with
    | up => rw [update_of_ne (by decide), update_self]
    | down => rw [update_self]
  have committed : ∀ slot, staging.staged.foldl (Book.commit slot) (books.book slot) =
      { bookOf codec (earlier.metadata slot) (view.depths slot) with
        depthBytes := (earlier.depths slot).bytes codec } := by
    intro slot
    have own : (stagedBook codec slot (earlier.depths slot) (view.depths slot)).foldl
        (Book.commit slot) (bookOf codec (earlier.metadata slot) (earlier.depths slot)) =
          { bookOf codec (earlier.metadata slot) (view.depths slot) with
            depthBytes := (earlier.depths slot).bytes codec } :=
      commit_stagedBook (oldSound slot) (newSound slot)
    have others : ∀ other, other ≠ slot → ∀ book, (stagedBook codec other (earlier.depths other)
        (view.depths other)).foldl (Book.commit slot) book = book := by
      intro other apart book
      refine commit_other book fun change mem => ?_
      rw [slot_of_mem_stagedBook mem]
      exact apart
    rw [staged, there, foldl_append]
    cases slot with
    | up => rw [own, others .down (by decide)]
    | down => rw [others .up (by decide), own]
  refine ⟨staging, foldlM_append_ok.mpr ⟨middle, upFolded, downFolded⟩, ?_, bytes, ?_⟩
  · intro slot
    rw [down.changed, up.changed]
    cases slot with
    | up => rw [update_of_ne (by decide), update_self]
    | down => rw [update_self]
  · intro slot
    unfold Book.commitAll
    rw [committed, bytes]
    rfl

/-- The bytes of a captured state, as a client counts them. -/
theorem stateBytes_eq (captured : CapturedState codec state view) :
    stringBytes state.snapshot.sourceStatus false +
      state.snapshot.reason.elim 0 (stringBytes · true) +
      nestedBytes ((view.depths .up).bytes codec + nestedBytes (view.metadata .up).encodedLength) +
      nestedBytes ((view.depths .down).bytes codec +
        nestedBytes (view.metadata .down).encodedLength) = state.snapshot.encodedLength := by
  have reason : state.snapshot.reason.elim 0 (stringBytes · true) =
      optionalStringLength state.snapshot.reason := by
    cases state.snapshot.reason with
    | none => rfl
    | some reason => exact stringBytes_true reason
  unfold Snapshot.encodedLength
  rw [reason, stringBytes_false, captured.books, repeatedLength_cons, repeatedLength_cons,
    repeatedLength_nil]
  simp only [nestedBytes_eq]
  unfold TokenBook.encodedLength View.book TokenBook.depthLength Depths.bytes optionalLength
  dsimp only
  omega

theorem BookSteady.room (captured : Captured codec tokenId outcome metadata depths first)
    (capturedAfter : Captured codec tokenId outcome after others second)
    (steady : BookSteady codec limit first second) :
    Depths.Room codec limit depths others := by
  have bids := steady.bids
  have asks := steady.asks
  rw [captured.bids, capturedAfter.bids] at bids
  rw [captured.asks, capturedAfter.asks] at asks
  exact ⟨bids.entries captured.sound.bids capturedAfter.sound.bids,
    asks.entries captured.sound.asks capturedAfter.sound.asks⟩

/-- A client that holds a state takes the changes to a later one. -/
theorem Mirrors.apply_changes
    (lawful : codec.Lawful) (mirrors : Mirrors codec before earlier client)
    (generous : Generous client.budget) (capturedBefore : CapturedState codec before earlier)
    (captured : CapturedState codec state view)
    (ne : state.key.upTokenId ≠ state.key.downTokenId) (same : SameLane before state)
    (increasing : before.sequence < state.sequence)
    (steady : List.Forall₂ (BookSteady codec client.budget.maximumLevelsPerSide)
      before.snapshot.books state.snapshot.books)
    (listed : depthChanges codec before state = .ok changes)
    (few : changes.length ≤ maxChanges) :
    ∃ after, client.apply codec
        (message state publishedAt (.priceChange (priceChange before state changes))) = .ok after ∧
      Mirrors codec state view after ∧ after.publishedAt = publishedAt ∧
        after.budget = client.budget := by
  rw [depthChanges_eq capturedBefore captured] at listed
  cases listed
  have books := same.books
  rw [capturedBefore.books, captured.books] at books steady
  have laterBooks : ∀ slot, NotBefore (earlier.book codec slot) (view.book codec slot) := by
    cases books with
    | cons up rest =>
      cases rest with
      | cons down _ =>
        intro slot
        cases slot with
        | up => exact up
        | down => exact down
  have steadyBooks : ∀ slot, BookSteady codec client.budget.maximumLevelsPerSide
      (earlier.book codec slot) (view.book codec slot) := by
    cases steady with
    | cons up rest =>
      cases rest with
      | cons down _ =>
        intro slot
        cases slot with
        | up => exact up
        | down => exact down
  have oldBooks : ∀ slot, Captured codec (tokenOf state.key slot) (outcomeOf slot)
      (earlier.metadata slot) (earlier.depths slot) (earlier.book codec slot) := by
    rw [← same.key]
    exact capturedBefore.book
  have key : client.key = state.key := mirrors.key.trans same.key
  let books : Books :=
    { up := bookOf codec (earlier.metadata .up) (earlier.depths .up)
      down := bookOf codec (earlier.metadata .down) (earlier.depths .down) }
  have there : ∀ slot, books.book slot =
      bookOf codec (earlier.metadata slot) (earlier.depths slot) := by
    intro slot
    cases slot <;> rfl
  obtain ⟨staging, folded, changed, bytes, committed⟩ := stage_both lawful books ne there
    (fun slot => (oldBooks slot).sound) (fun slot => (captured.book slot).sound) generous.levels
    (fun slot => (steadyBooks slot).room (oldBooks slot) (captured.book slot))
  have posts : ∀ slot, checkPost codec (books.book slot) (staging.changed slot)
      { tokenId := (earlier.metadata slot).tokenId
        bookRevision := (earlier.metadata slot).bookRevision } (view.metadata slot) = .ok () := by
    intro slot
    rw [there, changed]
    exact checkPost_eq (oldBooks slot) (captured.book slot) (laterBooks slot) (steadyBooks slot)
  have size := captured.bounded.trans generous.stateBytes
  rw [← stateBytes_eq captured, ← bytes, ← bytes] at size
  have taken : client.change codec (priceChange before state
      (changesOf codec (tokenOf state.key .up) (earlier.depths .up) (view.depths .up) ++
        changesOf codec (tokenOf state.key .down) (earlier.depths .down) (view.depths .down))) = .ok
      { client with
        books := [books.up.commitAll .up staging (view.metadata .up),
          books.down.commitAll .down staging (view.metadata .down)]
        sourceStatus := state.snapshot.sourceStatus
        reason := state.snapshot.reason } := by
    unfold MarketState.change priceChange
    rw [mirrors.books, capturedBefore.books, captured.books]
    refine bind_ok.mpr ⟨(), ensure_ok.mpr ?_, ?_⟩
    · rw [mirrors.sequence, beq_self_eq_true]
    refine bind_ok.mpr ⟨(), ensure_ok.mpr (decide_eq_true ?_), ?_⟩
    · exact few.trans generous.changes
    rw [key]
    exact bind_ok.mpr ⟨staging, folded, bind_ok.mpr
      ⟨(), posts .up, bind_ok.mpr ⟨(), posts .down, bind_ok.mpr
        ⟨(), ensure_ok.mpr (decide_eq_true size), rfl⟩⟩⟩⟩
  refine ⟨_, apply_message key (mirrors.streamId.trans same.streamId) ?_ taken, ?_, rfl, rfl⟩
  · intro sequence mem
    rw [mirrors.sequence] at mem
    cases mem
    exact increasing
  · refine ⟨key, mirrors.streamId.trans same.streamId, rfl, ?_, rfl, rfl⟩
    exact congrArg₂ (fun up down => [up, down]) (committed .up) (committed .down)

end Changes

/-! ## Frames -/

/-- A connection sends states one after the other, the first whole. Each frame
can be built, at a time of at most 64 bytes, and after each the client shows the
state. -/
def Delivers (codec : Codec) :
    Option State → MarketState → List (State × String) → Prop
  | _, _, [] => True
  | previous, client, (state, publishedAt) :: sends =>
    (publishedAt.utf8ByteSize ≤ 64 → ∃ sent, frame codec state previous publishedAt = .ok sent) ∧
      ∀ sent, frame codec state previous publishedAt = .ok sent →
        ∃ after, client.apply codec sent = .ok after ∧
          after.snapshot = some (message state publishedAt (.snapshot state.snapshot)) ∧
            Delivers codec (some state) after sends

/-- What a client needs from each state to the next. -/
def Steadily (codec : Codec) (limit : Nat) (sends : List (State × String)) : Prop :=
  sends.IsChain fun before send => Steady codec limit before.1 send.1 send.2

section Frames

variable {codec : Codec} {state before : State} {view earlier : View} {client : MarketState}
  {previous : Option State} {publishedAt : String} {sent : MarketFrame}

/-- A captured state can be sent whole. -/
theorem snapshotFrame_eq
    (captured : CapturedState codec state view) (short : publishedAt.utf8ByteSize ≤ 64) :
    snapshotFrame state publishedAt =
      .ok (message state publishedAt (.snapshot state.snapshot)) := by
  have fits : (message state publishedAt (.snapshot state.snapshot)).encodedLength ≤ maxBytes := by
    have framed := captured.framed
    have schema := stringLength_le marketSchema
    have stream := stringLength_le state.streamId
    have time := (stringLength_le publishedAt).trans (nestedLength_mono short)
    have sequence := uint64Length_le captured.counted
    unfold envelopeLength at framed
    unfold MarketFrame.encodedLength message optionalLength
    dsimp only [elim_some, Body.encodedLength]
    omega
  exact bind_ok.mpr ⟨(), ensure_ok.mpr (decide_eq_true fits), rfl⟩

/-- A frame carries its state whole or as changes. -/
theorem snapshotFrame_ok (made : snapshotFrame state publishedAt = .ok sent) :
    sent = message state publishedAt (.snapshot state.snapshot) := by
  obtain ⟨_, _, made⟩ := bind_ok.mp made
  cases made
  rfl

theorem frame_ok (made : frame codec state previous publishedAt = .ok sent) :
    sent = message state publishedAt (.snapshot state.snapshot) ∨
      ∃ before changes, previous = some before ∧ SentAsChanges codec before state publishedAt ∧
        depthChanges codec before state = .ok changes ∧ changes.length ≤ maxChanges ∧
          sent = message state publishedAt (.priceChange (priceChange before state changes)) := by
  unfold frame at made
  split at made
  · rename_i before filtered
    obtain ⟨rfl, follows⟩ := Option.filter_eq_some_iff.mp filtered
    obtain ⟨_, _, changes, listed, made⟩ := bind₂_ok.mp made
    dsimp only at made
    split at made
    · rename_i fits
      cases made
      exact .inr ⟨before, changes, rfl, ⟨follows, changes, listed, fits.1, fits.2⟩, listed,
        fits.1, rfl⟩
    · exact .inl (snapshotFrame_ok made)
  · exact .inl (snapshotFrame_ok made)

/-- A captured state can be sent after an earlier one. -/
theorem frame_isOk (captured : CapturedState codec state view)
    (capturedBefore : ∀ before ∈ previous, ∃ earlier, CapturedState codec before earlier)
    (increasing : ∀ before ∈ previous, before.sequence < state.sequence)
    (short : publishedAt.utf8ByteSize ≤ 64) :
    ∃ sent, frame codec state previous publishedAt = .ok sent := by
  have whole := snapshotFrame_eq captured short
  unfold frame
  split
  · rename_i before filtered
    obtain ⟨rfl, _⟩ := Option.filter_eq_some_iff.mp filtered
    obtain ⟨earlier, earlierCaptured⟩ := capturedBefore before rfl
    obtain ⟨changes, listed⟩ : ∃ changes, depthChanges codec before state = .ok changes :=
      ⟨_, depthChanges_eq earlierCaptured captured⟩
    have ordered : ensure (decide (before.sequence < state.sequence)) "state revision regression" =
        .ok () := ensure_ok.mpr (decide_eq_true (increasing before rfl))
    by_cases fits : changes.length ≤ maxChanges ∧ (message state publishedAt
        (.priceChange (priceChange before state changes))).encodedLength ≤ maxBytes
    · exact ⟨_, bind_ok.mpr ⟨(), ordered, bind_ok.mpr ⟨changes, listed, if_pos fits⟩⟩⟩
    · exact ⟨_, bind_ok.mpr ⟨(), ordered, bind_ok.mpr ⟨changes, listed, (if_neg fits).trans whole⟩⟩⟩
  · exact ⟨_, whole⟩

/-- What a waiting client needs of the states it is sent. -/
structure Sendable
    (codec : Codec) (previous : Option State) (client : MarketState)
    (send : State × String) : Prop where
  captured : ∃ view, CapturedState codec send.1 view
  key : client.key = send.1.key
  streamId : client.streamId = send.1.streamId
  later : ∀ before ∈ previous, SameLane before send.1 ∧ before.sequence < send.1.sequence

/-- A client that waits takes the next frame and holds its state. -/
theorem Awaits.deliver (lawful : codec.Lawful) (awaits : Awaits codec previous client)
    (generous : Generous client.budget) (ne : client.key.upTokenId ≠ client.key.downTokenId)
    (sendable : Sendable codec previous client (state, publishedAt))
    (steady : ∀ before ∈ previous,
      Steady codec client.budget.maximumLevelsPerSide before state publishedAt)
    (made : frame codec state previous publishedAt = .ok sent) :
    ∃ after view, client.apply codec sent = .ok after ∧ CapturedState codec state view ∧
      Mirrors codec state view after ∧ after.publishedAt = publishedAt ∧
        after.budget = client.budget := by
  obtain ⟨⟨view, captured⟩, key, streamId, later⟩ := sendable
  rcases frame_ok made with rfl | ⟨before, changes, rfl, asChanges, listed, few, rfl⟩
  · obtain ⟨after, taken, mirrors, time, budget⟩ :=
      awaits.apply_snapshot generous captured key streamId later
    exact ⟨after, view, taken, captured, mirrors, time, budget⟩
  · obtain ⟨earlier, capturedBefore, mirrors⟩ := awaits
    obtain ⟨same, increasing⟩ := later before rfl
    obtain ⟨after, taken, mirrorsAfter, time, budget⟩ :=
      mirrors.apply_changes lawful generous capturedBefore captured (key ▸ ne) same
        increasing (steady before rfl asChanges) listed few
    exact ⟨after, view, taken, captured, mirrorsAfter, time, budget⟩

/-- A client that waits takes every frame that follows. -/
theorem Awaits.delivers
    (lawful : codec.Lawful) (sends : List (State × String)) (awaits : Awaits codec previous client)
    (generous : Generous client.budget) (ne : client.key.upTokenId ≠ client.key.downTokenId)
    (sendable : ∀ send ∈ sends, Sendable codec previous client send)
    (ordered : sends.Pairwise fun before send =>
      SameLane before.1 send.1 ∧ before.1.sequence < send.1.sequence)
    (steady : Steadily codec client.budget.maximumLevelsPerSide sends)
    (steadyFirst : ∀ before ∈ previous, ∀ send ∈ sends.head?,
      Steady codec client.budget.maximumLevelsPerSide before send.1 send.2) :
    Delivers codec previous client sends := by
  induction sends generalizing previous client with
  | nil => trivial
  | cons send sends ih =>
    obtain ⟨state, publishedAt⟩ := send
    obtain ⟨first, rest⟩ := forall_mem_cons.mp sendable
    obtain ⟨orderedFirst, orderedRest⟩ := pairwise_cons.mp ordered
    obtain ⟨steadyNext, steadyRest⟩ := isChain_cons.mp steady
    refine ⟨?_, fun sent made => ?_⟩
    · intro short
      obtain ⟨view, captured⟩ := first.captured
      refine frame_isOk captured ?_ (fun before mem => (first.later before mem).2) short
      rintro before rfl
      obtain ⟨earlier, capturedBefore, _⟩ := awaits
      exact ⟨earlier, capturedBefore⟩
    · obtain ⟨after, view, taken, captured, mirrors, time, budget⟩ :=
        awaits.deliver lawful generous ne first
          (fun before mem => steadyFirst before mem _ rfl) made
      have shown := mirrors.snapshot captured
      rw [time] at shown
      refine ⟨after, taken, shown, ?_⟩
      have key : after.key = client.key := mirrors.key.trans first.key.symm
      have streamId : after.streamId = client.streamId := mirrors.streamId.trans first.streamId.symm
      refine ih ⟨view, captured, mirrors⟩ (budget ▸ generous) (key ▸ ne)
        ?_ orderedRest (budget ▸ steadyRest) ?_
      · intro send mem
        obtain ⟨sendCaptured, sendKey, sendStream, _⟩ := rest send mem
        refine ⟨sendCaptured, key.trans sendKey, streamId.trans sendStream, ?_⟩
        rintro before ⟨⟩
        exact orderedFirst send mem
      · rintro before ⟨⟩ send mem
        rw [budget]
        exact steadyNext send mem

end Frames

section Runs

variable {codec : Codec} {key : MarketKey} {streamId : String} {lane : Lane}
  {budget : DeliveryBudget} {client : MarketState}

theorem MarketState.new_ok
    (codec : Codec) (opened : MarketState.new (some key) streamId budget = .ok client) :
    Awaits codec none client ∧ client.key = key ∧ client.streamId = streamId ∧
      client.budget = budget := by
  unfold MarketState.new at opened
  obtain ⟨_, same, opened⟩ := bind_ok.mp opened
  iterate 2 obtain ⟨_, _, opened⟩ := bind_ok.mp opened
  cases same
  cases opened
  exact ⟨⟨rfl, rfl⟩, rfl, rfl, rfl⟩

/-- A fresh client takes every frame of a connection that sends captured states
steadily, and shows the state of each. -/
theorem delivers_captures (lawful : codec.Lawful) (made : Lane.new codec key streamId = .ok lane)
    (opened : MarketState.new (some key) streamId budget = .ok client) (generous : Generous budget)
    (calls : List (Snapshot × String)) (sends : List (State × String))
    (captured : (sends.map Prod.fst).Sublist (lane.captures codec calls))
    (increasing : sends.Pairwise fun before send => before.1.sequence < send.1.sequence)
    (steady : Steadily codec budget.maximumLevelsPerSide sends) :
    Delivers codec none client sends := by
  obtain ⟨sound, laneKey, laneStream, different⟩ := Lane.new_sound made
  obtain ⟨awaits, clientKey, clientStream, rfl⟩ := MarketState.new_ok codec opened
  obtain ⟨states, _, ordered⟩ := captures_sound lawful calls sound
  have follows : sends.Pairwise fun before send => SameLane before.1 send.1 :=
    pairwise_map.mp (ordered.sublist captured)
  refine awaits.delivers lawful sends generous (clientKey ▸ different) ?_
    (follows.and increasing) steady nofun
  intro send member
  obtain ⟨sendKey, sendStream, sendCaptured⟩ :=
    states send.1 (captured.subset (mem_map_of_mem member))
  exact ⟨sendCaptured, clientKey.trans (sendKey.trans laneKey).symm,
    clientStream.trans (sendStream.trans laneStream).symm, nofun⟩

/-- A limit for the levels of both books is enough. -/
theorem SideFits.of_length_le
    (bounded : news.length + olds.length ≤ limit) :
    SideFits codec side limit olds news := by
  unfold SideFits
  refine fits_of_length_le ?_
  rw [length_map, length_map]
  omega

end Runs

/-! ## A market of one level -/

def sampleText (value : Decimal) : String :=
  ([(0, "0"), (1 / 2, "0.5"), (5, "5"), (6, "6")].lookup value).getD ""

def sampleParse (text : String) : Option Decimal :=
  [("0", 0), ("0.5", 1 / 2), ("5", 5), ("6", 6)].lookup text

def sampleCodec : Codec where
  parse := sampleParse
  parseExact := sampleParse
  text := sampleText
  rfc3339 := fun text =>
    [("2026-10-09T00:00:00Z", 0), ("2026-10-09T00:05:00Z", 300)].lookup text

theorem sampleCodec_lawful : sampleCodec.Lawful := by
  refine ⟨?_, by decide +kernel, by decide +kernel⟩
  intro text value read _
  have listed : (text, value) ∈ [("0", (0 : Decimal)), ("0.5", 1 / 2), ("5", 5), ("6", 6)] := by
    obtain ⟨front, back, split, _⟩ := lookup_eq_some_iff.mp read
    rw [split]
    simp
  simp only [mem_cons, not_mem_nil, or_false, Prod.mk.injEq] at listed
  rcases listed with ⟨_, rfl⟩ | ⟨_, rfl⟩ | ⟨_, rfl⟩ | ⟨_, rfl⟩ <;>
    exact ⟨by decide +kernel, by decide +kernel, by decide +kernel⟩

def sampleKey : MarketKey where
  marketId := "market"
  conditionId := "0xaaaaaaaaaaaaaaaaaaaaaaaaaaaaaaaaaaaaaaaaaaaaaaaaaaaaaaaaaaaaaaaa"
  windowId := "window"
  startAt := "2026-10-09T00:00:00Z"
  endAt := "2026-10-09T00:05:00Z"
  upTokenId := "1"
  downTokenId := "2"
  rules := some { id := "rules", revision := 1 }

def sampleBudget : DeliveryBudget where
  maximumFrameBytes := maxBytes
  maximumStateBytes := maxBytes
  maximumLevelsPerSide := maxLevels
  maximumChanges := maxChanges

theorem sampleBudget_generous : Generous sampleBudget := ⟨le_rfl, le_rfl, le_rfl, le_rfl⟩

def sampleLane : Lane where
  key := sampleKey
  streamId := "stream"
  sequence := 0
  snapshot := none
  sourceGeneration := ""
  depthBytes := (0, 0)
  envelopeBytes := envelopeLength sampleKey "stream"

def sampleClient : MarketState where
  key := sampleKey
  streamId := "stream"
  budget := sampleBudget
  sequence := none
  books := []
  sourceStatus := "unavailable"
  reason := none
  publishedAt := ""

theorem sampleLane_new : Lane.new sampleCodec sampleKey "stream" = .ok sampleLane := by
  decide +kernel

theorem sampleClient_new :
    MarketState.new (some sampleKey) "stream" sampleBudget = .ok sampleClient := by
  refine bind_ok.mpr ⟨sampleKey, rfl, ?_⟩
  refine bind_ok.mpr ⟨(), ensure_ok.mpr (by decide +kernel), ?_⟩
  exact bind_ok.mpr ⟨(), ensure_ok.mpr (by decide +kernel), rfl⟩

def sampleMetadata (tokenId outcome : String) (bookRevision : Nat) : TokenMetadata where
  tokenId := tokenId
  outcome := outcome
  tickSize := none
  quoteSourceAt := some "2026-10-09T00:00:00Z"
  lastTrade := none
  confirmation := none
  dataValid := true
  invalidReason := none
  receivedAt := none
  bookRevision := bookRevision

/-- Both books available, with one bid of a size for the first. -/
def sampleSnapshot (size : String) (bookRevision downRevision : Nat) : Snapshot where
  books :=
    [{ metadata := some (sampleMetadata "1" "Up" bookRevision)
       bids := [{ price := "0.5", size }]
       asks := [] },
     { metadata := some (sampleMetadata "2" "Down" downRevision), bids := [], asks := [] }]
  sourceStatus := "available"
  reason := none

def sampleState (size : String) (sequence : Nat) : State where
  key := sampleKey
  streamId := "stream"
  sequence := sequence
  snapshot := sampleSnapshot size sequence 1
  sourceGeneration := "generation"

/-- The bid of the first book changes from one size to another and back. -/
def sampleCalls : List (Snapshot × String) :=
  [(sampleSnapshot "5" 0 0, "generation"), (sampleSnapshot "6" 0 0, "generation"),
    (sampleSnapshot "5" 0 0, "generation")]

theorem sampleLane_captures :
    sampleLane.captures sampleCodec sampleCalls =
      [sampleState "5" 1, sampleState "6" 2, sampleState "5" 3] := by
  decide +kernel

theorem delivers_captures_sample :
    Delivers sampleCodec none sampleClient
      [(sampleState "5" 1, "2026-10-09T00:00:00Z"), (sampleState "6" 2, "2026-10-09T00:00:00Z")] := by
  refine delivers_captures sampleCodec_lawful sampleLane_new sampleClient_new sampleBudget_generous
    sampleCalls _ ?_ ?_ ?_
  · rw [sampleLane_captures]
    decide +kernel
  · decide +kernel
  · refine isChain_pair.mpr fun _ => ?_
    refine .cons ⟨fun _ => by decide +kernel, ?_, ?_⟩ (.cons ⟨?_, ?_, ?_⟩ .nil)
    · exact SideFits.of_length_le (by decide)
    · exact SideFits.of_length_le (by decide)
    · intro less
      exact absurd less (by decide +kernel)
    · exact SideFits.of_length_le (by decide)
    · exact SideFits.of_length_le (by decide)

/-- A connection that skips the second state: the third has a larger revision and
the facts of the first, and the client refuses its changes. -/
theorem delivers_reverted :
    let sends := [(sampleState "5" 1, "2026-10-09T00:00:00Z"),
      (sampleState "5" 3, "2026-10-09T00:00:00Z")]
    sampleCodec.Lawful ∧ Lane.new sampleCodec sampleKey "stream" = .ok sampleLane ∧
      MarketState.new (some sampleKey) "stream" sampleBudget = .ok sampleClient ∧
        Generous sampleBudget ∧
          (sends.map Prod.fst).Sublist (sampleLane.captures sampleCodec sampleCalls) ∧
            (sends.Pairwise fun before send => before.1.sequence < send.1.sequence) ∧
              ¬Delivers sampleCodec none sampleClient sends := by
  refine ⟨sampleCodec_lawful, sampleLane_new, sampleClient_new, sampleBudget_generous, ?_, ?_, ?_⟩
  · rw [sampleLane_captures]
    decide +kernel
  · decide +kernel
  · rintro ⟨firstMade, firstTaken⟩
    obtain ⟨first, firstFrame⟩ := firstMade (by decide +kernel)
    obtain ⟨client, firstApplied, _, secondMade, secondTaken⟩ := firstTaken first firstFrame
    obtain ⟨second, secondFrame⟩ := secondMade (by decide +kernel)
    obtain ⟨after, secondApplied, _⟩ := secondTaken second secondFrame
    have run : (do
        let first ← frame sampleCodec (sampleState "5" 1) none "2026-10-09T00:00:00Z"
        let client ← sampleClient.apply sampleCodec first
        let second ← frame sampleCodec (sampleState "5" 3) (some (sampleState "5" 1))
          "2026-10-09T00:00:00Z"
        client.apply sampleCodec second) = .ok after := by
      exact bind_ok.mpr ⟨first, firstFrame, bind_ok.mpr
        ⟨client, firstApplied, bind_ok.mpr ⟨second, secondFrame, secondApplied⟩⟩⟩
    have refused : (do
        let first ← frame sampleCodec (sampleState "5" 1) none "2026-10-09T00:00:00Z"
        let client ← sampleClient.apply sampleCodec first
        let second ← frame sampleCodec (sampleState "5" 3) (some (sampleState "5" 1))
          "2026-10-09T00:00:00Z"
        client.apply sampleCodec second).toOption.isSome = false := by
      decide +kernel
    rw [run] at refused
    cases refused

end MarketCow.Live
