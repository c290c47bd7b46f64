import MarketCow.Live.Commit

/-!
# Runs of a lane

Every captured state is in normal form and within the limits of a frame. From one
captured state to a later one no sequence and no revision goes back, and a book
that keeps its revision keeps its facts.
-/

namespace MarketCow.Live

open Library Option
open Library.Proto

/-! ## Facts of a book -/

/-- What a revision of a book stands for. -/
structure Facts where
  tokenId : String
  outcome : String
  tickSize : Option String
  quoteSourceAt : Option String
  dataValid : Bool
  invalidReason : Option String
  deriving DecidableEq

def TokenMetadata.facts (metadata : TokenMetadata) : Facts where
  tokenId := metadata.tokenId
  outcome := metadata.outcome
  tickSize := metadata.tickSize
  quoteSourceAt := metadata.quoteSourceAt
  dataValid := metadata.dataValid
  invalidReason := metadata.invalidReason

theorem sameBook_iff :
    sameBook first second = true ↔ first.bids = second.bids ∧ first.asks = second.asks ∧
      first.metadata.map TokenMetadata.facts = second.metadata.map TokenMetadata.facts := by
  unfold sameBook
  cases first.metadata <;> cases second.metadata <;>
    simp [TokenMetadata.facts, and_assoc]

/-- A book that is not before another: its revision is larger, or the same with
the same facts. -/
def NotBefore (earlier later : TokenBook) : Prop :=
  revisionOf (some earlier) < revisionOf (some later) ∨
    revisionOf (some earlier) = revisionOf (some later) ∧ sameBook earlier later = true

theorem NotBefore.trans
    (one : NotBefore first second) (two : NotBefore second third) : NotBefore first third := by
  rcases one with less | ⟨same, facts⟩ <;> rcases two with more | ⟨equal, others⟩
  · exact .inl (less.trans more)
  · exact .inl (equal ▸ less)
  · exact .inl (same ▸ more)
  · refine .inr ⟨same.trans equal, ?_⟩
    rw [sameBook_iff] at facts others ⊢
    exact ⟨facts.1.trans others.1, facts.2.1.trans others.2.1, facts.2.2.trans others.2.2⟩

/-! ## Captured books -/

/-- A book as a lane has captured it. -/
structure Captured
    (codec : Codec) (tokenId outcome : String) (metadata : TokenMetadata) (depths : Depths)
    (book : TokenBook) : Prop where
  described : book.metadata = some metadata
  bids : book.bids = wireSide codec depths.bids
  asks : book.asks = wireSide codec depths.asks
  sound : depths.Sound codec
  token : metadata.tokenId = tokenId
  outcome : metadata.outcome = outcome
  revision : 0 < metadata.bookRevision
  tick : ∀ tick ∈ metadata.tickSize, ∃ value, codec.Readable value ∧ 0 < value ∧
    tick = codec.text value
  trade : ∀ trade ∈ metadata.lastTrade, ∃ value, codec.Readable value ∧ 0 ≤ value ∧
    trade.price = codec.text value
  confirmation : ∀ confirmation ∈ metadata.confirmation,
    confirmation.boundBookRevision = metadata.bookRevision ∧
      metadata.quoteSourceAt = some confirmation.boundQuoteSourceAt ∧
        confirmation.sourceAt.isEmpty = false

section Books

variable {codec : Codec} {tokenId outcome : String} {before : Option TokenBook}
  {book after : TokenBook} {metadata checked : TokenMetadata}

section

variable (lawful : codec.Lawful)
include lawful

theorem normalized_ok
    (read : normalized codec text positive = .ok result) :
    ∃ value, codec.Readable value ∧ 0 ≤ value ∧ (positive = true → 0 < value) ∧
      result = codec.text value := by
  unfold normalized at read
  obtain ⟨value, parsed, read⟩ := bind_ok.mp read
  cases read
  obtain ⟨found, nonnegative, positive⟩ := decimal_ok parsed
  exact ⟨value, lawful.readable _ _ found nonnegative, nonnegative, positive, rfl⟩

theorem normalizedTick_ok
    (read : normalizedTick codec tick = .ok result) :
    ∀ text ∈ result, ∃ value, codec.Readable value ∧ 0 < value ∧ text = codec.text value := by
  rintro text ⟨⟩
  unfold normalizedTick at read
  cases tick with
  | none => cases read
  | some tick =>
    obtain ⟨written, parsed, read⟩ := bind_ok.mp read
    cases read
    obtain ⟨value, readable, _, positive, same⟩ := normalized_ok lawful parsed
    exact ⟨value, readable, positive rfl, same⟩

theorem normalizedTrade_ok
    (read : normalizedTrade codec trade = .ok result) :
    ∀ trade ∈ result, ∃ value, codec.Readable value ∧ 0 ≤ value ∧
      trade.price = codec.text value := by
  rintro found ⟨⟩
  unfold normalizedTrade at read
  cases trade with
  | none => cases read
  | some trade =>
    obtain ⟨price, parsed, _, _, read⟩ := bind₂_ok.mp read
    cases read
    obtain ⟨value, readable, nonnegative, _, same⟩ := normalized_ok lawful parsed
    exact ⟨value, readable, nonnegative, same⟩

theorem checkConfirmation_ok
    (read : checkConfirmation codec metadata confirmation = .ok ()) :
    ∀ found ∈ confirmation, metadata.quoteSourceAt = some found.boundQuoteSourceAt ∧
      found.sourceAt.isEmpty = false := by
  rintro found ⟨⟩
  unfold checkConfirmation at read
  obtain ⟨source, timed, _, _, _, bound, _⟩ := bind₃_ok.mp read
  rw [ensure_ok, beq_iff_eq] at bound
  refine ⟨bound, ?_⟩
  by_contra empty
  rw [Bool.not_eq_false, String.isEmpty_iff] at empty
  unfold sourceTime at timed
  rw [empty, lawful.timeless] at timed
  cases timed

end

theorem bindConfirmation_ok
    (read : bindConfirmation revision confirmation = .ok result) :
    result = confirmation.map fun confirmation =>
      { confirmation with boundBookRevision := revision } := by
  unfold bindConfirmation at read
  cases confirmation with
  | none =>
    cases read
    rfl
  | some confirmation =>
    obtain ⟨_, _, read⟩ := bind_ok.mp read
    cases read
    rfl

/-- The next revision is larger when the facts are others, and the same
otherwise. -/
theorem nextRevision_ok (read : nextRevision before book = .ok revision) :
    (before = none ∧ revision = 1) ∨ ∃ earlier, before = some earlier ∧
      if sameBook earlier book then revision = revisionOf before
      else revision = revisionOf before + 1 := by
  unfold nextRevision checkedAdd at read
  cases before with
  | none =>
    cases read
    exact .inl ⟨rfl, rfl⟩
  | some earlier =>
    refine .inr ⟨earlier, rfl, ?_⟩
    cases same : sameBook earlier book with
    | true =>
      simp only [all_some, same, Bool.not_true, false_eq_true, if_false] at read
      cases read
      rfl
    | false =>
      simp only [all_some, same, Bool.not_false, if_true] at read
      split at read <;> cases read
      rfl

/-- What a lane has captured for a token. -/
theorem captureBook_ok
    (lawful : codec.Lawful) (positive : ∀ earlier ∈ before, 0 < revisionOf (some earlier))
    (taken : captureBook codec tokenId outcome before book = .ok after) :
    ∃ metadata depths, Captured codec tokenId outcome metadata depths after ∧
      ∀ earlier ∈ before, NotBefore earlier after := by
  unfold captureBook at taken
  obtain ⟨bids, bidsChecked, asks, asksChecked, given, _, taken⟩ := bind₃_ok.mp taken
  obtain ⟨metadata, checked, revision, advanced, confirmation, bound, taken⟩ := bind₃_ok.mp taken
  cases taken
  obtain ⟨bidValues, bidsSound, rfl, bidsBounded⟩ := levels_ok lawful bidsChecked
  obtain ⟨askValues, asksSound, rfl, asksBounded⟩ := levels_ok lawful asksChecked
  unfold checkMetadata at checked
  obtain ⟨_, named, tickSize, ticked, _, _, checked⟩ := bind₃_ok.mp checked
  obtain ⟨lastTrade, traded, _, confirmed, _, _, checked⟩ := bind₃_ok.mp checked
  cases checked
  rw [ensure_ok, and_eq_true, beq_iff_eq, beq_iff_eq] at named
  obtain rfl := bindConfirmation_ok bound
  have advances := nextRevision_ok advanced
  refine ⟨_, { bids := bidValues, asks := askValues }, ⟨rfl, rfl, rfl,
    ⟨bidsSound, asksSound, bidsBounded, asksBounded⟩, named.1, named.2, ?_,
    normalizedTick_ok lawful ticked, normalizedTrade_ok lawful traded, ?_⟩, ?_⟩
  · rcases advances with ⟨_, rfl⟩ | ⟨earlier, rfl, advance⟩
    · exact Nat.one_pos
    · have earlierPositive := positive earlier rfl
      dsimp only
      split at advance <;> omega
  · intro found mem
    obtain ⟨earlier, present, rfl⟩ := map_eq_some_iff.mp mem
    exact ⟨rfl, checkConfirmation_ok lawful confirmed earlier present⟩
  · rintro earlier rfl
    rcases advances with ⟨never, _⟩ | ⟨other, same, advance⟩
    · cases never
    · cases same
      split at advance
      · rename_i facts
        refine .inr ⟨advance.symm, ?_⟩
        rw [sameBook_iff] at facts ⊢
        exact facts
      · refine .inl ?_
        change revisionOf (some earlier) < revision
        omega

end Books

/-! ## Captured states -/

def tokenOf (key : MarketKey) : Slot → String
  | .up => key.upTokenId
  | .down => key.downTokenId

def outcomeOf : Slot → String
  | .up => "Up"
  | .down => "Down"

/-- The books of a state, by their values. -/
structure View where
  metadata : Slot → TokenMetadata
  depths : Slot → Depths

/-- A book in normal form. -/
def View.book (codec : Codec) (view : View) (slot : Slot) : TokenBook where
  metadata := some (view.metadata slot)
  bids := wireSide codec (view.depths slot).bids
  asks := wireSide codec (view.depths slot).asks

def View.pair (up down : TokenMetadata) (upDepths downDepths : Depths) : View where
  metadata := fun
    | .up => up
    | .down => down
  depths := fun
    | .up => upDepths
    | .down => downDepths

theorem Captured.eq
    {codec : Codec} {tokenId outcome : String} {metadata : TokenMetadata} {depths : Depths}
    {book : TokenBook} (captured : Captured codec tokenId outcome metadata depths book) :
    book =
      { metadata := some metadata
        bids := wireSide codec depths.bids
        asks := wireSide codec depths.asks } := by
  rw [← captured.described, ← captured.bids, ← captured.asks]

/-- The bytes of a state from those of its books. -/
theorem Snapshot.encodedLength_pair {snapshot : Snapshot} (up down : TokenBook) :
    Snapshot.encodedLength { snapshot with books := [up, down] } =
      bookBytes up.depthLength up + bookBytes down.depthLength down +
        stringLength snapshot.sourceStatus + optionalStringLength snapshot.reason := by
  unfold Snapshot.encodedLength
  rw [repeatedLength_cons, repeatedLength_cons, repeatedLength_nil, Nat.add_zero]
  rfl

/-- A state as a lane has captured it. It fits a frame, whatever its sequence and
its time of publication. -/
structure CapturedState (codec : Codec) (state : State) (view : View) : Prop where
  books : state.snapshot.books = [view.book codec .up, view.book codec .down]
  book : ∀ slot, Captured codec (tokenOf state.key slot) (outcomeOf slot) (view.metadata slot)
    (view.depths slot) (view.book codec slot)
  bounded : state.snapshot.encodedLength ≤ maxBytes
  framed : envelopeLength state.key state.streamId +
    nestedLength state.snapshot.encodedLength ≤ maxBytes
  counted : state.sequence < 2 ^ 64

/-- Two states of one lane. -/
structure SameLane (first second : State) : Prop where
  key : first.key = second.key
  streamId : first.streamId = second.streamId
  books : List.Forall₂ NotBefore first.snapshot.books second.snapshot.books

/-- A lane whose state is captured, with the bytes of its levels. -/
structure Lane.Sound (codec : Codec) (lane : Lane) : Prop where
  counted : lane.sequence < 2 ^ 64
  enveloped : lane.envelopeBytes = envelopeLength lane.key lane.streamId
  captured : ∀ state, lane.state = .ok state → ∃ view, CapturedState codec state view ∧
    lane.depthBytes = ((view.book codec .up).depthLength, (view.book codec .down).depthLength)

/-- The states that a lane captures; a capture that fails leaves the lane as it
was. -/
def Lane.captures (codec : Codec) : Lane → List (Snapshot × String) → List State
  | _, [] => []
  | lane, (snapshot, sourceGeneration) :: calls =>
    match lane.capture codec snapshot sourceGeneration with
    | .ok (state, after) => state :: after.captures codec calls
    | .error _ => lane.captures codec calls

section Captures

variable {codec : Codec} {lane after : Lane} {snapshot : Snapshot} {sourceGeneration : String}
  {state : State}

theorem Lane.state_ok_iff :
    lane.state = .ok state ↔ lane.snapshot = some state.snapshot ∧ state.key = lane.key ∧
      state.streamId = lane.streamId ∧ state.sequence = lane.sequence ∧
        state.sourceGeneration = lane.sourceGeneration := by
  unfold Lane.state
  rw [bind_ok]
  constructor
  · rintro ⟨found, present, same⟩
    cases same
    exact ⟨need_ok.mp present, rfl, rfl, rfl, rfl⟩
  · rintro ⟨present, key, streamId, sequence, generation⟩
    refine ⟨state.snapshot, need_ok.mpr present, ?_⟩
    rw [← key, ← streamId, ← sequence, ← generation]

theorem Lane.new_sound
    {key : MarketKey} {streamId : String} (made : Lane.new codec key streamId = .ok lane) :
    lane.Sound codec ∧ lane.key = key ∧ lane.streamId = streamId ∧
      key.upTokenId ≠ key.downTokenId := by
  unfold Lane.new at made
  iterate 2 obtain ⟨_, _, made⟩ := bind_ok.mp made
  obtain ⟨_, ne, made⟩ := bind_ok.mp made
  iterate 5 obtain ⟨_, _, made⟩ := bind_ok.mp made
  cases made
  rw [ensure_ok, and_eq_true, bne_iff_ne] at ne
  refine ⟨⟨Nat.two_pow_pos 64, rfl, ?_⟩, rfl, rfl, ne.2⟩
  intro state found
  have present := (Lane.state_ok_iff.mp found).1
  cases present

/-- The counted bytes are those of the levels. -/
theorem depthBytesOf_eq
    (book : TokenBook) (right : ∀ earlier ∈ before, counted = earlier.depthLength) :
    depthBytesOf before counted book = book.depthLength := by
  unfold depthBytesOf
  split
  · rename_i same
    obtain ⟨earlier, mem, equal⟩ := (any_eq_true _ _).mp same
    rw [and_eq_true, beq_iff_eq, beq_iff_eq] at equal
    rw [right earlier mem, TokenBook.depthLength, TokenBook.depthLength, equal.1, equal.2]
  · rfl

theorem nextSequence_ok {sequence : Nat} (counted : lane.sequence < 2 ^ 64)
    (advanced : lane.nextSequence snapshot sourceGeneration = .ok sequence) :
    sequence < 2 ^ 64 := by
  unfold Lane.nextSequence checkedAdd at advanced
  split at advanced
  · split at advanced
    · cases advanced
      assumption
    · cases advanced
  · cases advanced
    exact counted

/-- A book before a capture has a revision, and its levels are counted. -/
theorem Lane.Sound.before (sound : lane.Sound codec) :
    (∀ earlier ∈ lane.snapshot.bind fun earlier => earlier.books[0]?,
      0 < revisionOf (some earlier) ∧ lane.depthBytes.1 = earlier.depthLength) ∧
      ∀ earlier ∈ lane.snapshot.bind fun earlier => earlier.books[1]?,
        0 < revisionOf (some earlier) ∧ lane.depthBytes.2 = earlier.depthLength := by
  cases present : lane.snapshot with
  | none => exact ⟨nofun, nofun⟩
  | some snapshot =>
    obtain ⟨view, captured, bytes⟩ := sound.captured
      { key := lane.key
        streamId := lane.streamId
        sequence := lane.sequence
        snapshot
        sourceGeneration := lane.sourceGeneration }
      (Lane.state_ok_iff.mpr ⟨present, rfl, rfl, rfl, rfl⟩)
    have books := captured.books
    rw [bind_some, bind_some, books, bytes]
    constructor
    · rintro earlier ⟨⟩
      exact ⟨(captured.book .up).revision, rfl⟩
    · rintro earlier ⟨⟩
      exact ⟨(captured.book .down).revision, rfl⟩

/-- What a capture returns and leaves. -/
theorem capture_ok (lawful : codec.Lawful) (sound : lane.Sound codec)
    (taken : lane.capture codec snapshot sourceGeneration = .ok (state, after)) :
    after.Sound codec ∧ after.state = .ok state ∧ after.key = lane.key ∧
      after.streamId = lane.streamId ∧
        ∀ earlier, lane.state = .ok earlier → SameLane earlier state := by
  unfold Lane.capture at taken
  split at taken
  case h_2 => cases taken
  obtain ⟨_, _, up, upTaken, down, downTaken, taken⟩ := bind₃_ok.mp taken
  obtain ⟨_, bounded, _, framed, _, _, taken⟩ := bind₃_ok.mp taken
  obtain ⟨sequence, advanced, returned, kept, taken⟩ := bind₂_ok.mp taken
  cases taken
  obtain ⟨upBefore, downBefore⟩ := sound.before
  obtain ⟨upMetadata, upDepths, upCaptured, upLater⟩ :=
    captureBook_ok lawful (fun earlier mem => (upBefore earlier mem).1) upTaken
  obtain ⟨downMetadata, downDepths, downCaptured, downLater⟩ :=
    captureBook_ok lawful (fun earlier mem => (downBefore earlier mem).1) downTaken
  rw [depthBytesOf_eq up fun earlier mem => (upBefore earlier mem).2,
    depthBytesOf_eq down fun earlier mem => (downBefore earlier mem).2]
    at bounded framed kept ⊢
  rw [ensure_ok, decide_eq_true_iff] at bounded framed
  obtain ⟨snapshotKept, keyKept, streamKept, sequenceKept, _⟩ := Lane.state_ok_iff.mp kept
  have snapshotSame := some.inj snapshotKept
  have captured : CapturedState codec state (View.pair upMetadata downMetadata upDepths downDepths) := by
    refine ⟨?_, ?_, ?_, ?_, ?_⟩
    · rw [← snapshotSame, upCaptured.eq, downCaptured.eq]
      rfl
    · rw [keyKept]
      intro slot
      cases slot with
      | up => exact upCaptured.eq ▸ upCaptured
      | down => exact downCaptured.eq ▸ downCaptured
    · rw [← snapshotSame, Snapshot.encodedLength_pair]
      exact bounded
    · rw [keyKept, streamKept, ← snapshotSame, Snapshot.encodedLength_pair, ← sound.enveloped]
      exact framed
    · rw [sequenceKept]
      exact nextSequence_ok sound.counted advanced
  refine ⟨⟨nextSequence_ok sound.counted advanced, sound.enveloped, ?_⟩, kept, rfl, rfl, ?_⟩
  · intro other found
    rw [kept] at found
    cases found
    refine ⟨_, captured, ?_⟩
    rw [upCaptured.eq, downCaptured.eq]
    rfl
  · intro earlier found
    obtain ⟨present, earlierKey, earlierStream, _⟩ := Lane.state_ok_iff.mp found
    obtain ⟨view, earlierCaptured, _⟩ := sound.captured earlier found
    refine ⟨earlierKey.trans keyKept.symm, earlierStream.trans streamKept.symm, ?_⟩
    rw [present, bind_some, earlierCaptured.books] at upLater downLater
    rw [earlierCaptured.books, ← snapshotSame]
    exact .cons (upLater _ rfl) (.cons (downLater _ rfl) .nil)

theorem SameLane.trans
    (one : SameLane first second) (two : SameLane second third) : SameLane first third := by
  refine ⟨one.key.trans two.key, one.streamId.trans two.streamId, ?_⟩
  have later : ∀ {firsts seconds thirds : List TokenBook}, List.Forall₂ NotBefore firsts seconds →
      List.Forall₂ NotBefore seconds thirds → List.Forall₂ NotBefore firsts thirds := by
    intro firsts seconds thirds before after
    induction before generalizing thirds with
    | nil => exact after
    | cons head _ ih =>
      cases after with
      | cons next rest => exact .cons (head.trans next) (ih rest)
  exact later one.books two.books

/-- Every state of a lane is captured, and the states come one after the other. -/
theorem captures_sound
    (lawful : codec.Lawful) (calls : List (Snapshot × String)) (sound : lane.Sound codec) :
    (∀ state ∈ lane.captures codec calls, state.key = lane.key ∧ state.streamId = lane.streamId ∧
      ∃ view, CapturedState codec state view) ∧
      (∀ earlier, lane.state = .ok earlier → ∀ state ∈ lane.captures codec calls,
        SameLane earlier state) ∧
        (lane.captures codec calls).Pairwise SameLane := by
  induction calls generalizing lane with
  | nil => exact ⟨nofun, nofun, .nil⟩
  | cons call calls ih =>
    obtain ⟨snapshot, sourceGeneration⟩ := call
    unfold Lane.captures
    cases taken : lane.capture codec snapshot sourceGeneration with
    | error cause => exact ih sound
    | ok result =>
      obtain ⟨state, after⟩ := result
      obtain ⟨soundAfter, kept, key, streamId, later⟩ := capture_ok lawful sound taken
      obtain ⟨captured, follow, ordered⟩ := ih soundAfter
      obtain ⟨_, keyKept, streamKept, _⟩ := Lane.state_ok_iff.mp kept
      obtain ⟨view, stateCaptured, _⟩ := soundAfter.captured state kept
      refine ⟨?_, ?_, List.pairwise_cons.mpr ⟨follow state kept, ordered⟩⟩
      · intro other mem
        rcases List.mem_cons.mp mem with rfl | rest
        · exact ⟨keyKept.trans key, streamKept.trans streamId, view, stateCaptured⟩
        · obtain ⟨otherKey, otherStream, otherCaptured⟩ := captured other rest
          exact ⟨otherKey.trans key, otherStream.trans streamId, otherCaptured⟩
      · intro earlier found other mem
        rcases List.mem_cons.mp mem with rfl | rest
        · exact later earlier found
        · exact (later earlier found).trans (follow state kept other rest)

end Captures

end MarketCow.Live
