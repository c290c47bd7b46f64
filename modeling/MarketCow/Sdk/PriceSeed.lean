import MarketCow.Sdk.PriceState

/-!
# The seed of a shared price stream

One owner takes the frames of a stream for many consumers. After each frame it
keeps a seed, the frame with its payload replaced by the last trade or
observation. A consumer that joins later starts from the seed. It joins the
owner's state exactly when the envelope of the frame fits the tail it carries.
-/

namespace MarketCow.Sdk

open Library
open Live (Codec)

/-- The frame a consumer starts from that joins after the owner took a frame. -/
def seedFrame (state : PriceState) (frame : PriceFrame) : PriceFrame :=
  if state.available then
    { frame with
      payload := some (.snapshot
        { trades := state.latestTrade.toList
          observations := state.latestObservation.toList
          truncated := true
          retainedCount := 1
          firstTradeId := state.latestTrade.map Trade.tradeId
          lastTradeId := state.latestTrade.map Trade.tradeId }) }
  else frame

namespace PriceState

variable {codec : Codec} {state after owner joined : PriceState} {frame : PriceFrame}
  {payload : Payload}

/-! ## What a frame does -/

/-- The rules by which a payload changes a state. -/
inductive Takes (codec : Codec) (state : PriceState) (frame : PriceFrame) :
    Payload → PriceState → Prop
  | trades {snapshot : PriceSnapshot} {first last : Trade}
      (binance : state.source = .binanceSpotTrade)
      (pure : snapshot.observations = [])
      (checked : checkTrades codec none snapshot.trades = .ok ())
      (head : snapshot.trades.head? = some first)
      (tail : snapshot.trades.getLast? = some last)
      (firstBound : snapshot.firstTradeId = some first.tradeId)
      (lastBound : snapshot.lastTradeId = some last.tradeId)
      (bound : frame.sourceSequence = some last.tradeId) :
      Takes codec state frame (.snapshot snapshot)
        { state with latestTrade := some last, available := true }
  | points {snapshot : PriceSnapshot}
      (chainlink : state.source ≠ .binanceSpotTrade)
      (pure : snapshot.trades = [])
      (checked : state.observations codec snapshot.observations true = .ok ())
      (bound : frame.sourceSequence =
        snapshot.observations.getLast?.bind Observation.sourceSequence) :
      Takes codec state frame (.snapshot snapshot)
        { state with latestObservation := snapshot.observations.getLast?, available := true }
  | trade {trade previous : Trade}
      (binance : state.source = .binanceSpotTrade)
      (available : state.available = true)
      (valid : validateTrade codec trade = .ok ())
      (before : state.latestTrade = some previous)
      (next : checkedSucc previous.tradeId = some trade.tradeId)
      (later : previous.tradeTimeMs ≤ trade.tradeTimeMs)
      (bound : frame.sourceSequence = some trade.tradeId) :
      Takes codec state frame (.trade (some trade)) { state with latestTrade := some trade }
  | observations {values : List Observation} {last : Observation}
      (chainlink : state.source ≠ .binanceSpotTrade)
      (available : state.available = true)
      (checked : state.observations codec values false = .ok ())
      (tail : values.getLast? = some last)
      (later : ((state.latestObservation.bind Observation.sourceSequence).all
        fun sequence => last.sourceSequence.any fun next => decide (sequence < next)) = true)
      (bound : frame.sourceSequence = last.sourceSequence) :
      Takes codec state frame (.observations values)
        { state with latestObservation := some last }
  | status {status : Status} {phase : Phase}
      (known : Phase.ofNumber? status.phase = some phase)
      (specified : phase ≠ .unspecified) :
      Takes codec state frame (.status status)
        { state with available := state.available && phase == .live }

variable {snapshot : PriceSnapshot}

theorem takeTrades_ok (binance : state.source = .binanceSpotTrade)
    (taken : state.takeTrades codec frame snapshot = .ok after) :
    Takes codec state frame (.snapshot snapshot) after := by
  obtain ⟨_, shape, _, checked, first, head, taken⟩ := bind₃_ok.mp taken
  obtain ⟨last, tail, _, bound, taken⟩ := bind₂_ok.mp taken
  cases taken
  have shape := require_ok.mp shape
  have bound := require_ok.mp bound
  simp only [and_eq_true, List.isEmpty_iff, beq_iff_eq] at shape bound
  exact .trades binance shape.1 checked (need_ok.mp head) (need_ok.mp tail)
    bound.1.1 bound.1.2 bound.2

theorem takePoints_ok (chainlink : state.source ≠ .binanceSpotTrade)
    (taken : state.takePoints codec frame snapshot = .ok after) :
    Takes codec state frame (.snapshot snapshot) after := by
  obtain ⟨_, pure, _, checked, _, bound, taken⟩ := bind₃_ok.mp taken
  cases taken
  exact .points chainlink (List.isEmpty_iff.mp (require_ok.mp pure)) checked
    (beq_iff_eq.mp (require_ok.mp bound))

theorem takeTrade_ok
    (taken : state.takeTrade codec frame value = .ok after) :
    Takes codec state frame (.trade value) after := by
  obtain ⟨_, ready, trade, present, _, valid, taken⟩ := bind₃_ok.mp taken
  obtain ⟨previous, before, _, bound, taken⟩ := bind₂_ok.mp taken
  cases taken
  have ready := require_ok.mp ready
  have bound := require_ok.mp bound
  simp only [and_eq_true, decide_eq_true_iff, beq_iff_eq] at ready bound
  rw [need_ok.mp present]
  exact .trade ready.1 ready.2 valid (need_ok.mp before) bound.1.1 bound.1.2 bound.2

variable {values : List Observation}

theorem takeObservations_ok (taken : state.takeObservations codec frame values = .ok after) :
    Takes codec state frame (.observations values) after := by
  obtain ⟨_, ready, _, checked, taken⟩ := bind₂_ok.mp taken
  obtain ⟨last, tail, _, bound, taken⟩ := bind₂_ok.mp taken
  cases taken
  have ready := require_ok.mp ready
  have bound := require_ok.mp bound
  simp only [and_eq_true, decide_eq_true_iff] at ready
  rw [and_eq_true, beq_iff_eq] at bound
  exact .observations ready.1 ready.2 checked (need_ok.mp tail) bound.1 bound.2

variable {status : Status}

theorem takeStatus_ok (taken : state.takeStatus status = .ok after) :
    Takes codec state frame (.status status) after := by
  obtain ⟨phase, known, _, specified, taken⟩ := bind₂_ok.mp taken
  cases taken
  exact .status (need_ok.mp known) (bne_iff_ne.mp (require_ok.mp specified))

/-- What is taken from a payload follows the rules. -/
theorem takes_of_takePayload (taken : state.takePayload codec frame payload = .ok after) :
    Takes codec state frame payload after := by
  cases payload with
  | snapshot snapshot =>
    by_cases binance : state.source = .binanceSpotTrade
    · simp only [takePayload, binance, if_true] at taken
      exact takeTrades_ok binance taken
    · simp only [takePayload, binance, if_false] at taken
      exact takePoints_ok binance taken
  | trade trade => exact takeTrade_ok taken
  | observations values => exact takeObservations_ok taken
  | status status => exact takeStatus_ok taken
  | error error => cases taken

/-- What the rules allow is taken. -/
theorem Takes.takePayload (takes : Takes codec state frame payload after) :
    state.takePayload codec frame payload = .ok after := by
  cases takes with
  | trades binance pure checked head tail firstBound lastBound bound =>
    rename_i snapshot first last
    have filled : snapshot.trades ≠ [] := by
      intro empty
      rw [empty] at head
      cases head
    simp [PriceState.takePayload, takeTrades, binance, pure, checked, head, tail, firstBound,
      lastBound, bound, filled, require, need, bind, Except.bind]
  | points chainlink pure checked bound =>
    simp [PriceState.takePayload, takePoints, chainlink, pure, checked, bound, require, bind,
      Except.bind]
  | trade binance available valid before next later bound =>
    simp [PriceState.takePayload, takeTrade, binance, available, valid, before, next, later,
      bound, require, need, bind, Except.bind]
  | observations chainlink available checked tail later bound =>
    simp only [PriceState.takePayload, takeObservations, chainlink, available, checked, tail,
      later, bound, require, need, bind, Except.bind, ne_eq, not_false_eq_true, decide_true,
      Bool.and_self, if_true, beq_self_eq_true]
  | status known specified =>
    simp [PriceState.takePayload, takeStatus, known, specified, require, need, bind, Except.bind]

/-- A frame is applied when its identity, its succession and its generation are
right and its payload is taken. -/
structure Applies (codec : Codec) (state : PriceState) (frame : PriceFrame)
    (after : PriceState) : Prop where
  identity : state.checkIdentity frame = .ok ()
  fresh : state.isQueued frame = false
  succession : state.checkSuccession frame = .ok ()
  taken : ∃ payload taken, frame.payload = some payload ∧
    state.checkGeneration frame payload = .ok () ∧ Takes codec state frame payload taken ∧
      after = taken.keepEnvelope frame

theorem apply_eq_applied_iff :
    state.apply codec frame = .ok (true, after) ↔ Applies codec state frame after := by
  constructor
  · intro applied
    obtain ⟨_, identity, applied⟩ := bind_ok.mp applied
    split at applied
    · cases applied
    · rename_i fresh
      cases ran : state.applyFrame codec frame with
      | error cause =>
        rw [ran] at applied
        cases applied
      | ok result =>
        rw [ran] at applied
        cases applied
        obtain ⟨_, succession, payload, present, ran⟩ := bind₂_ok.mp ran
        obtain ⟨_, generation, taken, takes, ran⟩ := bind₂_ok.mp ran
        cases ran
        exact ⟨identity, Bool.eq_false_iff.mpr fresh, succession, payload, taken,
          need_ok.mp present, generation, takes_of_takePayload takes, rfl⟩
  · rintro ⟨identity, fresh, succession, payload, taken, present, generation, takes, rfl⟩
    have ran : state.applyFrame codec frame = .ok (taken.keepEnvelope frame) := by
      unfold applyFrame
      rw [succession, present]
      change (state.checkGeneration frame payload >>= fun _ => _) = _
      rw [generation]
      change (state.takePayload codec frame payload >>= fun _ => _) = _
      rw [takes.takePayload]
      rfl
    unfold apply
    rw [identity, fresh, ran]
    rfl

theorem apply_eq_skipped_iff :
    state.apply codec frame = .ok (false, after) ↔
      state.checkIdentity frame = .ok () ∧ state.isQueued frame = true ∧ after = state := by
  constructor
  · intro applied
    obtain ⟨_, identity, applied⟩ := bind_ok.mp applied
    split at applied
    · rename_i queued
      cases applied
      exact ⟨identity, queued, rfl⟩
    · cases ran : state.applyFrame codec frame with
      | error cause | ok result =>
        rw [ran] at applied
        cases applied
  · rintro ⟨identity, queued, rfl⟩
    unfold apply
    rw [identity, queued]
    rfl

/-! ## States that a subscription reaches -/

theorem getLast_checkTrades
    (checked : checkTrades codec previous trades = .ok ()) (tail : trades.getLast? = some last) :
    validateTrade codec last = .ok () := by
  induction trades generalizing previous with
  | nil => cases tail
  | cons trade trades ih =>
    obtain ⟨_, valid, _, _, checked⟩ := bind₂_ok.mp checked
    cases trades with
    | nil =>
      cases tail
      exact valid
    | cons next trades =>
      rw [List.getLast?_cons_cons] at tail
      exact ih checked tail

theorem getLast_checkPoints
    {points : List Observation} {snapshot : Bool} {first last : Observation} {index : Nat}
    {previous : Option Int}
    (checked : checkPoints codec snapshot first index previous points = .ok ())
    (tail : points.getLast? = some last) :
    validateObservation codec last = .ok () := by
  induction points generalizing index previous with
  | nil => cases tail
  | cons point points ih =>
    obtain ⟨_, valid, checked⟩ := bind_ok.mp checked
    iterate 2 obtain ⟨_, _, checked⟩ := bind_ok.mp checked
    cases points with
    | nil =>
      cases tail
      exact valid
    | cons next points =>
      rw [List.getLast?_cons_cons] at tail
      exact ih checked tail

/-- The last of accepted observations is there and is valid. -/
theorem getLast_observations
    {snapshot : Bool} (checked : state.observations codec values snapshot = .ok ()) :
    ∃ last, values.getLast? = some last ∧ validateObservation codec last = .ok () := by
  cases values with
  | nil => cases checked
  | cons first points =>
    have tail := List.getLast?_eq_some_getLast (List.cons_ne_nil first points)
    exact ⟨_, tail, getLast_checkPoints checked tail⟩

/-- A state holds a tail of its own source, and a valid one while it is
available. -/
structure Sound (codec : Codec) (state : PriceState) : Prop where
  named : state.source ≠ .unspecified
  instrument : state.instrument = instrumentOf state.source
  noPoint : state.source = .binanceSpotTrade → state.latestObservation = none
  noTrade : state.source ≠ .binanceSpotTrade → state.latestTrade = none
  trade : state.source = .binanceSpotTrade → state.available = true →
    ∃ trade, state.latestTrade = some trade ∧ validateTrade codec trade = .ok ()
  point : state.source ≠ .binanceSpotTrade → state.available = true →
    ∃ point, state.latestObservation = some point ∧ validateObservation codec point = .ok ()

theorem sound_of_new {source : Source} (created : new source = .ok state) :
    Sound codec state := by
  obtain ⟨_, named, created⟩ := bind_ok.mp created
  cases created
  exact
    { named := bne_iff_ne.mp (require_ok.mp named)
      instrument := rfl
      noPoint := fun _ => rfl
      noTrade := fun _ => rfl
      trade := by rintro _ ⟨⟩
      point := by rintro _ ⟨⟩ }

/-- A state that is not available needs no valid tail. -/
theorem Sound.of_lost (sound : Sound codec state) (source : after.source = state.source)
    (instrument : after.instrument = state.instrument)
    (trade : after.latestTrade = state.latestTrade)
    (point : after.latestObservation = state.latestObservation) (lost : after.available = false) :
    Sound codec after where
  named := by
    rw [source]
    exact sound.named
  instrument := by
    rw [instrument, source]
    exact sound.instrument
  noPoint := by
    rw [source, point]
    exact sound.noPoint
  noTrade := by
    rw [source, trade]
    exact sound.noTrade
  trade := by
    intro _ available
    rw [lost] at available
    cases available
  point := by
    intro _ available
    rw [lost] at available
    cases available

theorem Sound.of_takes (sound : Sound codec state) (takes : Takes codec state frame payload after) :
    Sound codec after := by
  cases takes with
  | trades binance pure checked head tail firstBound lastBound bound =>
    exact
      { sound with
        noTrade := fun other => absurd binance other
        trade := fun _ _ => ⟨_, rfl, getLast_checkTrades checked tail⟩
        point := fun other => absurd binance other }
  | points chainlink pure checked bound =>
    exact
      { sound with
        noPoint := fun binance => absurd binance chainlink
        trade := fun binance => absurd binance chainlink
        point := fun _ _ => getLast_observations checked }
  | trade binance available valid before next later bound =>
    exact
      { sound with
        noTrade := fun other => absurd binance other
        trade := fun _ _ => ⟨_, rfl, valid⟩
        point := fun other => absurd binance other }
  | observations chainlink available checked tail later bound =>
    obtain ⟨last, found, valid⟩ := getLast_observations checked
    rw [tail] at found
    cases found
    exact
      { sound with
        noPoint := fun binance => absurd binance chainlink
        trade := fun binance => absurd binance chainlink
        point := fun _ _ => ⟨_, rfl, valid⟩ }
  | status known specified =>
    exact
      { sound with
        trade := fun binance available =>
          sound.trade binance (Bool.and_eq_true_iff.mp available).1
        point := fun chainlink available =>
          sound.point chainlink (Bool.and_eq_true_iff.mp available).1 }

theorem Sound.keepEnvelope (sound : Sound codec state) (frame : PriceFrame) :
    Sound codec (state.keepEnvelope frame) :=
  { sound with }

variable {applied : Bool}

theorem Sound.apply
    (sound : Sound codec state) (ran : state.apply codec frame = .ok (applied, after)) :
    Sound codec after := by
  cases applied with
  | false =>
    obtain ⟨_, _, rfl⟩ := apply_eq_skipped_iff.mp ran
    exact sound
  | true =>
    obtain ⟨payload, taken, _, _, takes, rfl⟩ := (apply_eq_applied_iff.mp ran).taken
    exact (sound.of_takes takes).keepEnvelope frame

theorem Sound.step {event : PriceEvent}
    (sound : Sound codec state) (taken : PriceState.step codec state event after) :
    Sound codec after := by
  cases event with
  | connected =>
    rw [show after = state.resetTransport from taken]
    exact sound.of_lost rfl rfl rfl rfl rfl
  | lost =>
    rw [show after = { state with available := false } from taken]
    exact sound.of_lost rfl rfl rfl rfl rfl
  | received frame =>
    obtain ⟨applied, ran⟩ := taken
    exact sound.apply ran

/-! ## States with the same tail -/

/-- Two states that differ at most in the serial they started from. -/
def SameTail (owner joined : PriceState) : Prop :=
  { joined with initialSequence := owner.initialSequence } = owner

/-- The frames of a list one after the other: which of them were applied, and
the state after them. -/
def applyAll (codec : Codec) :
    PriceState → List PriceFrame → Except PriceError (List Bool × PriceState)
  | state, [] => .ok ([], state)
  | state, frame :: frames => do
    let (applied, next) ← state.apply codec frame
    let (flags, last) ← applyAll codec next frames
    .ok (applied :: flags, last)

/-- Every later frame that the owner accepts is accepted by the other state,
with the same effect. -/
def FollowedBy (codec : Codec) (owner joined : PriceState) : Prop :=
  ∀ frames flags last, owner.applyAll codec frames = .ok (flags, last) →
    ∃ other, joined.applyAll codec frames = .ok (flags, other) ∧ SameTail last other

/-- A state that started from a later serial of the same stream. -/
structure StartedLater (owner joined : PriceState) : Prop where
  serials : ∃ first joinedAt last, owner.initialSequence = some first ∧
    owner.sequence = some last ∧ first ≤ joinedAt ∧ joinedAt ≤ last ∧
      joined = { owner with initialSequence := some joinedAt }

theorem StartedLater.sameTail (later : StartedLater owner joined) : SameTail owner joined := by
  obtain ⟨_, _, _, _, _, _, _, rfl⟩ := later.serials
  rfl

/-- The rules do not look at the serial a state started from. -/
theorem Takes.startedAt (serial : Option Nat) (takes : Takes codec state frame payload after) :
    Takes codec { state with initialSequence := serial } frame payload
      { after with initialSequence := serial } := by
  cases takes with
  | trades binance pure checked head tail firstBound lastBound bound =>
    exact .trades binance pure checked head tail firstBound lastBound bound
  | points chainlink pure checked bound => exact .points chainlink pure checked bound
  | trade binance available valid before next later bound =>
    exact .trade binance available valid before next later bound
  | observations chainlink available checked tail later bound =>
    exact .observations chainlink available checked tail later bound
  | status known specified => exact .status known specified

theorem Takes.initialSequence_eq (takes : Takes codec state frame payload after) :
    after.initialSequence = state.initialSequence := by
  cases takes <;> rfl

variable {first : Nat}

theorem isQueued_eq_false_iff (started : state.initialSequence = some first) :
    state.isQueued frame = false ↔ first < frame.streamSequence := by
  unfold isQueued
  rw [started, any_some, decide_eq_false_iff_not, not_le]

theorem isQueued_eq_true_iff (started : state.initialSequence = some first) :
    state.isQueued frame = true ↔ frame.streamSequence ≤ first := by
  unfold isQueued
  rw [started, any_some, decide_eq_true_iff]

theorem sequence_of_checkSuccession
    (held : state.sequence = some last) (checked : state.checkSuccession frame = .ok ()) :
    frame.streamSequence = last + 1 := by
  unfold checkSuccession at checked
  rw [held] at checked
  obtain ⟨_, next, _⟩ := bind_ok.mp checked
  exact eq_succ_of_checkedSucc (beq_iff_eq.mp (require_ok.mp next))

theorem StartedLater.apply
    (later : StartedLater owner joined) (ran : owner.apply codec frame = .ok (applied, after)) :
    ∃ other, joined.apply codec frame = .ok (applied, other) ∧ StartedLater after other := by
  obtain ⟨first, joinedAt, last, started, held, low, high, rfl⟩ := later.serials
  cases applied with
  | false =>
    obtain ⟨identity, queued, rfl⟩ := apply_eq_skipped_iff.mp ran
    have early := (isQueued_eq_true_iff started).mp queued
    refine ⟨_, apply_eq_skipped_iff.mpr ⟨identity, ?_, rfl⟩, later⟩
    exact (isQueued_eq_true_iff rfl).mpr (le_trans early low)
  | true =>
    have applies := apply_eq_applied_iff.mp ran
    obtain ⟨payload, taken, present, generation, takes, rfl⟩ := applies.taken
    have next := sequence_of_checkSuccession held applies.succession
    have fresh : joinedAt < frame.streamSequence := by omega
    have other := takes.startedAt (some joinedAt)
    refine ⟨_, apply_eq_applied_iff.mpr
      ⟨applies.identity, (isQueued_eq_false_iff rfl).mpr fresh, applies.succession, payload, _,
        present, generation, other, rfl⟩, ⟨first, joinedAt, frame.streamSequence, ?_, rfl, low,
          le_of_lt fresh, rfl⟩⟩
    change some (taken.initialSequence.getD frame.streamSequence) = some first
    rw [takes.initialSequence_eq, started]
    rfl

theorem StartedLater.followedBy (later : StartedLater owner joined) :
    FollowedBy codec owner joined := by
  intro frames
  induction frames generalizing owner joined with
  | nil =>
    intro flags last ran
    cases ran
    exact ⟨joined, rfl, later.sameTail⟩
  | cons frame frames ih =>
    intro flags last ran
    obtain ⟨⟨applied, next⟩, first, ⟨others, ending⟩, rest, ran⟩ := bind₂_ok.mp ran
    cases ran
    obtain ⟨other, accepted, stillLater⟩ := later.apply first
    obtain ⟨finish, followed, same⟩ := ih stillLater others _ rest
    refine ⟨finish, ?_, same⟩
    unfold applyAll
    rw [accepted]
    change (other.applyAll codec frames >>= fun _ => _) = _
    rw [followed]
    rfl

/-! ## Joining -/

/-- The source sequence of the trade or the observation that a state ends with. -/
def tailSequence (state : PriceState) : Option Nat :=
  if state.source = .binanceSpotTrade then state.latestTrade.map Trade.tradeId
  else state.latestObservation.bind Observation.sourceSequence

/-- A status that leaves the state available carries the source sequence of the
tail, and one that does not finds no tail. All other frames fit. -/
def seedFits (state : PriceState) (frame : PriceFrame) : Bool :=
  match frame.payload with
  | some (.status status) =>
    if state.available && Phase.ofNumber? status.phase == some .live then
      frame.sourceSequence == state.tailSequence
    else state.latestTrade.isNone && state.latestObservation.isNone
  | _ => true

/-- A new state of the same source accepts the seed, then shows what the owner
shows, and follows it from there. -/
def SeedJoins (codec : Codec) (owner : PriceState) (seed : PriceFrame) : Prop :=
  ∃ fresh joined, new owner.source = .ok fresh ∧ fresh.apply codec seed = .ok (true, joined) ∧
    joined.available = owner.available ∧ joined.latestTrade = owner.latestTrade ∧
    joined.latestObservation = owner.latestObservation ∧ joined.sequence = owner.sequence ∧
    FollowedBy codec owner joined

/-- A payload other than a status leaves a tail that its envelope is bound to. -/
theorem Takes.bound
    (takes : Takes codec state frame payload after) (data : ∀ status, payload ≠ .status status) :
    after.available = true ∧ frame.sourceSequence = after.tailSequence := by
  cases takes with
  | trades binance pure checked head tail firstBound lastBound bound =>
    refine ⟨rfl, ?_⟩
    rw [bound, tailSequence, if_pos binance]
    rfl
  | points chainlink pure checked bound =>
    refine ⟨rfl, ?_⟩
    rw [bound, tailSequence, if_neg chainlink]
  | trade binance available valid before next later bound =>
    refine ⟨available, ?_⟩
    rw [bound, tailSequence, if_pos binance]
    rfl
  | observations chainlink available checked tail later bound =>
    refine ⟨available, ?_⟩
    rw [bound, tailSequence, if_neg chainlink]
    rfl
  | status known specified => exact absurd rfl (data _)

theorem Takes.source_eq (takes : Takes codec state frame payload after) :
    after.source = state.source := by
  cases takes <;> rfl

theorem Sound.new_eq (sound : Sound codec state) : new state.source = .ok (initial state.source) := by
  unfold new
  rw [bne_iff_ne.mpr sound.named]
  rfl

/-- A new state knows the frames of its stream as every state of it does. -/
theorem Sound.checkIdentity_initial
    (sound : Sound codec state) (frame : PriceFrame) (payload : Option Payload) :
    (initial state.source).checkIdentity { frame with payload } = state.checkIdentity frame := by
  unfold checkIdentity
  rw [sound.instrument]
  rfl

/-- One trade alone is a snapshot of trades. -/
theorem checkTrades_singleton (valid : validateTrade codec trade = .ok ()) :
    checkTrades codec none [trade] = .ok () := by
  unfold checkTrades
  rw [valid]
  rfl

/-- One observation alone is a snapshot of observations. -/
theorem observations_singleton
    (valid : validateObservation codec point = .ok ()) :
    state.observations codec [point] true = .ok () := by
  unfold observations checkPoints
  simp only [if_true]
  rw [valid]
  rfl

/-- A new state takes the tail of an available state, when the envelope is
bound to it. -/
theorem Sound.takes_seed (sound : Sound codec state) (available : state.available = true)
    (bound : frame.sourceSequence = state.tailSequence) :
    ∃ payload, (seedFrame state frame).payload = some payload ∧
      (∀ generation : PriceState, generation.checkGeneration (seedFrame state frame) payload =
        .ok ()) ∧
      Takes codec (initial state.source) (seedFrame state frame) payload
        { initial state.source with
          latestTrade := state.latestTrade
          latestObservation := state.latestObservation
          available := true } := by
  unfold seedFrame
  rw [if_pos available]
  refine ⟨_, rfl, fun _ => rfl, ?_⟩
  by_cases binance : state.source = .binanceSpotTrade
  · obtain ⟨trade, present, valid⟩ := sound.trade binance available
    rw [tailSequence, if_pos binance, present] at bound
    rw [present, sound.noPoint binance]
    have head : [trade].head? = some trade := rfl
    have tail : [trade].getLast? = some trade := rfl
    exact .trades binance rfl (checkTrades_singleton valid) head tail rfl rfl bound
  · obtain ⟨point, present, valid⟩ := sound.point binance available
    rw [tailSequence, if_neg binance, present] at bound
    rw [present, sound.noTrade binance]
    exact .points binance rfl (observations_singleton valid) bound

theorem seedFrame_eq (state : PriceState) (frame : PriceFrame) :
    seedFrame state frame = { frame with payload := (seedFrame state frame).payload } := by
  unfold seedFrame
  split <;> rfl

section

variable (applies : Applies codec owner frame after)
include applies

/-- After an applied frame the state holds its envelope. -/
theorem Applies.envelope :
    after.sequence = some frame.streamSequence ∧
      after.producer = some frame.producerInstanceId ∧ after.streamId = some frame.streamId ∧
      after.signedAgeMs = frame.latestSourceAgeMsAtEmit := by
  obtain ⟨payload, taken, _, _, _, rfl⟩ := applies.taken
  exact ⟨rfl, rfl, rfl, rfl⟩

/-- A state started before the last frame it applied. -/
theorem Applies.started :
    ∃ first, after.initialSequence = some first ∧ first ≤ frame.streamSequence := by
  obtain ⟨payload, taken, _, _, takes, rfl⟩ := applies.taken
  refine ⟨taken.initialSequence.getD frame.streamSequence, rfl, ?_⟩
  rw [takes.initialSequence_eq]
  cases started : owner.initialSequence with
  | none => exact le_refl _
  | some first => exact le_of_lt ((isQueued_eq_false_iff started).mp applies.fresh)

/-- A state accepts frames for the stream of the state after them. -/
theorem Applies.identity_after :
    after.checkIdentity frame = .ok () := by
  obtain ⟨payload, taken, _, _, takes, rfl⟩ := applies.taken
  have source := takes.source_eq
  have instrument : taken.instrument = owner.instrument := by
    cases takes <;> rfl
  have same : (taken.keepEnvelope frame).checkIdentity frame = owner.checkIdentity frame := by
    unfold checkIdentity
    change require (_ && decide (frame.source = taken.source.number) &&
      frame.instrumentId == taken.instrument && _ && _) _ = _
    rw [source, instrument]
  rw [same]
  exact applies.identity

/-- A new state that takes the tail of the owner from the seed joins it. -/
theorem Applies.seedJoins
    (sound : Sound codec after)
    (carried : (seedFrame after frame).payload = some seed)
    (generation : (initial after.source).checkGeneration (seedFrame after frame) seed = .ok ())
    (takes : Takes codec (initial after.source) (seedFrame after frame) seed
      { initial after.source with
        latestTrade := after.latestTrade
        latestObservation := after.latestObservation
        available := after.available }) :
    SeedJoins codec after (seedFrame after frame) := by
  have envelope := applies.envelope
  obtain ⟨first, started, low⟩ := applies.started
  let joined : PriceState := { after with initialSequence := some frame.streamSequence }
  have identity : (initial after.source).checkIdentity (seedFrame after frame) = .ok () := by
    rw [seedFrame_eq, sound.checkIdentity_initial]
    exact applies.identity_after
  have joins : Applies codec (initial after.source) (seedFrame after frame) joined := by
    refine ⟨identity, rfl, rfl, seed, _, carried, generation, takes, ?_⟩
    rw [seedFrame_eq]
    apply PriceState.ext
    · rfl
    · exact sound.instrument
    · exact envelope.2.2.1
    · exact envelope.1
    · rfl
    · rfl
    · rfl
    · exact envelope.2.2.2
    · rfl
    · exact envelope.2.1
  have later : StartedLater after joined :=
    ⟨first, frame.streamSequence, frame.streamSequence, started, envelope.1, low, le_refl _, rfl⟩
  exact ⟨_, joined, sound.new_eq, apply_eq_applied_iff.mpr joins, rfl, rfl, rfl, rfl,
    later.followedBy⟩

end

/-- A status keeps the tail. -/
theorem Takes.of_status (takes : Takes codec state frame (.status status) after) :
    ∃ phase, Phase.ofNumber? status.phase = some phase ∧ phase ≠ .unspecified ∧
      after = { state with available := state.available && phase == .live } := by
  cases takes with
  | status known specified => exact ⟨_, known, specified, rfl⟩

section

variable (applies : Applies codec owner frame after) (sound : Sound codec after)
include applies sound

/-- A payload that is not a status leaves the state available. -/
theorem Applies.seedJoins_of_data
    (data : ∀ status, frame.payload ≠ some (.status status)) :
    SeedJoins codec after (seedFrame after frame) := by
  obtain ⟨payload, taken, present, _, takes, same⟩ := applies.taken
  have bound := takes.bound fun status equal => data status (present.trans (congrArg some equal))
  have available : after.available = true := by
    rw [same]
    exact bound.1
  have tail : frame.sourceSequence = after.tailSequence := by
    rw [same]
    exact bound.2
  obtain ⟨seed, carried, generation, seedTakes⟩ := sound.takes_seed available tail
  rw [← available] at seedTakes
  exact applies.seedJoins sound carried (generation _) seedTakes

/-- After a status, the seed is joined exactly when the status fits. -/
theorem Applies.seedJoins_iff_of_status
    (present : frame.payload = some (.status status)) :
    SeedJoins codec after (seedFrame after frame) ↔ owner.seedFits frame = true := by
  obtain ⟨payload, taken, carried, _, takes, same⟩ := applies.taken
  rw [present] at carried
  cases carried
  obtain ⟨phase, known, specified, rfl⟩ := takes.of_status
  have source : after.source = owner.source := by rw [same]; rfl
  have trade : after.latestTrade = owner.latestTrade := by rw [same]; rfl
  have point : after.latestObservation = owner.latestObservation := by rw [same]; rfl
  have shown : after.available = (owner.available && phase == .live) := by rw [same]; rfl
  have tail : after.tailSequence = owner.tailSequence := by
    unfold tailSequence
    rw [source, trade, point]
  have phases : (some phase == some Phase.live) = (phase == .live) := rfl
  unfold seedFits
  rw [present]
  simp only [known, phases]
  rw [← shown]
  cases available : after.available with
  | true =>
    rw [if_pos rfl, beq_iff_eq, ← tail]
    constructor
    · rintro ⟨fresh, joined, created, accepted, _, sameTrade, samePoint, _⟩
      -- The new state takes the seed as a snapshot, which is bound to its tail.
      obtain ⟨seed, other, carried, _, seedTakes, rfl⟩ := (apply_eq_applied_iff.mp accepted).taken
      rw [sound.new_eq] at created
      cases created
      rw [seedFrame, if_pos available] at carried
      cases carried
      have bound := (seedTakes.bound (by rintro _ ⟨⟩)).2
      have sameSource : other.source = after.source := seedTakes.source_eq
      have sameTail : other.tailSequence = after.tailSequence := by
        unfold tailSequence
        rw [sameSource]
        exact congrArg₂ (fun trade point => if after.source = .binanceSpotTrade then
          Option.map Trade.tradeId trade else Option.bind point Observation.sourceSequence)
          sameTrade samePoint
      rw [← sameTail, ← bound, seedFrame_eq]
    · intro bound
      obtain ⟨seed, carried, generation, seedTakes⟩ := sound.takes_seed available bound
      rw [← available] at seedTakes
      exact applies.seedJoins sound carried (generation _) seedTakes
  | false =>
    rw [if_neg Bool.false_ne_true, and_eq_true, isNone_iff_eq_none,
      isNone_iff_eq_none, ← trade, ← point]
    have plain : seedFrame after frame = frame := by
      rw [seedFrame, if_neg]
      rw [available]
      exact Bool.false_ne_true
    constructor
    · rintro ⟨fresh, joined, created, accepted, _, sameTrade, samePoint, _⟩
      rw [plain] at accepted
      obtain ⟨seed, other, carried, _, seedTakes, rfl⟩ := (apply_eq_applied_iff.mp accepted).taken
      rw [present] at carried
      cases carried
      obtain ⟨_, _, _, rfl⟩ := seedTakes.of_status
      rw [sound.new_eq] at created
      cases created
      exact ⟨sameTrade.symm, samePoint.symm⟩
    · rintro ⟨noTrade, noPoint⟩
      have carried : (seedFrame after frame).payload = some (.status status) := by
        rw [plain]
        exact present
      refine applies.seedJoins sound carried rfl ?_
      rw [plain, noTrade, noPoint, available]
      exact .status known specified

end

end PriceState

/-- The seed of every frame that a subscription applies is a starting point
exactly when the frame fits the tail it leaves. -/
theorem seedJoins_iff_seedFits
    {codec : Codec} {source : Source} {start owner after : PriceState} {events : List PriceEvent}
    {frame : PriceFrame} (created : PriceState.new source = .ok start)
    (run : Run (PriceState.step codec) start events owner)
    (accepted : owner.apply codec frame = .ok (true, after)) :
    PriceState.SeedJoins codec after (seedFrame after frame) ↔ owner.seedFits frame = true := by
  have sound : PriceState.Sound codec owner :=
    run.preserves (fun _ _ _ sound taken => PriceState.Sound.step sound taken)
      (PriceState.sound_of_new created)
  have applies := PriceState.apply_eq_applied_iff.mp accepted
  have soundAfter := sound.apply accepted
  cases present : frame.payload with
  | none =>
    obtain ⟨payload, _, carried, _⟩ := applies.taken
    rw [present] at carried
    cases carried
  | some payload =>
    cases payload with
    | status status => exact applies.seedJoins_iff_of_status soundAfter present
    | snapshot | trade | observations | error =>
      have fits : owner.seedFits frame = true := by
        unfold PriceState.seedFits
        rw [present]
      refine iff_of_true (applies.seedJoins_of_data soundAfter ?_) fits
      intro status equal
      rw [present] at equal
      cases equal

/-! ## A live status between two trades -/

/-- The decimals of the sample. -/
def samplePrices : Codec where
  parse := fun text => if text = "1" then some 1 else none
  parseExact := fun text => if text = "1" then some 1 else none
  text := fun _ => "1"
  rfc3339 := fun _ => none

def sampleTrade : Trade where
  tradeId := 7
  tradeTimeMs := 1000
  eventTimeMs := none
  price := "1"
  quantity := "1"
  buyerIsMaker := some false
  receivedAtNs := none
  evidence := none

def sampleFrame
    (streamSequence : Nat) (sourceSequence : Option Nat) (payload : Payload) : PriceFrame where
  schemaVersion := priceSchema
  producerInstanceId := "producer"
  streamId := "generation"
  streamSequence
  source := 1
  instrumentId := "BTCUSDT.BINANCE"
  sourceSequence
  publishedAtNs := 0
  latestSourceAgeMsAtEmit := none
  payload := some payload

def sampleSnapshotFrame : PriceFrame :=
  sampleFrame 1 (some 7) (.snapshot
    { trades := [sampleTrade]
      observations := []
      truncated := false
      retainedCount := 1
      firstTradeId := some 7
      lastTradeId := some 7 })

/-- A status with a source sequence of its own. -/
def sampleStatusFrame (sourceSequence : Option Nat) : PriceFrame :=
  sampleFrame 2 sourceSequence (.status { phase := 4, reason := none })

/-- The state of a subscription after a publication. -/
def samplePriceState (sequence : Nat) : PriceState where
  source := .binanceSpotTrade
  instrument := "BTCUSDT.BINANCE"
  streamId := some "generation"
  sequence := some sequence
  available := true
  latestTrade := some sampleTrade
  latestObservation := none
  signedAgeMs := none
  initialSequence := some 1
  producer := some "producer"

theorem samplePriceState_reached :
    Run (PriceState.step samplePrices) (PriceState.initial .binanceSpotTrade)
      [.connected, .received sampleSnapshotFrame] (samplePriceState 1) := by
  have connected : Run (PriceState.step samplePrices) (PriceState.initial .binanceSpotTrade)
      [.connected] (PriceState.initial .binanceSpotTrade) := Run.single rfl
  refine connected.snoc ⟨true, ?_⟩
  decide +kernel

theorem sampleStatus_applied (sourceSequence : Option Nat) :
    (samplePriceState 1).apply samplePrices (sampleStatusFrame sourceSequence) =
      .ok (true, samplePriceState 2) := rfl

theorem seedJoins_iff_seedFits_sample :
    PriceState.SeedJoins samplePrices (samplePriceState 2)
      (seedFrame (samplePriceState 2) (sampleStatusFrame (some 7))) ↔
        (samplePriceState 1).seedFits (sampleStatusFrame (some 7)) = true := by
  have created : PriceState.new .binanceSpotTrade = .ok (PriceState.initial .binanceSpotTrade) :=
    rfl
  exact seedJoins_iff_seedFits created samplePriceState_reached (sampleStatus_applied (some 7))

/-- A live status without a source sequence is applied, and a new state refuses
the seed that is made of it. -/
theorem seed_refused_after_status :
    ∃ owner after,
      Run (PriceState.step samplePrices) (PriceState.initial .binanceSpotTrade)
        [.connected, .received sampleSnapshotFrame] owner ∧
      owner.apply samplePrices (sampleStatusFrame none) = .ok (true, after) ∧
      ¬PriceState.SeedJoins samplePrices after (seedFrame after (sampleStatusFrame none)) := by
  refine ⟨samplePriceState 1, samplePriceState 2, samplePriceState_reached,
    sampleStatus_applied none, ?_⟩
  rintro ⟨fresh, joined, created, accepted, _⟩
  have new : PriceState.new .binanceSpotTrade = .ok (PriceState.initial .binanceSpotTrade) := rfl
  cases new.symm.trans created
  have refused : (PriceState.initial .binanceSpotTrade).apply samplePrices
      (seedFrame (samplePriceState 2) (sampleStatusFrame none)) =
        .error (.protocol "snapshot tail binding") := by
    decide +kernel
  cases refused.symm.trans accepted

end MarketCow.Sdk
