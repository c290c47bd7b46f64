import MarketCow.BtcLive.Joins

/-!
# What the subscribers receive

A subscriber that does not lag has every publication since its subscription.
So the serials of its frames follow one another, and the trades of a stream
that it has are an end of what the owner committed to that stream.
-/

namespace MarketCow.BtcLive

open Library List
open Sdk (Trade PriceFrame Payload)

variable {setting : Setting}

/-! ## The frames of a stream -/

/-- The trades in a frame. -/
def carried (frame : PriceFrame) : List Trade :=
  match frame.payload with
  | some (.snapshot snapshot) => snapshot.trades
  | some (.trade (some point)) => [point]
  | _ => []

/-- A frame of a stream that has trades. -/
def carries (stream : String) (frame : PriceFrame) : Bool :=
  frame.streamId == stream && !(carried frame).isEmpty

/-- The frames of a stream that have trades. -/
def carriers (stream : String) (frames : List PriceFrame) : List PriceFrame :=
  frames.filter (carries stream)

/-- The trades that a stream has brought. -/
def tradesOf (stream : String) (frames : List PriceFrame) : List Trade :=
  (carriers stream frames).flatMap carried

theorem carriers_append (stream : String) (front back : List PriceFrame) :
    carriers stream (front ++ back) = carriers stream front ++ carriers stream back :=
  filter_append _ _

variable {stream : String} {frame : PriceFrame}

theorem carriers_append_of_not (frames : List PriceFrame) (other : carries stream frame = false) :
    carriers stream (frames ++ [frame]) = carriers stream frames := by
  rw [carriers_append, carriers, carriers, filter_singleton, other]
  exact append_nil _

theorem carriers_append_of (frames : List PriceFrame) (same : carries stream frame = true) :
    carriers stream (frames ++ [frame]) = carriers stream frames ++ [frame] := by
  rw [carriers_append, carriers, carriers, filter_singleton, same]
  rfl

theorem carries_eq_false_of_ne (other : frame.streamId ≠ stream) :
    carries stream frame = false := by
  unfold carries
  rw [beq_eq_false_iff_ne.mpr other, Bool.false_and]

theorem carries_eq_false_of_nil (stream : String) (nothing : carried frame = []) :
    carries stream frame = false := by
  unfold carries
  rw [nothing]
  exact Bool.and_false _

theorem carries_eq_true (same : frame.streamId = stream) (something : carried frame ≠ []) :
    carries stream frame = true := by
  unfold carries
  rw [beq_iff_eq.mpr same, Bool.true_and]
  simpa using something

/-- A frame with one trade more. -/
def IsDelta (frame : PriceFrame) : Prop :=
  ∃ point, frame.payload = some (.trade (some point))

/-- A snapshot and deltas after it bring an end of a run. -/
structure Segment (frames : List PriceFrame) (run : List Trade) : Prop where
  parts : ∃ head deltas snapshot, frames = head :: deltas ∧
    head.payload = some (.snapshot snapshot) ∧
      snapshot.firstTradeId = snapshot.trades.head?.map Trade.tradeId ∧
        snapshot.trades ≠ [] ∧ ∀ delta ∈ deltas, IsDelta delta
  ending : frames.flatMap carried <:+ run

theorem Segment.snoc
    {frames : List PriceFrame} {run : List Trade} {frame : PriceFrame} {point : Trade}
    (segment : Segment frames run) (delta : frame.payload = some (.trade (some point))) :
    Segment (frames ++ [frame]) (run ++ [point]) := by
  obtain ⟨head, deltas, snapshot, rfl, isSnapshot, first, some, isDelta⟩ := segment.parts
  constructor
  · refine ⟨head, deltas ++ [frame], snapshot, rfl, isSnapshot, first, some, ?_⟩
    intro other mem
    rcases mem_append.mp mem with old | new
    · exact isDelta other old
    · rw [mem_singleton.mp new]
      exact ⟨point, delta⟩
  · obtain ⟨front, whole⟩ := segment.ending
    have brought : carried frame = [point] := by
      unfold carried
      rw [delta]
    refine ⟨front, ?_⟩
    rw [flatMap_append, flatMap_singleton, brought, ← append_assoc, whole]

/-! ## What a publication is -/

/-- A publication of the owner: the frame it makes and what it changes. -/
inductive Publishes (setting : Setting) (system : System) :
    State → Option Payload → Prop
  | status (reason : String) :
      Publishes setting system (system.owner.invalidate reason) none
  | snapshot
      (trades : List Trade)
      (after : State)
      (younger : system.owner.typedGeneration < system.owner.epoch)
      (committed : SnapshotCommitted system.owner trades after)
      (something : trades ≠ []) :
      Publishes setting system after none
  | trade
      (point : Trade)
      (after : State)
      (committed : TradeCommitted system.owner point after) :
      Publishes setting system after (some (.trade (some point)))

/-- What the owner publishes with an action. -/
def Action.publication (owner : State) : Action → Option (State × Option Payload × Option Int)
  | .quiet _ => none
  | .invalidate reason now _ => some (owner.invalidate reason, none, now)
  | .commit after payload now _ => some (after, payload, now)

variable {system : System} {after : State} {payload : Option Payload} {now : Option Int}

theorem publishes_of_acts (sound : Sound system) (acts : Acts setting system label action)
    (publication : action.publication system.owner = some (after, payload, now)) :
    Publishes setting system after payload := by
  cases acts with
  | started now waits =>
    cases publication
    exact .status _
  | answered rows receivedAtNs trades restLast connects answer => cases publication
  | stopped label cause _ | unchanged label _ => cases publication
  | snapshot row receivedAtNs now trades restLast after joins overlap committed =>
    cases publication
    have waits := sound.fits
    rw [joins] at waits
    obtain ⟨unavailable, _, named⟩ := waits
    refine .snapshot trades after (sound.unavailable unavailable).2 committed ?_
    intro empty
    rw [empty] at named
    cases named
  | trade row receivedAtNs now lastId point after follows next committed =>
    cases publication
    exact .trade point after committed
  | settled reader now cause failed =>
    cases publication
    exact .status _

/-- The clock can be read where a label reads it. -/
def Label.clockReads : Label → Bool
  | .start now => now.isSome
  | .frame _ _ now => now.isSome
  | .settle _ now => now.isSome
  | _ => true

/-- What the owner needs around it for a step: a clock that can be read, a
serial below the greatest one, and an encoder that keeps within the budget. -/
structure Served (setting : Setting) (system : System) (label : Label) : Prop where
  clock : label.clockReads = true
  serial : system.owner.serial < maxSerial
  frame : ∀ action after payload now frame,
    act setting system label = some action →
      action.publication system.owner = some (after, payload, now) →
        after.typedFrame setting payload now = .ok frame →
          setting.encodedLen frame ≤ maxFrameBytes

/-- A publication reads the clock of its label. -/
theorem isSome_of_clockReads (acts : Acts setting system label action)
    (publication : action.publication system.owner = some (after, payload, now))
    (reads : label.clockReads = true) :
    now.isSome = true := by
  cases acts with
  | answered rows receivedAtNs trades restLast connects answer => cases publication
  | stopped label cause _ | unchanged label _ => cases publication
  | started now waits =>
    cases publication
    exact reads
  | snapshot row receivedAtNs now trades restLast after joins overlap committed =>
    cases publication
    exact reads
  | trade row receivedAtNs now lastId point after follows next committed =>
    cases publication
    exact reads
  | settled reader now cause failed =>
    cases publication
    exact reads

/-- A step that is served publishes what it has to publish. -/
theorem Served.published
    (served : Served setting system label) (acted : act setting system label = some action)
    (publication : action.publication system.owner = some (after, payload, now)) :
    ∃ frame, published setting after payload now = .ok frame := by
  have reads := isSome_of_clockReads (acts_of_act acted) publication served.clock
  obtain ⟨publishedAtNs, rfl⟩ := Option.isSome_iff_exists.mp reads
  have fits := served.frame action after payload (some publishedAtNs) _ acted publication rfl
  refine ⟨_, bind_ok.mpr ⟨_, rfl, ensure_bind_ok.mpr ⟨?_, rfl⟩⟩⟩
  exact decide_eq_true fits

/-! ## The frames of a subscriber -/

def Subscriber.frames (subscriber : Subscriber) : List PriceFrame :=
  subscriber.received ++ subscriber.pending

/-- The frames of a subscriber against the owner. -/
structure UpToDate (setting : Setting) (system : System) (frames : List PriceFrame) : Prop where
  sequences : frames.IsChain fun before after => after.streamSequence = before.streamSequence + 1
  last : frames.getLast?.map PriceFrame.streamSequence = some system.owner.serial
  segments : ∀ number, carriers (setting.uuid number) frames = [] ∨
    Segment (carriers (setting.uuid number) frames) (system.runs number)
  unborn : ∀ number, system.owner.typedGeneration < number →
    carriers (setting.uuid number) frames = []
  current : system.owner.phase = .live →
    carriers (setting.uuid system.owner.typedGeneration) frames ≠ []

/-- Every subscriber that does not lag is up to date. -/
def AllUpToDate (setting : Setting) (system : System) : Prop :=
  ∀ subscriber ∈ system.subscribers, subscriber.lagged = false →
    UpToDate setting system subscriber.frames

theorem Subscriber.frames_deliver
    {subscriber : Subscriber} (keepsUp : (subscriber.deliver frame).lagged = false) :
    subscriber.lagged = false ∧
      (subscriber.deliver frame).frames = subscriber.frames ++ [frame] := by
  unfold Subscriber.deliver at keepsUp ⊢
  split
  · next room =>
      rw [if_pos room] at keepsUp
      exact ⟨keepsUp, (append_assoc _ _ _).symm⟩
  · next full =>
      rw [if_neg full] at keepsUp
      cases keepsUp

theorem Subscriber.frames_receive
    {subscriber later : Subscriber} (took : subscriber.receive = some later) :
    later.lagged = subscriber.lagged ∧ later.frames = subscriber.frames := by
  unfold Subscriber.receive at took
  split at took
  · cases took
  · next frame pending isPending =>
      cases took
      refine ⟨rfl, ?_⟩
      unfold Subscriber.frames
      rw [isPending, append_assoc]
      rfl

/-- The serial of a change is the next one below the greatest value. -/
theorem Publishes.serial
    (publishes : Publishes setting system after payload) (below : system.owner.serial < maxSerial) :
    after.serial = system.owner.serial + 1 := by
  cases publishes with
  | status reason => exact Nat.min_eq_left below
  | snapshot trades after younger committed something =>
    rw [committed.serial]
    apply Nat.mod_eq_of_lt
    unfold maxSerial at below
    omega
  | trade point after committed => exact committed.serial

/-- The frames of a subscriber with one publication more. -/
theorem UpToDate.publish
    (upToDate : UpToDate setting system frames) (fresh : Function.Injective setting.uuid)
    (publishes : Publishes setting system after payload) (below : system.owner.serial < maxSerial)
    (sent : published setting after payload now = .ok frame) (owner : moved.owner = after)
    (runs : moved.runs = record system.runs after payload) :
    UpToDate setting moved (frames ++ [frame]) := by
  obtain ⟨stream, sequence, content⟩ := of_published sent
  have next := publishes.serial below
  have chained : (frames ++ [frame]).IsChain fun before after =>
      after.streamSequence = before.streamSequence + 1 := by
    apply isChain_append.mpr
    refine ⟨upToDate.sequences, List.IsChain.singleton frame, ?_⟩
    intro before isBefore first isFirst
    cases isFirst
    have last := upToDate.last
    rw [isBefore] at last
    rw [sequence, next, ← some.inj last]
  have ends : (frames ++ [frame]).getLast?.map PriceFrame.streamSequence =
      some moved.owner.serial := by
    rw [getLast?_concat, owner]
    exact congrArg some sequence
  cases publishes with
  | status reason =>
    have nothing : carried frame = [] := by
      unfold carried
      rw [content]
      rfl
    have same (number : Nat) : carriers (setting.uuid number) (frames ++ [frame]) =
        carriers (setting.uuid number) frames :=
      carriers_append_of_not frames (carries_eq_false_of_nil _ nothing)
    refine ⟨chained, ends, ?_, ?_, ?_⟩
    · intro number
      rw [same, runs]
      exact upToDate.segments number
    · intro number later
      rw [owner] at later
      rw [same]
      exact upToDate.unborn number later
    · rw [owner]
      intro never
      cases never
  | snapshot trades after younger committed something =>
    obtain ⟨snapshot, isSnapshot, newestTrades, first⟩ := State.payload_of_live committed.phase
    rw [Option.getD_none, isSnapshot] at content
    rw [committed.trades] at newestTrades
    have brought : carried frame = newest snapshotTrades trades := by
      unfold carried
      rw [content]
      exact newestTrades
    have some : newest snapshotTrades trades ≠ [] := newest_ne_nil something (by decide)
    have inStream : frame.streamId = setting.uuid system.owner.epoch := by
      rw [stream, committed.generation]
    have new : carriers (setting.uuid system.owner.epoch) (frames ++ [frame]) = [frame] := by
      rw [carriers_append_of frames (carries_eq_true inStream (by rw [brought]; exact some)),
        upToDate.unborn _ younger]
      rfl
    have same (number : Nat) (other : number ≠ system.owner.epoch) :
        carriers (setting.uuid number) (frames ++ [frame]) =
          carriers (setting.uuid number) frames := by
      apply carriers_append_of_not
      apply carries_eq_false_of_ne
      rw [inStream]
      exact fun equal => other (fresh equal).symm
    rw [record_snapshot committed] at runs
    refine ⟨chained, ends, ?_, ?_, ?_⟩
    · intro number
      by_cases isEpoch : number = system.owner.epoch
      · right
        rw [isEpoch, new, runs, Function.update_self]
        refine ⟨⟨frame, [], snapshot, rfl, content, first, ?_, by simp⟩, ?_⟩
        · rw [newestTrades]
          exact some
        · rw [flatMap_singleton, brought]
          exact newest_suffix _ _
      · rw [same number isEpoch, runs, Function.update_of_ne isEpoch]
        exact upToDate.segments number
    · intro number later
      rw [owner, committed.generation] at later
      rw [same number (Nat.ne_of_gt later)]
      exact upToDate.unborn number (Nat.lt_trans younger later)
    · intro _
      rw [owner, committed.generation, new]
      exact cons_ne_nil _ _
  | trade point after committed =>
    have brought : carried frame = [point] := by
      unfold carried
      rw [content]
      rfl
    have inStream : frame.streamId = setting.uuid system.owner.typedGeneration := by
      rw [stream, committed.generation]
    have new : carriers (setting.uuid system.owner.typedGeneration) (frames ++ [frame]) =
        carriers (setting.uuid system.owner.typedGeneration) frames ++ [frame] :=
      carriers_append_of frames (carries_eq_true inStream (by rw [brought]; exact cons_ne_nil _ _))
    have same (number : Nat) (other : number ≠ system.owner.typedGeneration) :
        carriers (setting.uuid number) (frames ++ [frame]) =
          carriers (setting.uuid number) frames := by
      apply carriers_append_of_not
      apply carries_eq_false_of_ne
      rw [inStream]
      exact fun equal => other (fresh equal).symm
    have begun := upToDate.current committed.wasLive
    rw [record_trade committed] at runs
    refine ⟨chained, ends, ?_, ?_, ?_⟩
    · intro number
      by_cases isCurrent : number = system.owner.typedGeneration
      · right
        rw [isCurrent, new, runs, Function.update_self]
        apply Segment.snoc _ content
        exact (upToDate.segments _).resolve_left begun
      · rw [same number isCurrent, runs, Function.update_of_ne isCurrent]
        exact upToDate.segments number
    · intro number later
      rw [owner, committed.generation] at later
      rw [same number (Nat.ne_of_gt later)]
      exact upToDate.unborn number later
    · intro _
      rw [owner, committed.generation, new]
      simp

/-- A new subscriber has a snapshot of the owner, or its status. -/
theorem upToDate_of_subscribed (sound : Sound system) (fresh : Function.Injective setting.uuid)
    (sent : published setting system.owner none now = .ok frame) :
    UpToDate setting system [frame] := by
  obtain ⟨stream, sequence, content⟩ := of_published sent
  have same (number : Nat) (other : number ≠ system.owner.typedGeneration) :
      carriers (setting.uuid number) [frame] = [] := by
    apply carriers_append_of_not []
    apply carries_eq_false_of_ne
    rw [stream]
    exact fun equal => other (fresh equal).symm
  have chained : [frame].IsChain fun before after =>
      after.streamSequence = before.streamSequence + 1 := List.IsChain.singleton frame
  have ends : [frame].getLast?.map PriceFrame.streamSequence = some system.owner.serial :=
    congrArg some sequence
  cases isPhase : system.owner.phase with
  | unavailable =>
    have nothing : carried frame = [] := by
      unfold carried
      rw [content]
      dsimp only [Option.getD_none, State.payload]
      rw [isPhase]
    have none' (number : Nat) : carriers (setting.uuid number) [frame] = [] :=
      carriers_append_of_not [] (carries_eq_false_of_nil _ nothing)
    refine ⟨chained, ends, fun number => .inl (none' number), fun number _ => none' number, ?_⟩
    intro never
    rw [isPhase] at never
    cases never
  | live =>
    obtain ⟨something, ending⟩ := sound.live isPhase
    obtain ⟨snapshot, isSnapshot, newestTrades, first⟩ := State.payload_of_live isPhase
    rw [Option.getD_none, isSnapshot] at content
    have brought : carried frame = newest snapshotTrades system.owner.trades := by
      unfold carried
      rw [content]
      exact newestTrades
    have some : newest snapshotTrades system.owner.trades ≠ [] :=
      newest_ne_nil something (by decide)
    have new : carriers (setting.uuid system.owner.typedGeneration) [frame] = [frame] :=
      carriers_append_of [] (carries_eq_true stream (by rw [brought]; exact some))
    refine ⟨chained, ends, ?_, ?_, ?_⟩
    · intro number
      by_cases isCurrent : number = system.owner.typedGeneration
      · right
        rw [isCurrent, new]
        refine ⟨⟨frame, [], snapshot, rfl, content, first, ?_, by simp⟩, ?_⟩
        · rw [newestTrades]
          exact some
        · rw [flatMap_singleton, brought]
          exact (newest_suffix _ _).trans ending
      · exact .inl (same number isCurrent)
    · intro number later
      exact same number (Nat.ne_of_gt later)
    · intro _
      rw [new]
      exact cons_ne_nil _ _

end MarketCow.BtcLive
