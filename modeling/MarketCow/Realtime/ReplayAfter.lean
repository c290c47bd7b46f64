import MarketCow.Realtime.HubRun

/-!
# Resuming from the replay

A consumer that has seen the events up to a cursor resumes from the window of
the last events: it gets one frame for each later sequence, or is told that the
window no longer reaches back to its cursor.
-/

namespace MarketCow.Realtime

open Library MarketCow.Core SequencedReplay List

inductive DataType
  | quote
  | trade
  | orderBook
  | assetContext
  | marketState
  | streamStatus
  deriving DecidableEq

def NormalizedProviderEvent.dataType (event : NormalizedProviderEvent) : DataType :=
  match event.payload with
  | .orderBookSnapshot .. => .orderBook
  | .quote .. => .quote
  | .trade .. => .trade
  | .assetContext .. => .assetContext
  | .marketState .. => .marketState
  | .streamStatus .. => .streamStatus

inductive ReplayFrame
  | event (stream : StreamEvent)
  | sequenceWatermark (streamId : String) (sequence : Nat)
  deriving DecidableEq

structure SubscriptionFilter where
  instruments : TreeSet String
  dataTypes : Finset DataType

/-- Stream statuses match every set of data types. -/
def SubscriptionFilter.accepts
    (filter : SubscriptionFilter) (event : NormalizedProviderEvent) : Bool :=
  filter.instruments.contains event.instrumentId &&
    ((match event.payload with
      | .streamStatus .. => true
      | _ => false) ||
      decide (event.dataType ∈ filter.dataTypes))

/-- `u64` addition that stops at the largest number. -/
def saturatingAdd (left right : Nat) : Nat :=
  min (left + right) (2 ^ 64 - 1)

/-- The frames after a cursor, from the replay of the writer. -/
def SequencedReplay.replayAfter
    (state : SequencedReplay) (streamId : String) (after : Nat) (filter : SubscriptionFilter) :
    Except RealtimeError (List ReplayFrame) :=
  if streamId ≠ state.streamId then .error .streamChanged
  else if after > state.sequence then .error (.cursorAhead state.sequence)
  else
    let earliest :=
      (state.replay.head?.map StreamEvent.sequence).getD (saturatingAdd state.sequence 1)
    if saturatingAdd after 1 < earliest then .error (.gapUnrecoverable earliest)
    else
      .ok ((state.replay.filter fun stream => decide (stream.sequence > after)).map fun stream =>
        if filter.accepts stream.event then .event stream
        else .sequenceWatermark state.streamId stream.sequence)

/-- The frames after a cursor, from a projection of the hub. -/
def RealtimeHubProjection.replayAfter
    (projection : RealtimeHubProjection) (streamId : String) (after : Nat)
    (filter : SubscriptionFilter) :
    Except RealtimeError (List ReplayFrame) :=
  if streamId ≠ projection.streamId then .error .streamChanged
  else if after > projection.publicSequence then .error (.cursorAhead projection.publicSequence)
  else
    let earliest :=
      (projection.replay.head?.map StreamEvent.sequence).getD
        (saturatingAdd projection.publicSequence 1)
    if saturatingAdd after 1 < earliest then .error (.gapUnrecoverable earliest)
    else
      .ok ((projection.replay.filter fun stream => decide (stream.sequence > after)).map
        fun stream =>
          if filter.accepts stream.event then .event stream
          else .sequenceWatermark projection.streamId stream.sequence)

/-- The frame a consumer gets for an event. -/
def frameOf (filter : SubscriptionFilter) (stream : StreamEvent) : ReplayFrame :=
  if filter.accepts stream.event then .event stream
  else .sequenceWatermark stream.streamId stream.sequence

/-! ## The window of a history -/

section Window

variable {streamId : String} {published : List StreamEvent} {after : Nat}

/-- The events after a cursor are those with a later sequence. -/
theorem filter_published (contiguous : Contiguous streamId published)
    (retained : skipped ≤ after) (reached : after ≤ published.length) :
    (published.drop skipped).filter (fun stream => decide (stream.sequence > after)) =
      published.drop after := by
  have sequences := contiguous.sequences
  have early : ∀ stream ∈ (published.take after).drop skipped,
      ¬decide (stream.sequence > after) = true := by
    intro stream mem
    have named : stream.sequence ∈ (published.take after).map StreamEvent.sequence :=
      mem_map_of_mem (mem_of_mem_drop mem)
    rw [map_take, sequences, take_range'_of_length_ge reached, mem_range'_1] at named
    rw [decide_eq_true_eq]
    omega
  have late : ∀ stream ∈ published.drop after, decide (stream.sequence > after) = true := by
    intro stream mem
    have named : stream.sequence ∈ (published.drop after).map StreamEvent.sequence :=
      mem_map_of_mem mem
    rw [map_drop, sequences, drop_range', mem_range'_1] at named
    rw [decide_eq_true_eq]
    omega
  have split : published.drop skipped =
      (published.take after).drop skipped ++ published.drop after := by
    rw [← drop_append_of_le_length, take_append_drop]
    rw [length_take]
    omega
  rw [split, filter_append, filter_eq_nil_iff.mpr early, filter_eq_self.mpr late, nil_append]

/-- The earliest sequence of a window, or the next one when there is none. -/
theorem earliest_rtake
    {capacity : Nat} (contiguous : Contiguous streamId published) (positive : 0 < capacity)
    (bounded : published.length < 2 ^ 64) :
    ((published.rtake capacity).head?.map StreamEvent.sequence).getD
        (saturatingAdd published.length 1) =
      published.length - capacity + 1 := by
  have window : ((published.rtake capacity).head?.map StreamEvent.sequence) =
      (List.range' (1 + (published.length - capacity))
        (published.length - (published.length - capacity)) 1).head? := by
    rw [← head?_map, List.rtake, map_drop, contiguous.sequences, drop_range', Nat.mul_one]
  rw [window]
  cases size : published.length with
  | zero =>
    rw [Nat.zero_sub]
    rfl
  | succ count =>
    have filled : count + 1 - (count + 1 - capacity) ≠ 0 := by omega
    obtain ⟨more, grown⟩ := Nat.exists_eq_succ_of_ne_zero filled
    rw [grown, range'_succ, head?_cons, getD_some, Nat.add_comm]

end Window

/-! ## Exact resumption -/

/-- The sequence is in the window. -/
def Retained (replay : List StreamEvent) (sequence : Nat) : Prop :=
  ∃ stream ∈ replay, stream.sequence = sequence

/-- What a consumer at a cursor is answered: it is ahead, or a sequence it
misses has left the window, or it gets exactly one frame for each sequence it
misses, in order. -/
structure ResumesExactly
    (sequence : Nat) (replay : List StreamEvent) (filter : SubscriptionFilter) (after : Nat)
    (result : Except RealtimeError (List ReplayFrame)) : Prop where
  ahead : (∃ current, result = .error (.cursorAhead current)) ↔ sequence < after
  gap : (∃ earliest, result = .error (.gapUnrecoverable earliest)) ↔
    after < sequence ∧ ∃ missed, after < missed ∧ missed ≤ sequence ∧ ¬Retained replay missed
  frames : after ≤ sequence →
    (∀ missed, after < missed → missed ≤ sequence → Retained replay missed) →
    ∃ frames, result = .ok frames ∧
      List.Forall₂ (fun missed frame =>
          ∃ stream ∈ replay, stream.sequence = missed ∧ frame = frameOf filter stream)
        (List.range' (after + 1) (sequence - after)) frames

variable {streamId : String} {published : List StreamEvent}

theorem retained_rtake_iff {capacity sequence : Nat} (contiguous : Contiguous streamId published) :
    Retained (published.rtake capacity) sequence ↔
      published.length - capacity < sequence ∧ sequence ≤ published.length := by
  have named : Retained (published.rtake capacity) sequence ↔
      sequence ∈ (published.rtake capacity).map StreamEvent.sequence := by
    rw [mem_map]
    rfl
  rw [named, List.rtake, map_drop, contiguous.sequences, drop_range', mem_range'_1]
  omega

/-- The frames of the events after a cursor are the frames of the sequences
after it. -/
theorem forall₂_frames
    {published replay : List StreamEvent} {filter : SubscriptionFilter} {after : Nat}
    (contiguous : Contiguous streamId published)
    (inside : ∀ stream ∈ published.drop after, stream ∈ replay) :
    List.Forall₂ (fun missed frame =>
        ∃ stream ∈ replay, stream.sequence = missed ∧ frame = frameOf filter stream)
      (List.range' (after + 1) (published.length - after))
      ((published.drop after).map (frameOf filter)) := by
  have numbers : List.range' (after + 1) (published.length - after) =
      (published.drop after).map StreamEvent.sequence := by
    rw [map_drop, contiguous.sequences, drop_range', Nat.mul_one, Nat.add_comm]
  rw [numbers, forall₂_map_left_iff, forall₂_map_right_iff, forall₂_same]
  exact fun stream mem => ⟨stream, inside stream mem, rfl, rfl⟩

/-- The window of a history resumes every consumer exactly. -/
theorem replayAfter_ofPublished
    {capacity : Nat} (contiguous : Contiguous streamId published) (positive : 0 < capacity)
    (bounded : published.length < 2 ^ 64) (filter : SubscriptionFilter) (after : Nat) :
    ResumesExactly published.length (published.rtake capacity) filter after
      ((ofPublished streamId capacity published).replayAfter streamId after filter) := by
  have earliest := @earliest_rtake streamId published capacity contiguous positive bounded
  have lost : saturatingAdd after 1 < published.length - capacity + 1 → after ≤ published.length →
      after < published.length - capacity := by
    unfold saturatingAdd
    omega
  unfold SequencedReplay.replayAfter ofPublished
  rw [if_neg (not_not.mpr rfl)]
  rw [earliest]
  by_cases ahead : after > published.length
  · rw [if_pos ahead]
    refine ⟨⟨fun _ => ahead, fun _ => ⟨_, rfl⟩⟩, ⟨?_, ?_⟩, ?_⟩
    · rintro ⟨_, never⟩
      cases never
    · rintro ⟨behind, _⟩
      omega
    · intro behind
      omega
  · rw [if_neg ahead]
    by_cases early : saturatingAdd after 1 < published.length - capacity + 1
    · have behind := lost early (not_lt.mp ahead)
      have missing : ¬Retained (published.rtake capacity) (after + 1) := by
        rw [retained_rtake_iff contiguous]
        omega
      rw [if_pos early]
      refine ⟨⟨?_, ?_⟩, ⟨?_, fun _ => ⟨_, rfl⟩⟩, ?_⟩
      · rintro ⟨_, never⟩
        cases never
      · intro beyond
        omega
      · intro _
        exact ⟨by omega, after + 1, Nat.lt_succ_self _, by omega, missing⟩
      · intro _ retained
        exact absurd (retained (after + 1) (Nat.lt_succ_self _) (by omega)) missing
    · have reached : published.length - capacity ≤ after := by
        unfold saturatingAdd at early
        omega
      have behind := not_lt.mp ahead
      rw [if_neg early, List.rtake, filter_published contiguous reached behind]
      refine ⟨⟨?_, ?_⟩, ⟨?_, ?_⟩, ?_⟩
      · rintro ⟨_, never⟩
        cases never
      · intro beyond
        omega
      · rintro ⟨_, never⟩
        cases never
      · rintro ⟨_, missed, later, inside, absent⟩
        exact absurd ((retained_rtake_iff contiguous).mpr ⟨by omega, inside⟩) absent
      · intro _ _
        refine ⟨_, rfl, ?_⟩
        have named : ∀ stream ∈ published.drop after, stream.streamId = streamId := by
          intro stream mem
          obtain ⟨position, inside, rfl⟩ := getElem_of_mem (mem_of_mem_drop mem)
          exact (contiguous.getElem inside).1
        have frames : (published.drop after).map (fun stream =>
            if filter.accepts stream.event then ReplayFrame.event stream
            else .sequenceWatermark streamId stream.sequence) =
            (published.drop after).map (frameOf filter) := by
          apply map_congr_left
          intro stream mem
          unfold frameOf
          rw [named stream mem]
        rw [frames]
        apply forall₂_frames contiguous
        intro stream mem
        have later : published.drop after =
            (published.drop (published.length - capacity)).drop
              (after - (published.length - capacity)) := by
          rw [drop_drop, Nat.add_sub_cancel' reached]
        rw [later] at mem
        exact mem_of_mem_drop mem

/-! ## The projections of a hub -/

/-- The two replays answer alike from the same state. -/
theorem RealtimeHubProjection.replayAfter_eq
    {projection : RealtimeHubProjection} {state : SequencedReplay}
    (stream : projection.streamId = state.streamId)
    (sequence : projection.publicSequence = state.sequence)
    (replay : projection.replay = state.replay) (streamId : String) (after : Nat)
    (filter : SubscriptionFilter) :
    projection.replayAfter streamId after filter = state.replayAfter streamId after filter := by
  unfold RealtimeHubProjection.replayAfter SequencedReplay.replayAfter
  rw [stream, sequence, replay]

/-- The projection of a hub is that of its writer, whose replay is the window of
a history. -/
structure ProjectionHeld (streamId : String) (hub : DurableRealtimeHub) : Prop where
  stream : hub.projection.streamId = streamId
  sequence : hub.projection.publicSequence = hub.writer.replay.sequence
  replay : hub.projection.replay = hub.writer.replay.replay
  window : ∃ capacity published, Contiguous streamId published ∧ published.length < 2 ^ 64 ∧
    0 < capacity ∧ hub.writer.replay = ofPublished streamId capacity published

namespace ProjectionHeld

variable {serde : Serde} {streamId : String} {hub : DurableRealtimeHub}

/-- A hub publishes the state of the writer it holds. -/
theorem of_held {root : StorageRoot} {configRevision : String} {health : RealtimeHubHealth}
    (held : WriterHeld serde hub.writer root) (stream : hub.writer.streamId = streamId)
    (stored : hub.projection = projectionFromWriter hub.writer streamId configRevision health) :
    ProjectionHeld streamId hub := by
  have sound := held.records
  have history := held.replay
  rw [stream] at history
  refine ⟨by rw [stored]; rfl, by rw [stored]; rfl, by rw [stored]; rfl, hub.writer.replayCapacity,
    publishedEvents streamId hub.writer.records, sound.contiguous streamId, ?_, held.positive,
    history⟩
  rw [length_publishedEvents]
  exact sound.bounded

/-- Storing the state of a writer with the same replay keeps the projection. -/
theorem of_store {after : DurableRealtimeHub}
    (held : ProjectionHeld streamId hub) (replay : after.writer.replay = hub.writer.replay)
    (stored : after.projection = projectionFromWriter after.writer hub.projection.streamId
      hub.projection.configRevision health) :
    ProjectionHeld streamId after := by
  obtain ⟨capacity, published, window⟩ := held.window
  refine ⟨?_, by rw [stored]; rfl, by rw [stored]; rfl, capacity, published, ?_⟩
  · rw [stored]
    exact held.stream
  · rw [replay]
    exact window

end ProjectionHeld

section Run

variable {serde : Serde} {streamId configRevision : String}

/-- Every step keeps the projection of the hub. -/
theorem projectionHeld_step
    {whole : Prop} {records : List PersistedRealtimeEvent} {before after : HubState}
    (held : HubHeld serde (streamId, configRevision) whole before records)
    (projected : ∀ process, before.process = some process → ProjectionHeld streamId process.hub)
    (taken : HubStep serde streamId configRevision before action after) :
    ∀ process, after.process = some process → ProjectionHeld streamId process.hub := by
  cases taken with
  | @opened root rootAfter sent indexWrites maxSegmentBytes replayCapacity hub opens =>
    have openedHeld := held.opened opens
    rintro _ ⟨⟩
    cases openedHeld.process with
    | closed closed _ _ =>
      unfold DurableRealtimeHub.openHub at opens
      split at opens
      · cases opens
      · simp only [Except.ok.injEq, Prod.mk.injEq] at opens
        rw [← opens.1] at closed
        cases closed
    | healthy writerHeld stream _ _ _ _ =>
      refine @ProjectionHeld.of_held serde streamId hub rootAfter configRevision .starting
        writerHeld stream ?_
      unfold DurableRealtimeHub.openHub at opens
      split at opens
      · cases opens
      · simp only [Except.ok.injEq, Prod.mk.injEq] at opens
        rw [← opens.1]
  | openFailed _ _ =>
    intro process never
    cases never
  | @ingested root hub recovered handed sent environment gateway output ingested result =>
    have earlier := projected _ rfl
    have effect := @DurableRealtimeHub.ingest_effect serde environment gateway hub root output
    rw [result] at effect
    rintro _ ⟨⟩
    cases effect with
    | quiet _ writer _ stores =>
      rcases stores with same | ⟨health, stored⟩
      · obtain ⟨stream, sequence, replay, window⟩ := earlier
        rw [← same] at stream sequence replay
        rw [← writer] at sequence replay window
        exact ⟨stream, sequence, replay, window⟩
      · exact earlier.of_store (by rw [writer]) stored
    | @persisted events outcomes writer rootAfter attempt opened applies =>
      cases held.process with
      | closed closed _ _ => exact absurd closed opened
      | healthy writerHeld same _ _ _ _ =>
        rcases applyBatch_cases writerHeld events with
          ⟨_, _, _, result, applied⟩ | ⟨_, _, _, result, _⟩
        · rw [applies] at result
          cases result
          refine @ProjectionHeld.of_held serde streamId
            ({ hub with writer }.store (.ready attempt)) rootAfter
            hub.projection.configRevision (.ready attempt) applied.held
            (applied.streamId.trans same) ?_
          rw [← earlier.stream]
          rfl
        · rw [applies] at result
          cases result
    | unpersisted opened fails =>
      cases held.process with
      | closed closed _ _ => exact absurd closed opened
      | healthy writerHeld _ _ _ _ _ =>
        rcases applyBatch_cases writerHeld _ with ⟨_, _, _, applies, _⟩ | ⟨_, _, _, same, failed⟩
        · rw [fails] at applies
          cases applies
        · rw [fails] at same
          cases same
          exact earlier.of_store failed.replay rfl
  | @sends root hub recovered handed unsent sent stream =>
    have earlier := projected ⟨hub, recovered, handed, stream :: unsent⟩ rfl
    rintro _ ⟨⟩
    exact ⟨earlier.stream, earlier.sequence, earlier.replay, earlier.window⟩
  | checkpointed =>
    rintro _ ⟨⟩
    exact projected _ rfl
  | closed =>
    rintro _ ⟨⟩
    exact (projected _ rfl).of_store rfl rfl
  | stopped | interrupted =>
    intro process never
    cases never

theorem projectionHeld_of_run
    {state : HubState} (run : HubRun serde streamId configRevision actions state) :
    ∀ process, state.process = some process → ProjectionHeld streamId process.hub := by
  induction run with
  | nil =>
    intro process never
    cases never
  | snoc earlier taken ih =>
    obtain ⟨⟨records, held⟩, _⟩ := @hubHeld_of_run serde (streamId, configRevision) _ _ earlier
    exact projectionHeld_step held ih taken

/-- In every state a run reaches, the projection of the hub resumes every
consumer of the stream exactly, and as the replay of its writer does. -/
theorem resumesExactly_of_run {actions : List HubAction} {state : HubState} {process : HubProcess}
    (run : HubRun serde streamId configRevision actions state)
    (running : state.process = some process) (filter : SubscriptionFilter) (after : Nat) :
    ResumesExactly process.hub.projection.publicSequence process.hub.projection.replay filter after
        (process.hub.projection.replayAfter streamId after filter) ∧
      ∀ requested, process.hub.projection.replayAfter requested after filter =
        process.hub.writer.replay.replayAfter requested after filter := by
  have held := projectionHeld_of_run run process running
  obtain ⟨capacity, published, contiguous, bounded, positive, replay⟩ := held.window
  have same : ∀ requested, process.hub.projection.replayAfter requested after filter =
      process.hub.writer.replay.replayAfter requested after filter := by
    intro requested
    refine RealtimeHubProjection.replayAfter_eq ?_ held.sequence held.replay requested after filter
    rw [held.stream, replay]
    rfl
  refine ⟨?_, same⟩
  rw [same, held.sequence, held.replay, replay]
  exact replayAfter_ofPublished contiguous positive bounded filter after

/-- A process that persists one event has one to replay. -/
theorem run_of_first {event : NormalizedProviderEvent} {environment : AppendEnvironment}
    {maxSegmentBytes replayCapacity : Nat}
    (valid : validateConfig streamId configRevision maxSegmentBytes = .ok ())
    (positive : 0 < replayCapacity) (completes : environment.write = .completes)
    (proven : serde.validEventEvidence event = true) :
    ∃ actions state process, HubRun serde streamId configRevision actions state ∧
      state.process = some process ∧ process.hub.projection.publicSequence = 1 := by
  obtain ⟨hub, root, opens, opened, fresh, noRecords⟩ :=
    @openHub_fresh serde (streamId, configRevision) StorageRoot.empty [] [] true maxSegmentBytes
      replayCapacity (rootHolds_empty serde (streamId, configRevision)) rfl valid positive
  obtain ⟨scan, scanned, _, _, segment⟩ := fresh.held.wal.scanned
  rw [opened.segments] at scanned
  have noSegment : hub.writer.wal.currentSegmentId = 0 := by
    rw [← segment, scanned_nil_iff.mp scanned]
    rfl
  obtain ⟨after, rootAfter, outcomes, persists, applied⟩ :=
    @run_of_fresh serde (streamId, configRevision) root hub hub.writer.sequence [] environment
      event fresh completes proven (by rw [noRecords]; simp) (by rw [noSegment]; decide)
  obtain ⟨record, _, records, _⟩ := applied.single
  rw [noRecords, nil_append] at records
  have isApplied : record.applied = true :=
    applied.held.applied_of_distinct (by simp [records]) record (by simp [records])
  have run := Run.append (Run.single (.opened opens)) persists
  have held := projectionHeld_of_run run _ rfl
  refine ⟨_, _, _, run, rfl, ?_⟩
  rw [held.sequence, applied.held.sequence, records, ← length_publishedEvents streamId,
    publishedEvents_of_applied isApplied]
  rfl

end Run

theorem resumesExactly_sample :
    ∃ actions state process, HubRun sampleSerde "longport" "revision-1" actions state ∧
      state.process = some process ∧ process.hub.projection.publicSequence = 1 ∧
      ResumesExactly process.hub.projection.publicSequence process.hub.projection.replay ⟨∅, ∅⟩ 0
        (process.hub.projection.replayAfter "longport" 0 ⟨∅, ∅⟩) := by
  obtain ⟨actions, state, process, run, running, sequence⟩ :=
    @run_of_first sampleSerde "longport" "revision-1" (sampleStatus 0) sampleEnvironment 4096 2
      sampleConfig_valid (by decide) rfl (sampleStatus_proven 0)
  exact ⟨actions, state, process, run, running, sequence,
    (resumesExactly_of_run run running ⟨∅, ∅⟩ 0).1⟩

end MarketCow.Realtime
