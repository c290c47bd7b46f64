import MarketCow.Library.Transition
import MarketCow.Realtime.Hub
import MarketCow.Realtime.StoredJson
import MarketCow.Realtime.WriterState

/-!
# Publication by the hub

Processes of the hub are started and stopped over one root, consume outputs of
the transport and send what they publish to the gateway. Whatever stops or
fails, what was sent is a part of what the log publishes, in its order and
without repetition; it is all of it while nothing stops halfway.
-/

namespace MarketCow.Realtime

open Library MarketCow.Core SequencedReplay List

/-! ## Runs -/

/-- A process of the hub, with the sequence it started from, what it has sent
and what it has persisted and is about to send. -/
structure HubProcess where
  hub : DurableRealtimeHub
  recovered : Nat
  handed : List StreamEvent
  unsent : List StreamEvent

/-- The root, the process at work on it, and what the gateway was sent by all
processes. -/
structure HubState where
  root : StorageRoot
  process : Option HubProcess
  sent : List StreamEvent

def HubState.start : HubState where
  root := StorageRoot.empty
  process := none
  sent := []

/-- What is persisted and about to be sent. -/
def HubState.unsent (state : HubState) : List StreamEvent :=
  (state.process.map HubProcess.unsent).getD []

inductive HubAction
  | openHub (indexWrites : Bool) (maxSegmentBytes replayCapacity : Nat)
  | ingest
      (environment : AppendEnvironment)
      (gateway : GatewayReservation)
      (output : TransportOutput)
      (result : Except RealtimeHubError Nat)
  | send (stream : StreamEvent)
  | checkpoint (createdAt : DateTime) (outcome : CheckpointWrite)
  | failClosed (reason : String)
  | stop
  | interrupt

/-- The steps of a hub. A process sends all it has published before it goes on;
it may stop at any moment. An open that fails may still have written the index
file. -/
inductive HubStep
    (serde : Serde) (streamId configRevision : String) :
    HubState → HubAction → HubState → Prop
  | opened
      {root after : StorageRoot}
      {sent : List StreamEvent}
      {indexWrites : Bool}
      {maxSegmentBytes replayCapacity : Nat}
      {hub : DurableRealtimeHub} :
      DurableRealtimeHub.openHub serde indexWrites root streamId configRevision maxSegmentBytes
        replayCapacity = .ok (hub, after) →
      HubStep serde streamId configRevision ⟨root, none, sent⟩
        (.openHub indexWrites maxSegmentBytes replayCapacity)
        ⟨after, some ⟨hub, hub.writer.sequence, [], []⟩, sent⟩
  | openFailed
      {root : StorageRoot}
      {sent : List StreamEvent}
      {indexWrites : Bool}
      {maxSegmentBytes replayCapacity : Nat}
      {cause : RealtimeHubError}
      (cursorIndex : Option Bytes) :
      DurableRealtimeHub.openHub serde indexWrites root streamId configRevision maxSegmentBytes
        replayCapacity = .error cause →
      HubStep serde streamId configRevision ⟨root, none, sent⟩
        (.openHub indexWrites maxSegmentBytes replayCapacity)
        ⟨{ root with wal := { root.wal with cursorIndex } }, none, sent⟩
  | ingested
      {root : StorageRoot}
      {hub : DurableRealtimeHub}
      {recovered : Nat}
      {handed sent : List StreamEvent}
      {environment : AppendEnvironment}
      {gateway : GatewayReservation}
      {output : TransportOutput}
      {ingested : DurableRealtimeHub.Ingested} :
      hub.ingest serde environment gateway root output = ingested →
      HubStep serde streamId configRevision ⟨root, some ⟨hub, recovered, handed, []⟩, sent⟩
        (.ingest environment gateway output ingested.result)
        ⟨ingested.root, some ⟨ingested.hub, recovered, handed, ingested.published⟩, sent⟩
  | sends
      {root : StorageRoot}
      {hub : DurableRealtimeHub}
      {recovered : Nat}
      {handed unsent sent : List StreamEvent}
      {stream : StreamEvent} :
      HubStep serde streamId configRevision
        ⟨root, some ⟨hub, recovered, handed, stream :: unsent⟩, sent⟩ (.send stream)
        ⟨root, some ⟨hub, recovered, handed ++ [stream], unsent⟩, sent ++ [stream]⟩
  | checkpointed
      {root : StorageRoot}
      {hub : DurableRealtimeHub}
      {recovered : Nat}
      {handed sent : List StreamEvent}
      {createdAt : DateTime}
      {outcome : CheckpointWrite} :
      HubStep serde streamId configRevision ⟨root, some ⟨hub, recovered, handed, []⟩, sent⟩
        (.checkpoint createdAt outcome)
        ⟨(hub.checkpoint serde createdAt outcome root).2, some ⟨hub, recovered, handed, []⟩, sent⟩
  | closed
      {root : StorageRoot}
      {hub : DurableRealtimeHub}
      {recovered : Nat}
      {handed sent : List StreamEvent}
      {reason : String} :
      HubStep serde streamId configRevision ⟨root, some ⟨hub, recovered, handed, []⟩, sent⟩
        (.failClosed reason) ⟨root, some ⟨hub.failClosed reason, recovered, handed, []⟩, sent⟩
  | stopped
      {root : StorageRoot}
      {hub : DurableRealtimeHub}
      {recovered : Nat}
      {handed sent : List StreamEvent} :
      HubStep serde streamId configRevision ⟨root, some ⟨hub, recovered, handed, []⟩, sent⟩
        .stop ⟨root, none, sent⟩
  | interrupted
      {root : StorageRoot}
      {hub : DurableRealtimeHub}
      {recovered : Nat}
      {handed unsent sent : List StreamEvent}
      {stream : StreamEvent} :
      HubStep serde streamId configRevision
        ⟨root, some ⟨hub, recovered, handed, stream :: unsent⟩, sent⟩ .interrupt
        ⟨root, none, sent⟩

/-- A run of hubs that starts with an empty root. -/
abbrev HubRun (serde : Serde) (streamId configRevision : String) :
    List HubAction → HubState → Prop :=
  Run (HubStep serde streamId configRevision) HubState.start

/-- Nothing stops halfway: writes complete, and processes stop when they have
sent what they persisted. -/
def HubAction.Whole : HubAction → Prop
  | .ingest environment _ _ _ => environment.write = .completes
  | .interrupt => False
  | _ => True

/-! ## What a run keeps -/

/-- The process holds the log that was recorded last, unless it is closed. -/
inductive ProcessHeld
    (serde : Serde) (scope : String × String) (root : StorageRoot)
    (records : List PersistedRealtimeEvent) : Option HubProcess → Prop
  | down : ProcessHeld serde scope root records none
  | healthy
      {process : HubProcess}
      (held : WriterHeld serde process.hub.writer root)
      (stream : process.hub.writer.streamId = scope.1)
      (revision : process.hub.writer.configRevision = scope.2)
      (same : process.hub.writer.records = records)
      (inside : process.recovered ≤ (publishedEvents scope.1 records).length)
      (window : process.handed ++ process.unsent =
        (publishedEvents scope.1 records).drop process.recovered) :
      ProcessHeld serde scope root records (some process)
  | closed
      {process : HubProcess}
      (closed : process.hub.lifecycle = .failedClosed)
      (idle : process.unsent = [])
      (window : process.handed = (publishedEvents scope.1 records).drop process.recovered) :
      ProcessHeld serde scope root records (some process)

/-- What a run keeps, with the records the log had when a process last knew it.
While nothing has stopped halfway, they are all there is. -/
structure HubHeld
    (serde : Serde) (scope : String × String) (whole : Prop) (state : HubState)
    (records : List PersistedRealtimeEvent) : Prop where
  sound : RecordsSound records
  sorted : SortedSegments state.root.wal.segments
  kept : ∀ scan, Scanned serde scope state.root.wal.segments scan → records <+: scan.log.records
  unchanged : whole → ∀ scan, Scanned serde scope state.root.wal.segments scan →
    scan.log.records = records
  published : (state.sent ++ state.unsent).Sublist (publishedEvents scope.1 records)
  complete : whole → state.sent ++ state.unsent = publishedEvents scope.1 records
  process : ProcessHeld serde scope state.root records state.process

section Hub

variable {serde : Serde} {scope : String × String} {whole : Prop} {streamId : String}

theorem publishedEvents_grow (grows : first <+: second) :
    publishedEvents streamId first <+: publishedEvents streamId second := by
  obtain ⟨more, rfl⟩ := grows
  rw [publishedEvents_append]
  exact prefix_append _ _

variable {root rootAfter : StorageRoot} {events : List NormalizedProviderEvent}
  {outcomes : List DurableApplyOutcome}

/-- A batch publishes what its records publish. -/
theorem BatchApplied.published_eq {writer after : DurableRealtimeWriter}
    (applied : BatchApplied serde writer after root rootAfter events outcomes) :
    outcomes.filterMap DurableApplyOutcome.published =
      publishedEvents writer.streamId (outcomes.map DurableApplyOutcome.persisted) := by
  have same := congrArg (List.filterMap id) applied.published
  rw [filterMap_map, filterMap_map] at same
  rw [publishedEvents_eq_filterMap, filterMap_map]
  exact same

variable {writer : DurableRealtimeWriter}

/-- A writer that holds a root knows all of its log. -/
theorem WriterHeld.scanned_eq (held : WriterHeld serde writer root)
    (scanned : Scanned serde (writer.streamId, writer.configRevision) root.wal.segments scan) :
    scan.log.records = writer.records := by
  obtain ⟨_, other, otherScanned, same, _⟩ := held.rootHolds
  rw [scanned.unique otherScanned]
  exact same

/-- The log of a stream that was never written to is empty. -/
theorem hubHeld_start : HubHeld serde scope whole HubState.start [] := by
  refine ⟨recordsSound_nil, .nil, fun scan _ => nil_prefix, ?_, .refl _, fun _ => rfl, .down⟩
  intro _ scan scanned
  rw [scanned_nil_iff.mp scanned]
  rfl

variable {records : List PersistedRealtimeEvent} {state : HubState} {stronger : Prop}

/-- Weaker assumptions on the past keep less. -/
theorem HubHeld.weaken
    (held : HubHeld serde scope whole state records) (weaker : stronger → whole) :
    HubHeld serde scope stronger state records :=
  ⟨held.sound, held.sorted, held.kept, held.unchanged ∘ weaker, held.published,
    held.complete ∘ weaker, held.process⟩

/-- A state whose log and sent events are those of another keeps what the other
keeps. -/
theorem HubHeld.of_same {state after : HubState}
    (held : HubHeld serde scope whole state records) (weaker : stronger → whole)
    (segments : after.root.wal.segments = state.root.wal.segments)
    (sent : after.sent ++ after.unsent = state.sent ++ state.unsent)
    (process : ProcessHeld serde scope after.root records after.process) :
    HubHeld serde scope stronger after records := by
  refine ⟨held.sound, segments ▸ held.sorted, segments ▸ held.kept,
    segments ▸ held.unchanged ∘ weaker, ?_, ?_, process⟩
  · rw [sent]
    exact held.published
  · rw [sent]
    exact held.complete ∘ weaker

/-- Opening takes over the whole log of the root. -/
theorem HubHeld.opened
    {root after : StorageRoot} {sent : List StreamEvent} {records : List PersistedRealtimeEvent}
    {indexWrites : Bool} {maxSegmentBytes replayCapacity : Nat} {hub : DurableRealtimeHub}
    (held : HubHeld serde scope whole ⟨root, none, sent⟩ records)
    (opens : DurableRealtimeHub.openHub serde indexWrites root scope.1 scope.2 maxSegmentBytes
      replayCapacity = .ok (hub, after)) :
    HubHeld serde scope whole ⟨after, some ⟨hub, hub.writer.sequence, [], []⟩, sent⟩
      hub.writer.records := by
  unfold DurableRealtimeHub.openHub at opens
  rcases success : DurableRealtimeWriter.openWriter serde indexWrites root scope.1 scope.2
    maxSegmentBytes replayCapacity with cause | ⟨writer, rootAfter⟩
  · rw [success] at opens
    cases opens
  · rw [success] at opens
    simp only [Except.ok.injEq, Prod.mk.injEq] at opens
    obtain ⟨rfl, rfl⟩ := opens
    have opened := openWriter_opened held.sorted success
    have writerHeld := opened.held
    have all : ∀ scan, Scanned serde scope rootAfter.wal.segments scan →
        scan.log.records = writer.records := by
      intro scan scanned
      apply writerHeld.scanned_eq
      rw [opened.streamId, opened.configRevision]
      exact scanned
    obtain ⟨_, scan, scanned, same, _⟩ := writerHeld.rootHolds
    rw [opened.streamId, opened.configRevision] at scanned
    have before : Scanned serde scope root.wal.segments scan := opened.segments ▸ scanned
    have grows : records <+: writer.records := same ▸ held.kept scan before
    have unchanged : whole → writer.records = records :=
      fun wholly => same.symm.trans (held.unchanged wholly scan before)
    have sequence : writer.sequence = (publishedEvents scope.1 writer.records).length := by
      rw [length_publishedEvents]
      exact writerHeld.sequence
    refine ⟨writerHeld.records, writerHeld.wal.sorted, ?_, fun _ => all, ?_, ?_,
      .healthy writerHeld opened.streamId opened.configRevision rfl ?_ ?_⟩
    · intro other otherScanned
      exact (all other otherScanned).symm ▸ prefix_rfl
    · exact held.published.trans (publishedEvents_grow grows).sublist
    · intro wholly
      rw [unchanged wholly]
      exact held.complete wholly
    · exact sequence.le
    · dsimp only
      rw [sequence, drop_length]
      rfl

/-- A batch that is persisted is about to be sent. -/
theorem HubHeld.persisted
    {root rootAfter : StorageRoot} {hub after : DurableRealtimeHub} {recovered : Nat}
    {handed sent : List StreamEvent} {records : List PersistedRealtimeEvent}
    {environment : AppendEnvironment} {events : List NormalizedProviderEvent}
    {outcomes : List DurableApplyOutcome}
    (held : HubHeld serde scope whole ⟨root, some ⟨hub, recovered, handed, []⟩, sent⟩ records)
    (opened : hub.lifecycle ≠ .failedClosed)
    (applies : hub.writer.applyBatch serde environment root events =
      (.ok outcomes, after.writer, rootAfter)) :
    HubHeld serde scope whole
      ⟨rootAfter, some ⟨after, recovered, handed, outcomes.filterMap DurableApplyOutcome.published⟩,
        sent⟩ after.writer.records := by
  cases held.process with
  | closed closed _ _ => exact absurd closed opened
  | healthy writerHeld stream revision same inside window =>
    rcases @applyBatch_cases serde environment hub.writer root writerHeld events with
      ⟨_, _, _, result, applied⟩ | ⟨_, _, _, result, _⟩
    · rw [applies] at result
      cases result
      have streamAfter := applied.streamId.trans stream
      have revisionAfter := applied.configRevision.trans revision
      have all : ∀ scan, Scanned serde scope rootAfter.wal.segments scan →
          scan.log.records = after.writer.records := by
        intro scan scanned
        apply applied.held.scanned_eq
        rw [streamAfter, revisionAfter]
        exact scanned
      have published : publishedEvents scope.1 after.writer.records =
          publishedEvents scope.1 records ++
            outcomes.filterMap DurableApplyOutcome.published := by
        rw [applied.published_eq, applied.persisted, publishedEvents_append, stream, same]
      refine ⟨applied.held.records, applied.held.wal.sorted, ?_, fun _ => all, ?_, ?_,
        .healthy applied.held streamAfter revisionAfter rfl ?_ ?_⟩
      · intro scan scanned
        exact (all scan scanned).symm ▸ prefix_rfl
      · rw [published]
        have before := held.published
        change (sent ++ []).Sublist _ at before
        rw [append_nil] at before
        exact before.append (.refl _)
      · intro wholly
        have before := held.complete wholly
        change sent ++ [] = _ at before
        rw [append_nil] at before
        rw [published, ← before]
        rfl
      · rw [published, length_append]
        exact inside.trans (Nat.le_add_right _ _)
      · rw [append_nil] at window
        rw [published, drop_append_of_le_length inside, ← window]
    · rw [applies] at result
      cases result

/-- A batch that is not persisted closes the hub. Only a write that stopped can
have left something of it in the log. -/
theorem HubHeld.unpersisted {hub after : DurableRealtimeHub} {handed sent : List StreamEvent}
    (held : HubHeld serde scope whole ⟨root, some ⟨hub, recovered, handed, []⟩, sent⟩ records)
    (opened : hub.lifecycle ≠ .failedClosed)
    (fails : hub.writer.applyBatch serde environment root events =
      (.error cause, writer, rootAfter))
    (closed : after.lifecycle = .failedClosed) :
    (∀ reason, cause ≠ .publicationAfterPersistence reason) ∧
      HubHeld serde scope (whole ∧ environment.write = .completes)
        ⟨rootAfter, some ⟨after, recovered, handed, []⟩, sent⟩ records := by
  cases held.process with
  | closed closed _ _ => exact absurd closed opened
  | healthy writerHeld stream revision same inside window =>
    rcases @applyBatch_cases serde environment hub.writer root writerHeld events with
      ⟨_, _, _, result, _⟩ | ⟨_, _, _, result, failed⟩
    · rw [fails] at result
      cases result
    · rw [fails] at result
      cases result
      refine ⟨failed.unpublished, held.sound, failed.grows.sorted, ?_, ?_, held.published,
        fun wholly => held.complete wholly.1, .closed closed rfl ?_⟩
      · intro scan scanned
        obtain ⟨_, before, beforeScanned, sameBefore, _⟩ := writerHeld.rootHolds
        rw [← same, ← sameBefore]
        have grows := failed.grows.grows before scan beforeScanned
        rw [stream, revision] at grows
        exact (grows scanned).records
      · intro wholly scan scanned
        rw [failed.completes wholly.2] at scanned
        exact held.unchanged wholly.1 scan scanned
      · rw [append_nil] at window
        exact window

/-- Every step keeps what a run keeps, and no answer says that publication
failed after persistence. -/
theorem HubHeld.step
    {before after : HubState} {action : HubAction} {records : List PersistedRealtimeEvent}
    (held : HubHeld serde scope whole before records)
    (taken : HubStep serde scope.1 scope.2 before action after) :
    (∃ later, HubHeld serde scope (whole ∧ action.Whole) after later) ∧
      ∀ environment gateway output reason, action ≠ .ingest environment gateway output
        (.error (.durability (.publicationAfterPersistence reason))) := by
  cases taken with
  | opened opens =>
    exact ⟨⟨_, (held.opened opens).weaken And.left⟩, fun _ _ _ _ => HubAction.noConfusion⟩
  | openFailed cursorIndex fails =>
    exact ⟨⟨records, held.of_same And.left rfl rfl .down⟩, fun _ _ _ _ => HubAction.noConfusion⟩
  | @ingested root hub recovered handed sent environment gateway output ingested result =>
    have effect := @DurableRealtimeHub.ingest_effect serde environment gateway hub root output
    rw [result] at effect
    cases effect with
    | quiet durable writer closed stores =>
      refine ⟨⟨records, held.of_same And.left rfl rfl ?_⟩, ?_⟩
      · cases held.process with
        | healthy writerHeld stream revision same inside window =>
          exact .healthy (writer ▸ writerHeld) (writer ▸ stream) (writer ▸ revision)
            (writer ▸ same) inside window
        | closed alreadyClosed idle window => exact .closed (closed alreadyClosed) rfl window
      · intro _ _ _ reason same
        injection same with _ _ _ answer
        exact durable _ answer
    | persisted opened applies =>
      refine ⟨⟨_, (held.persisted opened applies).weaken And.left⟩, ?_⟩
      intro _ _ _ _ same
      injection same with _ _ _ answer
      cases answer
    | unpersisted opened fails =>
      have closes := DurableRealtimeHub.failState_lifecycle
      obtain ⟨unpublished, later⟩ := held.unpersisted opened fails (closes _ _)
      refine ⟨⟨records, later⟩, ?_⟩
      intro _ _ _ reason same
      injection same with _ _ _ answer
      exact unpublished reason (RealtimeHubError.durability.inj (error.inj answer))
  | @sends root hub recovered handed unsent sent stream =>
    refine ⟨⟨records, held.of_same And.left rfl ?_ ?_⟩, fun _ _ _ _ => HubAction.noConfusion⟩
    · exact append_assoc sent [stream] unsent
    · cases held.process with
      | healthy writerHeld stream revision same inside window =>
        refine .healthy writerHeld stream revision same inside ?_
        rw [← window]
        exact append_assoc _ _ _
      | closed _ idle _ => cases idle
  | @checkpointed root hub recovered handed sent createdAt outcome =>
    have wal := hub.checkpoint_wal serde createdAt outcome root
    refine ⟨⟨records, held.of_same And.left (congrArg WalDirectory.segments wal) rfl ?_⟩,
      fun _ _ _ _ => HubAction.noConfusion⟩
    cases held.process with
    | healthy writerHeld stream revision same inside window =>
      exact .healthy ⟨wal ▸ writerHeld.wal, writerHeld.streamId, writerHeld.configRevision,
        writerHeld.positive, writerHeld.replay⟩ stream revision same inside window
    | closed closed idle window => exact .closed closed idle window
  | closed =>
    refine ⟨⟨records, held.of_same And.left rfl rfl ?_⟩, fun _ _ _ _ => HubAction.noConfusion⟩
    cases held.process with
    | healthy writerHeld stream revision same inside window =>
      exact .healthy writerHeld stream revision same inside window
    | closed _ idle window => exact .closed rfl idle window
  | stopped =>
    exact ⟨⟨records, held.of_same And.left rfl rfl .down⟩, fun _ _ _ _ => HubAction.noConfusion⟩
  | @interrupted root hub recovered handed unsent sent stream =>
    refine ⟨⟨records, held.sound, held.sorted, held.kept, fun never => never.2.elim,
      ?_, fun never => never.2.elim, .down⟩, fun _ _ _ _ => HubAction.noConfusion⟩
    have before := held.published
    change (sent ++ stream :: unsent).Sublist _ at before
    change (sent ++ []).Sublist _
    rw [append_nil]
    exact (sublist_append_left _ _).trans before

theorem hubHeld_of_run {actions : List HubAction} {state : HubState}
    (run : HubRun serde scope.1 scope.2 actions state) :
    (∃ records, HubHeld serde scope (∀ action ∈ actions, action.Whole) state records) ∧
      ∀ environment gateway output reason, HubAction.ingest environment gateway output
        (.error (.durability (.publicationAfterPersistence reason))) ∉ actions := by
  induction run with
  | nil => exact ⟨⟨[], hubHeld_start⟩, by simp⟩
  | @snoc actions middle action finish earlier taken ih =>
    obtain ⟨⟨records, held⟩, silent⟩ := ih
    obtain ⟨⟨later, heldAfter⟩, silentStep⟩ := held.step taken
    refine ⟨⟨later, heldAfter.weaken ?_⟩, ?_⟩
    · intro wholly
      exact ⟨fun other mem => wholly other (mem_append_left _ mem), wholly action (by simp)⟩
    · intro environment gateway output reason mem
      rcases mem_append.mp mem with old | new
      · exact silent environment gateway output reason old
      · exact silentStep environment gateway output reason (mem_singleton.mp new).symm

/-! ## Publication -/

/-- The event is a record of the log that verification reads in the root. -/
def StoredIn
    (serde : Serde) (scope : String × String) (root : StorageRoot) (stream : StreamEvent) : Prop :=
  ∃ verified, verifyWal serde root.wal (some scope) = .ok verified ∧
    ∃ record ∈ verified.records, publishedBy scope.1 record = some stream

/-- What holds of the events the gateway is sent. -/
structure PublishedOnce
    (serde : Serde) (scope : String × String) (actions : List HubAction)
    (state : HubState) : Prop where
  increasing : state.sent.Pairwise fun first second => first.sequence < second.sequence
  distinct : (state.sent.map fun stream => stream.event.eventId).Nodup
  stored : ∀ stream ∈ state.unsent, StoredIn serde scope state.root stream
  kept : ∀ stream ∈ state.sent, ∀ verified, verifyWal serde state.root.wal (some scope) =
    .ok verified → ∃ record ∈ verified.records, publishedBy scope.1 record = some stream
  duplicates : ∀ verified, verifyWal serde state.root.wal (some scope) = .ok verified →
    verified.records.Pairwise fun first second =>
      first.event.eventId = second.event.eventId →
        second.applied = false ∧ second.publicSequence = none
  consecutive : ∀ process, state.process = some process →
    (process.handed ++ process.unsent).map StreamEvent.sequence =
      List.range' (process.recovered + 1) (process.handed ++ process.unsent).length
  whole : (∀ action ∈ actions, action.Whole) →
    (state.sent ++ state.unsent).map StreamEvent.sequence =
      List.range' 1 (state.sent ++ state.unsent).length
  answered : ∀ environment gateway output reason, HubAction.ingest environment gateway output
    (.error (.durability (.publicationAfterPersistence reason))) ∉ actions

variable {stream : StreamEvent}

/-- What a log publishes comes from its records. -/
theorem exists_record_of_published (mem : stream ∈ publishedEvents streamId records) :
    ∃ record ∈ records, publishedBy streamId record = some stream := by
  rw [publishedEvents_eq_filterMap] at mem
  exact mem_filterMap.mp mem

/-- A process with events to send holds the log they are in. -/
theorem HubHeld.storedIn
    (held : HubHeld serde scope whole state records) (mem : stream ∈ state.unsent) :
    StoredIn serde scope state.root stream := by
  have inLog : stream ∈ publishedEvents scope.1 records :=
    held.published.subset (mem_append_right _ mem)
  obtain ⟨record, inRecords, published⟩ := exists_record_of_published inLog
  obtain ⟨root, process, sent⟩ := state
  cases held.process with
  | down => cases mem
  | closed _ idle _ =>
    change stream ∈ HubProcess.unsent _ at mem
    rw [idle] at mem
    cases mem
  | healthy writerHeld isStream isRevision same _ _ =>
    obtain ⟨_, scan, scanned, sameRecords, _⟩ := writerHeld.rootHolds
    rw [isStream, isRevision] at scanned
    refine ⟨_, (verifyWal_ok_iff held.sorted).mpr ⟨scan, scanned, rfl⟩, record, ?_, published⟩
    rw [sameRecords, same]
    exact inRecords

/-- The events of one process follow the sequence it started from. -/
theorem ProcessHeld.consecutive (held : ProcessHeld serde scope root records (some process))
    (contiguous : Contiguous scope.1 (publishedEvents scope.1 records)) :
    (process.handed ++ process.unsent).map StreamEvent.sequence =
      List.range' (process.recovered + 1) (process.handed ++ process.unsent).length := by
  have window : process.handed ++ process.unsent =
      (publishedEvents scope.1 records).drop process.recovered := by
    cases held with
    | healthy _ _ _ _ _ window => exact window
    | closed _ idle window =>
      rw [idle, append_nil]
      exact window
  rw [window, map_drop, contiguous.sequences, drop_range', length_drop,
    Nat.add_comm process.recovered 1, Nat.mul_one]

/-- In every run, whatever fails or stops: what was sent increases in sequence
and names no event twice, each event was stored before it was sent, a process
skips none of its own, and nothing is left out at all while nothing stops
halfway. -/
theorem publishedOnce_of_run
    {streamId configRevision : String} {actions : List HubAction} {state : HubState}
    (run : HubRun serde streamId configRevision actions state) :
    PublishedOnce serde (streamId, configRevision) actions state := by
  obtain ⟨⟨records, held⟩, silent⟩ :=
    @hubHeld_of_run serde (streamId, configRevision) actions state run
  have contiguous := held.sound.contiguous streamId
  have sentPublished : state.sent.Sublist (publishedEvents streamId records) :=
    (sublist_append_left _ _).trans held.published
  refine ⟨contiguous.increasing.sublist sentPublished, ?_, fun _ => held.storedIn, ?_, ?_, ?_, ?_,
    silent⟩
  · have ids : (state.sent.map fun stream => stream.event.eventId).Sublist
        (eventIds (publishedEvents streamId records)) := sentPublished.map _
    exact ids.nodup contiguous.distinct
  · intro stream member verified verifies
    obtain ⟨scan, scanned, rfl⟩ := (verifyWal_ok_iff held.sorted).mp verifies
    obtain ⟨record, inRecords, published⟩ :=
      exists_record_of_published (sentPublished.subset member)
    exact ⟨record, (held.kept scan scanned).subset inRecords, published⟩
  · intro verified verifies
    obtain ⟨scan, scanned, rfl⟩ := (verifyWal_ok_iff held.sorted).mp verifies
    exact scanned.repeats.repeated
  · intro process running
    have processHeld := held.process
    rw [running] at processHeld
    exact processHeld.consecutive contiguous
  · intro wholly
    rw [held.complete wholly]
    exact contiguous.sequences

/-! ## Two processes -/

/-- What the hub of a fresh process is. -/
structure Fresh (serde : Serde) (root : StorageRoot) (hub : DurableRealtimeHub) : Prop where
  held : WriterHeld serde hub.writer root
  healthy : hub.writer.poisoned = false ∧ hub.writer.wal.poisoned = false
  starting : hub.lifecycle = .starting
  unattempted : hub.lastAttempt = 0

/-- A root that holds a log without checkpoints is opened. -/
theorem openHub_fresh
    {root : StorageRoot} {records : List PersistedRealtimeEvent} {entries : List SparseCursorEntry}
    {indexWrites : Bool} {maxSegmentBytes replayCapacity : Nat}
    (holds : RootHolds serde scope root records entries)
    (unsaved : root.checkpoints = StorageRoot.empty.checkpoints)
    (valid : validateConfig scope.1 scope.2 maxSegmentBytes = .ok ())
    (positive : 0 < replayCapacity) :
    ∃ hub after,
      DurableRealtimeHub.openHub serde indexWrites root scope.1 scope.2 maxSegmentBytes
        replayCapacity = .ok (hub, after) ∧
      Opened serde root after scope.1 scope.2 replayCapacity hub.writer ∧
      Fresh serde after hub ∧ hub.writer.records = records := by
  have selects : ∃ selected, selectCheckpoint serde scope.1 scope.2 replayCapacity records
      (sparseIndexOf serde scope entries) [root.checkpoints.current, root.checkpoints.previous] =
      .ok selected := by
    rw [unsaved]
    exact ⟨none, rfl⟩
  obtain ⟨⟨writer, after⟩, success, sameRecords, _⟩ :=
    (@openWriter_succeeds_iff serde indexWrites _ _ _ _ _ _ _ holds valid positive).mpr selects
  have opened := openWriter_opened holds.sorted success
  let hub : DurableRealtimeHub :=
    { writer
      projection := projectionFromWriter writer scope.1 scope.2 .starting
      lifecycle := .starting
      lastAttempt := 0 }
  refine ⟨hub, after, ?_, opened, ⟨opened.held, ⟨opened.healthy, opened.walHealthy⟩, rfl, rfl⟩,
    sameRecords⟩
  unfold DurableRealtimeHub.openHub
  rw [success]

/-- A fresh process connects and persists one event. -/
theorem run_of_fresh
    {root : StorageRoot} {hub : DurableRealtimeHub} {recovered : Nat} {sent : List StreamEvent}
    {environment : AppendEnvironment} {event : NormalizedProviderEvent}
    (fresh : Fresh serde root hub) (completes : environment.write = .completes)
    (proven : serde.validEventEvidence event = true)
    (cursors : hub.writer.records.length + 1 < 2 ^ 64)
    (segments : hub.writer.wal.currentSegmentId + 1 < 2 ^ 64) :
    ∃ after rootAfter outcomes,
      Run (HubStep serde scope.1 scope.2) ⟨root, some ⟨hub, recovered, [], []⟩, sent⟩
        [.ingest environment .permits (.connected 1) (.ok 0),
          .ingest environment .permits (.subscriptionsReady 1) (.ok 0),
          .ingest environment .permits (.events 1 [event])
            (.ok (outcomes.filterMap DurableApplyOutcome.published).length)]
        ⟨rootAfter, some ⟨after, recovered, [],
          outcomes.filterMap DurableApplyOutcome.published⟩, sent⟩ ∧
      BatchApplied serde hub.writer after.writer root rootAfter [event] outcomes := by
  obtain ⟨outcomes, writer, rootAfter, applies, applied⟩ :=
    applyBatch_succeeds fresh.held fresh.healthy completes (cons_ne_nil event [])
      (by simpa using proven) cursors segments
  let connected : DurableRealtimeHub :=
    { hub with lifecycle := .connected 1, lastAttempt := 1 }.store (.connected 1)
  let ready : DurableRealtimeHub := { connected with lifecycle := .ready 1 }.store (.ready 1)
  have connects : hub.ingest serde environment .permits root (.connected 1) =
      DurableRealtimeHub.accepted connected root := by
    simp [DurableRealtimeHub.ingest, DurableRealtimeHub.connectedIsValid, fresh.starting,
      fresh.unattempted, connected]
  have subscribes : connected.ingest serde environment .permits root (.subscriptionsReady 1) =
      DurableRealtimeHub.accepted ready root := by
    simp [DurableRealtimeHub.ingest, connected, ready]
  have persists : ready.ingest serde environment .permits root (.events 1 [event]) =
      ready.ingestEvents serde environment root 1 [event] := by
    simp [DurableRealtimeHub.ingest, connected, ready]
  have sameWriter : ready.writer = hub.writer := rfl
  unfold DurableRealtimeHub.ingestEvents at persists
  rw [sameWriter, applies] at persists
  refine ⟨{ ready with writer }.store (.ready 1), rootAfter, outcomes, ?_, applied⟩
  exact .cons (.ingested connects) (.cons (.ingested subscribes) (Run.single (.ingested persists)))

/-- Events that are recorded once are applied. -/
theorem WriterHeld.applied_of_distinct (held : WriterHeld serde writer root)
    (distinct : (writer.records.map fun record => record.event.eventId).Nodup) :
    ∀ record ∈ writer.records, record.applied = true := by
  obtain ⟨_, scan, scanned, same, _⟩ := held.rootHolds
  intro record mem
  obtain ⟨other, inLog, applied, sameId⟩ := scanned.exists_applied (same.symm ▸ mem)
  rw [same] at inLog
  have one := inj_on_of_nodup_map distinct inLog mem sameId
  rwa [one] at applied

/-- A batch of one event is persisted as one record. -/
theorem BatchApplied.single {writer after : DurableRealtimeWriter} {event : NormalizedProviderEvent}
    (applied : BatchApplied serde writer after root rootAfter [event] outcomes) :
    ∃ record, record.event = event ∧ after.records = writer.records ++ [record] ∧
      outcomes.filterMap DurableApplyOutcome.published =
        publishedEvents writer.streamId [record] := by
  have events := applied.events
  have persisted := applied.persisted
  have published := applied.published_eq
  obtain ⟨outcome, rfl, same⟩ := map_eq_singleton_iff.mp events
  exact ⟨outcome.persisted, same, persisted, published⟩

theorem publishedEvents_of_applied (applied : record.applied = true) :
    publishedEvents streamId [record] =
      [⟨streamId, record.publicSequence.getD 0, record.event⟩] := by
  rw [publishedEvents_singleton, publishedBy, if_pos applied]
  rfl

/-- A process that stops after it has persisted an event and before it has sent
it leaves a hole: the next process sends the event after it. -/
theorem run_of_interrupted
    {indexWrites : Bool} {maxSegmentBytes replayCapacity : Nat} {environment : AppendEnvironment}
    {first second : NormalizedProviderEvent}
    (valid : validateConfig scope.1 scope.2 maxSegmentBytes = .ok ())
    (positive : 0 < replayCapacity) (completes : environment.write = .completes)
    (firstProven : serde.validEventEvidence first = true)
    (secondProven : serde.validEventEvidence second = true)
    (ne : first.eventId ≠ second.eventId) :
    ∃ state stream,
      HubRun serde scope.1 scope.2
        [.openHub indexWrites maxSegmentBytes replayCapacity,
          .ingest environment .permits (.connected 1) (.ok 0),
          .ingest environment .permits (.subscriptionsReady 1) (.ok 0),
          .ingest environment .permits (.events 1 [first]) (.ok 1),
          .interrupt,
          .openHub indexWrites maxSegmentBytes replayCapacity,
          .ingest environment .permits (.connected 1) (.ok 0),
          .ingest environment .permits (.subscriptionsReady 1) (.ok 0),
          .ingest environment .permits (.events 1 [second]) (.ok 1),
          .send stream] state ∧
        state.sent = [stream] ∧ stream.sequence = 2 := by
  obtain ⟨hub, root, opens, opened, fresh, noRecords⟩ :=
    @openHub_fresh serde scope .empty [] [] indexWrites maxSegmentBytes replayCapacity
      (rootHolds_empty serde scope) rfl valid positive
  obtain ⟨scan, scanned, _, _, segment⟩ := fresh.held.wal.scanned
  rw [opened.segments] at scanned
  have noSegment : hub.writer.wal.currentSegmentId = 0 := by
    rw [← segment, scanned_nil_iff.mp scanned]
    rfl
  obtain ⟨persisted, rootPersisted, outcomes, firstRun, applied⟩ :=
    @run_of_fresh serde scope root hub hub.writer.sequence [] environment first fresh completes
      firstProven (by rw [noRecords]; simp) (by rw [noSegment]; decide)
  obtain ⟨record, isFirst, firstRecords, firstPublished⟩ := applied.single
  rw [noRecords, nil_append] at firstRecords
  have firstApplied : record.applied = true :=
    applied.held.applied_of_distinct (by simp [firstRecords]) record (by simp [firstRecords])
  rw [publishedEvents_of_applied firstApplied] at firstPublished
  have holds := applied.held.rootHolds
  rw [firstRecords, applied.streamId, applied.configRevision, opened.streamId,
    opened.configRevision] at holds
  obtain ⟨again, rootAgain, reopens, reopened, refreshed, oneRecord⟩ :=
    @openHub_fresh serde scope rootPersisted _ _ indexWrites maxSegmentBytes replayCapacity holds
      (applied.checkpoints.trans opened.checkpoints) valid positive
  have oneSegment : again.writer.wal.currentSegmentId ≤ 1 := by
    rw [applied.held.sameSegment refreshed.held reopened.segments
      (reopened.streamId.trans (applied.streamId.trans opened.streamId).symm)
      (reopened.configRevision.trans (applied.configRevision.trans opened.configRevision).symm)]
    have bound := applied.segment
    rwa [noSegment] at bound
  obtain ⟨last, rootLast, laterOutcomes, secondRun, laterApplied⟩ :=
    @run_of_fresh serde scope rootAgain again again.writer.sequence [] environment second
      refreshed completes secondProven (by rw [oneRecord]; simp) (by omega)
  obtain ⟨later, isSecond, bothRecords, laterPublished⟩ := laterApplied.single
  rw [oneRecord] at bothRecords
  have laterIsApplied : later.applied = true := by
    refine laterApplied.held.applied_of_distinct ?_ later (by simp [bothRecords])
    simpa [bothRecords, isFirst, isSecond] using ne
  rw [publishedEvents_of_applied laterIsApplied] at laterPublished
  have sequence : later.publicSequence.getD 0 = 2 := by
    have contiguous := laterApplied.held.records.contiguous scope.1
    have sequences := contiguous.sequences
    rw [bothRecords, singleton_append, ← singleton_append, publishedEvents_append,
      publishedEvents_of_applied firstApplied, publishedEvents_of_applied laterIsApplied]
      at sequences
    have both : [record.publicSequence.getD 0, later.publicSequence.getD 0] = [1, 2] := sequences
    injection both with _ rest
    injection rest
  let stream : StreamEvent := ⟨again.writer.streamId, later.publicSequence.getD 0, later.event⟩
  refine ⟨⟨rootLast, some ⟨last, again.writer.sequence, [stream], []⟩, [stream]⟩, stream, ?_, rfl,
    sequence⟩
  rw [firstPublished] at firstRun
  rw [laterPublished] at secondRun
  have firstProcess := Run.append (Run.single (.opened opens)) firstRun
  have stopped := Run.append firstProcess (Run.single .interrupted)
  have secondProcess := Run.append (Run.append stopped (Run.single (.opened reopens))) secondRun
  exact Run.append secondProcess (Run.single .sends)

end Hub

theorem sampleStatus_different : (sampleStatus 0).eventId ≠ (sampleStatus 1).eventId := by
  decide +kernel

theorem interrupted_process_leaves_hole :
    ∃ state stream,
      HubRun sampleSerde "longport" "revision-1"
        [.openHub true 4096 2, .ingest sampleEnvironment .permits (.connected 1) (.ok 0),
          .ingest sampleEnvironment .permits (.subscriptionsReady 1) (.ok 0),
          .ingest sampleEnvironment .permits (.events 1 [sampleStatus 0]) (.ok 1),
          .interrupt,
          .openHub true 4096 2,
          .ingest sampleEnvironment .permits (.connected 1) (.ok 0),
          .ingest sampleEnvironment .permits (.subscriptionsReady 1) (.ok 0),
          .ingest sampleEnvironment .permits (.events 1 [sampleStatus 1]) (.ok 1),
          .send stream] state ∧
        state.sent = [stream] ∧ stream.sequence = 2 :=
  @run_of_interrupted sampleSerde ("longport", "revision-1") true 4096 2 sampleEnvironment _ _
    sampleConfig_valid (by decide) rfl (sampleStatus_proven 0) (sampleStatus_proven 1)
    sampleStatus_different

theorem publishedOnce_sample :
    ∃ actions state, state.sent ≠ [] ∧ HubRun sampleSerde "longport" "revision-1" actions state ∧
      PublishedOnce sampleSerde ("longport", "revision-1") actions state := by
  obtain ⟨state, stream, run, sent, _⟩ :=
    @run_of_interrupted sampleSerde ("longport", "revision-1") true 4096 2 sampleEnvironment _ _
      sampleConfig_valid (by decide) rfl (sampleStatus_proven 0) (sampleStatus_proven 1)
      sampleStatus_different
  exact ⟨_, state, by simp [sent], run, publishedOnce_of_run run⟩

end MarketCow.Realtime
