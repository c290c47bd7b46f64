import MarketCow.Core.Step
import MarketCow.Core.Writer

/-!
# Replay after a checkpoint

Replay resumes a writer from a checkpoint and applies the stored events again.
Since a stored event evaluates like the event it stands for, the replaying
writer stays in lockstep with the one that wrote the log.
-/

namespace MarketCow.Core

open Library List
open SingleWriter (apply_ok_iff prune resume)

/-- The log of a replay stores nothing and never fails. -/
def replayLog : DurableLog Unit where
  appendOutcome := fun log _ => (.ok (), log)
  appendOutcomes := fun log _ => (.ok (), log)

/-- The replayed decision differs from the recorded one. Records without market
metadata predate it. -/
def diverges (replayed persisted : PersistedEvent) : Bool :=
  replayed.applied != persisted.applied ||
    replayed.failClosedReason != persisted.failClosedReason ||
    (persisted.market.isSome && replayed.market != persisted.market)

/-- Apply one record. The clock gives the publication time of each cursor. -/
def replayRecord (platform : Platform) (clock : Nat → DateTime) (writer : SingleWriter Unit)
    (persisted : PersistedEvent) : Except Failure (SingleWriter Unit) :=
  match writer.apply platform replayLog (clock persisted.event.cursor) persisted.event with
  | (.error failure, _) => .error failure
  | (.ok replayed, next) =>
    if diverges replayed.persisted persisted then
      .error (.error (.replayDivergence persisted.event.cursor))
    else .ok next

def replayAfterCheckpoint (platform : Platform) (clock : Nat → DateTime) (checkpoint : Projection)
    (records : List PersistedEvent) : Except Failure Projection :=
  match resume checkpoint () with
  | .error cause => .error (.error cause)
  | .ok writer => do
    let final ←
      (records.filter fun record => checkpoint.cursor < record.event.cursor).foldlM
        (replayRecord platform clock) writer
    .ok final.current

/-! ## Lockstep -/

/-- An event that a writer applied, and the record it persisted. -/
structure AppliedEvent extends EvaluatedEvent where
  now : DateTime

/-- One accepted application. -/
def Applies {L : Type}
    (platform : Platform) (durable : DurableLog L) (writer : SingleWriter L) (label : AppliedEvent)
    (next : SingleWriter L) : Prop :=
  ∃ projection, writer.apply platform durable label.now label.event =
    (.ok { projection := projection, persisted := label.persisted }, next)

/-- Apply events one after another, as long as every application succeeds. -/
def applyAll
    {L : Type} (platform : Platform) (durable : DurableLog L) (clock : Nat → DateTime)
    (writer : SingleWriter L) :
    List CanonicalEvent → Option (List AppliedEvent × SingleWriter L)
  | [] => some ([], writer)
  | event :: events =>
    match writer.apply platform durable (clock event.cursor) event with
    | (.error _, _) => none
    | (.ok outcome, next) =>
      (applyAll platform durable clock next events).map fun rest =>
        ({ event := event, persisted := outcome.persisted, now := clock event.cursor } ::
          rest.1, rest.2)

variable {platform : Platform} {clock : Nat → DateTime} {L : Type} {durable : DurableLog L}

/-- Applying all events is a run of applications. -/
theorem applyAll_run (applied : applyAll platform durable clock writer events = some result) :
    Run (Applies platform durable) writer result.1 result.2 := by
  induction events generalizing writer result with
  | nil =>
    cases applied
    exact .nil
  | cons event events ih =>
    unfold applyAll at applied
    split at applied
    · cases applied
    · rename_i outcome next step
      obtain ⟨rest, continued, rfl⟩ := map_eq_some_iff.mp applied
      exact .cons ⟨outcome.projection, step⟩ (ih continued)

/-- Two writers that evaluate every event alike. -/
structure Agrees {L M : Type} (first : SingleWriter L) (second : SingleWriter M) : Prop where
  state : second.current.toCanonicalState = first.current.toCanonicalState
  index : second.recentEventIndex = first.recentEventIndex
  enforce : second.enforceSourceFreshness = first.enforceSourceFreshness

/-- A record never diverges from itself. -/
theorem diverges_self (persisted : PersistedEvent) : diverges persisted persisted = false := by
  simp [diverges]

/-- A record that evaluates to itself replays. -/
theorem replayRecord_of_apply {writer next : SingleWriter Unit} {persisted : PersistedEvent}
    (applied : writer.apply platform replayLog (clock persisted.event.cursor)
      persisted.event = (.ok { projection := projection, persisted := persisted }, next)) :
    replayRecord platform clock writer persisted = .ok next := by
  unfold replayRecord
  rw [applied]
  dsimp only
  rw [diverges_self, if_neg Bool.false_ne_true]

/-- An application takes the cursor after the published one. -/
theorem Applies.cursor {writer next : SingleWriter L} {label : AppliedEvent}
    (applied : Applies platform durable writer label next) :
    label.persisted.event.cursor = writer.current.cursor + 1 ∧
      next.current.cursor = writer.current.cursor + 1 := by
  obtain ⟨projection, applied⟩ := applied
  obtain ⟨_, state, log, evaluated, _, published, rfl⟩ := apply_ok_iff.mp applied
  obtain ⟨phases⟩ := phases_of_evaluateEvent evaluated
  have reached := congrArg Position.cursor phases.next_position
  subst published
  constructor
  · rw [phases.stored_cursor, phases.cursor]
  · rw [← phases.cursor]
    exact reached

/-- Replaying the record of an application keeps the writers in agreement. -/
theorem Agrees.step
    {L : Type} {platform : Platform} {durable : DurableLog L} (clock : Nat → DateTime)
    {writer next : SingleWriter L} {replaying : SingleWriter Unit} {label : AppliedEvent}
    (agrees : Agrees writer replaying) (applied : Applies platform durable writer label next) :
    ∃ replayed, replayRecord platform clock replaying label.persisted = .ok replayed ∧
      Agrees next replayed := by
  obtain ⟨projection, applied⟩ := applied
  obtain ⟨fresh, state, log, evaluated, _, published, rfl⟩ := apply_ok_iff.mp applied
  have stored := persisted_event_of_evaluateEvent evaluated
  obtain ⟨changes, rewritten⟩ := exists_rewriteEvent_eq_withChanges
    writer.enforceSourceFreshness (admittedState writer.current.toCanonicalState label.event)
    label.event
  have sameId : label.persisted.event.eventId = label.event.eventId := by
    rw [stored, rewritten]
    rfl
  have again : evaluateEvent platform true false replaying.enforceSourceFreshness
      replaying.current.toCanonicalState label.persisted.event = .ok (state, label.persisted) := by
    rw [agrees.state, agrees.enforce, stored, evaluateEvent_rewriteEvent]
    exact evaluated
  have unseen : label.persisted.event.eventId ∉ replaying.recentEventIndex := by
    rw [agrees.index, sameId]
    exact fresh
  have replayed : replaying.apply platform replayLog
      (clock label.persisted.event.cursor) label.persisted.event =
        (.ok
          { projection :=
              { toCanonicalState := state
                publishedAt := clock label.persisted.event.cursor }
            persisted := label.persisted }, _) :=
    apply_ok_iff.mpr ⟨unseen, state, (), again, rfl, rfl, rfl⟩
  refine ⟨_, replayRecord_of_apply replayed, ?_⟩
  constructor
  · rw [published]
  · rw [agrees.index, agrees.state]
  · exact agrees.enforce

/-- Replaying the records of a run keeps the writers in agreement, and all of
these records lie after the start of the run. -/
theorem Agrees.run (clock : Nat → DateTime)
    {writer final : SingleWriter L} {replaying : SingleWriter Unit} {labels : List AppliedEvent}
    (agrees : Agrees writer replaying) (run : Run (Applies platform durable) writer labels final) :
    ∃ replayed,
      (labels.map fun label => label.persisted).foldlM (replayRecord platform clock)
          replaying = .ok replayed ∧
        Agrees final replayed ∧
        (∀ label ∈ labels, writer.current.cursor < label.persisted.event.cursor) ∧
        writer.current.cursor ≤ final.current.cursor := by
  induction run with
  | nil => exact ⟨replaying, rfl, agrees, by simp, le_refl _⟩
  | @snoc labels middle label final _ applied ih =>
    obtain ⟨reached, replayed, inStep, later, ahead⟩ := ih
    obtain ⟨finished, record, agreement⟩ := inStep.step clock applied
    obtain ⟨labelCursor, finalCursor⟩ := Applies.cursor applied
    refine ⟨finished, ?_, agreement, ?_, by omega⟩
    · rw [map_append]
      exact foldlM_append_ok.mpr ⟨reached, replayed, foldlM_cons_ok.mpr ⟨finished, record, rfl⟩⟩
    · intro other mem
      rcases mem_append.mp mem with earlier | isLast
      · exact later other earlier
      · obtain rfl := mem_singleton.mp isLast
        omega

/-- Replay from a checkpoint reproduces the writer that resumed there: older
records are skipped, no record diverges, and the canonical state is that of the
writer. -/
theorem replayAfterCheckpoint_reproduces_writer
    {L : Type} (platform : Platform) (durable : DurableLog L) (clock : Nat → DateTime)
    (checkpoint : Projection) (log : L) (writer final : SingleWriter L) (labels : List AppliedEvent)
    (older : List PersistedEvent) (resumed : resume checkpoint log = .ok writer)
    (run : Run (Applies platform durable) writer labels final)
    (covered : ∀ record ∈ older, record.event.cursor ≤ checkpoint.cursor) :
    ∃ replayed,
      replayAfterCheckpoint platform clock checkpoint
          (older ++ labels.map fun label => label.persisted) = .ok replayed ∧
        replayed.toCanonicalState = final.current.toCanonicalState := by
  unfold resume at resumed
  split at resumed
  · cases resumed
  · rename_i watermark
    cases resumed
    have sameCursor : (prune checkpoint).cursor = checkpoint.cursor :=
      congrArg Position.cursor
        (CanonicalState.position_pruneStaleScopeGaps checkpoint.toCanonicalState)
    have aligned : Agrees
        { current := prune checkpoint
          recentEventIndex := (prune checkpoint).recentEventIds.toFinset
          log := log
          enforceSourceFreshness := true }
        { current := prune checkpoint
          recentEventIndex := (prune checkpoint).recentEventIds.toFinset
          log := ()
          enforceSourceFreshness := true } := ⟨rfl, rfl, rfl⟩
    obtain ⟨replayed, folded, agrees, later, _⟩ := aligned.run clock run
    have skipped : older.filter (fun record => checkpoint.cursor < record.event.cursor) = [] := by
      rw [filter_eq_nil_iff]
      intro record member
      simpa using covered record member
    have kept : (labels.map fun label => label.persisted).filter
        (fun record => checkpoint.cursor < record.event.cursor) =
          labels.map fun label => label.persisted := by
      rw [filter_eq_self]
      intro record member
      obtain ⟨label, inRun, rfl⟩ := mem_map.mp member
      have after := later label inRun
      rw [show (prune checkpoint).cursor = checkpoint.cursor from sameCursor] at after
      simpa using after
    refine ⟨replayed.current, ?_, agrees.state⟩
    unfold replayAfterCheckpoint resume
    rw [if_neg watermark, filter_append, skipped, kept, nil_append]
    dsimp only
    rw [folded]
    rfl

/-- A book, a frame whose quote prunes one of its levels, and a misaligned delta. -/
def sampleReplayEvents : List CanonicalEvent :=
  [sampleEvent 1 "e1" (sampleFullBook "t"),
   sampleEvent 2 "e2"
    (.atomicDelta "t" [⟨.bid, [⟨0, 1⟩]⟩] (some 0) (some (3 / 4))),
   sampleEvent 3 "e3" (.delta "t" .bid [⟨1 / 8, 1⟩])]

/-- The writer resumed on the empty scope. -/
def sampleReplayWriter : SingleWriter Unit where
  current := prune (Projection.bootstrap "scope" 0)
  recentEventIndex := ∅
  log := ()
  enforceSourceFreshness := true

/-- The run of the sample events. -/
def sampleReplayRun : List AppliedEvent × SingleWriter Unit :=
  (applyAll samplePlatform replayLog (fun cursor => cursor) sampleReplayWriter
    sampleReplayEvents).get (by decide +kernel)

theorem replayAfterCheckpoint_reproduces_sample :
    ∃ replayed,
      replayAfterCheckpoint samplePlatform (fun _ => 0) (.bootstrap "scope" 0)
          ([] ++ sampleReplayRun.1.map fun label => label.persisted) = .ok replayed ∧
        replayed.toCanonicalState = sampleReplayRun.2.current.toCanonicalState :=
  replayAfterCheckpoint_reproduces_writer samplePlatform replayLog (fun _ => 0)
    (.bootstrap "scope" 0) () sampleReplayWriter sampleReplayRun.2
    sampleReplayRun.1 [] (by decide +kernel)
    (applyAll_run (some_get _).symm) (by simp)

/-! ## Logs that replay -/

/-- A record that replays is applied, and its decision is the recorded one. -/
theorem applies_of_replayRecord {writer next : SingleWriter Unit} {record : PersistedEvent}
    (replayed : replayRecord platform clock writer record = .ok next) :
    ∃ label : AppliedEvent, Applies platform replayLog writer label next ∧
      label.event = record.event ∧ diverges label.persisted record = false := by
  unfold replayRecord at replayed
  split at replayed
  · cases replayed
  · rename_i outcome final applied
    split at replayed
    · cases replayed
    · rename_i same
      cases replayed
      exact ⟨{ event := record.event, persisted := outcome.persisted, now := _ },
        ⟨outcome.projection, applied⟩, rfl, Bool.eq_false_iff.mpr same⟩

/-- An applied event has the cursor after the published one. -/
theorem Applies.event_cursor {writer next : SingleWriter L} {label : AppliedEvent}
    (applied : Applies platform durable writer label next) :
    label.event.cursor = writer.current.cursor + 1 := by
  obtain ⟨_, applied⟩ := applied
  obtain ⟨_, _, _, evaluated, _, published, _⟩ := apply_ok_iff.mp applied
  obtain ⟨phases⟩ := phases_of_evaluateEvent evaluated
  subst published
  exact phases.cursor

/-- Records that replay one after another are those of a run, with the cursors that follow. -/
theorem run_of_foldlM_replayRecord {start finish : SingleWriter Unit} {later : List PersistedEvent}
    (folded : later.foldlM (replayRecord platform clock) start = .ok finish) :
    ∃ labels, Run (Applies platform replayLog) start labels finish ∧
      Forall₂ (fun label record => label.event = record.event ∧
          diverges label.persisted record = false) labels later ∧
        finish.current.cursor = start.current.cursor + labels.length ∧
          later.map (fun record => record.event.cursor) =
            range' (start.current.cursor + 1) labels.length := by
  induction later using reverseRecOn generalizing finish with
  | nil =>
    cases folded
    exact ⟨[], .nil, .nil, rfl, rfl⟩
  | append_singleton front record ih =>
    obtain ⟨middle, before, last⟩ := foldlM_append_ok.mp folded
    obtain ⟨next, taken, finished⟩ := foldlM_cons_ok.mp last
    cases finished
    obtain ⟨labels, run, same, reached, cursors⟩ := ih before
    obtain ⟨label, applied, named, agrees⟩ := applies_of_replayRecord taken
    have placed : record.event.cursor = middle.current.cursor + 1 := named ▸ applied.event_cursor
    refine ⟨labels ++ [label], .snoc run applied,
      rel_append same (.cons ⟨named, agrees⟩ .nil), ?_, ?_⟩
    · rw [applied.cursor.2, reached, length_append, length_singleton, Nat.add_assoc]
    · rw [map_append, cursors, length_append, length_singleton, range'_1_concat,
        map_singleton, placed, reached]
      congr 2
      omega

/-- Replay accepts nothing but the log of a writer: the records after the checkpoint
have the cursors that follow it, without a hole, and are those of a run, which ends in
the projection that replay answers with. -/
theorem replayed_records_of_run
    (platform : Platform) (clock : Nat → DateTime) (checkpoint final : Projection)
    (records : List PersistedEvent)
    (replayed : replayAfterCheckpoint platform clock checkpoint records = .ok final) :
    ∃ (start finish : SingleWriter Unit) (labels : List AppliedEvent),
      resume checkpoint () = .ok start ∧ finish.current = final ∧
        Run (Applies platform replayLog) start labels finish ∧
        let later := records.filter fun record => checkpoint.cursor < record.event.cursor
        Forall₂ (fun label record => label.event = record.event ∧
            diverges label.persisted record = false) labels later ∧
          later.map (fun record => record.event.cursor) =
            range' (checkpoint.cursor + 1) labels.length := by
  unfold replayAfterCheckpoint at replayed
  split at replayed
  · cases replayed
  · rename_i start resumed
    obtain ⟨finish, folded, ended⟩ := bind_ok.mp replayed
    cases ended
    have cursor : start.current.cursor = checkpoint.cursor := by
      unfold resume at resumed
      split at resumed
      · cases resumed
      · cases resumed
        exact congrArg Position.cursor
          (CanonicalState.position_pruneStaleScopeGaps checkpoint.toCanonicalState)
    obtain ⟨labels, run, same, _, cursors⟩ := run_of_foldlM_replayRecord folded
    exact ⟨start, finish, labels, resumed, rfl, run, same, cursor ▸ cursors⟩

/-- The replay of the sample records. -/
def sampleReplayed : Projection :=
  (replayAfterCheckpoint samplePlatform (fun _ => 0) (Projection.bootstrap "scope" 0)
    (sampleReplayRun.1.map fun label => label.persisted)).toOption.get (by decide +kernel)

theorem replayed_records_of_sample :
    ∃ labels : List AppliedEvent, labels.length = 3 ∧
      ((sampleReplayRun.1.map fun label => label.persisted).filter fun record =>
          0 < record.event.cursor).map (fun record => record.event.cursor) =
        range' 1 labels.length := by
  obtain ⟨_, _, labels, _, _, _, same, cursors⟩ :=
    replayed_records_of_run samplePlatform (fun _ => 0) (.bootstrap "scope" 0)
      sampleReplayed _ (Fallible.eq_ok_get _)
  exact ⟨labels, same.length_eq.trans (by decide +kernel), cursors⟩

end MarketCow.Core
