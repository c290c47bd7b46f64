import MarketCow.Core.Replay
import MarketCow.Core.WriterRun

/-!
# Batches and single applications

A frame of several events takes the same way as its events one at a time. The
two entries check duplicates differently: a batch tests a growing copy of the
index, an application the index itself, from which the window evicts. They
agree because the index of a reachable writer is the set of its window.
-/

namespace MarketCow.Core

open Library List

/-! ## Reachable writers -/

/-- Writers that a process can hold: a new one, one resumed from the published
projection of another, and the successor of a command. -/
inductive Reachable (platform : Platform) :
    (L : Type) → DurableLog L → SingleWriter L → Prop
  | new
      {L : Type}
      {durable : DurableLog L}
      (scopeId : String)
      (log : L)
      (now : DateTime) :
      Reachable platform L durable (SingleWriter.new scopeId log now)
  | newDataDelivery
      {L : Type}
      {durable : DurableLog L}
      (scopeId : String)
      (log : L)
      (now : DateTime) :
      Reachable platform L durable (SingleWriter.newDataDelivery scopeId log now)
  | resumed
      {L M : Type}
      {durable : DurableLog L}
      {earlier : DurableLog M}
      {writer : SingleWriter L}
      {stopped : SingleWriter M}
      {log : L} :
      Reachable platform M earlier stopped →
      SingleWriter.resume stopped.current log = .ok writer →
      Reachable platform L durable writer
  | executed
      {L : Type}
      {durable : DurableLog L}
      {writer next : SingleWriter L}
      {label : Command × Except Failure (List ApplyOutcome)} :
      Reachable platform L durable writer →
      SingleWriter.Step platform durable writer label next →
      Reachable platform L durable next

/-- The duplicate window of a state: bounded, and without repetition. -/
structure WindowSound (recentEventIds : List String) : Prop where
  distinct : recentEventIds.Nodup
  bounded : recentEventIds.length ≤ recentEventLimit

/-- The index of a writer is the set of its window. -/
structure SingleWriter.Indexed {L : Type} (writer : SingleWriter L) : Prop where
  window : WindowSound writer.current.recentEventIds
  index : writer.recentEventIndex = writer.current.recentEventIds.toFinset

variable {recentEventIds : List String}

section

variable (sound : WindowSound recentEventIds) (fresh : eventId ∉ recentEventIds)
include sound fresh

theorem WindowSound.pushRecent :
    WindowSound (pushRecent recentEventIds eventId) := by
  have extended : (recentEventIds ++ [eventId]).Nodup := by
    rw [nodup_append]
    refine ⟨sound.distinct, nodup_singleton _, ?_⟩
    intro known present other isLast same
    rw [mem_singleton.mp isLast] at same
    exact fresh (same ▸ present)
  have length : (recentEventIds ++ [eventId]).length = recentEventIds.length + 1 := by simp
  have bounded := sound.bounded
  unfold Core.pushRecent
  dsimp only
  split
  · exact ⟨extended.sublist (tail_sublist _), by rw [length_tail]; omega⟩
  · exact ⟨extended, by omega⟩

/-- The incremental index follows the window. -/
theorem indexAfter_toFinset :
    SingleWriter.indexAfter recentEventIds.toFinset recentEventIds eventId =
      (pushRecent recentEventIds eventId).toFinset := by
  have bounded := sound.bounded
  unfold SingleWriter.indexAfter SingleWriter.evictedId pushRecent
  by_cases full : recentEventIds.length = recentEventLimit
  · rw [if_pos full, if_pos (by rw [length_append, full]; exact Nat.lt_succ_self _)]
    cases recentEventIds with
    | nil => exact absurd full (by decide)
    | cons oldest rest =>
      have unique : oldest ∉ rest := (nodup_cons.mp sound.distinct).1
      rw [head?_cons, elim_some, cons_append, tail_cons,
        toFinset_cons, Finset.erase_insert (by simpa using unique)]
      ext known
      simp
  · rw [if_neg full, if_neg (by rw [length_append, length_singleton]; omega)]
    ext known
    simp

end

variable {platform : Platform}

theorem recentEventIds_of_evaluates
    {validateRawPayload validateDuplicate enforce : Bool} {state next : CanonicalState}
    {event : CanonicalEvent} {persisted : PersistedEvent}
    (evaluated :
      evaluateEvent platform validateRawPayload validateDuplicate enforce
        state event = .ok (next, persisted)) :
    next.recentEventIds = pushRecent state.recentEventIds event.eventId ∧
      persisted.event.eventId = event.eventId := by
  obtain ⟨phases⟩ := phases_of_evaluateEvent evaluated
  refine ⟨congrArg Position.recentEventIds phases.next_position, ?_⟩
  obtain ⟨changes, same⟩ := phases.exists_withChanges
  rw [same]
  rfl

variable {L : Type} {durable : DurableLog L} {writer next : SingleWriter L} {now : DateTime}

/-- A single application keeps the index and the window together. -/
theorem SingleWriter.Indexed.apply
    {event : CanonicalEvent} {outcome : ApplyOutcome} (indexed : writer.Indexed)
    (applied : writer.apply platform durable now event = (.ok outcome, next)) :
    next.Indexed := by
  obtain ⟨fresh, state, log, evaluated, _, published, rfl⟩ := SingleWriter.apply_ok_iff.mp applied
  obtain ⟨pushed, sameId⟩ := recentEventIds_of_evaluates evaluated
  have unseen : event.eventId ∉ writer.current.recentEventIds := by
    rw [indexed.index] at fresh
    simpa using fresh
  refine ⟨?_, ?_⟩
  · rw [published]
    exact pushed ▸ indexed.window.pushRecent unseen
  · rw [published, sameId, indexed.index, indexAfter_toFinset indexed.window unseen]
    exact congrArg List.toFinset pushed.symm

theorem SingleWriter.insertFresh_ok_iff {eventIds after : Finset String} {event : CanonicalEvent} :
    SingleWriter.insertFresh eventIds event = .ok after ↔
      event.eventId ∉ eventIds ∧ after = insert event.eventId eventIds := by
  unfold SingleWriter.insertFresh
  split
  · rename_i known
    simp [known]
  · rename_i unknown
    simp [unknown, eq_comm]

/-- Pushing an event adds no other identity to the window. -/
theorem toFinset_pushRecent_subset
    (covered : recentEventIds.toFinset ⊆ known) (eventId : String) :
    (pushRecent recentEventIds eventId).toFinset ⊆ insert eventId known := by
  intro recent present
  have mem : recent ∈ pushRecent recentEventIds eventId := by simpa using present
  have extended : recent ∈ recentEventIds ++ [eventId] := by
    unfold pushRecent at mem
    dsimp only at mem
    split at mem
    · exact mem_of_mem_tail mem
    · exact mem
  rcases mem_append.mp extended with earlier | last
  · exact Finset.mem_insert_of_mem (covered (by simpa using earlier))
  · rw [mem_singleton.mp last]
    exact Finset.mem_insert_self _ _

variable {events : List CanonicalEvent}

theorem SingleWriter.evaluateBatch_ok_iff
    :
    SingleWriter.evaluateBatch platform writer first events = .ok result ↔
      SingleWriter.frameIsUniform platform first.rawPayload events = true ∧
        (∃ known, events.foldlM SingleWriter.insertFresh writer.recentEventIndex = .ok known) ∧
        events.foldlM (SingleWriter.evaluateNext platform writer.enforceSourceFreshness)
          (writer.current.toCanonicalState, []) = .ok result := by
  unfold SingleWriter.evaluateBatch
  by_cases uniform : SingleWriter.frameIsUniform platform first.rawPayload events = true
  · rw [if_pos uniform]
    constructor
    · intro evaluated
      obtain ⟨known, fresh, folded⟩ := bind_ok.mp evaluated
      exact ⟨uniform, ⟨known, fresh⟩, folded⟩
    · rintro ⟨_, ⟨known, fresh⟩, folded⟩
      exact bind_ok.mpr ⟨known, fresh, folded⟩
  · rw [if_neg uniform]
    constructor
    · intro evaluated
      cases evaluated
    · rintro ⟨isUniform, _⟩
      exact absurd isUniform uniform

/-- The fresh identities of a batch leave the window sound, whatever the batch
contains. -/
theorem windowSound_of_evaluateBatch
    {enforce : Bool} {known after : Finset String} {state final : CanonicalState}
    {before persisted : List PersistedEvent}
    (sound : WindowSound state.recentEventIds) (covered : state.recentEventIds.toFinset ⊆ known)
    (fresh : events.foldlM SingleWriter.insertFresh known = .ok after)
    (evaluated : events.foldlM (SingleWriter.evaluateNext platform enforce)
      (state, before) = .ok (final, persisted)) :
    WindowSound final.recentEventIds := by
  induction events generalizing known state before with
  | nil =>
    obtain ⟨rfl, _⟩ := Prod.mk.inj (ok.inj evaluated)
    exact sound
  | cons event events ih =>
    obtain ⟨inserted, isFresh, freshRest⟩ := foldlM_cons_ok.mp fresh
    obtain ⟨⟨middle, records⟩, stepped, rest⟩ := foldlM_cons_ok.mp evaluated
    obtain ⟨⟨updated, outcome⟩, evaluatedOne, pushed⟩ := bind_ok.mp stepped
    obtain ⟨rfl, rfl⟩ := Prod.mk.inj (ok.inj pushed)
    obtain ⟨unknown, rfl⟩ := SingleWriter.insertFresh_ok_iff.mp isFresh
    obtain ⟨window, _⟩ := recentEventIds_of_evaluates evaluatedOne
    have unseen : event.eventId ∉ state.recentEventIds := fun seen =>
      unknown (covered (by simpa using seen))
    refine ih (window ▸ sound.pushRecent unseen) ?_ freshRest rest
    rw [window]
    exact toFinset_pushRecent_subset covered _

/-- A successful batch: its frame is uniform, its identities are new, and its
events evaluate one after the other. -/
theorem SingleWriter.applyBatch_cons_ok
    (applied : applyBatch platform durable writer now (first :: rest) = (.ok outcomes, next)) :
    ∃ state persisted log,
      evaluateBatch platform writer first (first :: rest) = .ok (state, persisted) ∧
        durable.appendOutcomes writer.log persisted = (.ok (), log) ∧
        outcomes.map ApplyOutcome.persisted = persisted ∧
        next =
          { writer with
            current := { toCanonicalState := state, publishedAt := now }
            recentEventIndex := state.recentEventIds.toFinset
            log := log } := by
  unfold applyBatch at applied
  dsimp only at applied
  split at applied
  · cases applied
  · rename_i state persisted evaluated
    split at applied
    · cases applied
    · rename_i log appended
      obtain ⟨sameOutcomes, sameNext⟩ := Prod.mk.inj applied
      refine ⟨state, persisted, log, evaluated, appended, ?_, sameNext.symm⟩
      rw [← ok.inj sameOutcomes, map_map]
      exact map_id _

theorem SingleWriter.Indexed.applyBatch {outcomes : List ApplyOutcome} (indexed : writer.Indexed)
    (applied : writer.applyBatch platform durable now events = (.ok outcomes, next)) :
    next.Indexed := by
  cases events with
  | nil =>
    cases applied
    exact indexed
  | cons first rest =>
    obtain ⟨state, persisted, log, evaluated, _, _, rfl⟩ := SingleWriter.applyBatch_cons_ok applied
    obtain ⟨_, ⟨known, fresh⟩, folded⟩ := evaluateBatch_ok_iff.mp evaluated
    refine ⟨?_, rfl⟩
    exact windowSound_of_evaluateBatch indexed.window (by rw [indexed.index]) fresh folded

/-! ## Failed calls -/

section Failed

variable {L : Type} {platform : Platform} {durable : DurableLog L}
  {writer next : SingleWriter L} {now : DateTime} {failure : Failure}

/-- A failed application publishes nothing. -/
theorem SingleWriter.unpublished_of_apply_error
    (failed : writer.apply platform durable now event = (.error failure, next)) :
    next.current = writer.current ∧ next.recentEventIndex = writer.recentEventIndex ∧
      next.enforceSourceFreshness = writer.enforceSourceFreshness := by
  unfold apply applyInner at failed
  split at failed
  · cases failed
    exact ⟨rfl, rfl, rfl⟩
  · split at failed
    · cases failed
      exact ⟨rfl, rfl, rfl⟩
    · split at failed
      · cases failed
        exact ⟨rfl, rfl, rfl⟩
      · cases failed

/-- A failed batch publishes nothing. -/
theorem SingleWriter.unpublished_of_applyBatch_error
    (failed : writer.applyBatch platform durable now events = (.error failure, next)) :
    next.current = writer.current ∧ next.recentEventIndex = writer.recentEventIndex ∧
      next.enforceSourceFreshness = writer.enforceSourceFreshness := by
  cases events with
  | nil => cases failed
  | cons first rest =>
    unfold applyBatch at failed
    dsimp only at failed
    split at failed
    · cases failed
      exact ⟨rfl, rfl, rfl⟩
    · split at failed
      · cases failed
        exact ⟨rfl, rfl, rfl⟩
      · cases failed

end Failed

theorem SingleWriter.Indexed.congr {L M : Type} {writer : SingleWriter L} {next : SingleWriter M}
    (indexed : writer.Indexed) (sameCurrent : next.current = writer.current)
    (sameIndex : next.recentEventIndex = writer.recentEventIndex) :
    next.Indexed := by
  refine ⟨?_, ?_⟩
  · rw [sameCurrent]
    exact indexed.window
  · rw [sameIndex, sameCurrent]
    exact indexed.index

@[simp] theorem SingleWriter.recentEventIds_prune (projection : Projection) :
    (SingleWriter.prune projection).recentEventIds = projection.recentEventIds :=
  congrArg Position.recentEventIds
    (CanonicalState.position_pruneStaleScopeGaps projection.toCanonicalState)

/-- A resumed writer indexes the window it finds. -/
theorem SingleWriter.indexed_of_resume
    {projection : Projection} {log : L} (sound : WindowSound projection.recentEventIds)
    (resumed : SingleWriter.resume projection log = .ok writer) :
    writer.Indexed ∧ writer.current.recentEventIds = projection.recentEventIds := by
  unfold SingleWriter.resume at resumed
  split at resumed
  · cases resumed
  · cases resumed
    refine ⟨⟨?_, rfl⟩, SingleWriter.recentEventIds_prune projection⟩
    rw [SingleWriter.recentEventIds_prune]
    exact sound

/-- Every command keeps the index and the window together. -/
theorem SingleWriter.Indexed.step {label : Command × Except Failure (List ApplyOutcome)}
    (indexed : writer.Indexed) (step : SingleWriter.Step platform durable writer label next) :
    next.Indexed := by
  obtain ⟨command, result⟩ := label
  unfold SingleWriter.Step SingleWriter.execute at step
  cases command with
  | apply now event =>
    dsimp only at step
    generalize called : writer.apply platform durable now event = outcome at step
    obtain ⟨answer, after⟩ := outcome
    cases step
    cases answer with
    | error failure =>
      obtain ⟨sameCurrent, sameIndex, _⟩ := SingleWriter.unpublished_of_apply_error called
      exact indexed.congr sameCurrent sameIndex
    | ok outcome => exact indexed.apply called
  | applyBatch now events =>
    cases result with
    | error failure =>
      obtain ⟨sameCurrent, sameIndex, _⟩ := SingleWriter.unpublished_of_applyBatch_error step
      exact indexed.congr sameCurrent sameIndex
    | ok outcomes => exact indexed.applyBatch step

/-- Every reachable writer is indexed. -/
theorem Reachable.indexed
    {writer : SingleWriter L} (reachable : Reachable platform L durable writer) :
    writer.Indexed := by
  induction reachable with
  | new | newDataDelivery => exact ⟨⟨nodup_nil, Nat.zero_le _⟩, rfl⟩
  | resumed _ resumed ih => exact (SingleWriter.indexed_of_resume ih.window resumed).1
  | executed _ step ih => exact ih.step step

/-! ## A batch event by event -/

section Sequential

variable {L : Type} {platform : Platform} {durable : DurableLog L}

/-- Append records one at a time, as a log does that has no batch of its own. -/
def DurableLog.appendEach (durable : DurableLog L) :
    L → List PersistedEvent → Except CoreError Unit × L
  | log, [] => (.ok (), log)
  | log, record :: records =>
    match durable.appendOutcome log record with
    | (.error cause, failed) => (.error cause, failed)
    | (.ok (), appended) => appendEach durable appended records

/-- A log that takes records together takes them one at a time. -/
def DurableLog.AppendsEach (durable : DurableLog L) : Prop :=
  ∀ (log : L) (records : List PersistedEvent),
    (durable.appendOutcomes log records).1 = .ok () → (durable.appendEach log records).1 = .ok ()

theorem DurableLog.appendEach_cons_ok_iff
    :
    (durable.appendEach log (record :: records)).1 = .ok () ↔
      ∃ appended, durable.appendOutcome log record = (.ok (), appended) ∧
        (durable.appendEach appended records).1 = .ok () := by
  rw [appendEach]
  cases result : durable.appendOutcome log record with
  | mk answer appended =>
    cases answer with
    | error cause => simp
    | ok value =>
      cases value
      simp

/-- The payload check of a single application follows from the frame's. -/
theorem validatesRawPayload_of_frameIsUniform
    (uniform : SingleWriter.frameIsUniform platform frameRawPayload events = true)
    (mem : event ∈ events) :
    platform.contentSha256 event.rawPayload = Text.asciiLowercase event.source.rawSha256 := by
  unfold SingleWriter.frameIsUniform at uniform
  have checked := all_eq_true.mp uniform event mem
  simp only [and_eq_true, beq_iff_eq, Text.equalsIgnoringCase] at checked
  rw [checked.1, checked.2]
  exact (platform.asciiLowercase_hexDigest _).symm

theorem evaluateEvent_of_unvalidated
    (evaluated : evaluateEvent platform false validateDuplicate enforce state event = .ok result)
    (payload : platform.contentSha256 event.rawPayload =
      Text.asciiLowercase event.source.rawSha256) :
    evaluateEvent platform true validateDuplicate enforce state event = .ok result := by
  obtain ⟨valid, phases⟩ := evaluateEvent_ok_iff.mp evaluated
  refine evaluateEvent_ok_iff.mpr ⟨?_, phases⟩
  obtain ⟨schema, scope, evidence, duplicate, cursor⟩ := validate_ok_iff.mp valid
  refine validate_ok_iff.mpr ⟨schema, scope, ?_, duplicate, cursor⟩
  unfold evidenceIsValid at evidence ⊢
  simp only [Bool.not_false, Bool.true_or, Bool.and_true] at evidence
  simp only [evidence, payload, Bool.not_true, Bool.false_or, beq_self_eq_true, Bool.and_self]

/-- Evaluating a batch is applying its events one after the other: the same
records and the same state, in every step and at the end. -/
theorem applyAll_of_evaluateBatch (clock : Nat → DateTime)
    {events : List CanonicalEvent} {known after : Finset String} {writer : SingleWriter L}
    {final : CanonicalState} {before persisted : List PersistedEvent}
    (indexed : writer.Indexed) (covered : writer.recentEventIndex ⊆ known)
    (payloads : ∀ event ∈ events, platform.contentSha256 event.rawPayload =
      Text.asciiLowercase event.source.rawSha256)
    (fresh : events.foldlM SingleWriter.insertFresh known = .ok after)
    (evaluated : events.foldlM (SingleWriter.evaluateNext platform writer.enforceSourceFreshness)
      (writer.current.toCanonicalState, before) = .ok (final, before ++ persisted))
    (appended : (durable.appendEach writer.log persisted).1 = .ok ()) :
    ∃ labels finish,
      applyAll platform durable clock writer events = some (labels, finish) ∧
        labels.map (fun label => label.persisted) = persisted ∧
        finish.current.toCanonicalState = final ∧
        finish.Indexed := by
  induction events generalizing known writer before persisted with
  | nil =>
    obtain ⟨sameState, sameRecords⟩ := Prod.mk.inj (ok.inj evaluated)
    have empty : persisted = [] := append_right_eq_self.mp sameRecords.symm
    exact ⟨[], writer, rfl, empty.symm, sameState, indexed⟩
  | cons event events ih =>
    obtain ⟨inserted, isFresh, freshRest⟩ := foldlM_cons_ok.mp fresh
    obtain ⟨⟨middle, records⟩, stepped, rest⟩ := foldlM_cons_ok.mp evaluated
    obtain ⟨⟨updated, outcome⟩, evaluatedOne, pushed⟩ := bind_ok.mp stepped
    obtain ⟨rfl, rfl⟩ := Prod.mk.inj (ok.inj pushed)
    obtain ⟨unknown, rfl⟩ := SingleWriter.insertFresh_ok_iff.mp isFresh
    obtain ⟨labels, _, _, grown⟩ := evaluateNext_run rest
    have shape : persisted = outcome :: labels.map EvaluatedEvent.persisted := by
      rw [append_assoc] at grown
      exact append_cancel_left grown
    rw [shape] at appended
    obtain ⟨log, stored, storedRest⟩ := DurableLog.appendEach_cons_ok_iff.mp appended
    have unseen : event.eventId ∉ writer.recentEventIndex := fun seen =>
      unknown (covered seen)
    let next : SingleWriter L :=
      { writer with
        current := { toCanonicalState := updated, publishedAt := clock event.cursor }
        recentEventIndex := SingleWriter.indexAfter writer.recentEventIndex
          writer.current.recentEventIds outcome.event.eventId
        log := log }
    have applied : writer.apply platform durable (clock event.cursor) event =
        (.ok { projection := next.current, persisted := outcome }, next) :=
      SingleWriter.apply_ok_iff.mpr
        ⟨unseen, updated, log,
          evaluateEvent_of_unvalidated evaluatedOne (payloads event mem_cons_self),
          stored, rfl, rfl⟩
    have nextIndexed : next.Indexed := indexed.apply applied
    have nextCovered : next.recentEventIndex ⊆ insert event.eventId known := by
      obtain ⟨window, _⟩ := recentEventIds_of_evaluates evaluatedOne
      have current : next.current.recentEventIds =
          pushRecent writer.current.recentEventIds event.eventId := window
      rw [nextIndexed.index, current]
      exact toFinset_pushRecent_subset (indexed.index ▸ covered) _
    have regrouped : before ++ persisted =
        before ++ [outcome] ++ labels.map EvaluatedEvent.persisted := by
      rw [shape, append_assoc, singleton_append]
    rw [regrouped] at rest
    obtain ⟨restLabels, finish, restApplied, restRecords, sameState, finishIndexed⟩ :=
      ih nextIndexed nextCovered (fun other mem => payloads other (mem_cons_of_mem _ mem))
        freshRest rest storedRest
    refine ⟨{ event := event, persisted := outcome, now := clock event.cursor } ::
      restLabels, finish, ?_, ?_, sameState, finishIndexed⟩
    · rw [applyAll, applied]
      dsimp only
      rw [restApplied, map_some]
    · rw [map_cons, restRecords, shape]

end Sequential

/-- A batch leaves what its events leave one at a time, over a log that takes
records one at a time whenever it takes them together; and a call that fails,
in the log or before it, publishes nothing. -/
theorem applyBatch_refines_apply
    {L : Type} (platform : Platform) (durable : DurableLog L) (writer : SingleWriter L)
    (reachable : Reachable platform L durable writer) (appendsEach : durable.AppendsEach) :
    (∀ now events outcomes next, events ≠ [] →
      writer.applyBatch platform durable now events = (.ok outcomes, next) →
        ∀ clock, ∃ labels final,
          applyAll platform durable clock writer events = some (labels, final) ∧
            labels.map (fun label => label.persisted) = outcomes.map ApplyOutcome.persisted ∧
            final.current.toCanonicalState = next.current.toCanonicalState ∧
            final.recentEventIndex = next.recentEventIndex) ∧
      (∀ now event failure next,
        writer.apply platform durable now event = (.error failure, next) →
          next.current = writer.current ∧ next.recentEventIndex = writer.recentEventIndex) ∧
      ∀ now events failure next,
        writer.applyBatch platform durable now events = (.error failure, next) →
          next.current = writer.current ∧ next.recentEventIndex = writer.recentEventIndex := by
  refine ⟨?_, ?_, ?_⟩
  · intro now events outcomes next nonempty applied clock
    cases events with
    | nil => exact absurd rfl nonempty
    | cons first rest =>
      obtain ⟨state, persisted, log, evaluated, appended, sameRecords, rfl⟩ :=
        SingleWriter.applyBatch_cons_ok applied
      obtain ⟨uniform, ⟨known, fresh⟩, folded⟩ := SingleWriter.evaluateBatch_ok_iff.mp evaluated
      have appendedEach := appendsEach writer.log persisted (by rw [appended])
      obtain ⟨labels, final, sequential, records, sameState, indexed⟩ :=
        applyAll_of_evaluateBatch clock reachable.indexed (Finset.Subset.refl _)
          (fun event member => validatesRawPayload_of_frameIsUniform uniform member)
          fresh folded appendedEach
      refine ⟨labels, final, sequential, records.trans sameRecords.symm, sameState, ?_⟩
      rw [indexed.index, sameState]
  · intro now event failure next failed
    obtain ⟨sameCurrent, sameIndex, _⟩ := SingleWriter.unpublished_of_apply_error failed
    exact ⟨sameCurrent, sameIndex⟩
  · intro now events failure next failed
    obtain ⟨sameCurrent, sameIndex, _⟩ := SingleWriter.unpublished_of_applyBatch_error failed
    exact ⟨sameCurrent, sameIndex⟩

/-! ## A frame of two events -/

def sampleFrame : List CanonicalEvent :=
  sampleEvents [sampleFullBook "t", .delta "t" .bid [⟨1 / 8, 1⟩]]

def sampleBatch : Except Failure (List ApplyOutcome) × SingleWriter Unit :=
  sampleWriter.applyBatch samplePlatform sampleLog 1 sampleFrame

def sampleOutcomes : List ApplyOutcome :=
  sampleBatch.1.toOption.get (by decide +kernel)

theorem applyBatch_refines_apply_sample :
    ∃ labels final,
      applyAll samplePlatform sampleLog (fun cursor => cursor) sampleWriter sampleFrame =
          some (labels, final) ∧
        labels.map (fun label => label.persisted) = sampleOutcomes.map ApplyOutcome.persisted ∧
        final.current.toCanonicalState = sampleBatch.2.current.toCanonicalState ∧
        final.recentEventIndex = sampleBatch.2.recentEventIndex := by
  have appendsEach : sampleLog.AppendsEach := by
    intro log records taken
    induction records with
    | nil => rfl
    | cons record records ih => exact DurableLog.appendEach_cons_ok_iff.mpr ⟨(), rfl, ih taken⟩
  have succeeded : sampleWriter.applyBatch samplePlatform sampleLog 1 sampleFrame =
      (.ok sampleOutcomes, sampleBatch.2) :=
    Prod.ext (Fallible.eq_ok_get _) rfl
  exact (applyBatch_refines_apply samplePlatform sampleLog sampleWriter (.new _ _ _)
    appendsEach).1 1 sampleFrame sampleOutcomes sampleBatch.2 (by decide) succeeded _

end MarketCow.Core
