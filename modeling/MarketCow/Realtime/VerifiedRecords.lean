import MarketCow.Realtime.DurableWriter

/-!
# Records of a verified log

Verification accepts a record exactly when it continues the records before it.
Accepted records have the cursors 1, 2, 3, …, their applied ones the public
sequences 1, 2, 3, … and different event ids, and duplicates have no sequence.
-/

namespace MarketCow.Realtime

open Library MarketCow.Core SequencedReplay List

/-! ## Record by record -/

/-- The record is intact and continues the chain of the log. -/
structure RecordIntact
    (serde : Serde) (scan : WalScan) (record : PersistedRealtimeEvent) : Prop where
  version : record.schemaVersion = realtimeWalVersion
  cursor : record.walCursor = scan.records.length + 1
  chained : record.previousRecordSha256 = scan.previousRecordSha256
  sealed : record = sealRecord serde record.toRecordIntegrity
  evidence : serde.validEventEvidence record.event = true

/-- An applied record takes the next sequence for a new event. -/
structure AppliedNext
    (scan : WalScan) (record : PersistedRealtimeEvent) : Prop where
  applied : record.applied = true
  bounded : scan.expectedPublicSequence + 1 < 2 ^ 64
  numbered : record.publicSequence = some (scan.expectedPublicSequence + 1)
  unfailed : record.failClosedReason = none
  fresh : record.event.eventId ∉ scan.appliedEventIds

/-- The record of a duplicate takes no sequence. -/
structure DuplicateNext
    (scan : WalScan) (record : PersistedRealtimeEvent) : Prop where
  notApplied : record.applied = false
  unnumbered : record.publicSequence = none
  reason : record.failClosedReason = some duplicateEvent
  seen : record.event.eventId ∈ scan.appliedEventIds

theorem sealed_iff :
    record = sealRecord serde record.toRecordIntegrity ↔
      record.recordSha256 = serde.digest (serde.recordIntegrity record.toRecordIntegrity) ∧
        record.crc32c = serde.crc32c (serde.recordIntegrity record.toRecordIntegrity) := by
  cases record
  simp only [sealRecord, PersistedRealtimeEvent.mk.injEq, true_and]

theorem verifyRecord_ok_iff {scan next : WalScan} {record : PersistedRealtimeEvent} :
    verifyRecord serde scan record = .ok next ↔
      RecordIntact serde scan record ∧
        ((AppliedNext scan record ∧ next = scan.pushApplied record) ∨
          (DuplicateNext scan record ∧ next = scan.pushDuplicate record)) := by
  unfold verifyRecord
  dsimp only
  split
  · rename_i broken
    constructor
    · intro never
      cases never
    · rintro ⟨intact, _⟩
      obtain ⟨hashed, checked⟩ := sealed_iff.mp intact.sealed
      simp [intact.version, intact.cursor, intact.chained, ← hashed, ← checked,
        intact.evidence] at broken
  · rename_i unbroken
    simp only [not_or, not_not, Bool.not_eq_false] at unbroken
    obtain ⟨version, cursor, chained, hashed, checked, evidence⟩ := unbroken
    have intact : RecordIntact serde scan record :=
      ⟨version, cursor, chained, sealed_iff.mpr ⟨hashed, checked⟩, evidence⟩
    by_cases applied : record.applied = true
    · rw [if_pos applied]
      cases added : checkedAdd scan.expectedPublicSequence 1 with
      | none =>
        constructor
        · intro never
          cases never
        · rintro ⟨_, ⟨fits, _⟩ | ⟨fits, _⟩⟩
          · have sum := checkedAdd_eq_some_iff.mpr ⟨fits.bounded, rfl⟩
            rw [sum] at added
            cases added
          · rw [fits.notApplied] at applied
            cases applied
      | some expected =>
        obtain ⟨bounded, rfl⟩ := checkedAdd_eq_some_iff.mp added
        dsimp only
        split
        · rename_i broken
          constructor
          · intro never
            cases never
          · rintro ⟨_, ⟨fits, _⟩ | ⟨fits, _⟩⟩
            · simp [fits.numbered, fits.unfailed, fits.fresh] at broken
            · rw [fits.notApplied] at applied
              cases applied
        · rename_i fitting
          simp only [not_or, not_not, not_eq_true, Option.isSome_eq_false_iff,
            isNone_iff_eq_none] at fitting
          have fits : AppliedNext scan record :=
            ⟨applied, bounded, fitting.1, fitting.2.1, fitting.2.2⟩
          constructor
          · intro accepted
            exact ⟨intact, .inl ⟨fits, (ok.inj accepted).symm⟩⟩
          · rintro ⟨_, ⟨_, rfl⟩ | ⟨other, _⟩⟩
            · rfl
            · rw [other.notApplied] at applied
              cases applied
    · rw [if_neg applied]
      rw [not_eq_true] at applied
      split
      · rename_i broken
        constructor
        · intro never
          cases never
        · rintro ⟨_, ⟨fits, _⟩ | ⟨fits, _⟩⟩
          · rw [fits.applied] at applied
            cases applied
          · simp [fits.unnumbered, fits.reason, fits.seen] at broken
      · rename_i fitting
        simp only [not_or, not_not, not_eq_true, Option.isSome_eq_false_iff,
          isNone_iff_eq_none] at fitting
        have fits : DuplicateNext scan record := ⟨applied, fitting.1, fitting.2.1, fitting.2.2⟩
        constructor
        · intro accepted
          exact ⟨intact, .inr ⟨fits, (ok.inj accepted).symm⟩⟩
        · rintro ⟨_, ⟨other, _⟩ | ⟨_, rfl⟩⟩
          · rw [other.applied] at applied
            cases applied
          · rfl

/-! ## Sound records -/

/-- The records that were applied. -/
def appliedRecords (records : List PersistedRealtimeEvent) : List PersistedRealtimeEvent :=
  records.filter fun record => record.applied

/-- What verification establishes about the records of a log. -/
structure RecordsSound (records : List PersistedRealtimeEvent) : Prop where
  cursors : records.map (fun record => record.walCursor) =
    (List.range records.length).map fun position => position + 1
  sequences : (appliedRecords records).map (fun record => record.publicSequence) =
    (List.range (appliedRecords records).length).map fun position => some (position + 1)
  distinct : ((appliedRecords records).map fun record => record.event.eventId).Nodup
  bounded : (appliedRecords records).length < 2 ^ 64
  duplicates : ∀ record ∈ records, record.applied = false → record.publicSequence = none

theorem recordsSound_nil : RecordsSound [] := ⟨rfl, rfl, nodup_nil, by decide, by simp⟩

@[simp] theorem appliedRecords_append (first second : List PersistedRealtimeEvent) :
    appliedRecords (first ++ second) = appliedRecords first ++ appliedRecords second :=
  filter_append ..

variable {record : PersistedRealtimeEvent}

theorem appliedRecords_applied (applied : record.applied = true) :
    appliedRecords [record] = [record] := by
  simp [appliedRecords, applied]

theorem appliedRecords_duplicate (notApplied : record.applied = false) :
    appliedRecords [record] = [] := by
  simp [appliedRecords, notApplied]

theorem publishedEvents_eq (streamId : String) (records : List PersistedRealtimeEvent) :
    publishedEvents streamId records = (appliedRecords records).map fun record =>
      { streamId, sequence := record.publicSequence.getD 0, event := record.event } :=
  rfl

variable (streamId : String)

@[simp] theorem publishedEvents_append (first second : List PersistedRealtimeEvent) :
    publishedEvents streamId (first ++ second) =
      publishedEvents streamId first ++ publishedEvents streamId second := by
  rw [publishedEvents_eq, appliedRecords_append, map_append]
  rfl

@[simp] theorem length_publishedEvents (records : List PersistedRealtimeEvent) :
    (publishedEvents streamId records).length = (appliedRecords records).length :=
  length_map _

theorem eventIds_publishedEvents (records : List PersistedRealtimeEvent) :
    eventIds (publishedEvents streamId records) =
      (appliedRecords records).map fun record => record.event.eventId := by
  rw [publishedEvents_eq, eventIds, map_map]
  rfl

theorem mem_appliedIds :
    eventId ∈ appliedIds records ↔
      eventId ∈ (appliedRecords records).map fun record => record.event.eventId :=
  TreeSet.mem_ofElements

theorem appliedIds_applied
    (applied : record.applied = true) (records : List PersistedRealtimeEvent) :
    appliedIds (records ++ [record]) = (appliedIds records).insert record.event.eventId := by
  have split : (appliedRecords (records ++ [record])).map (fun record => record.event.eventId) =
      (appliedRecords records).map (fun record => record.event.eventId) ++
        [record.event.eventId] := by
    rw [appliedRecords_append, appliedRecords_applied applied, map_append, map_singleton]
  change TreeSet.ofElements ((appliedRecords (records ++ [record])).map _) = _
  rw [split, TreeSet.ofElements_snoc]
  rfl

theorem appliedIds_duplicate
    (notApplied : record.applied = false) (records : List PersistedRealtimeEvent) :
    appliedIds (records ++ [record]) = appliedIds records := by
  change TreeSet.ofElements ((appliedRecords (records ++ [record])).map _) = _
  rw [appliedRecords_append, appliedRecords_duplicate notApplied, append_nil]
  rfl

namespace RecordsSound

variable {records : List PersistedRealtimeEvent}

section

variable (sound : RecordsSound records)
include sound

theorem walCursor_getElem (inside : position < records.length) :
    records[position].walCursor = position + 1 := by
  have same := congrArg (fun cursors => cursors[position]?) sound.cursors
  simp only [getElem?_map, getElem?_eq_getElem inside, map_some,
    getElem?_range inside, Option.some.injEq] at same
  exact same

/-- The last record has the cursor that is the number of records. -/
theorem walCursor_last :
    (records.getLast?.map fun record => record.walCursor).getD 0 = records.length := by
  cases last : records.getLast? with
  | none =>
    rw [getLast?_eq_none_iff.mp last]
    rfl
  | some record =>
    rw [getLast?_eq_getElem?] at last
    obtain ⟨inside, rfl⟩ := List.getElem?_eq_some_iff.mp last
    rw [map_some, getD_some, sound.walCursor_getElem inside]
    omega

/-- The applied records are published as 1, 2, 3, … -/
theorem contiguous (streamId : String) :
    Contiguous streamId (publishedEvents streamId records) := by
  refine ⟨?_, ?_⟩
  · have numbers := congrArg (List.map fun sequence : Option Nat => (streamId, sequence.getD 0))
      sound.sequences
    rw [map_map, map_map] at numbers
    rw [publishedEvents_eq, map_map, length_map]
    exact numbers
  · rw [eventIds_publishedEvents]
    exact sound.distinct

theorem snocApplied (applied : record.applied = true)
    (cursor : record.walCursor = records.length + 1)
    (bounded : (appliedRecords records).length + 1 < 2 ^ 64)
    (numbered : record.publicSequence = some ((appliedRecords records).length + 1))
    (fresh : record.event.eventId ∉
      (appliedRecords records).map fun record => record.event.eventId) :
    RecordsSound (records ++ [record]) := by
  refine ⟨?_, ?_, ?_, ?_, ?_⟩
  · rw [map_append, sound.cursors, length_append, length_singleton,
      range_succ, map_append, map_singleton, map_singleton, cursor]
  · rw [appliedRecords_append, appliedRecords_applied applied, map_append, sound.sequences,
      length_append, length_singleton, range_succ, map_append,
      map_singleton, map_singleton, numbered]
  · rw [appliedRecords_append, appliedRecords_applied applied, map_append,
      map_singleton, nodup_append]
    refine ⟨sound.distinct, nodup_singleton _, ?_⟩
    intro first mem second single same
    rw [same, mem_singleton.mp single] at mem
    exact fresh mem
  · rw [appliedRecords_append, appliedRecords_applied applied, length_append]
    exact bounded
  · intro other mem notApplied
    rcases mem_append.mp mem with earlier | single
    · exact sound.duplicates other earlier notApplied
    · rw [mem_singleton.mp single, applied] at notApplied
      cases notApplied

theorem snocDuplicate (notApplied : record.applied = false)
    (cursor : record.walCursor = records.length + 1) (unnumbered : record.publicSequence = none) :
    RecordsSound (records ++ [record]) := by
  have same : appliedRecords (records ++ [record]) = appliedRecords records := by
    rw [appliedRecords_append, appliedRecords_duplicate notApplied, append_nil]
  refine ⟨?_, same ▸ sound.sequences, same ▸ sound.distinct, same ▸ sound.bounded, ?_⟩
  · rw [map_append, sound.cursors, length_append, length_singleton,
      range_succ, map_append, map_singleton, map_singleton, cursor]
  · intro other mem _
    rcases mem_append.mp mem with earlier | single
    · exact sound.duplicates other earlier ‹_›
    · rw [mem_singleton.mp single]
      exact unnumbered

end

end RecordsSound

/-! ## The state of a scan -/

/-- What a scan keeps besides the records follows from the records. -/
structure WalScan.Sound (scan : WalScan) : Prop where
  records : RecordsSound scan.records
  previous : scan.previousRecordSha256 = scan.records.getLast?.map fun record => record.recordSha256
  ids : scan.appliedEventIds = appliedIds scan.records
  expected : scan.expectedPublicSequence = (appliedRecords scan.records).length

theorem WalScan.sound_empty : WalScan.empty.Sound := ⟨recordsSound_nil, rfl, rfl, rfl⟩

namespace WalScan.Sound

variable {serde : Serde} {scan next : WalScan} {record : PersistedRealtimeEvent}

/-- An accepted record keeps the scan sound and becomes its last record. -/
theorem verifyRecord
    (sound : scan.Sound) (accepted : Realtime.verifyRecord serde scan record = .ok next) :
    next.Sound := by
  obtain ⟨intact, ⟨fits, rfl⟩ | ⟨fits, rfl⟩⟩ := verifyRecord_ok_iff.mp accepted
  · have fresh := fits.fresh
    rw [sound.ids, mem_appliedIds] at fresh
    refine ⟨?_, ?_, ?_, ?_⟩
    · exact sound.records.snocApplied fits.applied intact.cursor
        (sound.expected ▸ fits.bounded) (sound.expected ▸ fits.numbered) fresh
    · simp [WalScan.pushApplied]
    · change scan.appliedEventIds.insert _ = appliedIds (scan.records ++ [record])
      rw [appliedIds_applied fits.applied, sound.ids]
    · change scan.expectedPublicSequence + 1 = _
      rw [sound.expected]
      simp [WalScan.pushApplied, appliedRecords_applied fits.applied]
  · refine ⟨?_, ?_, ?_, ?_⟩
    · exact sound.records.snocDuplicate fits.notApplied intact.cursor fits.unnumbered
    · simp [WalScan.pushDuplicate]
    · change scan.appliedEventIds = appliedIds (scan.records ++ [record])
      rw [appliedIds_duplicate fits.notApplied, sound.ids]
    · change scan.expectedPublicSequence = _
      rw [sound.expected]
      simp [WalScan.pushDuplicate, appliedRecords_duplicate fits.notApplied]

end WalScan.Sound

end MarketCow.Realtime
