import MarketCow.Live.Sides

/-!
# Staged changes

The changes of one side are staged one after the other and leave the other side
and the other book alone. Committed, they turn the old side into the new one.
-/

namespace MarketCow.Live

open Library Function
open List (forall_mem_cons length_cons map_map)
open Library.Proto
open Library.SortedDiff
open MarketCow.Core (Decimal Side)

/-- The level a client stages for a change. -/
def stagedLevel (codec : Codec) (change : Decimal × Option ClientLevel) : ClientLevel :=
  change.2.getD (removal codec change.1)

/-- What a client stages for a change of a side. -/
def stagedOf (codec : Codec) (slot : Slot) (side : Side)
    (change : Decimal × Option ClientLevel) : Place × ClientLevel :=
  ({ slot, side, price := change.1 }, stagedLevel codec change)

/-- What staging the changes of one side does. -/
structure StagedSide
    (codec : Codec) (slot : Slot) (side : Side) (changes : List (Decimal × Option ClientLevel))
    (bytes count : Nat) (before after : Staging) : Prop where
  changed : after.changed =
    Function.update before.changed slot (before.changed slot || !changes.isEmpty)
  bytes : after.bytes = Function.update before.bytes slot bytes
  counts : after.counts =
    Function.update before.counts slot (Function.update (before.counts slot) side count)
  seen : ∀ place ∈ after.seen, place ∈ before.seen ∨
    ∃ change ∈ changes, place = { slot, side, price := change.1 }
  staged : after.staged = before.staged ++ changes.map (stagedOf codec slot side)

/-- The bytes of the levels of a client. -/
def totalBytes (levels : List (Decimal × ClientLevel)) : Nat :=
  (levels.map fun level => nestedLength level.2.encodedBytes).sum

/-- An entry of a side that a lane has written. -/
def Written (codec : Codec) (entry : Decimal × ClientLevel) : Prop :=
  ∃ size, LevelValue codec (entry.1, size) ∧ entry.2 = levelOf codec entry.1 size

section Staging

variable {codec : Codec} {key : MarketKey} {maximum : Nat} {books : Books} {slot : Slot}
  {side : Side} {tokenId : String} {before middle after : Staging}

theorem written_of_mem_entries (sound : SideValues codec side values) :
    ∀ entry ∈ entries codec values, Written codec entry := by
  intro entry mem
  obtain ⟨value, found, rfl⟩ := List.mem_map.mp mem
  exact ⟨value.2, sound.level value found, rfl⟩

theorem totalBytes_entries (values : List (Decimal × Decimal)) :
    totalBytes (entries codec values) =
      repeatedLength PriceLevel.encodedLength (wireSide codec values) := by
  unfold totalBytes entries repeatedLength wireSide
  rw [map_map, map_map]
  rfl

namespace StagedSide

theorem nil (staging : Staging) :
    StagedSide codec slot side [] (staging.bytes slot) (staging.counts slot side) staging
      staging := by
  refine ⟨?_, ?_, ?_, ?_, ?_⟩
  · simp
  · simp
  · simp
  · intro place mem
    exact .inl mem
  · simp

/-- One change more. -/
theorem cons {change : Decimal × Option ClientLevel} {changes : List (Decimal × Option ClientLevel)}
    {bytes count lastBytes lastCount : Nat}
    (first : StagedSide codec slot side [change] bytes count before middle)
    (rest : StagedSide codec slot side changes lastBytes lastCount middle after) :
    StagedSide codec slot side (change :: changes) lastBytes lastCount before after := by
  refine ⟨?_, ?_, ?_, ?_, ?_⟩
  · rw [rest.changed, first.changed]
    simp
  · rw [rest.bytes, first.bytes, update_idem]
  · rw [rest.counts, first.counts, update_idem, update_self, update_idem]
  · intro place mem
    rcases rest.seen place mem with earlier | ⟨other, found, same⟩
    · rcases first.seen place earlier with before | ⟨other, found, same⟩
      · exact .inl before
      · rw [List.mem_singleton] at found
        exact .inr ⟨other, by simp [found], same⟩
    · exact .inr ⟨other, by simp [found], same⟩
  · rw [rest.staged, first.staged, List.append_assoc]
    rfl

/-- Other prices of the side stay unseen. -/
theorem unseen {change : Decimal × Option ClientLevel} {bytes count : Nat} {price : Decimal}
    (step : StagedSide codec slot side [change] bytes count before middle)
    (unseen : ({ slot, side, price } : Place) ∉ before.seen)
    (ne : price ≠ change.1) : ({ slot, side, price } : Place) ∉ middle.seen := by
  intro mem
  rcases step.seen _ mem with earlier | ⟨other, found, same⟩
  · exact unseen earlier
  · rw [List.mem_singleton.mp found] at same
    exact ne (congrArg Place.price same)

end StagedSide

/-- Staging one change of a side. -/
theorem stageLevel_eq (codec : Codec) (change : Decimal × Option ClientLevel) (bytes count : Nat)
    (unseen : ({ slot, side, price := change.1 } : Place) ∉ before.seen)
    (there : (books.side slot side)[change.1]? = old)
    (counted : countAfter (before.counts slot side) old (stagedLevel codec change) = count)
    (measured : bytesAfter (before.bytes slot) old (stagedLevel codec change) = bytes)
    (bounded : count ≤ maximum)
    (changes : old.elim 0 ClientLevel.numericSize ≠ (stagedLevel codec change).numericSize) :
    ∃ middle, stageLevel maximum books before { slot, side, price := change.1 }
        (stagedLevel codec change) = .ok middle ∧
      StagedSide codec slot side [change] bytes count before middle := by
  subst there counted measured
  unfold stageLevel
  refine ⟨_, bind_ok.mpr ⟨(), ensure_ok.mpr (by simpa using unseen),
    bind_ok.mpr ⟨(), ensure_ok.mpr (decide_eq_true bounded), rfl⟩⟩, ?_⟩
  refine ⟨?_, rfl, rfl, ?_, rfl⟩
  · rw [bne_iff_ne.mpr changes]
    rfl
  · intro place mem
    rcases List.mem_cons.mp mem with rfl | earlier
    · exact .inr ⟨change, by simp, rfl⟩
    · exact .inl earlier

theorem sideOf_sideText (side : Side) : sideOf (sideText side) = .ok side := by
  cases side <;> rfl

/-- A client stages what the lane has listed. -/
theorem stageChange_eq (lawful : codec.Lawful) (change : Decimal × Option ClientLevel)
    (owner : slotOf key tokenId = .ok slot)
    (written : ∃ size, LevelValue codec (change.1, size) ∧
      ∀ level ∈ change.2, level = levelOf codec change.1 size) :
    stageChange codec key maximum books before (depthChange codec tokenId side change) =
      stageLevel maximum books before { slot, side, price := change.1 }
        (stagedLevel codec change) := by
  obtain ⟨price, level⟩ := change
  obtain ⟨size, value, named⟩ := written
  cases level with
  | none =>
    have zero := value.clientLevel_zero lawful
    unfold stageChange depthChange removeChange stagedLevel
    rw [owner, sideOf_sideText]
    rw [show clientLevel codec (codec.text price) "0" = .ok (price, removal codec price) from zero]
    rfl
  | some level =>
    have same : level = levelOf codec price size := named level rfl
    subst same
    unfold stageChange depthChange setChange stagedLevel
    rw [owner, sideOf_sideText]
    rw [show clientLevel codec (levelOf codec price size).price (levelOf codec price size).size =
      .ok (price, levelOf codec price size) from value.clientLevel]
    rfl

section Counts

variable {count bytes rest : Nat} {old level : ClientLevel}

theorem countAfter_removal (price : Decimal) :
    countAfter (count + 1) (some old) (removal codec price) = count := by
  simp [countAfter, removal]

theorem countAfter_added (positive : 0 < level.numericSize) :
    countAfter count none level = count + 1 := by
  simp [countAfter, positive]

theorem countAfter_kept (positive : 0 < level.numericSize) :
    countAfter count (some old) level = count := by
  simp [countAfter, positive]

theorem bytesAfter_removal (price : Decimal) :
    bytesAfter (bytes + (nestedLength old.encodedBytes + rest)) (some old)
      (removal codec price) = bytes + rest := by
  simp [bytesAfter, removal]
  omega

theorem bytesAfter_added (positive : 0 < level.numericSize) :
    bytesAfter (bytes + rest) none level = bytes + nestedLength level.encodedBytes + rest := by
  simp [bytesAfter, positive]
  omega

theorem bytesAfter_kept (positive : 0 < level.numericSize) :
    bytesAfter (bytes + (nestedLength old.encodedBytes + rest)) (some old) level =
      bytes + nestedLength level.encodedBytes + rest := by
  simp [bytesAfter, positive]
  omega

theorem totalBytes_cons (first : Decimal × ClientLevel) (levels : List (Decimal × ClientLevel)) :
    totalBytes (first :: levels) = nestedLength first.2.encodedBytes + totalBytes levels := rfl

end Counts

/-- A client in the middle of a side: some levels are settled, the old ones are
still there and the new ones are not. -/
structure Remaining
    (codec : Codec) (maximum : Nat) (map : ClientSide) (slot : Slot) (side : Side)
    (settled bytes : Nat) (olds news : List (Decimal × ClientLevel))
    (staging : Staging) : Prop where
  oldWritten : ∀ old ∈ olds, Written codec old
  newWritten : ∀ new ∈ news, Written codec new
  oldThere : ∀ old ∈ olds, map[old.1]? = some old.2
  newAbsent : ∀ new ∈ news, (∀ old ∈ olds, old.1 ≠ new.1) → map[new.1]? = none
  oldUnseen : ∀ old ∈ olds, ({ slot, side, price := old.1 } : Place) ∉ staging.seen
  newUnseen : ∀ new ∈ news, ({ slot, side, price := new.1 } : Place) ∉ staging.seen
  counted : staging.counts slot side = settled + olds.length
  bounded : settled + olds.length ≤ maximum
  fits : Fits (sideOrder side) settled maximum olds news
  measured : staging.bytes slot = bytes + totalBytes olds

/-- What holds before a side is staged gives what holds after it. -/
abbrev Stages (codec : Codec) (key : MarketKey) (maximum : Nat) (books : Books) (tokenId : String)
    (slot : Slot) (side : Side) (olds news : List (Decimal × ClientLevel)) : Prop :=
  ∀ settled bytes before, Remaining codec maximum (books.side slot side) slot side settled bytes
      olds news before →
    ∃ after, ((diff (sideOrder side) olds news).map (depthChange codec tokenId side)).foldlM
        (stageChange codec key maximum books) before = .ok after ∧
      StagedSide codec slot side (diff (sideOrder side) olds news) (bytes + totalBytes news)
        (settled + news.length) before after

/-- One change is staged, and the others after it. -/
theorem foldlM_stageChange_cons (lawful : codec.Lawful) (owner : slotOf key tokenId = .ok slot)
    (written : ∃ size, LevelValue codec (change.1, size) ∧
      ∀ level ∈ change.2, level = levelOf codec change.1 size)
    (staged : stageLevel maximum books before { slot, side, price := change.1 }
      (stagedLevel codec change) = .ok middle)
    (step : StagedSide codec slot side [change] bytes count before middle)
    (rest : ∃ after, (changes.map (depthChange codec tokenId side)).foldlM
        (stageChange codec key maximum books) middle = .ok after ∧
      StagedSide codec slot side changes lastBytes lastCount middle after) :
    ∃ after, ((change :: changes).map (depthChange codec tokenId side)).foldlM
        (stageChange codec key maximum books) before = .ok after ∧
      StagedSide codec slot side (change :: changes) lastBytes lastCount before after := by
  obtain ⟨after, folded, sides⟩ := rest
  refine ⟨after, ?_, step.cons sides⟩
  rw [List.map_cons]
  refine foldlM_cons_ok.mpr ⟨middle, ?_, folded⟩
  rw [stageChange_eq lawful change owner written, staged]

variable {olds news : List (Decimal × ClientLevel)}

/-- An old level whose price is gone. -/
theorem stages_removed
    {old : Decimal × ClientLevel} (lawful : codec.Lawful) (owner : slotOf key tokenId = .ok slot)
    (oldFirst : Leads (sideOrder side) old.1 olds) (newFirst : Leads (sideOrder side) old.1 news)
    (rest : Stages codec key maximum books tokenId slot side olds news) :
    Stages codec key maximum books tokenId slot side (old :: olds) news := by
  intro settled bytes before remaining
  obtain ⟨⟨size, value, level⟩, oldWritten⟩ := forall_mem_cons.mp remaining.oldWritten
  obtain ⟨oldUnseen, oldsUnseen⟩ := forall_mem_cons.mp remaining.oldUnseen
  obtain ⟨there, oldsThere⟩ := forall_mem_cons.mp remaining.oldThere
  have counted := remaining.counted
  have bounded := remaining.bounded
  have measured := remaining.measured
  rw [length_cons] at counted bounded
  rw [totalBytes_cons] at measured
  have nonzero : old.2.numericSize ≠ 0 := by
    rw [level]
    exact value.positive.ne'
  have fewer : settled + olds.length ≤ maximum := by omega
  obtain ⟨middle, staged, step⟩ := stageLevel_eq codec (old.1, none) (bytes + totalBytes olds)
    (settled + olds.length) oldUnseen there
    (by rw [counted]; exact countAfter_removal old.1)
    (by rw [measured]; exact bytesAfter_removal old.1) fewer nonzero
  rw [diff_removed newFirst]
  refine foldlM_stageChange_cons lawful owner ⟨size, value, by simp⟩ staged step
    (rest settled bytes middle ?_)
  refine ⟨oldWritten, remaining.newWritten, oldsThere, ?_, ?_, ?_, ?_, fewer,
    remaining.fits.removed newFirst, ?_⟩
  · intro new mem apart
    exact remaining.newAbsent new mem
      (forall_mem_cons.mpr ⟨(Leads.ne newFirst new mem).symm, apart⟩)
  · intro other mem
    exact step.unseen (oldsUnseen other mem) (Leads.ne oldFirst other mem)
  · intro new mem
    exact step.unseen (remaining.newUnseen new mem) (Leads.ne newFirst new mem)
  · rw [step.counts, update_self, update_self]
  · rw [step.bytes, update_self]

/-- A new level whose price was not there. -/
theorem stages_added
    {new : Decimal × ClientLevel} (lawful : codec.Lawful) (owner : slotOf key tokenId = .ok slot)
    (oldFirst : Leads (sideOrder side) new.1 olds) (newFirst : Leads (sideOrder side) new.1 news)
    (rest : Stages codec key maximum books tokenId slot side olds news) :
    Stages codec key maximum books tokenId slot side olds (new :: news) := by
  intro settled bytes before remaining
  obtain ⟨⟨size, value, level⟩, newWritten⟩ := forall_mem_cons.mp remaining.newWritten
  obtain ⟨newUnseen, newsUnseen⟩ := forall_mem_cons.mp remaining.newUnseen
  obtain ⟨bounded, fits⟩ := remaining.fits.added oldFirst
  have more : settled + olds.length + 1 ≤ maximum := by omega
  have absent := remaining.newAbsent new (by simp) (Leads.ne oldFirst)
  have positive : 0 < new.2.numericSize := by
    rw [level]
    exact value.positive
  obtain ⟨middle, staged, step⟩ := stageLevel_eq codec (new.1, some new.2)
    (bytes + nestedLength new.2.encodedBytes + totalBytes olds) (settled + olds.length + 1)
    newUnseen absent
    (by rw [remaining.counted]; exact countAfter_added positive)
    (by rw [remaining.measured]; exact bytesAfter_added positive) more positive.ne
  rw [diff_added oldFirst]
  obtain ⟨after, folded, sides⟩ := rest (settled + 1)
    (bytes + nestedLength new.2.encodedBytes) middle (by
      refine ⟨remaining.oldWritten, newWritten, remaining.oldThere, ?_, ?_, ?_, ?_, bounded, fits,
        ?_⟩
      · intro other mem
        exact remaining.newAbsent other (by simp [mem])
      · intro old mem
        exact step.unseen (remaining.oldUnseen old mem) (Leads.ne oldFirst old mem)
      · intro other mem
        exact step.unseen (newsUnseen other mem) (Leads.ne newFirst other mem)
      · rw [step.counts, update_self, update_self]
        omega
      · rw [step.bytes, update_self])
  rw [totalBytes_cons, length_cons, ← Nat.add_assoc, Nat.add_comm news.length 1, ← Nat.add_assoc]
  refine foldlM_stageChange_cons lawful owner ⟨size, value, ?_⟩ staged step ⟨after, folded, sides⟩
  rintro _ ⟨⟩
  exact level

/-- A level whose price stays. -/
theorem stages_kept {old new : Decimal × ClientLevel}
    (lawful : codec.Lawful) (owner : slotOf key tokenId = .ok slot) (same : old.1 = new.1)
    (oldFirst : Leads (sideOrder side) old.1 olds) (newFirst : Leads (sideOrder side) new.1 news)
    (rest : Stages codec key maximum books tokenId slot side olds news) :
    Stages codec key maximum books tokenId slot side (old :: olds) (new :: news) := by
  intro settled bytes before remaining
  obtain ⟨⟨oldSize, oldValue, oldLevel⟩, oldWritten⟩ := forall_mem_cons.mp remaining.oldWritten
  obtain ⟨⟨size, value, level⟩, newWritten⟩ := forall_mem_cons.mp remaining.newWritten
  obtain ⟨oldUnseen, oldsUnseen⟩ := forall_mem_cons.mp remaining.oldUnseen
  obtain ⟨newUnseen, newsUnseen⟩ := forall_mem_cons.mp remaining.newUnseen
  obtain ⟨there, oldsThere⟩ := forall_mem_cons.mp remaining.oldThere
  have counted := remaining.counted
  have bounded := remaining.bounded
  have measured := remaining.measured
  rw [length_cons] at counted bounded
  rw [totalBytes_cons] at measured
  have positive : 0 < new.2.numericSize := by
    rw [level]
    exact value.positive
  have absent : ∀ other ∈ news, (∀ old ∈ olds, old.1 ≠ other.1) →
      (books.side slot side)[other.1]? = none := by
    intro other mem apart
    refine remaining.newAbsent other (by simp [mem]) (forall_mem_cons.mpr ⟨?_, apart⟩)
    rw [same]
    exact (Leads.ne newFirst other mem).symm
  have fits := remaining.fits.kept same newFirst
  rw [totalBytes_cons, length_cons, ← Nat.add_assoc, Nat.add_comm news.length 1,
    ← Nat.add_assoc, diff_same same]
  split
  · rename_i equal
    refine rest (settled + 1) (bytes + nestedLength new.2.encodedBytes) before ?_
    refine ⟨oldWritten, newWritten, oldsThere, absent, oldsUnseen, newsUnseen, by omega, by omega,
      fits, ?_⟩
    rw [measured, equal, Nat.add_assoc]
  · rename_i ne
    have changes : old.2.numericSize ≠ new.2.numericSize := by
      intro equal
      rw [oldLevel, level] at equal
      refine ne ?_
      rw [oldLevel, level, same]
      exact congrArg _ equal
    have found : (books.side slot side)[new.1]? = some old.2 := same ▸ there
    obtain ⟨middle, staged, step⟩ := stageLevel_eq codec (new.1, some new.2)
      (bytes + nestedLength new.2.encodedBytes + totalBytes olds) (settled + (olds.length + 1))
      newUnseen found
      (by rw [counted]; exact countAfter_kept positive)
      (by rw [measured]; exact bytesAfter_kept positive) bounded changes
    refine foldlM_stageChange_cons lawful owner ⟨size, value, ?_⟩ staged step
      (rest (settled + 1) (bytes + nestedLength new.2.encodedBytes) middle ?_)
    · rintro _ ⟨⟩
      exact level
    · refine ⟨oldWritten, newWritten, oldsThere, absent, ?_, ?_, ?_, by omega, fits, ?_⟩
      · intro other mem
        refine step.unseen (oldsUnseen other mem) ?_
        rw [← same]
        exact Leads.ne oldFirst other mem
      · intro other mem
        exact step.unseen (newsUnseen other mem) (Leads.ne newFirst other mem)
      · rw [step.counts, update_self, update_self]
        omega
      · rw [step.bytes, update_self]

/-- The changes of a side are staged one after the other. -/
theorem stages_side
    (tokenId : String) (lawful : codec.Lawful) (owner : slotOf key tokenId = .ok slot)
    (oldOrdered : Ordered (sideOrder side) olds) (newOrdered : Ordered (sideOrder side) news) :
    Stages codec key maximum books tokenId slot side olds news := by
  refine ordered_induction (motive := Stages codec key maximum books tokenId slot side)
    ?_ ?_ ?_ ?_ oldOrdered newOrdered
  · intro settled bytes before remaining
    refine ⟨before, rfl, ?_⟩
    have measured := remaining.measured
    have counted := remaining.counted
    rw [diff_nil, ← measured, ← counted]
    exact StagedSide.nil before
  · intro old olds news oldFirst newFirst rest
    exact stages_removed lawful owner oldFirst newFirst rest
  · intro olds new news oldFirst newFirst rest
    exact stages_added lawful owner oldFirst newFirst rest
  · intro old olds new news same oldFirst newFirst rest
    exact stages_kept lawful owner same oldFirst newFirst rest

end Staging

end MarketCow.Live
