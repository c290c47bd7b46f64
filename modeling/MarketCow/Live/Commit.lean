import MarketCow.Live.Staging

/-!
# Committed changes

The changes of both sides of a book are staged one side after the other.
Committed, they turn the book of a client into the book the lane has captured.
-/

namespace MarketCow.Live

open Library List Function
open Library.Proto
open Library.SortedDiff
open MarketCow.Core (Decimal Side)
open Book (commit)

/-! ## One side -/

/-- Make the changes of a side. -/
def applySide (codec : Codec) (map : ClientSide)
    (changes : List (Decimal × Option ClientLevel)) : ClientSide :=
  changes.foldl (fun map change => ClientSide.set map change.1 (stagedLevel codec change)) map

section Sides

variable {codec : Codec} {side : Side} {olds news : List (Decimal × Decimal)}

theorem getElem?_set (map : ClientSide) (price other : Decimal) (level : ClientLevel) :
    (ClientSide.set map price level)[other]? =
      if price = other then (if level.numericSize = 0 then none else some level)
      else map[other]? := by
  unfold ClientSide.set
  split
  · rw [getElem?_erase]
    simp
  · rw [TreeMap.getElem?_insert]
    simp

/-- Making changes is making them to the values. -/
theorem applySide_getElem? (codec : Codec)
    (map : ClientSide) (nonzero : ∀ change ∈ changes, ∀ level ∈ change.2, level.numericSize ≠ 0) :
    (fun price : Decimal => (applySide codec map changes)[price]?) =
      changes.foldl applyChange fun price => map[price]? := by
  induction changes generalizing map with
  | nil => rfl
  | cons change changes ih =>
    rw [forall_mem_cons] at nonzero
    have rest := ih (ClientSide.set map change.1 (stagedLevel codec change)) nonzero.2
    refine rest.trans ?_
    rw [foldl_cons]
    refine congrArg (fun values => changes.foldl applyChange values) ?_
    funext price
    rw [getElem?_set]
    unfold applyChange
    rw [update_apply]
    by_cases same : change.1 = price
    · rw [if_pos same, if_pos same.symm]
      unfold stagedLevel
      cases found : change.2 with
      | none => exact if_pos rfl
      | some level => exact if_neg (nonzero.1 level found)
    · rw [if_neg same, if_neg (Ne.symm same)]

/-- The difference of two sides leads from the one to the other. -/
theorem applySide_sideDiff
    (oldSound : SideValues codec side olds) (newSound : SideValues codec side news) :
    applySide codec (sideMap codec olds) (sideDiff codec side olds news) = sideMap codec news := by
  have oldOrdered := entries_ordered oldSound
  have newOrdered := entries_ordered newSound
  have oldLooks := looks_sideMap oldSound
  have nonzero : ∀ change ∈ sideDiff codec side olds news, ∀ level ∈ change.2,
      level.numericSize ≠ 0 := by
    intro change mem level found
    rcases mem_diff oldOrdered newOrdered mem with ⟨new, listed, rfl⟩ | ⟨old, listed, rfl⟩
    · obtain ⟨size, value, same⟩ := written_of_mem_entries newSound new listed
      cases found
      rw [same]
      exact value.positive.ne'
    · cases found
  have values := applySide_getElem? codec (sideMap codec olds) nonzero
  have held : ∀ old ∈ entries codec olds, (sideMap codec olds)[old.1]? = some old.2 := by
    intro old mem
    obtain ⟨value, found, rfl⟩ := mem_map.mp mem
    exact oldLooks.here value found
  have settled := apply_diff oldOrdered newOrdered (fun price => (sideMap codec olds)[price]?) held
  unfold sideDiff at values ⊢
  rw [← values] at settled
  refine Looks.unique ⟨?_, ?_⟩ (looks_sideMap newSound)
  · intro value mem
    exact settled.here (value.1, levelOf codec value.1 value.2) (mem_map.mpr ⟨value, mem, rfl⟩)
  · intro price apart
    have newApart : ∀ entry ∈ entries codec news, entry.1 ≠ price := by
      intro entry mem
      obtain ⟨value, found, rfl⟩ := mem_map.mp mem
      exact apart value found
    by_cases listed : ∃ old ∈ entries codec olds, old.1 = price
    · obtain ⟨old, mem, rfl⟩ := listed
      exact settled.gone old mem newApart
    · push Not at listed
      have untouched := apply_diff_other oldOrdered newOrdered
        (fun price => (sideMap codec olds)[price]?) listed newApart
      rw [← values] at untouched
      refine untouched.trans (oldLooks.elsewhere price ?_)
      intro value mem
      exact listed (value.1, levelOf codec value.1 value.2) (mem_map.mpr ⟨value, mem, rfl⟩)

end Sides

/-! ## One book -/

/-- The sides of a captured book, by their values. -/
structure Depths where
  bids : List (Decimal × Decimal)
  asks : List (Decimal × Decimal)
  deriving DecidableEq

/-- Both sides are in normal form and within the limit of a lane. -/
structure Depths.Sound (codec : Codec) (depths : Depths) : Prop where
  bids : SideValues codec .bid depths.bids
  asks : SideValues codec .ask depths.asks
  bidsBounded : depths.bids.length ≤ maxLevels
  asksBounded : depths.asks.length ≤ maxLevels

/-- The bytes of the levels of a book. -/
def Depths.bytes (codec : Codec) (depths : Depths) : Nat :=
  repeatedLength PriceLevel.encodedLength (wireSide codec depths.bids) +
    repeatedLength PriceLevel.encodedLength (wireSide codec depths.asks)

/-- The book of a client. -/
def bookOf (codec : Codec) (metadata : TokenMetadata) (depths : Depths) : Book where
  metadata := metadata
  bids := sideMap codec depths.bids
  asks := sideMap codec depths.asks
  depthBytes := depths.bytes codec

/-- The new levels of both sides fit while they are added. -/
def Depths.Room (codec : Codec) (maximum : Nat) (olds news : Depths) : Prop :=
  Fits (sideOrder .bid) 0 maximum (entries codec olds.bids) (entries codec news.bids) ∧
    Fits (sideOrder .ask) 0 maximum (entries codec olds.asks) (entries codec news.asks)

/-- What is staged for both sides of a book. -/
def stagedBook (codec : Codec) (slot : Slot) (olds news : Depths) : List (Place × ClientLevel) :=
  (sideDiff codec .bid olds.bids news.bids).map (stagedOf codec slot .bid) ++
    (sideDiff codec .ask olds.asks news.asks).map (stagedOf codec slot .ask)

/-- The changes of both sides of a book. -/
def changesOf (codec : Codec) (tokenId : String) (olds news : Depths) : List DepthChange :=
  (sideDiff codec .bid olds.bids news.bids).map (depthChange codec tokenId .bid) ++
    (sideDiff codec .ask olds.asks news.asks).map (depthChange codec tokenId .ask)

/-- A staging that has not come to a book yet. -/
structure Untouched (books : Books) (slot : Slot) (staging : Staging) : Prop where
  changed : staging.changed slot = false
  bytes : staging.bytes slot = (books.book slot).depthBytes
  counts : ∀ side, staging.counts slot side = (books.side slot side).size
  unseen : ∀ place ∈ staging.seen, place.slot ≠ slot

/-- What staging the changes of one book does. -/
structure StagedBook
    (codec : Codec) (slot : Slot) (olds news : Depths) (before after : Staging) : Prop where
  changed : after.changed = Function.update before.changed slot (decide (olds ≠ news))
  bytes : after.bytes = Function.update before.bytes slot (news.bytes codec)
  counts : ∀ other, other ≠ slot → after.counts other = before.counts other
  seen : ∀ place ∈ after.seen, place ∈ before.seen ∨ place.slot = slot
  staged : after.staged = before.staged ++ stagedBook codec slot olds news

section Books

variable {codec : Codec} {key : MarketKey} {maximum : Nat} {books : Books} {slot : Slot}
  {tokenId : String} {before : Staging} {metadata : TokenMetadata} {olds news : Depths}
  {side : Side}

theorem sideDiff_isEmpty {olds news : List (Decimal × Decimal)}
    (oldSound : SideValues codec side olds) (newSound : SideValues codec side news) :
    (sideDiff codec side olds news).isEmpty = decide (olds = news) := by
  rw [Bool.eq_iff_iff, List.isEmpty_iff, decide_eq_true_iff]
  unfold sideDiff
  rw [diff_eq_nil_iff (entries_ordered oldSound) (entries_ordered newSound)]
  constructor
  · intro same
    have values := congrArg (List.map fun entry => (entry.1, entry.2.numericSize)) same
    unfold entries at values
    rw [map_map, map_map] at values
    exact (map_id olds).symm.trans (values.trans (map_id news))
  · rintro rfl
    rfl

/-- A side of a book the staging has not come to is all remaining. -/
theorem remaining_of_untouched {olds news : List (Decimal × Decimal)} {bytes : Nat}
    (oldSound : SideValues codec side olds) (newSound : SideValues codec side news)
    (there : books.side slot side = sideMap codec olds) (bounded : olds.length ≤ maximum)
    (fits : Fits (sideOrder side) 0 maximum (entries codec olds) (entries codec news))
    (counted : before.counts slot side = (books.side slot side).size)
    (measured : before.bytes slot =
      bytes + repeatedLength PriceLevel.encodedLength (wireSide codec olds))
    (unseen : ∀ price, ({ slot, side, price } : Place) ∉ before.seen) :
    Remaining codec maximum (books.side slot side) slot side 0 bytes (entries codec olds)
      (entries codec news) before := by
  have looks := looks_sideMap oldSound
  have length : (entries codec olds).length = olds.length := length_map _
  refine ⟨written_of_mem_entries oldSound, written_of_mem_entries newSound, ?_, ?_,
    fun old _ => unseen old.1, fun new _ => unseen new.1, ?_, ?_, fits, ?_⟩
  · intro old mem
    obtain ⟨value, found, rfl⟩ := mem_map.mp mem
    rw [there]
    exact looks.here value found
  · intro new _ apart
    rw [there]
    refine looks.elsewhere new.1 fun value mem => ?_
    exact apart (value.1, levelOf codec value.1 value.2) (mem_map.mpr ⟨value, mem, rfl⟩)
  · rw [counted, there, (clientSide_eq oldSound le_rfl).2, length, Nat.zero_add]
  · omega
  · rw [measured, totalBytes_entries]

/-- The changes of a book are staged. -/
theorem stageBook
    (lawful : codec.Lawful) (owner : slotOf key tokenId = .ok slot) (oldSound : olds.Sound codec)
    (newSound : news.Sound codec) (there : books.book slot = bookOf codec metadata olds)
    (large : maxLevels ≤ maximum) (room : Depths.Room codec maximum olds news)
    (untouched : Untouched books slot before) :
    ∃ after, (changesOf codec tokenId olds news).foldlM (stageChange codec key maximum books)
        before = .ok after ∧ StagedBook codec slot olds news before after := by
  have bidsThere : books.side slot .bid = sideMap codec olds.bids := congrArg Book.bids there
  have asksThere : books.side slot .ask = sideMap codec olds.asks := congrArg Book.asks there
  have measured : before.bytes slot = olds.bytes codec := by
    rw [untouched.bytes, there]
    rfl
  unfold Depths.bytes at measured
  have bidsRemaining := remaining_of_untouched oldSound.bids newSound.bids bidsThere
    (oldSound.bidsBounded.trans large) room.1 (untouched.counts .bid)
    (measured.trans (Nat.add_comm _ _)) fun price mem => untouched.unseen _ mem rfl
  obtain ⟨middle, bidsFolded, bids⟩ := stages_side tokenId lawful owner
    (entries_ordered oldSound.bids) (entries_ordered newSound.bids) 0 _ before bidsRemaining
  have asksCounted : middle.counts slot .ask = (books.side slot .ask).size := by
    rw [bids.counts, update_self, update_of_ne (by decide), untouched.counts .ask]
  have asksMeasured : middle.bytes slot = totalBytes (entries codec news.bids) +
      repeatedLength PriceLevel.encodedLength (wireSide codec olds.asks) := by
    rw [bids.bytes, update_self, Nat.add_comm]
  have asksUnseen : ∀ price, ({ slot, side := .ask, price } : Place) ∉ middle.seen := by
    intro price mem
    rcases bids.seen _ mem with earlier | ⟨_, _, never⟩
    · exact untouched.unseen _ earlier rfl
    · cases never
  have asksRemaining := remaining_of_untouched oldSound.asks newSound.asks asksThere
    (oldSound.asksBounded.trans large) room.2 asksCounted asksMeasured asksUnseen
  obtain ⟨after, asksFolded, asks⟩ := stages_side tokenId lawful owner
    (entries_ordered oldSound.asks) (entries_ordered newSound.asks) 0 _ middle asksRemaining
  refine ⟨after, foldlM_append_ok.mpr ⟨middle, bidsFolded, asksFolded⟩, ?_⟩
  refine ⟨?_, ?_, ?_, ?_, ?_⟩
  · rw [asks.changed, bids.changed, update_idem, update_self, untouched.changed]
    have bidsSame := sideDiff_isEmpty oldSound.bids newSound.bids
    have asksSame := sideDiff_isEmpty oldSound.asks newSound.asks
    unfold sideDiff at bidsSame asksSame
    rw [bidsSame, asksSame, Bool.false_or]
    refine congrArg _ ?_
    obtain ⟨oldBids, oldAsks⟩ := olds
    obtain ⟨newBids, newAsks⟩ := news
    simp only [ne_eq, Depths.mk.injEq, not_and_or, Bool.decide_or, decide_not]
  · rw [asks.bytes, bids.bytes, update_idem, totalBytes_entries, totalBytes_entries]
    rfl
  · intro other ne
    rw [asks.counts, bids.counts, update_of_ne ne, update_of_ne ne]
  · intro place mem
    rcases asks.seen place mem with earlier | ⟨_, _, rfl⟩
    · rcases bids.seen place earlier with before | ⟨_, _, rfl⟩
      · exact .inl before
      · exact .inr rfl
    · exact .inr rfl
  · rw [asks.staged, bids.staged, append_assoc]
    rfl

variable (book : Book)

/-- Changes of another book are not made to a book. -/
theorem commit_other
    {changes : List (Place × ClientLevel)} (other : ∀ change ∈ changes, change.1.slot ≠ slot) :
    changes.foldl (commit slot) book = book := by
  induction changes with
  | nil => rfl
  | cons change changes ih =>
    rw [forall_mem_cons] at other
    have same : commit slot book change = book := by
      unfold commit
      exact if_neg other.1
    rw [foldl_cons, same, ih other.2]

theorem commit_bids (changes : List (Decimal × Option ClientLevel)) :
    (changes.map (stagedOf codec slot .bid)).foldl (commit slot) book =
      { book with bids := applySide codec book.bids changes } := by
  induction changes generalizing book with
  | nil => rfl
  | cons change changes ih =>
    rw [map_cons, foldl_cons, ih]
    unfold commit stagedOf
    rw [if_pos rfl]
    rfl

theorem commit_asks (changes : List (Decimal × Option ClientLevel)) :
    (changes.map (stagedOf codec slot .ask)).foldl (commit slot) book =
      { book with asks := applySide codec book.asks changes } := by
  induction changes generalizing book with
  | nil => rfl
  | cons change changes ih =>
    rw [map_cons, foldl_cons, ih]
    unfold commit stagedOf
    rw [if_pos rfl]
    rfl

theorem slot_of_mem_stagedBook
    (mem : place ∈ stagedBook codec slot olds news) : place.1.slot = slot := by
  unfold stagedBook at mem
  rcases mem_append.mp mem with bids | asks
  · obtain ⟨_, _, rfl⟩ := mem_map.mp bids
    rfl
  · obtain ⟨_, _, rfl⟩ := mem_map.mp asks
    rfl

/-- The changes of a book lead from the book of one state to the book of the
other. -/
theorem commit_stagedBook (oldSound : olds.Sound codec) (newSound : news.Sound codec) :
    (stagedBook codec slot olds news).foldl (commit slot) (bookOf codec metadata olds) =
      { bookOf codec metadata news with depthBytes := olds.bytes codec } := by
  unfold stagedBook
  rw [foldl_append, commit_bids, commit_asks]
  unfold bookOf
  rw [applySide_sideDiff oldSound.bids newSound.bids, applySide_sideDiff oldSound.asks newSound.asks]

end Books

end MarketCow.Live
