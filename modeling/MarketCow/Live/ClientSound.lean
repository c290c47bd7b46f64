import MarketCow.Library.MapSums
import MarketCow.Live.MarketState

/-!
# What a client holds can be sent again

Every level of a client was read from texts that it keeps, and its counts and
bytes are those of its levels. So the state of a client, sent whole, is read
back as it was.
-/

namespace MarketCow.Live

open Library List Function
open Library.Proto
open MarketCow.Core (Decimal Side)
open PriceLevel (encodedLength)

/-! ## Levels -/

/-- A level that is read from its texts. -/
structure LevelSound (codec : Codec) (price : Decimal) (level : ClientLevel) : Prop where
  read : clientLevel codec level.price level.size = .ok (price, level)
  positive : 0 < level.numericSize

/-- What a successful reading of a level says. -/
theorem clientLevel_ok
    (read : clientLevel codec price size = .ok (value, level)) :
    level.price = price ∧ level.size = size ∧ 0 ≤ level.numericSize ∧
      level.encodedBytes = encodedLength { price, size } := by
  unfold clientLevel at read
  obtain ⟨numericPrice, _, _, _, numericSize, sized, read⟩ := bind₃_ok.mp read
  cases read
  unfold clientDecimal at sized
  obtain ⟨_, _, parsed, _, _, signed, sized⟩ := bind₃_ok.mp sized
  cases sized
  have nonnegative := ensure_ok.mp signed
  rw [if_neg Bool.false_ne_true] at nonnegative
  exact ⟨rfl, rfl, of_decide_eq_true nonnegative, rfl⟩

theorem levelSound_of_read
    (read : clientLevel codec price size = .ok (value, level)) (positive : 0 < level.numericSize) :
    LevelSound codec value level := by
  obtain ⟨samePrice, sameSize, _, _⟩ := clientLevel_ok read
  refine ⟨?_, positive⟩
  rw [samePrice, sameSize]
  exact read

/-- The bytes of a level in a frame. -/
def levelBytes (level : ClientLevel) : Nat := nestedBytes level.encodedBytes

def sideBytes (levels : ClientSide) : Nat := TreeMap.sum levelBytes levels

/-- A side of which every level is read from its texts. -/
structure SideSound (codec : Codec) (maximum : Nat) (levels : ClientSide) : Prop where
  level : ∀ (price : Decimal) (level : ClientLevel), levels[price]? = some level →
    LevelSound codec price level
  bounded : levels.size ≤ maximum

section Sides

variable {codec : Codec} {maximum : Nat} {levels : ClientSide}

theorem sideSound_empty : SideSound codec maximum ∅ where
  level := by
    intro price level found
    rw [getElem?_empty] at found
    cases found
  bounded := by
    rw [TreeMap.size_empty]
    exact Nat.zero_le maximum

/-- The levels of a side with one more. -/
theorem level_insert
    (sound : ∀ (price : Decimal) (level : ClientLevel), levels[price]? = some level →
      LevelSound codec price level)
    (added : LevelSound codec price level) :
    ∀ (other : Decimal) (found : ClientLevel), (levels.insert price level)[other]? = some found →
      LevelSound codec other found := by
  intro other found there
  rw [TreeMap.getElem?_insert] at there
  split at there
  · rename_i same
    cases there
    rw [← Std.LawfulEqCmp.compare_eq_iff_eq.mp same]
    exact added
  · exact sound other found there

/-! ### Reading a side -/

/-- Levels that are added one after the other. -/
theorem foldlM_addLevel_sound
    {values : List PriceLevel} {before after : ClientSide} {bytes total : Nat}
    (sound : ∀ (price : Decimal) (level : ClientLevel), before[price]? = some level →
      LevelSound codec price level)
    (folded : values.foldlM (addLevel codec) (before, bytes) = .ok (after, total)) :
    (∀ (price : Decimal) (level : ClientLevel), after[price]? = some level →
        LevelSound codec price level) ∧
      after.size = before.size + values.length ∧
        total = bytes + repeatedLength encodedLength values ∧
          sideBytes after = sideBytes before + repeatedLength encodedLength values := by
  induction values generalizing before bytes with
  | nil =>
    cases folded
    exact ⟨sound, rfl, rfl, rfl⟩
  | cons value values ih =>
    obtain ⟨⟨middle, counted⟩, added, rest⟩ := foldlM_cons_ok.mp folded
    unfold addLevel at added
    obtain ⟨⟨price, level⟩, read, _, checked, added⟩ := bind₂_ok.mp added
    cases added
    obtain ⟨positive, missing⟩ := Bool.and_eq_true_iff.mp (ensure_ok.mp checked)
    rw [not_eq_true'] at missing
    have absent : before[price]? = none := by
      rw [contains_eq_isSome_getElem?] at missing
      exact Option.not_isSome_iff_eq_none.mp (by rw [missing]; exact Bool.false_ne_true)
    have level_bytes := (clientLevel_ok read).2.2.2
    have one := levelSound_of_read read (of_decide_eq_true positive)
    obtain ⟨levels, size, measured, bytes_eq⟩ := ih (level_insert sound one) rest
    refine ⟨levels, ?_, ?_, ?_⟩
    · rw [size, TreeMap.size_insert, missing, if_neg Bool.false_ne_true, length_cons]
      omega
    · rw [measured, repeatedLength_cons, level_bytes, nestedBytes_eq, Nat.add_assoc]
    · have inserted : sideBytes (before.insert price level) = levelBytes level + sideBytes before := by
        unfold sideBytes
        rw [TreeMap.sum_insert, TreeMap.erase_of_getElem?_eq_none absent]
      have nested : levelBytes level = nestedLength (encodedLength value) := by
        unfold levelBytes
        rw [level_bytes, nestedBytes_eq]
      rw [bytes_eq, inserted, nested, repeatedLength_cons]
      omega

/-- A side that was read. -/
theorem clientSide_sound {values : List PriceLevel} {bytes : Nat}
    (read : clientSide codec values maximum = .ok (levels, bytes)) :
    SideSound codec maximum levels ∧ bytes = sideBytes levels ∧
      bytes = repeatedLength encodedLength values := by
  unfold clientSide at read
  obtain ⟨_, bounded, folded⟩ := bind_ok.mp read
  have empty : SideSound codec maximum ∅ := sideSound_empty
  obtain ⟨sound, size, measured, bytes_eq⟩ := foldlM_addLevel_sound empty.level folded
  rw [TreeMap.size_empty, Nat.zero_add] at size
  have nothing : sideBytes ∅ = 0 := TreeMap.sum_empty levelBytes
  rw [nothing, Nat.zero_add] at bytes_eq
  rw [Nat.zero_add] at measured
  refine ⟨⟨sound, ?_⟩, measured.trans bytes_eq.symm, measured⟩
  rw [size]
  exact of_decide_eq_true (ensure_ok.mp bounded)

/-- The wire form of a level. -/
def ClientLevel.wire (level : ClientLevel) : PriceLevel :=
  { price := level.price, size := level.size }

/-- Levels with different prices are added to a side that has none of them. -/
theorem foldlM_addLevel_wire {entries : List (Decimal × ClientLevel)} {before : ClientSide}
    (bytes : Nat) (sound : ∀ entry ∈ entries, LevelSound codec entry.1 entry.2)
    (distinct : entries.Pairwise fun first second => first.1 ≠ second.1)
    (absent : ∀ entry ∈ entries, before[entry.1]? = none) :
    ∃ after total, (entries.map fun entry => entry.2.wire).foldlM (addLevel codec)
        (before, bytes) = .ok (after, total) ∧
      (∀ entry ∈ entries, after[entry.1]? = some entry.2) ∧
        ∀ price, (∀ entry ∈ entries, entry.1 ≠ price) → after[price]? = before[price]? := by
  induction entries generalizing before bytes with
  | nil => exact ⟨before, bytes, rfl, nofun, fun _ _ => rfl⟩
  | cons entry entries ih =>
    obtain ⟨apart, distinct⟩ := pairwise_cons.mp distinct
    obtain ⟨here, rest⟩ := forall_mem_cons.mp sound
    obtain ⟨missing, others⟩ := forall_mem_cons.mp absent
    have untouched : ∀ price, entry.1 ≠ price →
        (before.insert entry.1 entry.2)[price]? = before[price]? := by
      intro price ne
      rw [TreeMap.getElem?_insert, if_neg]
      intro same
      exact ne (Std.LawfulEqCmp.compare_eq_iff_eq.mp same)
    obtain ⟨after, total, folded, there, elsewhere⟩ :=
      @ih (before.insert entry.1 entry.2)
        (bytes + nestedBytes entry.2.encodedBytes) rest distinct fun other mem => by
          rw [untouched other.1 (apart other mem)]
          exact others other mem
    refine ⟨after, total, ?_, ?_, ?_⟩
    · have added : addLevel codec (before, bytes) entry.2.wire =
          .ok (before.insert entry.1 entry.2, bytes + nestedBytes entry.2.encodedBytes) := by
        refine bind_ok.mpr ⟨_, here.read, ?_⟩
        refine bind_ok.mpr ⟨(), ensure_ok.mpr ?_, rfl⟩
        rw [and_eq_true, not_eq_true', contains_eq_isSome_getElem?, missing]
        exact ⟨decide_eq_true here.positive, rfl⟩
      rw [map_cons]
      exact foldlM_cons_ok.mpr ⟨_, added, folded⟩
    · intro other mem
      rcases mem_cons.mp mem with rfl | later
      · rw [elsewhere other.1 fun second listed => (apart second listed).symm]
        exact getElem?_insert_self
      · exact there other later
    · intro price ne
      obtain ⟨first, later⟩ := forall_mem_cons.mp ne
      rw [elsewhere price later, untouched price first]

/-- The entries of a side in the order in which it is written. -/
def ClientSide.entries (levels : ClientSide) : Side → List (Decimal × ClientLevel)
  | .bid => levels.toList.reverse
  | .ask => levels.toList

theorem ClientSide.levels_eq (levels : ClientSide) (side : Side) :
    ClientSide.levels levels side = (ClientSide.entries levels side).map fun entry => entry.2.wire := by
  unfold ClientSide.levels ClientSide.entries TreeMap.valueList
  cases side with
  | bid =>
    rw [map_map, map_reverse]
    rfl
  | ask =>
    rw [map_map]
    rfl

theorem ClientSide.mem_entries :
    entry ∈ ClientSide.entries levels side ↔ levels[entry.1]? = some entry.2 := by
  unfold ClientSide.entries
  cases side with
  | bid => exact mem_reverse.trans mem_toList_iff_getElem?_eq_some
  | ask => exact mem_toList_iff_getElem?_eq_some

theorem ClientSide.entries_distinct (levels : ClientSide) (side : Side) :
    (ClientSide.entries levels side).Pairwise fun first second => first.1 ≠ second.1 := by
  have distinct : levels.toList.Pairwise fun first second => first.1 ≠ second.1 := by
    refine Std.ExtTreeMap.distinct_keys_toList.imp ?_
    intro first second ne same
    exact ne (Std.LawfulEqCmp.compare_eq_iff_eq.mpr same)
  unfold ClientSide.entries
  cases side with
  | bid => exact pairwise_reverse.mpr (distinct.imp Ne.symm)
  | ask => exact distinct

theorem ClientSide.length_entries (levels : ClientSide) (side : Side) :
    (ClientSide.entries levels side).length = levels.size := by
  unfold ClientSide.entries
  cases side with
  | bid => rw [length_reverse, TreeMap.length_toList]
  | ask => exact TreeMap.length_toList

/-- A side is read back as it was written. -/
theorem SideSound.read_back (sound : SideSound codec maximum levels) (side : Side) :
    clientSide codec (ClientSide.levels levels side) maximum = .ok (levels, sideBytes levels) := by
  have short : (ClientSide.levels levels side).length ≤ maximum := by
    rw [ClientSide.levels_eq, length_map, ClientSide.length_entries]
    exact sound.bounded
  obtain ⟨after, total, folded, there, elsewhere⟩ :=
    foldlM_addLevel_wire 0
      (fun entry mem => sound.level entry.1 entry.2 (ClientSide.mem_entries.mp mem))
      (ClientSide.entries_distinct levels side)
      (fun entry _ => getElem?_empty)
  have same : after = levels := by
    refine TreeMap.ext_getElem? fun price => ?_
    cases found : levels[price]? with
    | some level => exact there (price, level) (ClientSide.mem_entries.mpr found)
    | none =>
      rw [elsewhere price, getElem?_empty]
      rintro ⟨other, level⟩ mem rfl
      rw [ClientSide.mem_entries.mp mem] at found
      cases found
  have read : clientSide codec (ClientSide.levels levels side) maximum = .ok (after, total) := by
    unfold clientSide
    rw [ClientSide.levels_eq] at short ⊢
    exact bind_ok.mpr ⟨(), ensure_ok.mpr (decide_eq_true short), folded⟩
  have measured := (clientSide_sound read).2.1
  rw [read, measured, same]

end Sides

/-! ## Changing a side -/

section Changes

variable {codec : Codec} {maximum : Nat} {levels : ClientSide} {price : Decimal}
  {level : ClientLevel}

/-- The bytes of a side, split at a price. -/
theorem sideBytes_split (levels : ClientSide) (price : Decimal) :
    sideBytes levels = (levels[price]?).elim 0 levelBytes + sideBytes (levels.erase price) := by
  unfold sideBytes
  cases found : levels[price]? with
  | none => rw [TreeMap.erase_of_getElem?_eq_none found, Option.elim_none, Nat.zero_add]
  | some old => exact TreeMap.sum_of_getElem? levelBytes found

theorem sideBytes_set (levels : ClientSide) (price : Decimal) (level : ClientLevel) :
    sideBytes (ClientSide.set levels price level) =
      (if level.numericSize = 0 then 0 else levelBytes level) + sideBytes (levels.erase price) := by
  unfold ClientSide.set
  split
  · rw [Nat.zero_add]
  · exact TreeMap.sum_insert levelBytes

theorem size_set (levels : ClientSide) (price : Decimal) (nonnegative : 0 ≤ level.numericSize) :
    (ClientSide.set levels price level).size = countAfter levels.size levels[price]? level := by
  unfold ClientSide.set countAfter
  by_cases zero : level.numericSize = 0
  · have absent : decide (0 < level.numericSize) = false := by
      rw [zero]
      decide
    rw [if_pos zero, absent, Std.ExtTreeMap.size_erase, contains_eq_isSome_getElem?]
    cases levels[price]? <;> rfl
  · have present : decide (0 < level.numericSize) = true :=
      decide_eq_true (lt_of_le_of_ne nonnegative (Ne.symm zero))
    rw [if_neg zero, present, TreeMap.size_insert, contains_eq_isSome_getElem?]
    cases levels[price]? <;> rfl

/-- A side after one of its levels was set to what its texts say. -/
theorem SideSound.set (sound : SideSound codec maximum levels)
    (read : clientLevel codec level.price level.size = .ok (price, level))
    (bounded : countAfter levels.size levels[price]? level ≤ maximum) :
    SideSound codec maximum (ClientSide.set levels price level) := by
  have nonnegative := (clientLevel_ok read).2.2.1
  refine ⟨?_, ?_⟩
  · unfold ClientSide.set
    split
    · intro other found there
      rw [getElem?_erase] at there
      split at there
      · cases there
      · exact sound.level other found there
    · rename_i nonzero
      exact level_insert sound.level ⟨read, lt_of_le_of_ne nonnegative (Ne.symm nonzero)⟩
  · rw [size_set levels price nonnegative]
    exact bounded

theorem getElem?_set_of_ne (ne : other ≠ price) :
    (ClientSide.set levels price level)[other]? = levels[other]? := by
  have apart : compare price other ≠ .eq := by
    intro same
    exact ne (Std.LawfulEqCmp.compare_eq_iff_eq.mp same).symm
  unfold ClientSide.set
  split
  · rw [getElem?_erase, if_neg apart]
  · rw [TreeMap.getElem?_insert, if_neg apart]

end Changes

/-! ## Books -/

/-- One side of a book. -/
def Book.side (book : Book) : Side → ClientSide
  | .bid => book.bids
  | .ask => book.asks

theorem Books.side_eq (books : Books) (slot : Slot) (side : Side) :
    books.side slot side = (books.book slot).side side := by
  cases side <;> rfl

/-- A change of a book changes one side of one book. -/
theorem Book.side_commit (slot : Slot) (book : Book) (change : Place × ClientLevel) (side : Side) :
    (book.commit slot change).side side =
      if change.1.slot = slot ∧ change.1.side = side then
        ClientSide.set (book.side side) change.1.price change.2
      else book.side side := by
  unfold Book.commit
  by_cases here : change.1.slot = slot
  · rw [if_pos here]
    cases changed : change.1.side <;> cases side <;> simp [here, Book.side]
  · rw [if_neg here, if_neg fun both => here both.1]

/-- Both sides of a book are read from their texts, and their bytes are counted. -/
structure SidesSound (codec : Codec) (maximum : Nat) (book : Book) (bytes : Nat) : Prop where
  side : ∀ side, SideSound codec maximum (book.side side)
  bytes : bytes = sideBytes book.bids + sideBytes book.asks

/-- A book that a client holds for a token. -/
structure BookSound (codec : Codec) (maximum : Nat) (token outcome : String) (book : Book) :
    Prop where
  metadata : clientMetadata codec book.metadata token outcome = .ok ()
  sides : SidesSound codec maximum book book.depthBytes

section Books

variable {codec : Codec} {maximum : Nat} {token outcome : String} {book : Book}

section

variable (replaced : replaceBook codec maximum token outcome old value = .ok book)
include replaced

theorem replaceBook_sound :
    BookSound codec maximum token outcome book ∧
      book.depthBytes = value.depthLength ∧ value.metadata = some book.metadata := by
  unfold replaceBook at replaced
  obtain ⟨metadata, described, _, accepted, replaced⟩ := bind₂_ok.mp replaced
  obtain ⟨⟨bids, bidBytes⟩, bidsRead, ⟨asks, askBytes⟩, asksRead, replaced⟩ := bind₂_ok.mp replaced
  obtain ⟨_, _, replaced⟩ := bind_ok.mp replaced
  cases replaced
  obtain ⟨bidsSound, bidsMeasured, bidsLength⟩ := clientSide_sound bidsRead
  obtain ⟨asksSound, asksMeasured, asksLength⟩ := clientSide_sound asksRead
  refine ⟨⟨accepted, ?_, ?_⟩, ?_, need_ok.mp described⟩
  · intro side
    cases side with
    | bid => exact bidsSound
    | ask => exact asksSound
  · exact congrArg₂ (· + ·) bidsMeasured asksMeasured
  · exact congrArg₂ (· + ·) bidsLength asksLength

/-- A book does not matter to the one that takes its place but for its revision. -/
theorem replaceBook_none :
    replaceBook codec maximum token outcome none value = .ok book := by
  unfold replaceBook at replaced ⊢
  obtain ⟨metadata, described, _, accepted, bids, bidsRead, replaced⟩ := bind₃_ok.mp replaced
  obtain ⟨asks, asksRead, _, _, replaced⟩ := bind₂_ok.mp replaced
  exact bind_ok.mpr ⟨metadata, described, bind_ok.mpr
    ⟨_, accepted, bind_ok.mpr ⟨bids, bidsRead, bind_ok.mpr
      ⟨asks, asksRead, bind_ok.mpr ⟨(), rfl, replaced⟩⟩⟩⟩⟩

end

/-- A book is read back as it was sent. -/
theorem BookSound.read_back (sound : BookSound codec maximum token outcome book) :
    replaceBook codec maximum token outcome none book.tokenBook = .ok book := by
  have bids := (sound.sides.side .bid).read_back .bid
  have asks := (sound.sides.side .ask).read_back .ask
  refine bind_ok.mpr ⟨book.metadata, rfl, bind_ok.mpr
    ⟨(), sound.metadata, bind_ok.mpr ⟨_, bids, bind_ok.mpr
      ⟨_, asks, bind_ok.mpr ⟨(), rfl, ?_⟩⟩⟩⟩⟩
  have bytes := sound.sides.bytes
  exact congrArg (fun depthBytes => Except.ok { book with depthBytes }) bytes.symm

/-- The bytes of a book that is sent. -/
theorem BookSound.depthLength (sound : BookSound codec maximum token outcome book) :
    book.tokenBook.depthLength = book.depthBytes :=
  (replaceBook_sound sound.read_back).2.1.symm

end Books

/-! ## Staged changes -/

/-- A book with what has been staged for it. -/
def Staging.committed (books : Books) (staging : Staging) (slot : Slot) : Book :=
  staging.staged.foldl (Book.commit slot) (books.book slot)

/-- What is staged is read from texts, and counted as if it had been made. -/
structure StagingSound (codec : Codec) (maximum : Nat) (books : Books) (staging : Staging) :
    Prop where
  sides : ∀ slot, SidesSound codec maximum (staging.committed books slot) (staging.bytes slot)
  counts : ∀ slot side, staging.counts slot side = ((staging.committed books slot).side side).size
  unseen : ∀ place, place ∉ staging.seen →
    ((staging.committed books place.slot).side place.side)[place.price]? =
      (books.side place.slot place.side)[place.price]?

section Staging

variable {codec : Codec} {maximum : Nat} {books : Books} {staging after : Staging}

theorem stagingSound_start
    (sound : ∀ slot, SidesSound codec maximum (books.book slot) (books.book slot).depthBytes) :
    StagingSound codec maximum books (.start books) where
  sides := sound
  counts := by
    intro slot side
    exact congrArg Std.ExtTreeMap.size (Books.side_eq books slot side)
  unseen := by
    intro place _
    rw [Books.side_eq]
    rfl

theorem Staging.committed_append
    (books : Books) (staging : Staging) (change : Place × ClientLevel) (slot : Slot) :
    (staging.staged ++ [change]).foldl (Book.commit slot) (books.book slot) =
      (staging.committed books slot).commit slot change := by
  rw [foldl_append]
  rfl

/-- The bytes of a book after one of its levels changes. -/
theorem bytesAfter_eq
    (book : Book) (place : Place) (level : ClientLevel) (nonnegative : 0 ≤ level.numericSize) :
    bytesAfter (sideBytes book.bids + sideBytes book.asks)
        ((book.side place.side)[place.price]?) level =
      sideBytes (book.commit place.slot (place, level)).bids +
        sideBytes (book.commit place.slot (place, level)).asks := by
  have split := sideBytes_split (book.side place.side) place.price
  have changed := sideBytes_set (book.side place.side) place.price level
  have positive : (if 0 < level.numericSize then levelBytes level else 0) =
      if level.numericSize = 0 then 0 else levelBytes level := by
    by_cases zero : level.numericSize = 0
    · rw [if_pos zero, if_neg]
      rw [zero]
      exact lt_irrefl 0
    · rw [if_neg zero, if_pos (lt_of_le_of_ne nonnegative (Ne.symm zero))]
  have after : ∀ bytes, bytesAfter bytes ((book.side place.side)[place.price]?) level =
      bytes - ((book.side place.side)[place.price]?).elim 0 levelBytes +
        if level.numericSize = 0 then 0 else levelBytes level := by
    intro bytes
    rw [← positive]
    unfold bytesAfter levelBytes
    split <;> rfl
  rw [after]
  unfold Book.commit
  rw [if_pos rfl]
  cases side : place.side with
  | bid | ask =>
    rw [side] at split changed
    dsimp only [Book.side] at split changed ⊢
    omega

/-- Staging one level. -/
theorem StagingSound.stageLevel (sound : StagingSound codec maximum books staging)
    (read : clientLevel codec level.price level.size = .ok (place.price, level))
    (staged : stageLevel maximum books staging place level = .ok after) :
    StagingSound codec maximum books after := by
  unfold Live.stageLevel at staged
  obtain ⟨_, fresh, _, bounded, staged⟩ := bind₂_ok.mp staged
  have unseen : place ∉ staging.seen := by
    have checked := ensure_ok.mp fresh
    rw [not_eq_true', contains_eq_mem, decide_eq_false_iff_not] at checked
    exact checked
  have same := sound.unseen place unseen
  have counted := sound.counts place.slot place.side
  have few := of_decide_eq_true (ensure_ok.mp bounded)
  rw [← same, counted] at few
  have nonnegative := (clientLevel_ok read).2.2.1
  have committed : ∀ slot, after.committed books slot =
      (staging.committed books slot).commit slot (place, level) := by
    intro slot
    cases staged
    exact Staging.committed_append books staging (place, level) slot
  have sides : ∀ slot side, (after.committed books slot).side side =
      if place.slot = slot ∧ place.side = side then
        ClientSide.set ((staging.committed books slot).side side) place.price level
      else (staging.committed books slot).side side := by
    intro slot side
    rw [committed]
    exact Book.side_commit slot _ _ side
  refine ⟨?_, ?_, ?_⟩
  · intro slot
    refine ⟨?_, ?_⟩
    · intro side
      rw [sides]
      split
      · rename_i here
        obtain ⟨rfl, rfl⟩ := here
        exact ((sound.sides place.slot).side place.side).set read few
      · exact (sound.sides slot).side side
    · rw [committed]
      by_cases here : place.slot = slot
      · subst here
        have bytes := (sound.sides place.slot).bytes
        cases staged
        dsimp only
        rw [update_self, ← same, bytes]
        exact bytesAfter_eq _ place level nonnegative
      · have untouched : (staging.committed books slot).commit slot (place, level) =
            staging.committed books slot := by
          unfold Book.commit
          exact if_neg here
        rw [untouched]
        cases staged
        dsimp only
        rw [update_of_ne (Ne.symm here)]
        exact (sound.sides slot).bytes
  · intro slot side
    rw [sides]
    by_cases here : place.slot = slot
    · subst here
      by_cases there : place.side = side
      · subst there
        rw [if_pos ⟨rfl, rfl⟩, size_set _ _ nonnegative, same, ← counted]
        cases staged
        dsimp only
        rw [update_self, update_self]
      · rw [if_neg fun both => there both.2, ← sound.counts]
        cases staged
        dsimp only
        rw [update_self, update_of_ne (Ne.symm there)]
    · rw [if_neg fun both => here both.1, ← sound.counts]
      cases staged
      dsimp only
      rw [update_of_ne (Ne.symm here)]
  · intro other absent
    have seen : after.seen = place :: staging.seen := by
      cases staged
      rfl
    rw [seen, mem_cons, not_or] at absent
    rw [sides, ← sound.unseen other absent.2]
    split
    · rename_i here
      refine getElem?_set_of_ne ?_
      intro price
      refine absent.1 ?_
      obtain ⟨slot, side, other⟩ := other
      obtain ⟨rfl, rfl⟩ := here
      dsimp only at price
      rw [price]
    · rfl

/-- Staging one change. -/
theorem StagingSound.stageChange
    (sound : StagingSound codec maximum books staging)
    (staged : stageChange codec key maximum books staging delta = .ok after) :
    StagingSound codec maximum books after := by
  unfold Live.stageChange at staged
  obtain ⟨slot, _, side, _, ⟨price, level⟩, read, staged⟩ := bind₃_ok.mp staged
  obtain ⟨samePrice, sameSize, _, _⟩ := clientLevel_ok read
  refine sound.stageLevel ?_ staged
  rw [samePrice, sameSize]
  exact read

end Staging

/-! ## States -/

/-- What a state shows, as the body of a frame. -/
def MarketState.shown (state : MarketState) : Snapshot where
  books := state.books.map Book.tokenBook
  sourceStatus := state.sourceStatus
  reason := state.reason

/-- A state that holds a book for each token. -/
structure Holds (codec : Codec) (state : MarketState) (up down : Book) : Prop where
  books : state.books = [up, down]
  up : BookSound codec state.budget.maximumLevelsPerSide state.key.upTokenId "Up" up
  down : BookSound codec state.budget.maximumLevelsPerSide state.key.downTokenId "Down" down

/-- A state holds no books before its first frame. -/
def StateSound (codec : Codec) (state : MarketState) : Prop :=
  (state.sequence = none ∧ state.books = []) ∨ ∃ up down, Holds codec state up down

/-- A state that is bound like another and has seen no frame. -/
structure Blank (state blank : MarketState) : Prop where
  key : blank.key = state.key
  streamId : blank.streamId = state.streamId
  budget : blank.budget = state.budget
  sequence : blank.sequence = none
  books : blank.books = []

section States

variable {codec : Codec} {state after blank : MarketState} {frame : MarketFrame} {up down : Book}

/-- The bytes of a state, as a client counts them. -/
theorem Holds.encodedLength (holds : Holds codec state up down) :
    state.shown.encodedLength =
      stringBytes state.sourceStatus false + state.reason.elim 0 (stringBytes · true) +
        nestedBytes (up.depthBytes + nestedBytes up.metadata.encodedLength) +
        nestedBytes (down.depthBytes + nestedBytes down.metadata.encodedLength) := by
  have reason : state.reason.elim 0 (stringBytes · true) = optionalStringLength state.reason := by
    cases state.reason with
    | none => rfl
    | some reason => exact stringBytes_true reason
  unfold MarketState.shown Snapshot.encodedLength
  rw [reason, stringBytes_false, holds.books, map_cons, map_cons, map_nil,
    repeatedLength_cons, repeatedLength_cons, repeatedLength_nil]
  unfold TokenBook.encodedLength
  rw [holds.up.depthLength, holds.down.depthLength]
  simp only [nestedBytes_eq]
  unfold Book.tokenBook optionalLength
  dsimp only
  omega

/-- A frame that a state took was a whole state, or changed both of its books. -/
structure Took (codec : Codec) (state : MarketState) (frame : MarketFrame) (after : MarketState) :
    Prop where
  key : after.key = state.key
  streamId : after.streamId = state.streamId
  budget : after.budget = state.budget
  sequence : after.sequence = some frame.stateSequence
  later : ∀ sequence ∈ state.sequence, sequence < frame.stateSequence
  holds : ∃ up down, Holds codec after up down
  bounded : after.shown.encodedLength ≤ after.budget.maximumStateBytes

theorem replace_took (replaced : state.replace codec snapshot = .ok after) :
    after.key = state.key ∧ after.streamId = state.streamId ∧ after.budget = state.budget ∧
      (∃ up down, Holds codec after up down) ∧
        after.shown.encodedLength ≤ after.budget.maximumStateBytes := by
  unfold MarketState.replace at replaced
  split at replaced
  · rename_i first second books
    obtain ⟨_, bounded, up, upReplaced, down, downReplaced, replaced⟩ := bind₃_ok.mp replaced
    obtain ⟨upSound, upLength, upMetadata⟩ := replaceBook_sound upReplaced
    obtain ⟨downSound, downLength, downMetadata⟩ := replaceBook_sound downReplaced
    cases replaced
    have holds : Holds codec
        { state with
          books := [up, down]
          sourceStatus := snapshot.sourceStatus
          reason := snapshot.reason } up down := ⟨rfl, upSound, downSound⟩
    refine ⟨rfl, rfl, rfl, ⟨up, down, holds⟩, ?_⟩
    refine le_trans (le_of_eq ?_) (of_decide_eq_true (ensure_ok.mp bounded))
    unfold MarketState.shown Snapshot.encodedLength
    rw [books, map_cons, map_cons, map_nil, repeatedLength_cons,
      repeatedLength_cons, repeatedLength_cons, repeatedLength_cons]
    unfold TokenBook.encodedLength
    rw [upSound.depthLength, downSound.depthLength, upLength, downLength, upMetadata, downMetadata]
    rfl
  · cases replaced

/-- A metadata that was accepted names its token and outcome. -/
theorem clientMetadata_ok (accepted : clientMetadata codec value token outcome = .ok ()) :
    value.tokenId = token ∧ value.outcome = outcome := by
  unfold clientMetadata at accepted
  obtain ⟨_, named, _⟩ := bind_ok.mp accepted
  have checked := ensure_ok.mp named
  rw [and_eq_true, and_eq_true, beq_iff_eq, beq_iff_eq] at checked
  exact checked.1

/-- A book after its staged changes. -/
theorem BookSound.commitAll
    {books : Books} {slot : Slot} {staging : Staging} {maximum : Nat} {token outcome : String}
    {base : BookBase} {post : TokenMetadata} {changed : Bool}
    (sound : BookSound codec maximum token outcome (books.book slot))
    (staged : StagingSound codec maximum books staging)
    (checked : checkPost codec (books.book slot) changed base post = .ok ()) :
    BookSound codec maximum token outcome ((books.book slot).commitAll slot staging post) := by
  obtain ⟨sameToken, sameOutcome⟩ := clientMetadata_ok sound.metadata
  unfold checkPost at checked
  obtain ⟨_, accepted, _⟩ := bind_ok.mp checked
  rw [sameToken, sameOutcome] at accepted
  have sides := staged.sides slot
  refine ⟨accepted, ?_, sides.bytes⟩
  intro side
  have whole := sides.side side
  cases side with
  | bid | ask => exact whole

section

variable (sound : StateSound codec state)
include sound

/-- The books of a state, and what is staged for them. -/
theorem StateSound.books (books : state.books = [up, down]) :
    Holds codec state up down ∧
      StagingSound codec state.budget.maximumLevelsPerSide { up, down } (.start { up, down }) := by
  have holds : Holds codec state up down := by
    rcases sound with ⟨_, empty⟩ | ⟨first, second, holds⟩
    · rw [empty] at books
      cases books
    · have same := holds.books
      rw [books] at same
      cases same
      exact holds
  refine ⟨holds, stagingSound_start fun slot => ?_⟩
  cases slot with
  | up => exact holds.up.sides
  | down => exact holds.down.sides

/-- The state that a staged change makes holds its books. -/
theorem StateSound.holds_committed
    {change : PriceChange} {staging : Staging} {baseUp baseDown : BookBase}
    {postUp postDown : TokenMetadata} (books : state.books = [up, down])
    (folded : change.changes.foldlM (stageChange codec state.key state.budget.maximumLevelsPerSide
      { up, down }) (.start { up, down }) = .ok staging)
    (upChecked : checkPost codec up (staging.changed .up) baseUp postUp = .ok ())
    (downChecked : checkPost codec down (staging.changed .down) baseDown postDown = .ok ()) :
    Holds codec
      { state with
        books := [up.commitAll .up staging postUp, down.commitAll .down staging postDown]
        sourceStatus := change.sourceStatus
        reason := change.reason }
      (up.commitAll .up staging postUp) (down.commitAll .down staging postDown) := by
  obtain ⟨holds, started⟩ := sound.books books
  have staged : StagingSound codec state.budget.maximumLevelsPerSide { up, down } staging :=
    Fallible.foldlM_invariant (StagingSound codec state.budget.maximumLevelsPerSide { up, down })
      (fun _ _ _ _ sound step => sound.stageChange step) started folded
  have upAfter := @BookSound.commitAll codec { up, down } .up staging _ _ _ baseUp postUp _
    holds.up staged upChecked
  have downAfter := @BookSound.commitAll codec { up, down } .down staging _ _ _ baseDown postDown
    _ holds.down staged downChecked
  exact ⟨rfl, upAfter, downAfter⟩

theorem change_took {change : PriceChange} (changed : state.change codec change = .ok after) :
    after.key = state.key ∧ after.streamId = state.streamId ∧ after.budget = state.budget ∧
      (∃ up down, Holds codec after up down) ∧
        after.shown.encodedLength ≤ after.budget.maximumStateBytes := by
  unfold MarketState.change at changed
  split at changed
  · rename_i up down baseUp baseDown postUp postDown books _ _
    obtain ⟨_, _, changed⟩ := bind_ok.mp changed
    unfold MarketState.changeBooks at changed
    obtain ⟨_, _, staging, folded, _, upChecked, changed⟩ := bind₃_ok.mp changed
    obtain ⟨_, downChecked, _, bounded, changed⟩ := bind₂_ok.mp changed
    have holds := sound.holds_committed books folded upChecked downChecked
    cases changed
    refine ⟨rfl, rfl, rfl, ⟨_, _, holds⟩, ?_⟩
    rw [holds.encodedLength]
    exact of_decide_eq_true (ensure_ok.mp bounded)
  · cases changed

/-- What taking a frame does. -/
theorem apply_took (applied : state.apply codec frame = .ok after) :
    Took codec state frame after := by
  unfold MarketState.apply at applied
  obtain ⟨_, identity, body, _, middle, taken, applied⟩ := bind₃_ok.mp applied
  have checked := ensure_ok.mp identity
  rw [and_eq_true, Option.all_eq_true] at checked
  have took : middle.key = state.key ∧ middle.streamId = state.streamId ∧
      middle.budget = state.budget ∧ (∃ up down, Holds codec middle up down) ∧
        middle.shown.encodedLength ≤ middle.budget.maximumStateBytes := by
    unfold MarketState.takeBody at taken
    cases body with
    | snapshot snapshot => exact replace_took taken
    | priceChange change => exact change_took sound taken
  obtain ⟨key, streamId, budget, ⟨up, down, holds⟩, bounded⟩ := took
  cases applied
  exact
    { key := key
      streamId := streamId
      budget := budget
      sequence := rfl
      later := fun sequence mem => of_decide_eq_true (checked.2 sequence mem)
      holds := ⟨up, down, holds.books, holds.up, holds.down⟩
      bounded := bounded }

end

/-- A frame passes the checks of its identity in a blank state. -/
theorem Blank.identity (blanks : Blank state blank)
    (checked : (frame.schemaVersion == marketSchema && frame.key == some state.key &&
      frame.streamId == state.streamId) = true) :
    (frame.schemaVersion == marketSchema && frame.key == some blank.key &&
      frame.streamId == blank.streamId && blank.sequence.all fun sequence =>
        sequence < frame.stateSequence) = true := by
  rw [blanks.key, blanks.streamId, blanks.sequence, checked]
  rfl

/-- The first frame that a state takes after its sequence was cleared is taken by
a blank state in the same way. -/
theorem Blank.apply_first (blanks : Blank state blank) (cleared : state.sequence = none)
    (applied : state.apply codec frame = .ok after) :
    blank.apply codec frame = .ok after := by
  unfold MarketState.apply at applied ⊢
  obtain ⟨_, identity, body, named, middle, taken, applied⟩ := bind₃_ok.mp applied
  have checked := ensure_ok.mp identity
  rw [and_eq_true] at checked
  refine bind_ok.mpr ⟨(), ensure_ok.mpr (blanks.identity checked.1), bind_ok.mpr ⟨body, named, ?_⟩⟩
  unfold MarketState.takeBody at taken ⊢
  cases body with
  | priceChange change =>
    -- A change needs a base, and there is none.
    dsimp only at taken
    unfold MarketState.change at taken
    split at taken
    · obtain ⟨_, based, _⟩ := bind_ok.mp taken
      have same := ensure_ok.mp based
      rw [cleared] at same
      cases same
    · cases taken
  | snapshot snapshot =>
    dsimp only at taken ⊢
    unfold MarketState.replace at taken ⊢
    split at taken
    · rename_i up down books
      obtain ⟨_, bounded, first, upTaken, second, downTaken, taken⟩ := bind₃_ok.mp taken
      cases taken
      cases applied
      refine bind_ok.mpr
        ⟨{ blank with
          books := [first, second]
          sourceStatus := snapshot.sourceStatus
          reason := snapshot.reason }, ?_, ?_⟩
      · rw [blanks.budget, blanks.key, blanks.books]
        exact bind_ok.mpr ⟨(), bounded, bind_ok.mpr
          ⟨first, replaceBook_none upTaken, bind_ok.mpr ⟨second, replaceBook_none downTaken, rfl⟩⟩⟩
      · rw [blanks.key, blanks.streamId, blanks.budget]
    · cases taken

/-- A state that is sent whole is read back by a blank state. -/
theorem Holds.read_back (holds : Holds codec state up down)
    (bounded : state.shown.encodedLength ≤ state.budget.maximumStateBytes)
    (blanks : Blank state blank) (sent : state.snapshot = some frame) :
    blank.apply codec frame = .ok state := by
  obtain ⟨sequence, numbered, rfl⟩ := map_eq_some_iff.mp sent
  have books : state.shown.books = [up.tokenBook, down.tokenBook] := by
    unfold MarketState.shown
    rw [holds.books]
    rfl
  have replaced : blank.replace codec state.shown =
      .ok { blank with
        books := [up, down]
        sourceStatus := state.sourceStatus
        reason := state.reason } := by
    unfold MarketState.replace
    rw [books]
    rw [blanks.books, blanks.budget, blanks.key]
    refine bind_ok.mpr ⟨(), ensure_ok.mpr (decide_eq_true bounded), ?_⟩
    exact bind_ok.mpr ⟨up, holds.up.read_back, bind_ok.mpr ⟨down, holds.down.read_back, rfl⟩⟩
  unfold MarketState.apply
  refine bind_ok.mpr ⟨(), ensure_ok.mpr (blanks.identity ?_),
    bind_ok.mpr ⟨_, rfl, bind_ok.mpr ⟨_, replaced, ?_⟩⟩⟩
  · rw [beq_self_eq_true, beq_self_eq_true, beq_self_eq_true]
    rfl
  · rw [blanks.key, blanks.streamId, blanks.budget, ← numbered, ← holds.books]

end States

end MarketCow.Live
