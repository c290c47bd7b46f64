import MarketCow.Library.SortedDiff
import MarketCow.Live.MarketState

/-!
# Sides as values

A side that a lane has checked is a list of prices and sizes, written in normal
form and ordered. A client reads it into a map, and the changes between two sides
are the difference of the lists.
-/

namespace MarketCow.Live

open Library List
open Library.Proto
open Library.SortedDiff
open MarketCow.Core (Decimal Side)

/-! ## The order of a side -/

abbrev sideOrder (side : Side) : Decimal → Decimal → Prop :=
  fun first second => comesBefore side first second = true

instance (side : Side) : IsStrictTotalOrder Decimal (sideOrder side) where
  irrefl price := by
    cases side <;> simp [sideOrder, comesBefore]
  trans first second third := by
    cases side <;> simp only [sideOrder, comesBefore, decide_eq_true_eq]
    · exact fun one two => two.trans one
    · exact lt_trans
  trichotomous first second := by
    cases side <;> simp only [sideOrder, comesBefore, decide_eq_true_eq, not_lt]
    · exact fun one two => le_antisymm one two
    · exact fun one two => le_antisymm two one

/-! ## Written sides -/

/-- The level of a client for a price and a size. -/
def levelOf (codec : Codec) (price size : Decimal) : ClientLevel where
  price := codec.text price
  size := codec.text size
  numericSize := size
  encodedBytes := PriceLevel.encodedLength { price := codec.text price, size := codec.text size }

def wireLevel (codec : Codec) (value : Decimal × Decimal) : PriceLevel where
  price := codec.text value.1
  size := codec.text value.2

def wireSide (codec : Codec) (values : List (Decimal × Decimal)) : List PriceLevel :=
  values.map (wireLevel codec)

/-- The levels of a client by their prices. -/
def entries (codec : Codec) (values : List (Decimal × Decimal)) : List (Decimal × ClientLevel) :=
  values.map fun value => (value.1, levelOf codec value.1 value.2)

/-- The side of a client for a list of values. -/
def sideMap (codec : Codec) (values : List (Decimal × Decimal)) : ClientSide :=
  TreeMap.collect (entries codec values)

/-- A price and a size that a side may hold, and whose texts are read back. -/
structure LevelValue (codec : Codec) (value : Decimal × Decimal) : Prop where
  price : codec.Readable value.1
  size : codec.Readable value.2
  nonnegative : 0 ≤ value.1
  bounded : value.1 ≤ 1
  positive : 0 < value.2

/-- The values of a side: each may be held, and the prices are in order. -/
structure SideValues (codec : Codec) (side : Side) (values : List (Decimal × Decimal)) : Prop where
  level : ∀ value ∈ values, LevelValue codec value
  ordered : values.Pairwise fun first second => sideOrder side first.1 second.1

section Decimals

variable {codec : Codec} {value : Decimal}

theorem decimal_ok
    (read : decimal codec text positive = .ok value) :
    codec.parse text = some value ∧ 0 ≤ value ∧ (positive = true → 0 < value) := by
  unfold decimal at read
  obtain ⟨_, _, parsed, found, _, ranged, read⟩ := bind₃_ok.mp read
  cases read
  rw [ensure_ok] at ranged
  refine ⟨need_ok.mp found, ?_⟩
  cases positive with
  | true =>
    have bound := of_decide_eq_true ranged
    exact ⟨bound.le, fun _ => bound⟩
  | false => exact ⟨of_decide_eq_true ranged, by simp⟩

/-- A plain text has none of the characters that both ends refuse. -/
theorem unsigned_of_isPlain (plain : isPlain text = true) :
    (text.toList.any fun character =>
      character == 'e' || character == 'E' || character == '+') = false := by
  unfold isPlain at plain
  rw [and_eq_true, all_eq_true] at plain
  rw [any_eq_false]
  intro character mem
  have allowed := plain.2 character mem
  rw [or_eq_true, beq_iff_eq] at allowed
  simp only [or_eq_true, beq_iff_eq, not_or]
  rcases allowed with digit | rfl
  · refine ⟨⟨?_, ?_⟩, ?_⟩ <;> rintro rfl <;> exact absurd digit (by decide)
  · decide

theorem Codec.Readable.decimal (readable : codec.Readable value)
    (ranged : (if positive then decide (0 < value) else decide (0 ≤ value)) = true) :
    decimal codec (codec.text value) positive = .ok value := by
  have plain := readable.plain
  have unsigned := unsigned_of_isPlain plain
  unfold isPlain at plain
  rw [and_eq_true] at plain
  unfold Live.decimal
  rw [unsigned, plain.1, readable.parse]
  exact bind_ok.mpr ⟨(), rfl, bind_ok.mpr ⟨value, rfl, bind_ok.mpr ⟨(), ensure_ok.mpr ranged, rfl⟩⟩⟩

theorem Codec.Readable.clientDecimal (readable : codec.Readable value)
    (ranged : (if positive then decide (0 < value) else decide (0 ≤ value)) = true) :
    clientDecimal codec (codec.text value) positive = .ok value := by
  have unsigned := unsigned_of_isPlain readable.plain
  unfold Live.clientDecimal
  rw [unsigned, readable.plain, readable.parseExact]
  exact bind_ok.mpr ⟨(), rfl, bind_ok.mpr ⟨value, rfl, bind_ok.mpr ⟨(), ensure_ok.mpr ranged, rfl⟩⟩⟩

theorem Codec.Lawful.clientDecimal_zero (lawful : codec.Lawful) :
    clientDecimal codec "0" false = .ok 0 := by
  have plain : isPlain "0" = true := by decide +kernel
  have unsigned := unsigned_of_isPlain plain
  unfold clientDecimal
  rw [unsigned, plain, lawful.zero]
  rfl

end Decimals

/-! ## Captured sides -/

section Captured

variable {codec : Codec} {side : Side}

/-- What a lane has checked is a side in normal form. -/
theorem levelsAfter_ok
    (lawful : codec.Lawful)
    (checked : levelsAfter codec side previous rows = .ok result) :
    ∃ values, SideValues codec side values ∧ result = wireSide codec values ∧
      (∀ before ∈ previous, ∀ value ∈ values, sideOrder side before value.1) ∧
      values.length = rows.length := by
  induction rows generalizing previous result with
  | nil =>
    cases checked
    exact ⟨[], ⟨by simp, .nil⟩, rfl, by simp, rfl⟩
  | cons row rows ih =>
    unfold levelsAfter at checked
    obtain ⟨price, priceRead, _, bounded, size, sizeRead, checked⟩ := bind₃_ok.mp checked
    obtain ⟨_, ordered, rest, restChecked, checked⟩ := bind₂_ok.mp checked
    cases checked
    obtain ⟨values, sound, rfl, after, length⟩ := ih restChecked
    obtain ⟨priceParsed, nonnegative, _⟩ := decimal_ok priceRead
    obtain ⟨sizeParsed, sizeNonnegative, positive⟩ := decimal_ok sizeRead
    rw [ensure_ok] at bounded ordered
    have atMostOne := of_decide_eq_true bounded
    have follows : ∀ before ∈ previous, sideOrder side before price := by
      intro before mem
      cases mem
      exact ordered
    refine ⟨(price, size) :: values, ⟨?_, ?_⟩, rfl, ?_, ?_⟩
    · rw [forall_mem_cons]
      exact ⟨⟨lawful.readable _ _ priceParsed nonnegative,
        lawful.readable _ _ sizeParsed sizeNonnegative, nonnegative, atMostOne, positive rfl⟩,
        sound.level⟩
    · rw [pairwise_cons]
      exact ⟨after price rfl, sound.ordered⟩
    · intro before mem
      rw [forall_mem_cons]
      refine ⟨follows before mem, fun value later => ?_⟩
      exact trans_of (sideOrder side) (follows before mem) (after price rfl value later)
    · rw [length_cons, length_cons, length]

theorem levels_ok (lawful : codec.Lawful)
    (checked : levels codec side rows = .ok result) :
    ∃ values, SideValues codec side values ∧ result = wireSide codec values ∧
      values.length ≤ maxLevels := by
  unfold levels at checked
  obtain ⟨_, bounded, checked⟩ := bind_ok.mp checked
  obtain ⟨values, sound, rfl, _, length⟩ := levelsAfter_ok lawful checked
  refine ⟨values, sound, rfl, ?_⟩
  rw [ensure_ok] at bounded
  rw [length]
  exact of_decide_eq_true bounded

/-- A side in normal form is written in one way only. -/
theorem wireSide_inj
    (firstSound : SideValues codec side first) (secondSound : SideValues codec side second) :
    wireSide codec first = wireSide codec second ↔ first = second := by
  constructor
  · intro same
    induction first generalizing second with
    | nil =>
      cases second with
      | nil => rfl
      | cons value second => cases same
    | cons value first ih =>
      cases second with
      | nil => cases same
      | cons other second =>
        obtain ⟨firstLevel, firstRest⟩ := forall_mem_cons.mp firstSound.level
        obtain ⟨secondLevel, secondRest⟩ := forall_mem_cons.mp secondSound.level
        obtain ⟨firstOrdered, secondOrdered⟩ :=
          And.intro firstSound.ordered.of_cons secondSound.ordered.of_cons
        unfold wireSide wireLevel at same
        rw [map_cons, map_cons, List.cons.injEq, PriceLevel.mk.injEq,
          firstLevel.price.text_inj secondLevel.price,
          firstLevel.size.text_inj secondLevel.size] at same
        obtain ⟨⟨price, size⟩, rest⟩ := same
        rw [Prod.ext price size, ih ⟨firstRest, firstOrdered⟩ ⟨secondRest, secondOrdered⟩ rest]
  · rintro rfl
    rfl

end Captured

/-! ## Differences -/

/-- The change of a frame for a change of values. -/
def depthChange (codec : Codec) (tokenId : String) (side : Side)
    (change : Decimal × Option ClientLevel) : DepthChange :=
  match change.2 with
  | some level => setChange tokenId side { price := level.price, size := level.size }
  | none => removeChange tokenId side { price := codec.text change.1, size := "0" }

/-- The changes between two sides, by their values. -/
def sideDiff (codec : Codec) (side : Side) (olds news : List (Decimal × Decimal)) :
    List (Decimal × Option ClientLevel) :=
  diff (sideOrder side) (entries codec olds) (entries codec news)

section Differences

variable {codec : Codec} {side : Side} {olds news : List (Decimal × Decimal)}

theorem entries_ordered (sound : SideValues codec side olds) :
    Ordered (sideOrder side) (entries codec olds) := by
  unfold entries
  rw [Ordered, pairwise_map]
  exact sound.ordered

theorem SideValues.tail
    (sound : SideValues codec side (value :: olds)) : SideValues codec side olds :=
  ⟨(forall_mem_cons.mp sound.level).2, sound.ordered.of_cons⟩

theorem SideValues.head
    (sound : SideValues codec side (value :: olds)) : LevelValue codec value :=
  (forall_mem_cons.mp sound.level).1

theorem compare_eq_ite (first second : Decimal) :
    compare first second = if first = second then .eq else if first < second then .lt else .gt := by
  rcases lt_trichotomy first second with less | same | more
  · rw [compare_lt_iff_lt.mpr less, if_neg less.ne, if_pos less]
  · rw [compare_eq_iff_eq.mpr same, if_pos same]
  · rw [compare_gt_iff_gt.mpr more, if_neg more.ne', if_neg more.not_gt]

/-- The lane compares prices in the order of their side. -/
theorem compareLevels_eq
    (oldLevel : LevelValue codec old) (newLevel : LevelValue codec new) :
    compareLevels codec side (wireLevel codec old) (wireLevel codec new) =
      .ok (if old.1 = new.1 then .eq else if sideOrder side old.1 new.1 then .lt else .gt) := by
  have first : decimal codec (codec.text old.1) false = .ok old.1 :=
    oldLevel.price.decimal (decide_eq_true oldLevel.nonnegative)
  have second : decimal codec (codec.text new.1) false = .ok new.1 :=
    newLevel.price.decimal (decide_eq_true newLevel.nonnegative)
  unfold compareLevels wireLevel
  refine bind_ok.mpr ⟨old.1, first, bind_ok.mpr ⟨new.1, second, ?_⟩⟩
  cases side with
  | bid =>
    dsimp only
    rw [compare_eq_ite]
    simp only [sideOrder, comesBefore, decide_eq_true_eq, @eq_comm _ new.1 old.1]
  | ask =>
    dsimp only
    rw [compare_eq_ite]
    simp only [sideOrder, comesBefore, decide_eq_true_eq]

/-- Merging an old level with the new ones, as values. -/
theorem mergeLevel_eq
    {rest : List PriceLevel → Except String (List DepthChange)}
    {restDiff : List (Decimal × ClientLevel) → List (Decimal × Option ClientLevel)}
    (oldLevel : LevelValue codec old)
    (follows : ∀ others, SideValues codec side others → rest (wireSide codec others) =
      .ok ((restDiff (entries codec others)).map (depthChange codec tokenId side)))
    (sound : SideValues codec side news) :
    mergeLevel codec tokenId side (wireLevel codec old) rest (wireSide codec news) =
      .ok ((mergeEntry (sideOrder side) (old.1, levelOf codec old.1 old.2) restDiff
        (entries codec news)).map (depthChange codec tokenId side)) := by
  induction news with
  | nil =>
    refine bind_ok.mpr ⟨_, follows [] sound, ?_⟩
    rfl
  | cons new news ih =>
    have newLevel := sound.head
    have after := follows news sound.tail
    unfold wireSide entries at after ⊢
    rw [map_cons, map_cons, mergeLevel, mergeEntry, compareLevels_eq oldLevel newLevel]
    refine bind_ok.mpr ⟨_, rfl, ?_⟩
    by_cases same : old.1 = new.1
    · rw [if_pos same, if_pos same]
      refine bind_ok.mpr ⟨_, after, ?_⟩
      have sizes : (wireLevel codec old).size = (wireLevel codec new).size ↔
          levelOf codec old.1 old.2 = levelOf codec new.1 new.2 := by
        rw [show (wireLevel codec old).size = codec.text old.2 from rfl,
          show (wireLevel codec new).size = codec.text new.2 from rfl,
          oldLevel.size.text_inj newLevel.size, same]
        constructor
        · intro equal
          rw [equal]
        · exact congrArg ClientLevel.numericSize
      by_cases equal : old.2 = new.2
      · rw [if_neg (not_not.mpr (sizes.mpr (by rw [same, equal]))), if_pos (by rw [same, equal])]
      · have ne : levelOf codec old.1 old.2 ≠ levelOf codec new.1 new.2 :=
          fun level => equal (congrArg ClientLevel.numericSize level)
        rw [if_pos (mt sizes.mp ne), if_neg ne]
        rfl
    rw [if_neg same, if_neg same]
    by_cases earlier : sideOrder side old.1 new.1
    · rw [if_pos earlier, if_pos earlier]
      refine bind_ok.mpr ⟨_, follows (new :: news) sound, ?_⟩
      rfl
    · rw [if_neg earlier, if_neg earlier]
      refine bind_ok.mpr ⟨_, ih sound.tail, ?_⟩
      rfl

section

variable (tokenId : String) (oldSound : SideValues codec side olds)
  (newSound : SideValues codec side news)
include tokenId oldSound newSound

/-- The lane lists the difference of the values. -/
theorem mergeLevels_eq :
    mergeLevels codec tokenId side (wireSide codec olds) (wireSide codec news) =
      .ok ((sideDiff codec side olds news).map (depthChange codec tokenId side)) := by
  induction olds generalizing news with
  | nil =>
    unfold sideDiff wireSide entries
    rw [map_nil, mergeLevels, map_nil, diff, map_map, map_map, map_map]
    rfl
  | cons old olds ih =>
    exact mergeLevel_eq oldSound.head (fun others sound => ih oldSound.tail sound) newSound

theorem sideChanges_eq :
    sideChanges codec tokenId side (wireSide codec olds) (wireSide codec news) =
      .ok ((sideDiff codec side olds news).map (depthChange codec tokenId side)) := by
  unfold sideChanges
  split
  · rename_i same
    rw [wireSide_inj oldSound newSound] at same
    unfold sideDiff
    rw [same, (diff_eq_nil_iff (entries_ordered newSound) (entries_ordered newSound)).mpr rfl]
    rfl
  · exact mergeLevels_eq tokenId oldSound newSound

end

end Differences

/-! ## Sides of a client -/

section Clients

variable {codec : Codec} {side : Side} {values : List (Decimal × Decimal)}

/-- A client reads a level as it was written. -/
theorem LevelValue.clientLevel (level : LevelValue codec value) :
    clientLevel codec (codec.text value.1) (codec.text value.2) =
      .ok (value.1, levelOf codec value.1 value.2) := by
  unfold Live.clientLevel
  refine bind_ok.mpr ⟨value.1, level.price.clientDecimal (decide_eq_true level.nonnegative), ?_⟩
  refine bind_ok.mpr ⟨(), ensure_ok.mpr (decide_eq_true level.bounded), ?_⟩
  exact bind_ok.mpr ⟨value.2, level.size.clientDecimal (decide_eq_true level.positive.le), rfl⟩

/-- The level of size zero that removes a price. -/
def removal (codec : Codec) (price : Decimal) : ClientLevel where
  price := codec.text price
  size := "0"
  numericSize := 0
  encodedBytes := PriceLevel.encodedLength { price := codec.text price, size := "0" }

theorem LevelValue.clientLevel_zero
    (lawful : codec.Lawful) (level : LevelValue codec value) :
    Live.clientLevel codec (codec.text value.1) "0" = .ok (value.1, removal codec value.1) := by
  unfold Live.clientLevel
  refine bind_ok.mpr ⟨value.1, level.price.clientDecimal (decide_eq_true level.nonnegative), ?_⟩
  refine bind_ok.mpr ⟨(), ensure_ok.mpr (decide_eq_true level.bounded), ?_⟩
  exact bind_ok.mpr ⟨0, lawful.clientDecimal_zero, rfl⟩

/-- Where a side is looked up. -/
structure Looks (codec : Codec) (values : List (Decimal × Decimal)) (map : ClientSide) : Prop where
  here : ∀ value ∈ values, map[value.1]? = some (levelOf codec value.1 value.2)
  elsewhere : ∀ price, (∀ value ∈ values, value.1 ≠ price) → map[price]? = none

theorem Looks.unique
    (one : Looks codec values first) (two : Looks codec values second) : first = second := by
  refine TreeMap.ext_getElem? fun price => ?_
  by_cases listed : ∃ value ∈ values, value.1 = price
  · obtain ⟨value, mem, rfl⟩ := listed
    rw [one.here value mem, two.here value mem]
  · push Not at listed
    rw [one.elsewhere price listed, two.elsewhere price listed]

/-- A level with a new price. -/
theorem Looks.insert {value : Decimal × Decimal} {map : ClientSide}
    (looks : Looks codec values map) (apart : ∀ other ∈ values, other.1 ≠ value.1) :
    Looks codec (values ++ [value]) (map.insert value.1 (levelOf codec value.1 value.2)) := by
  refine ⟨?_, ?_⟩
  · intro other mem
    rw [TreeMap.getElem?_insert]
    rcases mem_append.mp mem with earlier | here
    · rw [if_neg (by simpa using (apart other earlier).symm), looks.here other earlier]
    · rw [mem_singleton.mp here, if_pos (by simp)]
  · intro price ne
    rw [TreeMap.getElem?_insert, if_neg (by simpa using ne value (by simp)),
      looks.elsewhere price fun other mem => ne other (by simp [mem])]

theorem SideValues.apart
    (sound : SideValues codec side (before ++ value :: values)) :
    ∀ other ∈ before, other.1 ≠ value.1 := by
  intro other mem same
  have ordered := (pairwise_append.mp sound.ordered).2.2 other mem value (by simp)
  rw [same] at ordered
  exact irrefl_of (sideOrder side) _ ordered

theorem SideValues.front
    (sound : SideValues codec side (before ++ values)) : SideValues codec side before :=
  ⟨fun value mem => sound.level value (by simp [mem]), (pairwise_append.mp sound.ordered).1⟩

theorem looks_sideMap (sound : SideValues codec side values) :
    Looks codec values (sideMap codec values) := by
  induction values using List.reverseRecOn with
  | nil => exact ⟨by simp, by simp [sideMap, entries, TreeMap.collect]⟩
  | append_singleton values value ih =>
    have extended := (ih sound.front).insert sound.apart
    have same : sideMap codec (values ++ [value]) =
        (sideMap codec values).insert value.1 (levelOf codec value.1 value.2) := by
      unfold sideMap entries TreeMap.collect
      rw [map_append, foldl_append]
      rfl
    rw [same]
    exact extended

/-- Reading the levels of a side one after the other. -/
theorem foldlM_addLevel {before : List (Decimal × Decimal)} {map : ClientSide}
    (bytes : Nat) (sound : SideValues codec side (before ++ values))
    (looks : Looks codec before map) :
    ∃ after, (wireSide codec values).foldlM (addLevel codec) (map, bytes) =
        .ok (after, bytes + repeatedLength PriceLevel.encodedLength (wireSide codec values)) ∧
      Looks codec (before ++ values) after ∧ after.size = map.size + values.length := by
  induction values generalizing before map bytes with
  | nil =>
    rw [append_nil]
    exact ⟨map, rfl, looks, rfl⟩
  | cons value values ih =>
    have level : LevelValue codec value := sound.level value (by simp)
    have missing : map.contains value.1 = false := by
      rw [contains_eq_isSome_getElem?, looks.elsewhere value.1 sound.apart]
      rfl
    have rest : SideValues codec side ((before ++ [value]) ++ values) := by
      rw [append_assoc]
      exact sound
    obtain ⟨after, folded, looksAfter, size⟩ := ih
      (bytes + nestedBytes (levelOf codec value.1 value.2).encodedBytes) rest
      (looks.insert sound.apart)
    refine ⟨after, ?_, ?_, ?_⟩
    · have added : addLevel codec (map, bytes) (wireLevel codec value) =
          .ok (map.insert value.1 (levelOf codec value.1 value.2),
            bytes + nestedBytes (levelOf codec value.1 value.2).encodedBytes) := by
        refine bind_ok.mpr ⟨_, level.clientLevel, ?_⟩
        refine bind_ok.mpr ⟨(), ensure_ok.mpr ?_, rfl⟩
        rw [and_eq_true, not_eq_true']
        exact ⟨decide_eq_true level.positive, missing⟩
      unfold wireSide at folded ⊢
      refine foldlM_cons_ok.mpr ⟨_, added, folded.trans ?_⟩
      rw [map_cons, repeatedLength_cons, nestedBytes_eq, Nat.add_assoc]
      rfl
    · rw [append_assoc] at looksAfter
      exact looksAfter
    · rw [size, TreeMap.size_insert, missing, if_neg Bool.false_ne_true, length_cons]
      omega

/-- A client reads a side that a lane has checked. -/
theorem clientSide_eq
    {maximum : Nat} (sound : SideValues codec side values) (bounded : values.length ≤ maximum) :
    clientSide codec (wireSide codec values) maximum =
        .ok (sideMap codec values, repeatedLength PriceLevel.encodedLength (wireSide codec values)) ∧
      (sideMap codec values).size = values.length := by
  have empty : Looks codec [] ∅ := ⟨by simp, by simp⟩
  obtain ⟨after, folded, looks, size⟩ := foldlM_addLevel 0 (nil_append values ▸ sound) empty
  have same : after = sideMap codec values := looks.unique (looks_sideMap sound)
  rw [same, Nat.zero_add] at folded
  rw [same] at size
  refine ⟨?_, by simpa using size⟩
  refine bind_ok.mpr ⟨(), ensure_ok.mpr (decide_eq_true ?_), folded⟩
  unfold wireSide
  rw [length_map]
  exact bounded

/-- A client shows the side it read as it was written. -/
theorem levels_sideMap (sound : SideValues codec side values) :
    ClientSide.levels (sideMap codec values) side = wireSide codec values := by
  have looks := looks_sideMap sound
  have held : ∀ price level, (sideMap codec values)[price]? = some level ↔
      (price, level) ∈ entries codec values := by
    intro price level
    constructor
    · intro found
      by_cases listed : ∃ value ∈ values, value.1 = price
      · obtain ⟨value, mem, rfl⟩ := listed
        rw [looks.here value mem] at found
        cases found
        exact mem_map.mpr ⟨value, mem, rfl⟩
      · push Not at listed
        rw [looks.elsewhere price listed] at found
        cases found
    · intro mem
      obtain ⟨value, found, same⟩ := mem_map.mp mem
      cases same
      exact looks.here value found
  have ordered := entries_ordered sound
  unfold ClientSide.levels TreeMap.valueList
  cases side with
  | bid =>
    have backwards : (entries codec values).reverse.Pairwise
        fun first second => first.1 < second.1 := by
      rw [pairwise_reverse]
      exact ordered.imp of_decide_eq_true
    have list := TreeMap.toList_eq_of_ordered backwards
      fun price level => (held price level).trans mem_reverse.symm
    dsimp only
    rw [list, map_reverse, map_reverse, reverse_reverse, entries, wireSide, map_map, map_map]
    rfl
  | ask =>
    have list := TreeMap.toList_eq_of_ordered (ordered.imp of_decide_eq_true) held
    rw [list, entries, wireSide, map_map, map_map]
    rfl

end Clients

end MarketCow.Live
