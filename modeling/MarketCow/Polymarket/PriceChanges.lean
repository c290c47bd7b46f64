import MarketCow.Library.Hash
import MarketCow.Library.JsonText
import MarketCow.Polymarket.NormalizedFrames

/-!
# Price changes

A frame of price changes keeps its meaning: the delta of a token leaves every
book as the items of the token do that are set one after the other.
-/

namespace MarketCow
namespace Core
namespace Book

open Library

/-! ## Changes of one level -/

/-- The change that assigns one level. -/
def single (assignment : Side × Level) : SideLevels where
  side := assignment.1
  levels := [assignment.2]

variable {side : Side} {target : TreeMap Price Decimal} {price : Price} {quantity : Decimal}

theorem writesFrom_single (assignment : Side × Level) :
    writesFrom target side [single assignment] =
      if assignment.1 = side then target.insert assignment.2.price assignment.2.quantity
      else target := rfl

theorem writesFrom_cons (change : SideLevels) (changes : List SideLevels) :
    writesFrom target side (change :: changes) =
      writesFrom (writesFrom target side [change]) side changes := rfl

/-- A write comes to the same before and after others of different prices. -/
theorem writesFrom_insert
    (singles : ∀ change ∈ changes, ∃ assignment, change = single assignment)
    (absent : ∀ quantity, single (side, ⟨price, quantity⟩) ∉ changes) :
    writesFrom (target.insert price quantity) side changes =
      (writesFrom target side changes).insert price quantity := by
  induction changes generalizing target with
  | nil => rfl
  | cons change changes ih =>
    have rest := fun target => @ih target (fun other mem => singles other (by simp [mem]))
      (fun quantity mem => absent quantity (by simp [mem]))
    obtain ⟨⟨changed, level⟩, rfl⟩ := singles change (by simp)
    rw [writesFrom_cons, writesFrom_single, @writesFrom_cons _ target, writesFrom_single]
    by_cases same : changed = side
    · subst same
      have ne : level.price ≠ price := by
        rintro rfl
        exact absent level.quantity (by simp)
      rw [if_pos rfl, if_pos rfl, ← rest]
      congr 1
      apply TreeMap.ext_getElem?
      intro other
      simp only [TreeMap.getElem?_insert, Std.LawfulEqCmp.compare_eq_iff_eq]
      by_cases first : level.price = other
      · subst first
        simp [ne.symm]
      · simp [first]
    · rw [if_neg same, if_neg same, rest]

end Book
end Core

namespace Polymarket

open Library MarketCow.Core MarketCow.Core.Book

/-! ## The changes of one token -/

/-- The changes have one place for every side and price that was assigned, and
write what the assignments write. -/
structure AtomicPriceChanges.Collapses
    (atomic : AtomicPriceChanges) (assignments : List (Side × Level)) : Prop where
  placed : ∀ side price position, (atomic.positions side)[price]? = some position ↔
    ∃ quantity, atomic.changes[position]? = some (single (side, ⟨price, quantity⟩))
  singles : ∀ change ∈ atomic.changes, ∃ assignment, change = single assignment
  written : ∀ side, writes side atomic.changes = writes side (assignments.map single)

theorem AtomicPriceChanges.Collapses.start (bestBid bestAsk : Option Price) :
    (AtomicPriceChanges.start bestBid bestAsk).Collapses [] where
  placed side price position := by
    cases side <;> simp [AtomicPriceChanges.start, AtomicPriceChanges.positions]
  singles _ member := nomatch member
  written _ := rfl

theorem AtomicPriceChanges.positions_assign {atomic : AtomicPriceChanges} {level : Level}
    (unknown : (atomic.positions side)[level.price]? = none) (other : Side) (price : Price) :
    ((atomic.assign side level).positions other)[price]? =
      if side = other ∧ level.price = price then some atomic.changes.length
      else (atomic.positions other)[price]? := by
  unfold AtomicPriceChanges.assign
  rw [unknown]
  cases side <;> cases other <;>
    simp [AtomicPriceChanges.withPosition, AtomicPriceChanges.positions, TreeMap.getElem?_insert]

theorem AtomicPriceChanges.Collapses.assign
    {atomic : AtomicPriceChanges} {assignments : List (Side × Level)}
    (collapses : atomic.Collapses assignments) (side : Side) (level : Level) :
    (atomic.assign side level).Collapses (assignments ++ [(side, level)]) := by
  have appended : ∀ other, writes other ((assignments ++ [(side, level)]).map single) =
      writesFrom (writes other atomic.changes) other [single (side, level)] := by
    intro other
    rw [List.map_append, writes_eq_writesFrom, writesFrom_append, ← writes_eq_writesFrom,
      collapses.written other]
    rfl
  cases known : (atomic.positions side)[level.price]? with
  | none =>
    have changes : (atomic.assign side level).changes =
        atomic.changes ++ [single (side, level)] := by
      unfold AtomicPriceChanges.assign
      rw [known]
      rfl
    refine ⟨?_, ?_, ?_⟩
    · intro other price position
      rw [changes, AtomicPriceChanges.positions_assign known]
      by_cases inside : position < atomic.changes.length
      · rw [List.getElem?_append_left inside, ← collapses.placed other price position]
        by_cases own : side = other ∧ level.price = price
        · obtain ⟨rfl, rfl⟩ := own
          rw [if_pos ⟨rfl, rfl⟩, known]
          simp [inside.ne']
        · rw [if_neg own]
      · have outside : atomic.changes[position]? = none := List.getElem?_eq_none (not_lt.mp inside)
        have old := collapses.placed other price position
        rw [outside] at old
        rw [List.getElem?_append_right (not_lt.mp inside)]
        by_cases own : side = other ∧ level.price = price
        · obtain ⟨rfl, rfl⟩ := own
          rw [if_pos ⟨rfl, rfl⟩]
          constructor
          · intro last
            obtain rfl := some.inj last
            exact ⟨level.quantity, by simp⟩
          · rintro ⟨quantity, present⟩
            have first := (List.getElem?_eq_some_iff.mp present).1
            rw [List.length_singleton] at first
            congr 1
            omega
        · rw [if_neg own]
          constructor
          · intro placed
            obtain ⟨_, never⟩ := old.mp placed
            cases never
          · rintro ⟨quantity, present⟩
            cases List.mem_singleton.mp (List.mem_of_getElem? present)
            exact absurd ⟨rfl, rfl⟩ own
    · intro change mem
      rw [changes] at mem
      rcases List.mem_append.mp mem with old | new
      · exact collapses.singles change old
      · exact ⟨(side, level), List.mem_singleton.mp new⟩
    · intro other
      rw [appended, changes, writes_eq_writesFrom, writesFrom_append]
      rfl
  | some position =>
    obtain ⟨quantity, there⟩ := (collapses.placed side level.price position).mp known
    obtain ⟨inside, same⟩ := List.getElem?_eq_some_iff.mp there
    have changed : (atomic.changes.modify position fun change =>
        { change with levels := change.levels.set 0 level }) =
          atomic.changes.set position (single (side, level)) := by
      apply List.ext_getElem?
      intro other
      rw [List.getElem?_modify, List.getElem?_set]
      by_cases here : position = other
      · subst here
        simp [inside, single, same]
      · simp [here]
    unfold AtomicPriceChanges.assign
    rw [known]
    dsimp only
    rw [changed]
    refine ⟨?_, ?_, ?_⟩
    · intro other price place
      rw [List.getElem?_set]
      refine (collapses.placed other price place).trans ?_
      by_cases here : position = place
      · subst here
        simp only [there, inside, if_true]
        constructor
        · rintro ⟨found, equal⟩
          cases equal
          exact ⟨level.quantity, rfl⟩
        · rintro ⟨found, equal⟩
          cases equal
          exact ⟨quantity, rfl⟩
      · rw [if_neg here]
    · intro change mem
      rcases List.mem_or_eq_of_mem_set mem with old | new
      · exact collapses.singles change old
      · exact ⟨(side, level), new⟩
    · have single_last : ∀ found,
          single (side, ⟨level.price, found⟩) ∉ atomic.changes.drop (position + 1) := by
        intro found mem
        obtain ⟨index, later⟩ := List.mem_iff_getElem?.mp mem
        rw [List.getElem?_drop] at later
        have placed := (collapses.placed side level.price _).mpr ⟨found, later⟩
        rw [known] at placed
        have := some.inj placed
        omega
      have parts : ∀ other change, writes other (atomic.changes.set position change) =
          writesFrom (writesFrom (writes other (atomic.changes.take position)) other [change]) other
            (atomic.changes.drop (position + 1)) := by
        intro other change
        rw [List.set_eq_take_append_cons_drop, if_pos inside, writes_eq_writesFrom,
          writesFrom_append, writesFrom_cons, ← writes_eq_writesFrom]
      intro other
      have whole := parts other (single (side, ⟨level.price, quantity⟩))
      rw [← same, List.set_getElem_self, same] at whole
      rw [appended, parts, whole]
      simp only [writesFrom_single]
      by_cases own : side = other
      · subst own
        have rest : ∀ change ∈ atomic.changes.drop (position + 1),
            ∃ assignment, change = single assignment :=
          fun change mem => collapses.singles change (List.mem_of_mem_drop mem)
        rw [if_pos rfl, if_pos rfl, if_pos rfl, writesFrom_insert rest single_last,
          writesFrom_insert rest single_last]
        apply TreeMap.ext_getElem?
        intro price
        simp only [TreeMap.getElem?_insert]
        split <;> rfl
      · rw [if_neg own, if_neg own, if_neg own]

/-! ## The items of a frame -/

/-- One valid item of a frame. -/
structure PriceChangeItem where
  tokenId : String
  side : Side
  level : Level
  bestBid : Option Price
  bestAsk : Option Price

def PriceChangeItem.assignment (item : PriceChangeItem) : Side × Level :=
  (item.side, item.level)

/-- Read one item on its own. -/
def readItem (parsers : Parsers) (change : Json) : Except NormalizeError PriceChangeItem := do
  let item ← okOr change.asObject? .invalidLevels
  let tokenId ← readTokenId item
  let side ← parseSide (stringAlias item ["side"])
  let price ← okOr (valueText (item.lookup "price")) (.missingField "price")
  let size ← okOr (valueText (item.lookup "size")) (.missingField "size")
  let level ← orInvalidDecimal (Level.new parsers.decimal price size)
  if (item.lookup "best_bid").isSome != (item.lookup "best_ask").isSome then
    .error (.missingField "best_bid/best_ask")
  else
    let bestBid ← optionalPrice parsers (item.lookup "best_bid")
    let bestAsk ← optionalPrice parsers (item.lookup "best_ask")
    if quoteIsCrossed bestBid bestAsk then .error .invalidLevels
    else .ok ⟨tokenId, side, level, bestBid, bestAsk⟩

/-- Assign the level of an item, whose quote is that of the token. -/
def takeItem (byToken : TreeMap String AtomicPriceChanges)
    (item : PriceChangeItem) : Except NormalizeError (TreeMap String AtomicPriceChanges) :=
  let entry := (byToken[item.tokenId]?).getD (AtomicPriceChanges.start item.bestBid item.bestAsk)
  if entry.bestBid ≠ item.bestBid ∨ entry.bestAsk ≠ item.bestAsk then .error .invalidLevels
  else .ok (byToken.insert item.tokenId (entry.assign item.side item.level))

variable {parsers : Parsers} {byToken after : TreeMap String AtomicPriceChanges}

theorem readPriceChange_eq (change : Json) :
    readPriceChange parsers byToken change = readItem parsers change >>= takeItem byToken := by
  unfold readPriceChange readItem
  simp only [bind_assoc]
  refine bind_congr fun item => bind_congr fun tokenId => bind_congr fun side =>
    bind_congr fun price => bind_congr fun size => bind_congr fun level => ?_
  split
  · rfl
  · simp only [bind_assoc]
    refine bind_congr fun bestBid => bind_congr fun bestAsk => ?_
    split
    · rfl
    · rfl

/-- The items of one token, in the order of the frame. -/
def ofToken (tokenId : String) (items : List PriceChangeItem) : List PriceChangeItem :=
  items.filter fun item => item.tokenId == tokenId

/-- What the changes of a token hold of its items. -/
structure AtomicPriceChanges.Holds
    (atomic : AtomicPriceChanges) (items : List PriceChangeItem) : Prop where
  collapses : atomic.Collapses (items.map PriceChangeItem.assignment)
  quoted : ∀ item ∈ items, item.bestBid = atomic.bestBid ∧ item.bestAsk = atomic.bestAsk

theorem AtomicPriceChanges.quote_assign
    (atomic : AtomicPriceChanges) (side : Side) (level : Level) :
    (atomic.assign side level).bestBid = atomic.bestBid ∧
      (atomic.assign side level).bestAsk = atomic.bestAsk := by
  unfold AtomicPriceChanges.assign
  split
  · exact ⟨rfl, rfl⟩
  · cases side <;> exact ⟨rfl, rfl⟩

theorem AtomicPriceChanges.Holds.assign
    {atomic : AtomicPriceChanges} {items : List PriceChangeItem} {item : PriceChangeItem}
    (holds : atomic.Holds items) (bid : atomic.bestBid = item.bestBid)
    (ask : atomic.bestAsk = item.bestAsk) :
    (atomic.assign item.side item.level).Holds (items ++ [item]) := by
  refine ⟨?_, ?_⟩
  · rw [List.map_append]
    exact holds.collapses.assign item.side item.level
  · intro other mem
    rw [(atomic.quote_assign _ _).1, (atomic.quote_assign _ _).2]
    rcases List.mem_append.mp mem with old | new
    · exact holds.quoted other old
    · rw [List.mem_singleton.mp new]
      exact ⟨bid.symm, ask.symm⟩

/-- What has been collected of some items. -/
structure Collects
    (byToken : TreeMap String AtomicPriceChanges) (items : List PriceChangeItem) : Prop where
  named : ∀ tokenId : String, tokenId ∈ byToken ↔ ∃ item ∈ items, item.tokenId = tokenId
  holds : ∀ (tokenId : String) (atomic : AtomicPriceChanges),
    byToken[tokenId]? = some atomic → atomic.Holds (ofToken tokenId items)

section Items

variable {items : List PriceChangeItem}

section

variable (collects : Collects byToken items)
include collects

/-- The changes of the token before an item of it. -/
theorem Collects.entry (item : PriceChangeItem) :
    ((byToken[item.tokenId]?).getD
      (AtomicPriceChanges.start item.bestBid item.bestAsk)).Holds (ofToken item.tokenId items) := by
  cases known : byToken[item.tokenId]? with
  | none =>
    have fresh : ofToken item.tokenId items = [] := by
      apply List.filter_eq_nil_iff.mpr
      intro other mem equal
      have named := (collects.named item.tokenId).mpr ⟨other, mem, by simpa using equal⟩
      rw [mem_iff_isSome_getElem?, known] at named
      cases named
    rw [fresh]
    exact ⟨.start item.bestBid item.bestAsk, nofun⟩
  | some atomic => exact collects.holds item.tokenId atomic known

theorem Collects.takeItem {item : PriceChangeItem}
    (taken : takeItem byToken item = .ok after) :
    Collects after (items ++ [item]) := by
  have before := collects.entry item
  unfold Polymarket.takeItem at taken
  dsimp only at taken
  split at taken
  · cases taken
  · rename_i agreed
    rw [not_or, not_not, not_not] at agreed
    cases taken
    refine ⟨?_, ?_⟩
    · intro tokenId
      rw [TreeMap.mem_insert, collects.named tokenId, Std.LawfulEqCmp.compare_eq_iff_eq]
      constructor
      · rintro (rfl | ⟨other, mem, rfl⟩)
        · exact ⟨item, by simp, rfl⟩
        · exact ⟨other, by simp [mem], rfl⟩
      · rintro ⟨other, mem, rfl⟩
        rcases List.mem_append.mp mem with old | new
        · exact .inr ⟨other, old, rfl⟩
        · exact .inl (by rw [List.mem_singleton.mp new])
    · intro tokenId atomic present
      rw [TreeMap.getElem?_insert] at present
      unfold ofToken
      rw [List.filter_append]
      by_cases same : item.tokenId = tokenId
      · subst same
        rw [if_pos Std.ReflCmp.compare_self] at present
        cases present
        rw [List.filter_singleton, beq_self_eq_true, cond_true]
        exact before.assign agreed.1 agreed.2
      · rw [if_neg (mt Std.LawfulEqCmp.compare_eq_iff_eq.mp same)] at present
        rw [List.filter_singleton, beq_false_of_ne same, cond_false, List.append_nil]
        exact collects.holds tokenId atomic present

theorem Collects.readPriceChanges {changes : List Json}
    (collected : changes.foldlM (readPriceChange parsers) byToken = .ok after) :
    ∃ read, changes.mapM (readItem parsers) = .ok read ∧ Collects after (items ++ read) := by
  induction changes generalizing byToken items with
  | nil =>
    cases collected
    exact ⟨[], rfl, by rwa [List.append_nil]⟩
  | cons change changes ih =>
    obtain ⟨middle, first, rest⟩ := foldlM_cons_ok.mp collected
    rw [readPriceChange_eq] at first
    obtain ⟨item, valid, taken⟩ := bind_ok.mp first
    obtain ⟨read, others, held⟩ := ih (collects.takeItem taken) rest
    refine ⟨item :: read, ?_, ?_⟩
    · rw [List.mapM_cons, valid]
      exact bind_ok.mpr ⟨item, rfl, bind_ok.mpr ⟨read, others, rfl⟩⟩
    · rwa [List.append_assoc] at held

end

end Items

/-! ## The events of a frame -/

section Events

variable {platform : Platform} {config : NormalizerConfig}

/-- The items of a price change. -/
def priceChangesOf (rawPayload : Json) : Option (List Json) := do
  let raw ← rawPayload.asObject?
  let eventType ← stringAlias raw ["event_type", "type"]
  if eventType = "price_change" then
    ((raw.lookup "price_changes").or (raw.lookup "changes")).bind Json.asArray?
  else none

/-- The text that the id of an event is the digest of. -/
def eventIdText (config : NormalizerConfig) (rawSha256 tokenId : String) : String :=
  config.scopeId ++ "\x00" ++ normalizerVersion ++ "\x00" ++ rawSha256 ++ "\x00" ++ tokenId

/-- Different texts of some have different digests. -/
def Separates (platform : Platform) (texts : List String) : Prop :=
  ∀ first ∈ texts, ∀ second ∈ texts,
    platform.sha256 first.toUTF8.toList = platform.sha256 second.toUTF8.toList → first = second

/-- The events are the deltas of some tokens in their order, and each delta
leaves every book as the items of its token do one after the other. -/
structure Preserves
    (platform : Platform) (config : NormalizerConfig) (rawSha256 : String) (firstCursor : Nat)
    (items : List PriceChangeItem) (tokens : List String)
    (events : List CanonicalEvent) : Prop where
  ordered : tokens.Pairwise (· < ·)
  named : ∀ tokenId, tokenId ∈ tokens ↔ ∃ item ∈ items, item.tokenId = tokenId
  length : events.length = tokens.length
  deltas : ∀ offset tokenId, tokens[offset]? = some tokenId →
    ∃ event changes bestBid bestAsk, events[offset]? = some event ∧
      event.cursor = firstCursor + offset ∧
      event.kind = .atomicDelta tokenId changes bestBid bestAsk ∧
      (∀ item ∈ ofToken tokenId items, item.bestBid = bestBid ∧ item.bestAsk = bestAsk) ∧
      ∀ (book : Book) observedAt side,
        (book.applyBatch changes observedAt).sideOf side =
          ((ofToken tokenId items).foldl
            (fun book item => book.apply item.side [item.level] observedAt) book).sideOf side
  ids : Separates platform (tokens.map (eventIdText config rawSha256)) →
    (events.map CanonicalEvent.eventId).Nodup

theorem eq_map_of_mapM_ok
    {ε α β : Type} {items : List α} {results : List β} {visit : α → Except ε β} {result : α → β}
    (visits : ∀ item found, visit item = .ok found → found = result item)
    (visited : items.mapM visit = .ok results) :
    results = items.map result := by
  induction items generalizing results with
  | nil =>
    cases visited
    rfl
  | cons item items ih =>
    rw [List.mapM_cons] at visited
    obtain ⟨first, taken, rest, others, collected⟩ := bind₂_ok.mp visited
    cases collected
    rw [List.map_cons, visits item first taken, ih others]

theorem hexDigit_injective :
    ∀ first < 16, ∀ second < 16, Text.hexDigit first = Text.hexDigit second → first = second := by
  decide

theorem hexEncode_injective : Function.Injective Text.hexEncode := by
  intro first second same
  have digits := String.ofList_injective same
  clear same
  induction first generalizing second with
  | nil =>
    cases second with
    | nil => rfl
    | cons byte second => cases digits
  | cons byte first ih =>
    cases second with
    | nil => cases digits
    | cons other second =>
      simp only [List.flatMap_cons, List.cons_append, List.nil_append, List.cons.injEq] at digits
      obtain ⟨high, low, rest⟩ := digits
      have byteBound := byte.toNat_lt
      have otherBound := other.toNat_lt
      have sameHigh := hexDigit_injective _ (by omega) _ (by omega) high
      have sameLow := hexDigit_injective _ (by omega) _ (by omega) low
      rw [ih rest, UInt8.toNat_inj.mp (by omega : byte.toNat = other.toNat)]

/-- Tokens have different event ids unless the digest confuses their texts. -/
theorem eventId_inj {rawSha256 first second : String} {tokens : List String}
    (separates : Separates platform (tokens.map (eventIdText config rawSha256)))
    (firstNamed : first ∈ tokens) (secondNamed : second ∈ tokens)
    (same : platform.textDigest (eventIdText config rawSha256 first) =
      platform.textDigest (eventIdText config rawSha256 second)) :
    first = second := by
  have digests := Vector.toList_inj.mp (hexEncode_injective same)
  have texts := separates _ (List.mem_map_of_mem firstNamed) _ (List.mem_map_of_mem secondNamed)
    digests
  exact (String.append_right_inj _).mp texts

/-- The events that are built of collected items preserve these. -/
theorem Collects.preserves
    {items : List PriceChangeItem} {context : FrameContext} {firstCursor : Nat}
    {events : List CanonicalEvent} (collects : Collects byToken items)
    (built : byToken.toList.zipIdx.mapM (fun ((tokenId, atomic), offset) =>
      if firstCursor + offset < 2 ^ 64 then
        (.ok (buildEvent platform config context (firstCursor + offset) tokenId
          (.atomicDelta tokenId atomic.changes atomic.bestBid atomic.bestAsk)) :
            Except NormalizeError CanonicalEvent)
      else .error .invalidConfig) = .ok events) :
    Preserves platform config context.rawSha256 firstCursor items byToken.keyList events := by
  have mapped : events = byToken.toList.zipIdx.map fun entry =>
      buildEvent platform config context (firstCursor + entry.2) entry.1.1
        (.atomicDelta entry.1.1 entry.1.2.changes entry.1.2.bestBid entry.1.2.bestAsk) := by
    refine eq_map_of_mapM_ok ?_ built
    rintro ⟨⟨tokenId, atomic⟩, offset⟩ found visited
    dsimp only at visited
    split at visited
    · cases visited
      rfl
    · cases visited
  subst mapped
  have ordered : byToken.keyList.Pairwise (· < ·) := by
    rw [TreeMap.keyList, List.pairwise_map]
    exact Std.ExtTreeMap.ordered_keys_toList.imp compare_lt_iff_lt.mp
  refine ⟨ordered, ?_, by simp [TreeMap.keyList], ?_, ?_⟩
  · intro tokenId
    rw [TreeMap.mem_keyList, ← collects.named tokenId, mem_iff_isSome_getElem?, isSome_iff_exists]
  · intro offset tokenId there
    rw [TreeMap.keyList, List.getElem?_map, map_eq_some_iff] at there
    obtain ⟨⟨tokenId, atomic⟩, listed, rfl⟩ := there
    have present := mem_toList_iff_getElem?_eq_some.mp (List.mem_of_getElem? listed)
    refine ⟨buildEvent platform config context (firstCursor + offset) tokenId
      (.atomicDelta tokenId atomic.changes atomic.bestBid atomic.bestAsk), _, _, _, ?_, rfl, rfl,
      (collects.holds tokenId atomic present).quoted, ?_⟩
    · simp [List.getElem?_map, List.getElem?_zipIdx, listed]
    · intro book observedAt side
      rw [sideOf_applyBatch_congr ((collects.holds _ atomic present).collapses.written side)]
      simp only [Book.applyBatch, List.foldl_map]
      rfl
  · intro separates
    rw [List.map_map]
    have named : (byToken.toList.zipIdx.map (CanonicalEvent.eventId ∘ fun entry =>
        buildEvent platform config context (firstCursor + entry.2) entry.1.1
          (.atomicDelta entry.1.1 entry.1.2.changes entry.1.2.bestBid entry.1.2.bestAsk))) =
        byToken.keyList.map fun tokenId =>
          platform.textDigest (eventIdText config context.rawSha256 tokenId) := by
      rw [TreeMap.keyList, List.map_map]
      conv_rhs => rw [← List.zipIdx_map_fst 0 byToken.toList, List.map_map]
      rfl
    rw [named]
    refine List.Nodup.map_on ?_ (ordered.imp ne_of_lt)
    intro first firstNamed second secondNamed
    exact eventId_inj separates firstNamed secondNamed

variable {rawPayload : Json} {receivedAt : DateTime} {firstCursor : Nat}
  {verifiedBookTick : Option Price} {changes : List Json}

/-- A frame of price changes that is accepted has valid items only, in the order
of the frame, and its deltas preserve them; a frame with an invalid item is
refused as a whole. -/
theorem price_changes_preserved (frame : priceChangesOf rawPayload = some changes) :
    (∀ events,
      normalizeFrameWithBookTick platform parsers config rawPayload receivedAt firstCursor
        verifiedBookTick = .ok events →
      ∃ items tokens, changes.mapM (readItem parsers) = .ok items ∧
        Preserves platform config (platform.contentSha256 rawPayload) firstCursor items tokens
          events) ∧
    ∀ change ∈ changes, (∃ cause, readItem parsers change = .error cause) →
      ∃ cause, normalizeFrameWithBookTick platform parsers config rawPayload receivedAt firstCursor
        verifiedBookTick = .error cause := by
  have accepted : ∀ events,
      normalizeFrameWithBookTick platform parsers config rawPayload receivedAt firstCursor
        verifiedBookTick = .ok events →
      ∃ items tokens, changes.mapM (readItem parsers) = .ok items ∧
        Preserves platform config (platform.contentSha256 rawPayload) firstCursor items tokens
          events := by
    intro events normalized
    obtain ⟨raw, object, frame⟩ := bind_eq_some_iff.mp frame
    obtain ⟨eventType, typed, frame⟩ := bind_eq_some_iff.mp frame
    split at frame
    · unfold normalizeFrameWithBookTick at normalized
      obtain ⟨_, _, read⟩ := bind_ok.mp normalized
      rw [object] at read
      obtain ⟨_, same, read⟩ := bind_ok.mp read
      cases same
      rw [typed] at read
      obtain ⟨_, same, read⟩ := bind_ok.mp read
      cases same
      split at read
      · cases read
      · obtain ⟨observedAt, _, read⟩ := bind_ok.mp read
        unfold readPriceChanges at read
        rw [frame] at read
        obtain ⟨_, same, read⟩ := bind_ok.mp read
        cases same
        split at read
        · cases read
        · obtain ⟨byToken, collected, built⟩ := bind_ok.mp read
          have nothing : Collects ∅ [] := ⟨by simp, by simp⟩
          obtain ⟨items, valid, collects⟩ := nothing.readPriceChanges collected
          exact ⟨items, _, valid, collects.preserves built⟩
    · cases frame
  refine ⟨accepted, ?_⟩
  rintro change member ⟨cause, invalid⟩
  cases normalized : normalizeFrameWithBookTick platform parsers config rawPayload receivedAt
      firstCursor verifiedBookTick with
  | error cause => exact ⟨cause, rfl⟩
  | ok events =>
    obtain ⟨items, _, valid, _⟩ := accepted events normalized
    obtain ⟨item, _, read⟩ := (Fallible.mem_of_mapM_ok valid).1 change member
    rw [invalid] at read
    cases read

end Events

/-! ## A frame that assigns a price twice -/

def sampleChange (tokenId side price size : String) : Json :=
  .object [("asset_id", .string tokenId), ("price", .string price), ("side", .string side),
    ("size", .string size)]

def sampleChanges : List Json :=
  [sampleChange "t2" "BUY" "0.25" "1", sampleChange "t1" "SELL" "0.75" "1",
    sampleChange "t2" "BUY" "0.25" "0.75"]

def sampleChangesFrame : Json :=
  .object
    [("event_type", .string "price_change"), ("price_changes", .array sampleChanges),
     ("timestamp", .integer 0)]

/-- Hashes and texts as they are. -/
def hashingPlatform : Platform :=
  { samplePlatform with
    sha256 := Sha256.hash
    toVec := Json.print }

def sampleChangesEvents : List CanonicalEvent :=
  (normalizeFrame hashingPlatform sampleParsers sampleConfig sampleChangesFrame 0 1).toOption.get
    (by decide +kernel)

/-- The digest separates the two tokens of the sample. -/
theorem separates_sampleChanges
    {tokens : List String} (sampled : ∀ token ∈ tokens, token = "t1" ∨ token = "t2") :
    Separates hashingPlatform
      (tokens.map (eventIdText sampleConfig
        (hashingPlatform.contentSha256 sampleChangesFrame))) := by
  have ne : hashingPlatform.textDigest
      (eventIdText sampleConfig (hashingPlatform.contentSha256 sampleChangesFrame) "t1") ≠
        hashingPlatform.textDigest
          (eventIdText sampleConfig (hashingPlatform.contentSha256 sampleChangesFrame) "t2") := by
    decide +kernel
  intro first listed second again same
  obtain ⟨left, leftListed, rfl⟩ := List.mem_map.mp listed
  obtain ⟨right, rightListed, rfl⟩ := List.mem_map.mp again
  have digests := congrArg (fun digest => Text.hexEncode digest.toList) same
  rcases sampled left leftListed with rfl | rfl
  · rcases sampled right rightListed with rfl | rfl
    · rfl
    · exact absurd digests ne
  · rcases sampled right rightListed with rfl | rfl
    · exact absurd digests.symm ne
    · rfl

/-- The two deltas of the frame have different event ids. -/
theorem price_changes_preserved_sample :
    ∃ items tokens, sampleChanges.mapM (readItem sampleParsers) = .ok items ∧
      Preserves hashingPlatform sampleConfig (hashingPlatform.contentSha256 sampleChangesFrame) 1
        items tokens sampleChangesEvents ∧
      (sampleChangesEvents.map CanonicalEvent.eventId).Nodup := by
  obtain ⟨items, tokens, read, preserves⟩ :=
    (price_changes_preserved rfl).1 sampleChangesEvents (Fallible.eq_ok_get _)
  have named : (sampleChanges.mapM (readItem sampleParsers)).toOption.map
      (List.map PriceChangeItem.tokenId) = some ["t2", "t1", "t2"] := by
    decide +kernel
  rw [read] at named
  refine ⟨items, tokens, read, preserves, preserves.ids (separates_sampleChanges ?_)⟩
  intro token listed
  obtain ⟨item, member, rfl⟩ := (preserves.named token).mp listed
  have among := @List.mem_map_of_mem _ _ _ _ PriceChangeItem.tokenId member
  rw [Option.some.inj named] at among
  have one : item.tokenId = "t2" ∨ item.tokenId = "t1" ∨ item.tokenId = "t2" := by simpa using among
  rcases one with second | first | second
  · exact .inr second
  · exact .inl first
  · exact .inr second

end Polymarket
end MarketCow
