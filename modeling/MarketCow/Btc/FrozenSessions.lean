import MarketCow.Btc.FrozenPages
import MarketCow.Btc.PageLength

/-!
# Frozen or invalidated

Whatever batches were tried since a freeze, a page of the session returns its rows
of the freeze or the session is found to be invalid. Batches beyond the range
change no page.
-/

namespace MarketCow.Btc

open Library List Option
open Live (Codec ensure need)
open Sdk (Trade)

section Steps

variable {α β : Type} {condition : Bool} {message : String} {value : α}

theorem ok_bind (next : α → Except String β) : (.ok value >>= next) = next value := rfl

theorem ensure_bind (holds : condition = true) (next : Unit → Except String β) :
    (ensure condition message >>= next) = next () := by
  rw [holds]
  rfl

theorem ensure_bind_of_not (fails : condition = false) (next : Unit → Except String β) :
    (ensure condition message >>= next) = .error message := by
  rw [fails]
  rfl

end Steps

/-- What page zero tells before its rows: the frozen predecessor. -/
def Session.frozenPredecessor (session : Session) (store : Store) (index : Nat) : Option Trade :=
  if index = 0 then session.predecessor.bind store.trades.find else none

/-- What a read of a page returns: rows of the freeze, unless the session is
invalid, too old, has no such page, or that page with its rows of the freeze is too
large. -/
structure ReadsFrozen
    (encodedLen : HistoryPage → Nat) (session : Session) (store after : Store)
    (groups : List (List Trade)) (now index : Nat) : Prop where
  returned : ∀ value, page encodedLen now session index after = .ok value →
    groups[index]? = some value.trades ∧
      (value.complete = true ↔ index + 1 = groups.length ∧ session.reason = none) ∧
      value.predecessor = session.frozenPredecessor store index
  failed : ∀ cause, page encodedLen now session index after = .error cause →
    cause = "session_invalidated" ∨
      cause = "session_expired_or_unknown" ∧ timeToLive ≤ now - session.created ∨
      cause = "page_out_of_range" ∧ session.pages.length ≤ index ∨
      cause = "history_page_bytes" ∧ ∃ group, groups[index]? = some group ∧
        pageBytes < encodedLen
          (session.assemble index group (session.frozenPredecessor store index))

section Later

variable {store after : Store} {session : Session} {groups : List (List Trade)}
  {encodedLen : HistoryPage → Nat} {now index : Nat} {more : List Nat}

/-- Without a new revision, nothing was changed in the range. -/
theorem mem_iff_of_lastRevision_eq
    (follows : Follows ((highest store.trades).getD 0) more store after)
    (same : lastRevision after.repairs first through = lastRevision store.repairs first through)
    (above : first ≤ row.tradeId) (below : row.tradeId ≤ through)
    (stored : row.tradeId ≤ (highest store.trades).getD 0) :
    row ∈ after.trades.rows ↔ row ∈ store.trades.rows := by
  have unlogged : row.tradeId ∉ more := by
    intro logged
    have grows := @lt_lastRevision_append store.repairs _ _ _ _ logged above below
    rw [← follows.repairs, same] at grows
    exact absurd grows (lt_irrefl _)
  constructor
  · intro mem
    rcases follows.fresh row mem with logged | there | beyond
    · exact absurd logged unlogged
    · exact there
    · omega
  · intro mem
    rcases follows.kept row mem with logged | there
    · exact absurd logged unlogged
    · exact there

/-- The predecessor of a session is a stored trade of its range. -/
theorem exists_predecessor
    (frozen : Frozen store session) (named : session.predecessor = some number) :
    ∃ row ∈ store.trades.rows, row.tradeId = number ∧ number ≤ session.range.throughTradeId := by
  rw [frozen.predecessor] at named
  obtain ⟨row, found, rfl⟩ := map_eq_some_iff.mp named
  obtain ⟨mem, accepted, _⟩ := Table.last_eq_some_iff.mp found
  simp only [and_eq_true, decide_eq_true_eq] at accepted
  exact ⟨row, mem, rfl, accepted.2⟩

/-- Without a new revision, the predecessor is the one of the freeze. -/
theorem readPredecessor_ok (frozen : Frozen store session)
    (follows : Follows ((highest store.trades).getD 0) more store after)
    (same : lastRevision after.repairs (session.predecessor.getD 0) session.range.throughTradeId =
      lastRevision store.repairs (session.predecessor.getD 0) session.range.throughTradeId) :
    readPredecessor after session index = .ok (session.frozenPredecessor store index) ∧
      (index = 0 → (session.predecessor.bind store.trades.find).map Trade.tradeId =
        session.predecessor) := by
  unfold Session.frozenPredecessor
  cases named : session.predecessor with
  | none =>
    unfold readPredecessor
    rw [named]
    simp
  | some number =>
    obtain ⟨row, mem, rfl, below⟩ := exists_predecessor frozen named
    have small := frozen.below
    rw [named, getD_some] at same small
    have there := (mem_iff_of_lastRevision_eq follows same le_rfl below
      (tradeId_le_highest mem)).mpr mem
    have before : store.trades.find row.tradeId = some row := Table.find_eq_some_iff.mpr ⟨mem, rfl⟩
    have later : after.trades.find row.tradeId = some row := Table.find_eq_some_iff.mpr ⟨there, rfl⟩
    rw [bind_some, before]
    refine ⟨?_, fun _ => rfl⟩
    unfold readPredecessor
    rw [named]
    by_cases start : index = 0
    · rw [if_pos start]
      dsimp only
      rw [if_pos start]
      unfold readTrade
      rw [rowNumber_ok.mpr ⟨small, rfl⟩, ok_bind, later]
    · rw [if_neg start]
      dsimp only
      rw [if_neg start]

section Outcomes

variable {selected : PageRange} {current : Nat} {trades : List Trade} {predecessor : Option Trade}

/-- A session that is too old is refused first. -/
theorem page_of_late (late : ¬now - session.created < timeToLive) :
    page encodedLen now session index after = .error "session_expired_or_unknown" := by
  unfold page
  exact ensure_bind_of_not (decide_eq_false late) _

section

variable (live : now - session.created < timeToLive)
include live

theorem page_of_absent
    (absent : session.pages[index]? = none) :
    page encodedLen now session index after = .error "page_out_of_range" := by
  unfold page
  rw [ensure_bind (decide_eq_true live), absent]
  rfl

/-- A repair since the session was frozen invalidates it. -/
theorem page_of_revised
    (there : session.pages[index]? = some selected)
    (revised : revision after.repairs (session.predecessor.getD 0)
      session.range.throughTradeId = .ok current)
    (other : current ≠ session.revision) :
    page encodedLen now session index after = .error "session_invalidated" := by
  unfold page
  rw [ensure_bind (decide_eq_true live), there, revised]
  exact ensure_bind_of_not (decide_eq_false other) _

/-- Otherwise the page is assembled from the rows. -/
theorem page_of_valid
    (there : session.pages[index]? = some selected)
    (revised : revision after.repairs (session.predecessor.getD 0)
      session.range.throughTradeId = .ok session.revision)
    (rows : readPage after selected = .ok trades)
    (count : trades.length = selected.count)
    (before : readPredecessor after session index = .ok predecessor)
    (named : index = 0 → predecessor.map Trade.tradeId = session.predecessor) :
    page encodedLen now session index after =
      if encodedLen (session.assemble index trades predecessor) ≤ pageBytes then
        .ok (session.assemble index trades predecessor)
      else .error "history_page_bytes" := by
  have bound : (decide (index ≠ 0) ||
      decide (predecessor.map Trade.tradeId = session.predecessor)) = true := by
    by_cases start : index = 0
    · simp [named start]
    · simp [start]
  unfold page
  rw [ensure_bind (decide_eq_true live), there, revised]
  change (ensure (decide (session.revision = session.revision)) "session_invalidated" >>= _) = _
  rw [ensure_bind (decide_eq_true rfl), rows, ok_bind, ensure_bind (decide_eq_true count), before,
    ok_bind, ensure_bind bound]
  split
  · rename_i fits
    exact ensure_bind (decide_eq_true fits) _
  · rename_i large
    exact ensure_bind_of_not (decide_eq_false large) _

end

end Outcomes

/-- A failure tells all there is to tell of a read. -/
theorem readsFrozen_of_error (reads : page encodedLen now session index after = .error cause)
    (known : cause = "session_invalidated" ∨
      cause = "session_expired_or_unknown" ∧ timeToLive ≤ now - session.created ∨
      cause = "page_out_of_range" ∧ session.pages.length ≤ index ∨
      cause = "history_page_bytes" ∧ ∃ group, groups[index]? = some group ∧
        pageBytes < encodedLen
          (session.assemble index group (session.frozenPredecessor store index))) :
    ReadsFrozen encodedLen session store after groups now index where
  returned value returned := by
    rw [reads] at returned
    cases returned
  failed other failed := by
    rw [reads] at failed
    obtain rfl := error.inj failed
    exact known

/-- A page is read as it was frozen. -/
theorem readsFrozen (frozen : Frozen store session)
    (cuts : Cuts session.range.limit (store.frozenRows session) groups session.pages)
    (follows : Follows ((highest store.trades).getD 0) more store after) :
    ReadsFrozen encodedLen session store after groups now index := by
  have lengths : groups.length = session.pages.length := cuts.2.length_eq
  by_cases live : now - session.created < timeToLive
  · cases selected : session.pages[index]? with
    | none =>
      refine readsFrozen_of_error (page_of_absent live selected) ?_
      exact .inr (.inr (.inl ⟨rfl, getElem?_eq_none_iff.mp selected⟩))
    | some bounds =>
      obtain ⟨group, there⟩ : ∃ group, groups[index]? = some group := by
        have inside := (List.getElem?_eq_some_iff.mp selected).1
        exact ⟨_, getElem?_eq_getElem (by omega)⟩
      have revised := revision_ok_iff.mpr ⟨frozen.below, frozen.through,
        (rfl : lastRevision after.repairs (session.predecessor.getD 0)
          session.range.throughTradeId + 1 = _)⟩
      by_cases valid : lastRevision after.repairs (session.predecessor.getD 0)
          session.range.throughTradeId + 1 = session.revision
      · have same : lastRevision after.repairs (session.predecessor.getD 0)
            session.range.throughTradeId = lastRevision store.repairs
            (session.predecessor.getD 0) session.range.throughTradeId := by
          rw [frozen.revision] at valid
          exact Nat.add_right_cancel valid
        obtain ⟨rows, count⟩ := readPage_ok frozen cuts there selected
          (fun row above below stored =>
            mem_iff_of_lastRevision_eq follows same above.le below stored)
        obtain ⟨before, named⟩ := @readPredecessor_ok _ _ _ index _ frozen follows same
        have reads := @page_of_valid _ _ encodedLen _ _ _ _ _ live selected
          (revised.trans (congrArg Except.ok valid)) rows count before
          (fun start => by
            unfold Session.frozenPredecessor
            rw [if_pos start]
            exact named start)
        by_cases fits : encodedLen (session.assemble index group
            (session.frozenPredecessor store index)) ≤ pageBytes
        · rw [if_pos fits] at reads
          constructor
          · intro value returned
            rw [reads] at returned
            cases returned
            refine ⟨there, ?_, rfl⟩
            unfold Session.assemble
            rw [and_eq_true, decide_eq_true_eq, isNone_iff_eq_none, lengths]
          · intro cause failed
            rw [reads] at failed
            cases failed
        · rw [if_neg fits] at reads
          refine readsFrozen_of_error reads ?_
          exact .inr (.inr (.inr ⟨rfl, group, there, not_le.mp fits⟩))
      · exact readsFrozen_of_error (page_of_revised live selected revised valid) (.inl rfl)
  · refine readsFrozen_of_error (page_of_late live) ?_
    exact .inr (.inl ⟨rfl, not_lt.mp live⟩)

/-- The last id of a page is in the range. -/
theorem last_le_through
    (cuts : Cuts session.range.limit (store.frozenRows session) groups session.pages)
    (selected : session.pages[index]? = some bounds) (some : bounds.count ≠ 0) :
    bounds.last ≤ session.range.throughTradeId := by
  have lengths : groups.length = session.pages.length := cuts.2.length_eq
  obtain ⟨group, there⟩ : ∃ group, groups[index]? = Option.some group := by
    have inside := (List.getElem?_eq_some_iff.mp selected).1
    exact ⟨_, getElem?_eq_getElem (by omega)⟩
  obtain ⟨_, count, same⟩ := bounds_of_cuts cuts there selected
  have nonempty : group ≠ [] := by
    rintro rfl
    exact some count
  obtain ⟨last, ending⟩ : ∃ last, group.getLast? = Option.some last :=
    isSome_iff_exists.mp (getLast?_isSome.mpr nonempty)
  obtain ⟨front, back, split⟩ := exists_stretch cuts there
  have listed : last ∈ store.frozenRows session := by
    rw [split]
    simp [mem_of_getLast? ending]
  have within := (Table.mem_select.mp listed).2
  simp only [and_eq_true, decide_eq_true_eq] at within
  rw [same nonempty]
  unfold pageRange
  rw [ending]
  exact within.2

/-- What is written beyond a range does not show in its pages. -/
theorem page_of_beyond (frozen : Frozen store session)
    (cuts : Cuts session.range.limit (store.frozenRows session) groups session.pages)
    (beyond : Beyond session.range.throughTradeId more store after) :
    page encodedLen now session index after = page encodedLen now session index store := by
  have revised : revision after.repairs (session.predecessor.getD 0)
      session.range.throughTradeId = revision store.repairs (session.predecessor.getD 0)
      session.range.throughTradeId := by
    have same := @lastRevision_append_of_outside store.repairs more
      (session.predecessor.getD 0) session.range.throughTradeId
      (fun number mem within => absurd within.2 (beyond.beyond number mem).not_ge)
    unfold revision
    rw [beyond.repairs]
    simp only [bind, Except.bind]
    split
    · rfl
    · rename_i first counted
      split
      · rfl
      · rename_i through bounded
        rw [(rowNumber_ok.mp counted).2, (rowNumber_ok.mp bounded).2, same]
  have before : readPredecessor after session index = readPredecessor store session index := by
    unfold readPredecessor
    cases named : session.predecessor with
    | none => rfl
    | some number =>
      obtain ⟨row, mem, rfl, below⟩ := exists_predecessor frozen named
      have one : store.trades.find row.tradeId = some row := Table.find_eq_some_iff.mpr ⟨mem, rfl⟩
      have two : after.trades.find row.tradeId = some row :=
        Table.find_eq_some_iff.mpr ⟨(beyond.same row below).mp mem, rfl⟩
      have small := frozen.below
      rw [named, getD_some] at small
      dsimp only
      unfold readTrade
      rw [rowNumber_ok.mpr ⟨small, rfl⟩, ok_bind, ok_bind, one, two]
  unfold page
  rw [revised, before]
  cases selected : session.pages[index]? with
  | none => rfl
  | some bounds =>
    have rows : readPage after bounds = readPage store bounds := by
      unfold readPage
      split
      · rfl
      · rename_i some
        have within := last_le_through cuts selected some
        have same : (after.trades.select fun row => decide (bounds.first ≤ row.tradeId) &&
            decide (row.tradeId ≤ bounds.last)) =
            store.trades.select fun row => decide (bounds.first ≤ row.tradeId) &&
              decide (row.tradeId ≤ bounds.last) := by
          refine Table.select_eq_of_mem_iff ?_
          intro row between
          rw [and_eq_true, decide_eq_true_eq, decide_eq_true_eq] at between
          exact (beyond.same row (between.2.trans within)).symm
        unfold readTrades
        simp only [bind, Except.bind]
        split
        · rfl
        · split
          · rfl
          · rename_i first counted
            split
            · rfl
            · rename_i through bounded
              rw [(rowNumber_ok.mp counted).2, (rowNumber_ok.mp bounded).2, same]
    have found : need (some bounds) "page_out_of_range" = .ok bounds := rfl
    rw [found, ok_bind, ok_bind, rows]

end Later

/-! ## Sessions of a freeze -/

/-- Pages of a session, however the store was written since its freeze: they cut
the frozen rows, they return them or the session is invalid, and what is written
beyond the range changes nothing. -/
theorem frozen_or_invalidated (codec : Codec) (encodedLen : HistoryPage → Nat)
    {id : String} {created : Nat} {late : Option Nat} {archiveHealth databaseHealth : Option Health}
    {range : Range} {store : Store} {frozen : Session}
    (froze : freeze id created late archiveHealth databaseHealth range store = .ok frozen)
    (owner requestId : Option String) :
    ∃ groups : List (List Trade),
      groups.flatten = store.frozenRows frozen ∧ groups.length = frozen.pages.length ∧
        ∀ (batches : List Batch) (now index : Nat),
          ReadsFrozen encodedLen { frozen with owner, requestId } store
              (batches.foldl (Store.write codec) store) groups now index ∧
            ((∀ batch ∈ batches, ∀ row ∈ batch.rows, range.throughTradeId < row.tradeId) →
              page encodedLen now { frozen with owner, requestId } index
                  (batches.foldl (Store.write codec) store) =
                page encodedLen now { frozen with owner, requestId } index store) := by
  obtain ⟨known, same⟩ := frozen_of_freeze froze
  obtain ⟨groups, cuts⟩ := known.cuts
  have owned : Frozen store { frozen with owner, requestId } :=
    ⟨known.through, known.limit, known.predecessor, known.below, known.revision, known.positive,
      known.cuts, known.reason⟩
  refine ⟨groups, cuts.1, cuts.2.length_eq, ?_⟩
  intro batches now index
  constructor
  · obtain ⟨more, follows⟩ := @follows_of_writes codec store batches _ le_rfl
    exact readsFrozen owned cuts follows
  · intro beyond
    obtain ⟨more, after⟩ := @beyond_of_writes codec store _ _ beyond
    rw [← same] at after
    exact page_of_beyond owned cuts after

/-! ## A session that runs ahead of the store -/

section Sample

/-- Decimals of the samples: every text is read as one. -/
def sampleCodec : Codec where
  parse _ := some 1
  parseExact _ := some 1
  text _ := "1"
  rfc3339 _ := none

/-- A trade at a time. -/
def sampleTrade (number : Nat) (time : Int) : Trade where
  tradeId := number
  tradeTimeMs := time
  eventTimeMs := none
  price := "1"
  quantity := "1"
  buyerIsMaker := some true
  receivedAtNs := none
  evidence := none

/-- The text that the sample's trades were read from. -/
def sampleInput : EvidenceInput where
  raw := [123]
  acquisition := "rest"
  upstreamUrl := "https://data-api.binance.vision/api/v3/trades"
  receivedAtNs := none
  sourceGeneration := none
  contentType := "application/json"

/-- Trades in one insertion. -/
def sampleBatch (rows : List Trade) : Batch := ⟨"evidence", rows, sampleInput⟩

/-- A store without rows. -/
def emptyStore : Store := ⟨Table.empty, [], []⟩

/-- The store of one insertion. -/
def sampleStore (rows : List Trade) : Store := emptyStore.write sampleCodec (sampleBatch rows)

/-- A range with pages of one trade. -/
def sampleRange (startTimeMs : Int) (throughTradeId : Nat) : Range where
  source := 1
  instrumentId := "BTCUSDT.BINANCE"
  startTimeMs
  throughTradeId
  limit := 1

/-- A batch above the highest trade, and one below it that is above the highest
trade of the freeze. -/
def aheadBatches : List Batch :=
  [sampleBatch [sampleTrade 3 300], sampleBatch [sampleTrade 2 200]]

/-- The session of a range that ends two ids above the only trade of the store. -/
def aheadSession : Session where
  id := "session"
  owner := none
  requestId := none
  range := sampleRange 1 3
  created := 0
  revision := 1
  pages := [⟨1, 1, 1⟩]
  predecessor := none
  count := 1
  firstTime := some 100
  lastTime := some 100
  reason := some "database_write_lag"
  missing := []
  databaseHealth := none
  archiveHealth := none

theorem freeze_ahead :
    freeze "session" 0 none none none (sampleRange 1 3) (sampleStore [sampleTrade 1 100]) =
      .ok aheadSession := rfl

/-- A session that runs ahead of the store is invalidated by trades that are all
above the highest one of its freeze. -/
theorem not_frozen_above_highest :
    freeze "session" 0 none none none (sampleRange 1 3) (sampleStore [sampleTrade 1 100]) =
        .ok aheadSession ∧
      highest (sampleStore [sampleTrade 1 100]).trades = some 1 ∧
      (∀ batch ∈ aheadBatches, ∀ row ∈ batch.rows, 1 < row.tradeId) ∧
      (page historyPageLength 1 aheadSession 0
        (sampleStore [sampleTrade 1 100])).toOption.isSome = true ∧
      page historyPageLength 1 aheadSession 0
          (aheadBatches.foldl (Store.write sampleCodec) (sampleStore [sampleTrade 1 100])) =
        .error "session_invalidated" :=
  ⟨freeze_ahead, rfl, by decide, by decide, rfl⟩

/-- The pages of this session, whatever is written later. -/
theorem frozen_or_invalidated_ahead :
    ∃ groups : List (List Trade),
      groups.flatten = (sampleStore [sampleTrade 1 100]).frozenRows aheadSession ∧
        groups.length = aheadSession.pages.length ∧
        ∀ (batches : List Batch) (now index : Nat),
          ReadsFrozen historyPageLength { aheadSession with owner := none, requestId := none }
              (sampleStore [sampleTrade 1 100])
              (batches.foldl (Store.write sampleCodec) (sampleStore [sampleTrade 1 100]))
              groups now index ∧
            ((∀ batch ∈ batches, ∀ row ∈ batch.rows, 3 < row.tradeId) →
              page historyPageLength now { aheadSession with owner := none, requestId := none }
                  index (batches.foldl (Store.write sampleCodec)
                    (sampleStore [sampleTrade 1 100])) =
                page historyPageLength now { aheadSession with owner := none, requestId := none }
                  index (sampleStore [sampleTrade 1 100])) :=
  frozen_or_invalidated sampleCodec historyPageLength freeze_ahead none none

end Sample

end MarketCow.Btc
