import MarketCow.Btc.FrozenSessions

/-!
# Ranges of time

A window of time is resolved to a range of ids by its last trade and the trade
after that one. The certified session of the range has all trades of the window
exactly when no trade of the window comes after a trade beyond it.
-/

namespace MarketCow.Btc

open Library List
open Live (ensure need ensure_ok need_ok)
open Sdk (Trade)

/-! ## Messages -/

/-- A range of ids, and the revision it had when it was resolved. -/
structure RevisionFence where
  firstTradeId : Nat
  lastTradeId : Nat
  revision : Nat
  deriving DecidableEq

/-- The trades of a window of time, perhaps still open at its end. -/
structure TimeRangeQuery where
  source : Int
  instrumentId : String
  startTimeMs : Int
  endTimeMs : Option Int
  limit : Nat
  maximumTradeId : Option Nat
  revisionFence : Option RevisionFence
  deriving DecidableEq

/-- The ids of a window of time, certified against the store. -/
structure ResolvedRange where
  schemaVersion : String
  query : TimeRangeQuery
  range : Range
  endTimeMs : Int
  databaseHighTradeId : Nat
  databaseHighSourceTimeMs : Int
  databaseHealthAtResolve : Option Health
  rangeRevision : RevisionFence
  deriving DecidableEq

/-! ## Resolving a window -/

/-- The text of a number that does not fit. -/
def conversionError : String := "out of range integral type conversion attempted"

/-- The row with the last time, of rows in the order of their ids; of equal times
the one with the largest id. -/
def latest (rows : List Trade) : Option Trade :=
  rows.foldl (fun found row =>
    if found.all fun before => decide (before.tradeTimeMs ≤ row.tradeTimeMs) then some row
    else found) none

/-- The largest id that a query lets in. -/
def TimeRangeQuery.bound (query : TimeRangeQuery) : Except String Nat :=
  match query.maximumTradeId with
  | some maximum => rowNumber maximum conversionError
  | none => .ok (2 ^ 63 - 1)

/-- The highest trade up to an id. -/
def Store.top (store : Store) (bound : Nat) : Option Trade :=
  store.trades.last fun row => decide (row.tradeId ≤ bound)

/-- The last trade before a time, in the order of times. -/
def Store.latestBefore (store : Store) (time : Int) (through : Nat) : Option Trade :=
  latest (store.trades.select fun row =>
    decide (row.tradeTimeMs < time) && decide (row.tradeId ≤ through))

/-- The window ends where the query says, or after the highest trade. -/
def TimeRangeQuery.stop (query : TimeRangeQuery) (high : Trade) : Int :=
  query.endTimeMs.getD (high.tradeTimeMs + 1)

/-- The window must have ended in the store. -/
def checkEnd (query : TimeRangeQuery) (high : Trade) : Except String Unit := do
  ensure (decide (high.tradeTimeMs + 1 < 2 ^ 63)) "invalid history range"
  ensure (decide (query.startTimeMs < query.stop high)) "invalid history range"
  ensure (decide (query.stop high ≤ high.tradeTimeMs) ||
    (decide (query.stop high = high.tradeTimeMs + 1) &&
      (query.endTimeMs.isNone || query.maximumTradeId.isSome))) "database_write_lag"

/-- The trade after the last one of the window must be the next one, and beyond. -/
def checkNext (store : Store) (stop : Int) (through high : Nat) : Except String Unit :=
  if through < high then
    ensure ((store.between through high).head?.any fun row =>
      decide (row.tradeId = through + 1) && decide (stop ≤ row.tradeTimeMs)) "history_boundary_gap"
  else .ok ()

/-- The fenced range has not been repaired since. -/
def checkFence (store : Store) (high : Nat) : Option RevisionFence → Except String Unit
  | none => .ok ()
  | some fence => do
    ensure (decide (fence.firstTradeId ≤ fence.lastTradeId) && decide (fence.lastTradeId ≤ high))
      "invalid history range"
    let current ← revision store.repairs fence.firstTradeId fence.lastTradeId
    ensure (decide (current = fence.revision)) "session_invalidated"

/-- Look the bounds of a window up. -/
def resolveRange
    (health : Option Health) (query : TimeRangeQuery)
    (store : Store) : Except String ResolvedRange := do
  ensure (decide (query.source = Sdk.Source.binanceSpotTrade.number) &&
    query.instrumentId == "BTCUSDT.BINANCE" && decide (0 < query.startTimeMs) &&
    decide (1 ≤ query.limit ∧ query.limit ≤ 1000)) "invalid history range"
  let bound ← query.bound
  let high ← need (store.top bound) "database_history_empty"
  ensure (query.maximumTradeId.isNone || decide (high.tradeId = bound)) "database_write_lag"
  checkEnd query high
  let through ← need (store.latestBefore (query.stop high) high.tradeId) "database_history_empty"
  checkNext store (query.stop high) through.tradeId high.tradeId
  let first := ((store.latestBefore query.startTimeMs through.tradeId).map Trade.tradeId).getD 0
  let current ← revision store.repairs first through.tradeId
  checkFence store high.tradeId query.revisionFence
  .ok
    { schemaVersion := "marketcow.btc-trade-range.v3"
      query
      range :=
        { source := query.source
          instrumentId := query.instrumentId
          startTimeMs := query.startTimeMs
          throughTradeId := through.tradeId
          limit := query.limit }
      endTimeMs := query.stop high
      databaseHighTradeId := high.tradeId
      databaseHighSourceTimeMs := high.tradeTimeMs
      databaseHealthAtResolve := health
      rangeRevision := ⟨first, through.tradeId, current⟩ }

/-! ## What a resolved range is -/

section Resolving

variable {store : Store} {query : TimeRangeQuery} {health : Option Health}
  {resolved : ResolvedRange} {rows : List Trade} {found : Trade}

theorem latest_snoc (rows : List Trade) (row : Trade) :
    latest (rows ++ [row]) =
      if (latest rows).all fun before => decide (before.tradeTimeMs ≤ row.tradeTimeMs) then some row
      else latest rows := by
  unfold latest
  rw [foldl_append]
  rfl

theorem latest_eq_none_iff : latest rows = none ↔ rows = [] := by
  induction rows using List.reverseRecOn with
  | nil => exact ⟨fun _ => rfl, fun _ => rfl⟩
  | append_singleton rows row ih =>
    rw [latest_snoc]
    constructor
    · intro absent
      split at absent
      · cases absent
      · rename_i kept
        rw [absent] at kept
        exact absurd rfl kept
    · intro never
      simp at never

/-- The latest row is one of the rows; a later row has an earlier time. -/
theorem of_latest_eq_some
    (ordered : rows.Pairwise fun first second => first.tradeId < second.tradeId)
    (last : latest rows = some found) :
    found ∈ rows ∧ ∀ row ∈ rows, row.tradeTimeMs ≤ found.tradeTimeMs ∧
      (found.tradeId < row.tradeId → row.tradeTimeMs < found.tradeTimeMs) := by
  induction rows using List.reverseRecOn generalizing found with
  | nil => cases last
  | append_singleton rows row ih =>
    obtain ⟨sorted, _, below⟩ := pairwise_append.mp ordered
    rw [latest_snoc] at last
    split at last
    · rename_i rises
      cases last
      refine ⟨by simp, ?_⟩
      intro other mem
      rcases mem_append.mp mem with early | here
      · have less := below other early row (by simp)
        refine ⟨?_, fun more => absurd more less.not_gt⟩
        cases before : latest rows with
        | none =>
          rw [latest_eq_none_iff.mp before] at early
          cases early
        | some top =>
          rw [before, Option.all_some, decide_eq_true_eq] at rises
          exact ((ih sorted before).2 other early).1.trans rises
      · rw [mem_singleton.mp here]
        exact ⟨le_rfl, fun more => absurd more (lt_irrefl _)⟩
    · rename_i falls
      rw [last, Option.all_some, decide_eq_true_eq] at falls
      obtain ⟨mem, bound⟩ := ih sorted last
      refine ⟨mem_append_left _ mem, ?_⟩
      intro other there
      rcases mem_append.mp there with early | here
      · exact bound other early
      · rw [mem_singleton.mp here]
        exact ⟨by omega, fun _ => by omega⟩

/-- What a resolved range says about its store. -/
structure Resolved (store : Store) (query : TimeRangeQuery) (resolved : ResolvedRange) : Prop where
  bound : ∃ bound, query.bound = .ok bound ∧ ∃ high, store.top bound = some high ∧
    resolved.databaseHighTradeId = high.tradeId ∧ resolved.endTimeMs = query.stop high
  start : resolved.range.startTimeMs = query.startTimeMs
  through : ∃ row ∈ store.trades.rows, row.tradeId = resolved.range.throughTradeId ∧
    row.tradeTimeMs < resolved.endTimeMs ∧ row.tradeId ≤ resolved.databaseHighTradeId
  next : resolved.range.throughTradeId < resolved.databaseHighTradeId →
    ∃ row ∈ store.trades.rows, row.tradeId = resolved.range.throughTradeId + 1 ∧
      resolved.endTimeMs ≤ row.tradeTimeMs

/-- What a resolution says is read off the store. -/
theorem resolved_of_resolveRange (resolves : resolveRange health query store = .ok resolved) :
    Resolved store query resolved := by
  obtain ⟨_, _, bound, bounded, high, topped, resolves⟩ := bind₃_ok.mp resolves
  iterate 2 obtain ⟨_, _, resolves⟩ := bind_ok.mp resolves
  obtain ⟨through, last, _, next, resolves⟩ := bind₂_ok.mp resolves
  obtain ⟨current, _, _, _, resolves⟩ := bind₂_ok.mp resolves
  cases resolves
  refine ⟨⟨bound, bounded, high, need_ok.mp topped, rfl, rfl⟩, rfl, ?_, ?_⟩
  · have mem := (of_latest_eq_some Table.sorted_select (need_ok.mp last)).1
    obtain ⟨there, within⟩ := Table.mem_select.mp mem
    rw [and_eq_true, decide_eq_true_eq, decide_eq_true_eq] at within
    exact ⟨through, there, rfl, within⟩
  · intro less
    unfold checkNext at next
    rw [if_pos less] at next
    have holds := ensure_ok.mp next
    cases opening : (store.between through.tradeId high.tradeId).head? with
    | none =>
      rw [opening] at holds
      cases holds
    | some row =>
      rw [opening, any_some, and_eq_true, decide_eq_true_eq, decide_eq_true_eq] at holds
      have listed := mem_of_head? opening
      exact ⟨row, (Table.mem_select.mp listed).1, holds⟩

end Resolving

/-! ## Certified windows -/

/-- The rows of the pages of a session. -/
def pageRows (store : Store) (session : Session) : List Trade :=
  session.pages.flatMap fun bounds => (readPage store bounds).toOption.getD []

/-- The trades of a window. -/
def Store.window (store : Store) (startTimeMs stop : Int) (high : Nat) : List Trade :=
  store.trades.select fun row => decide (startTimeMs ≤ row.tradeTimeMs) &&
    decide (row.tradeTimeMs < stop) && decide (row.tradeId ≤ high)

/-- The pages of a session have the trades of the window, with ids that count up
from the predecessor to the end and times that never fall. -/
structure Certified
    (store : Store) (query : TimeRangeQuery) (resolved : ResolvedRange)
    (session : Session) : Prop where
  rows : pageRows store session =
    store.window query.startTimeMs resolved.endTimeMs resolved.databaseHighTradeId
  numbers : ∃ number, session.predecessor = some number ∧
    (pageRows store session).map Trade.tradeId =
      List.range' (number + 1) (resolved.range.throughTradeId - number)
  times : (pageRows store session).Pairwise fun first second =>
    first.tradeTimeMs ≤ second.tradeTimeMs

/-- No trade of the window comes after a trade beyond it. -/
def Settled (store : Store) (query : TimeRangeQuery) : Prop :=
  ∀ bound high, query.bound = .ok bound → store.top bound = some high →
    ∀ first ∈ store.trades.rows, ∀ second ∈ store.trades.rows,
      first.tradeId < second.tradeId → second.tradeId ≤ bound →
      query.startTimeMs ≤ second.tradeTimeMs → second.tradeTimeMs < query.stop high →
      first.tradeTimeMs < query.stop high

section Windows

variable {store : Store} {query : TimeRangeQuery} {resolved : ResolvedRange} {session : Session}

/-- The pages of a session have its rows. -/
theorem pageRows_eq (frozen : Frozen store session) :
    pageRows store session = store.frozenRows session := by
  obtain ⟨groups, cuts⟩ := frozen.cuts
  have lengths : groups.length = session.pages.length := cuts.2.length_eq
  have read : session.pages.map (fun bounds => (readPage store bounds).toOption.getD []) =
      groups := by
    apply ext_getElem?
    intro index
    rw [getElem?_map]
    cases selected : session.pages[index]? with
    | none =>
      have outside := getElem?_eq_none_iff.mp selected
      rw [Option.map_none, getElem?_eq_none (by omega)]
    | some bounds =>
      have inside := (List.getElem?_eq_some_iff.mp selected).1
      have there : groups[index]? = some (groups.get ⟨index, by omega⟩) :=
        getElem?_eq_getElem (by omega)
      obtain ⟨rows, _⟩ := @readPage_ok _ store _ _ _ _ _ frozen cuts there selected
        (fun _ _ _ _ => Iff.rfl)
      rw [there, map_some, rows]
      rfl
  unfold pageRows
  rw [flatMap_def, read, cuts.1]

/-- What a session is sure of when it has no reason against its range. -/
structure Sure (store : Store) (session : Session) (number : Nat) : Prop where
  named : session.predecessor = some number
  unskipped : ∀ row ∈ store.trades.rows, session.range.startTimeMs ≤ row.tradeTimeMs →
    number < row.tradeId
  steady : Steady (some number) session.range.startTimeMs (store.frozenRows session)
  ends : lastId (some number) (store.frozenRows session) = some session.range.throughTradeId
  mem : ∀ row, row ∈ store.frozenRows session ↔
    row ∈ store.trades.rows ∧ number < row.tradeId ∧ row.tradeId ≤ session.range.throughTradeId
  nonempty : store.frozenRows session ≠ []

/-- A session without a reason has a predecessor and no hole. -/
theorem exists_sure (frozen : Frozen store session) (verified : session.reason = none) :
    ∃ number, Sure store session number := by
  obtain ⟨⟨number, named⟩, unskipped, steady, nonempty, ends⟩ := frozen.reason.mp verified
  rw [named] at steady ends
  refine ⟨number, named, ?_, steady, ends, ?_, nonempty⟩
  · intro row mem within
    by_contra below
    unfold Store.skipped at unskipped
    rw [← frozen.predecessor, named, any_some, any_eq_false] at unskipped
    apply unskipped row mem
    rw [and_eq_true, decide_eq_true_eq, decide_eq_true_eq]
    exact ⟨within, by omega⟩
  · intro row
    unfold Store.frozenRows Store.between
    rw [named, getD_some, Table.mem_select, and_eq_true, decide_eq_true_eq, decide_eq_true_eq]

/-- The last row of a session has the end of its range. -/
theorem Sure.times (sure : Sure store session number)
    (mem : last ∈ store.trades.rows) (ends : last.tradeId = session.range.throughTradeId) :
    ∀ row ∈ store.frozenRows session, row.tradeTimeMs ≤ last.tradeTimeMs := by
  obtain ⟨ending, found⟩ : ∃ ending, (store.frozenRows session).getLast? = some ending :=
    isSome_iff_exists.mp (getLast?_isSome.mpr sure.nonempty)
  have same := sure.ends
  unfold lastId at same
  rw [found, map_some, Option.some_or, Option.some.injEq] at same
  have listed := (sure.mem ending).mp (mem_of_getLast? found)
  have equal : ending = last := Table.eq_of_key_eq listed.1 mem (same.trans ends.symm)
  rw [← equal]
  exact sure.steady.ordered.2 ending found

/-- The certificate holds exactly when no trade of the window comes after one beyond it. -/
theorem certified_iff_settled
    (known : Resolved store query resolved) (frozen : Frozen store session)
    (ranged : session.range = resolved.range) (verified : session.reason = none) :
    Certified store query resolved session ↔ Settled store query := by
  obtain ⟨number, sure⟩ := exists_sure frozen verified
  obtain ⟨bound, bounded, high, topped, highest, stop⟩ := known.bound
  obtain ⟨last, lastMember, lastId, lastTime, lastHigh⟩ := known.through
  have topMember := Table.last_eq_some_iff.mp topped
  have times := sure.times lastMember (by rw [ranged]; exact lastId)
  have rows : pageRows store session = store.frozenRows session := pageRows_eq frozen
  have within := sure.steady.within
  rw [ranged, known.start] at within
  have unskipped := sure.unskipped
  rw [ranged, known.start] at unskipped
  have mem := sure.mem
  rw [ranged] at mem
  constructor
  · rintro ⟨same, _, _⟩ otherBound otherHigh otherBounded otherTopped
    rw [bounded] at otherBounded
    cases otherBounded
    rw [topped] at otherTopped
    cases otherTopped
    intro first firstMember second secondMember less below start before
    rw [← stop] at before ⊢
    have capped : second.tradeId ≤ resolved.databaseHighTradeId := by
      rw [highest]
      exact topMember.2.2 second secondMember (decide_eq_true below)
    have listed : second ∈ store.frozenRows session := by
      rw [← rows, same]
      unfold Store.window
      rw [Table.mem_select, and_eq_true, and_eq_true, decide_eq_true_eq,
        decide_eq_true_eq, decide_eq_true_eq]
      exact ⟨secondMember, ⟨start, before⟩, capped⟩
    have inside := (mem second).mp listed
    by_cases early : number < first.tradeId
    · exact (times first ((mem first).mpr ⟨firstMember, early, by omega⟩)).trans_lt lastTime
    · by_contra beyond
      have fits := unskipped first firstMember (by omega)
      exact early fits
  · intro settled
    refine ⟨?_, ⟨number, sure.named, ?_⟩, ?_⟩
    · rw [rows]
      refine (Table.select_eq_of_mem Table.sorted_select ?_).symm
      intro row
      rw [show (row ∈ Table.select store.trades _) = (row ∈ store.frozenRows session) from rfl,
        mem, and_eq_true, and_eq_true, decide_eq_true_eq, decide_eq_true_eq,
        decide_eq_true_eq]
      constructor
      · intro listed
        have there := (mem row).mpr listed
        refine ⟨listed.1, ⟨within row there, (times row there).trans_lt lastTime⟩, ?_⟩
        exact listed.2.2.trans (lastId ▸ lastHigh)
      · rintro ⟨member, ⟨start, before⟩, capped⟩
        refine ⟨member, unskipped row member start, ?_⟩
        by_contra beyond
        obtain ⟨next, nextMember, nextId, nextTime⟩ := known.next (by omega)
        have ne : next ≠ row := by
          rintro rfl
          omega
        have distinct : next.tradeId ≠ row.tradeId :=
          fun same => ne (Table.eq_of_key_eq nextMember member same)
        have bounds : row.tradeId ≤ bound := by
          have accepted := topMember.2.1
          rw [decide_eq_true_eq] at accepted
          omega
        have contradiction := settled bound high bounded topped next nextMember row member
          (by omega) bounds start (stop ▸ before)
        rw [← stop] at contradiction
        omega
    · obtain ⟨numbers, ends⟩ := sure.steady.numbered
      have same := ends.symm.trans sure.ends
      rw [ranged, Option.some.injEq] at same
      rw [rows, numbers]
      congr 1
      omega
    · rw [rows]
      exact sure.steady.ordered.1

/-- All pages of a session, each read at a time of its own. -/
def ReadsAll (encodedLen : HistoryPage → Nat) (session : Session) (store : Store)
    (pages : List HistoryPage) : Prop :=
  pages.length = session.pages.length ∧ ∀ index value, pages[index]? = some value →
    ∃ now, page encodedLen now session index store = .ok value

theorem flatMap_trades_eq
    (frozen : Frozen store session) (reads : ReadsAll encodedLen session store pages) :
    pages.flatMap HistoryPage.trades = pageRows store session := by
  obtain ⟨groups, cuts⟩ := frozen.cuts
  have lengths : groups.length = session.pages.length := cuts.2.length_eq
  have read : pages.map HistoryPage.trades = groups := by
    apply ext_getElem?
    intro index
    rw [getElem?_map]
    cases there : pages[index]? with
    | none =>
      have outside := getElem?_eq_none_iff.mp there
      rw [reads.1] at outside
      rw [Option.map_none, getElem?_eq_none (by omega)]
    | some value =>
      obtain ⟨now, read⟩ := reads.2 index value there
      have known := @readsFrozen _ _ _ _ encodedLen now index _
        frozen cuts (Follows.refl ((highest store.trades).getD 0) store)
      exact ((known.returned value read).1).symm
  rw [pageRows_eq frozen, flatMap_def, read, cuts.1]

/-- When a window resolves and the session of its range is certified, the pages have
all trades of the window exactly if none of them comes after a trade beyond it. -/
theorem certified_window_iff
    {encodedLen : HistoryPage → Nat} {health archiveHealth databaseHealth : Option Health}
    {id : String} {created : Nat} {late : Option Nat}
    (resolves : resolveRange health query store = .ok resolved)
    (froze : freeze id created late archiveHealth databaseHealth resolved.range store = .ok session)
    (verified : session.reason = none) :
    (∀ pages, ReadsAll encodedLen session store pages →
        pages.flatMap HistoryPage.trades = pageRows store session) ∧
      (Certified store query resolved session ↔ Settled store query) := by
  obtain ⟨frozen, ranged⟩ := frozen_of_freeze froze
  refine ⟨fun pages reads => flatMap_trades_eq frozen reads, ?_⟩
  exact certified_iff_settled (resolved_of_resolveRange resolves) frozen ranged verified

end Windows

/-! ## A late trade -/

section Sample

/-- The fourth trade is late: its time is before the times of the two before it. -/
def lateStore : Store :=
  sampleStore [sampleTrade 1 100, sampleTrade 2 200, sampleTrade 3 300, sampleTrade 4 150,
    sampleTrade 5 400]

/-- A window that begins after the first trade. -/
def lateQuery : TimeRangeQuery where
  source := 1
  instrumentId := "BTCUSDT.BINANCE"
  startTimeMs := 150
  endTimeMs := some 250
  limit := 10
  maximumTradeId := none
  revisionFence := none

/-- The range of the late window. -/
def lateRange : Range where
  source := 1
  instrumentId := "BTCUSDT.BINANCE"
  startTimeMs := 150
  throughTradeId := 2
  limit := 10

/-- What the late window is resolved to. -/
def lateResolved : ResolvedRange where
  schemaVersion := "marketcow.btc-trade-range.v3"
  query := lateQuery
  range := lateRange
  endTimeMs := 250
  databaseHighTradeId := 5
  databaseHighSourceTimeMs := 400
  databaseHealthAtResolve := none
  rangeRevision := ⟨1, 2, 1⟩

/-- The session of the late window. -/
def lateSession : Session where
  id := "session"
  owner := none
  requestId := none
  range := lateRange
  created := 0
  revision := 1
  pages := [⟨2, 2, 1⟩]
  predecessor := some 1
  count := 1
  firstTime := some 200
  lastTime := some 200
  reason := none
  missing := []
  databaseHealth := none
  archiveHealth := none

theorem resolveRange_late : resolveRange none lateQuery lateStore = .ok lateResolved := rfl

theorem freeze_late :
    freeze "session" 0 none none none lateResolved.range lateStore = .ok lateSession := by
  decide

/-- The certified session of a window lacks a late trade of the window. -/
theorem late_trade_missing :
    resolveRange none lateQuery lateStore = .ok lateResolved ∧
      freeze "session" 0 none none none lateResolved.range lateStore = .ok lateSession ∧
      lateSession.reason = none ∧
      (lateStore.window 150 250 5).map Trade.tradeId = [2, 4] ∧
      (pageRows lateStore lateSession).map Trade.tradeId = [2] :=
  ⟨resolveRange_late, freeze_late, rfl, by decide, by decide⟩

theorem certified_window_iff_late :
    (∀ pages, ReadsAll historyPageLength lateSession lateStore pages →
        pages.flatMap HistoryPage.trades = pageRows lateStore lateSession) ∧
      (Certified lateStore lateQuery lateResolved lateSession ↔ Settled lateStore lateQuery) :=
  certified_window_iff resolveRange_late freeze_late rfl

end Sample

end MarketCow.Btc
