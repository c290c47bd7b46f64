import MarketCow.Btc.FrozenTrades

/-!
# Pages of a frozen range

The pages of a session cut the rows of its range, in the order of the ids. A page
that is still read later returns its rows of the freeze.
-/

namespace MarketCow.Btc

open Library List
open Live (ensure_ok)
open Sdk (Trade)

/-- The rows of a session, of a store. -/
def Store.frozenRows (store : Store) (session : Session) : List Trade :=
  store.between (session.predecessor.getD 0) session.range.throughTradeId

/-- A page has the bounds of its rows. -/
def Bounds (limit : Nat) (group : List Trade) (bounds : PageRange) : Prop :=
  group.length ≤ limit ∧ bounds.count = group.length ∧ (group ≠ [] → bounds = pageRange group)

/-- Pages that cut some rows. -/
def Cuts (limit : Nat) (rows : List Trade) (groups : List (List Trade))
    (pages : List PageRange) : Prop :=
  groups.flatten = rows ∧ List.Forall₂ (Bounds limit) groups pages

/-! ## What a freeze keeps -/

/-- What a session knows of the store that it was frozen on. -/
structure Frozen (store : Store) (session : Session) : Prop where
  through : session.range.throughTradeId < 2 ^ 63
  limit : 1 ≤ session.range.limit ∧ session.range.limit ≤ 1000
  predecessor : session.predecessor = store.predecessor session.range
  below : session.predecessor.getD 0 < 2 ^ 63
  revision : session.revision =
    lastRevision store.repairs (session.predecessor.getD 0) session.range.throughTradeId + 1
  positive : ∀ row ∈ store.frozenRows session, 0 < row.tradeId
  cuts : ∃ groups, Cuts session.range.limit (store.frozenRows session) groups session.pages
  reason : session.reason = none ↔
    (∃ number, session.predecessor = some number) ∧ store.skipped session.range = false ∧
      Steady session.predecessor session.range.startTimeMs (store.frozenRows session) ∧
      store.frozenRows session ≠ [] ∧
      lastId session.predecessor (store.frozenRows session) = some session.range.throughTradeId

section Freezing

variable {range : Range} {predecessor high : Option Nat} {cause : Option String}
  {rows : List Trade} {scan after : Scan}

theorem bounds_pageRange (short : group.length ≤ limit) : Bounds limit group (pageRange group) :=
  ⟨short, rfl, fun _ => rfl⟩

theorem forall₂_pageRange (sizes : ∀ group ∈ groups, group.length ≤ limit) :
    List.Forall₂ (Bounds limit) groups (groups.map pageRange) := by
  rw [forall₂_map_right_iff, forall₂_same]
  exact fun group mem => bounds_pageRange (sizes group mem)

/-- Closing the last page leaves the rows and the reason alone. -/
theorem frame_of_finish (finished : scan.finish = .ok after) :
    after.previous = scan.previous ∧ after.previousTime = scan.previousTime ∧
      after.count = scan.count ∧ after.reason = scan.reason ∧
      after.pages = if 0 < scan.inPage then
        scan.pages ++ [⟨scan.first, scan.previous.getD 0, scan.inPage⟩] else scan.pages := by
  unfold Scan.finish at finished
  split at finished
  · rename_i started
    obtain ⟨_, _, finished⟩ := bind_ok.mp finished
    cases finished
    exact ⟨rfl, rfl, rfl, rfl, (if_pos started).symm⟩
  · rename_i empty
    cases finished
    exact ⟨rfl, rfl, rfl, rfl, (if_neg empty).symm⟩

section

variable (scanned : Scanned range predecessor cause rows scan) (finished : scan.finish = .ok after)
include scanned finished

/-- The finished scan has cut the rows into pages; without rows it has none. -/
theorem cut_of_finish :
    (∃ groups : List (List Trade), groups.flatten = rows ∧ after.pages = groups.map pageRange ∧
      ∀ group ∈ groups, group ≠ [] ∧ group.length ≤ range.limit) := by
  obtain ⟨_, _, _, _, pages⟩ := frame_of_finish finished
  obtain ⟨groups, rest, split, closed, sizes, inPage, short, head⟩ := scanned.paging
  rw [pages, inPage]
  cases rest using List.reverseRecOn with
  | nil =>
    rw [append_nil] at split
    exact ⟨groups, split.symm, by rw [if_neg (by simp), closed], sizes⟩
  | append_singleton front row =>
    have last : scan.previous = some row.tradeId := by
      rw [scanned.previous, split, ← append_assoc, lastId_snoc]
    have opened : ∀ other, (front ++ [row]).head? = some other → scan.first = other.tradeId := head
    refine ⟨groups ++ [front ++ [row]], ?_, ?_, ?_⟩
    · rw [split, flatten_append, flatten_singleton]
    · rw [if_pos (by simp), closed, map_append, map_singleton, last]
      congr 2
      unfold pageRange
      rw [getLast?_concat]
      cases named : (front ++ [row]).head? with
      | none => simp at named
      | some other =>
        rw [opened other named]
        rfl
    · intro group mem
      rcases mem_append.mp mem with early | here
      · exact sizes group early
      · rw [mem_singleton.mp here]
        exact ⟨by simp, short.le⟩

/-- The page of an empty range has no rows. -/
theorem cuts_of_fallback :
    (∃ groups, Cuts range.limit rows groups (after.fallback range).pages) ∧
      ((after.fallback range).reason = none ↔ after.reason = none ∧ rows ≠ []) := by
  obtain ⟨groups, split, pages, sizes⟩ := cut_of_finish scanned finished
  unfold Scan.fallback
  cases groups with
  | nil =>
    have none : after.pages.isEmpty = true := by
      rw [pages]
      rfl
    obtain rfl : [] = rows := split
    rw [if_pos none]
    refine ⟨⟨[[]], rfl, ?_⟩, ?_⟩
    · refine .cons ⟨Nat.zero_le _, rfl, fun never => absurd rfl never⟩ .nil
    · simp
  | cons group groups =>
    have some : ¬after.pages.isEmpty = true := by
      rw [pages]
      simp
    have nonempty : rows ≠ [] := by
      intro empty
      rw [empty, flatten_cons] at split
      exact (sizes group (by simp)).1 (append_eq_nil_iff.mp split).1
    rw [if_neg some]
    refine ⟨⟨group :: groups, split, ?_⟩, ?_⟩
    · rw [pages]
      exact forall₂_pageRange fun other mem => (sizes other mem).2
    · exact (and_iff_left nonempty).symm

end

/-- No reason is left when the scan ends at the range's end after a predecessor. -/
theorem boundary_eq_none_iff :
    scan.boundary range high predecessor = none ↔
      scan.previous = some range.throughTradeId ∧ (∃ number, predecessor = some number) ∧
        scan.reason = none := by
  unfold Scan.boundary
  split
  · rename_i other
    constructor
    · intro never
      cases never
    · exact fun all => absurd all.1 other
  · rename_i same
    rw [ne_eq, not_not] at same
    cases predecessor with
    | none =>
      constructor
      · intro never
        cases never
      · rintro ⟨_, ⟨_, never⟩, _⟩
        cases never
    | some number => exact ⟨fun clean => ⟨same, ⟨number, rfl⟩, clean⟩, fun all => all.2.2⟩

/-- What the scan freezes is what the store holds. -/
theorem frozen_of_freeze
    {id : String} {created : Nat} {late : Option Nat} {archiveHealth databaseHealth : Option Health}
    {store : Store} {session : Session}
    (froze : freeze id created late archiveHealth databaseHealth range store = .ok session) :
    Frozen store session ∧ session.range = range := by
  obtain ⟨_, valid, froze⟩ := bind_ok.mp froze
  obtain ⟨_, shape, _⟩ := bind_ok.mp valid
  have shape := ensure_ok.mp shape
  simp only [and_eq_true, decide_eq_true_eq] at shape
  obtain ⟨current, revised, froze⟩ := bind_ok.mp froze
  obtain ⟨below, through, rfl⟩ := revision_ok_iff.mp revised
  obtain ⟨scan, folded, finish, finished, froze⟩ := bind₂_ok.mp froze
  iterate 2 obtain ⟨_, _, froze⟩ := bind_ok.mp froze
  cases froze
  have scanned := scanned_of_foldlM
    (scanned_initial range (store.predecessor range) (store.skipped range) shape.2.1) folded
  obtain ⟨previous, _, _, reason, _⟩ := frame_of_finish finished
  obtain ⟨cuts, clean⟩ := cuts_of_fallback scanned finished
  have kept : (finish.fallback range).previous = finish.previous := by
    unfold Scan.fallback
    split <;> rfl
  refine ⟨⟨through, shape.2, rfl, below, rfl, scanned.positive, cuts, ?_⟩, rfl⟩
  rw [boundary_eq_none_iff, kept, previous, scanned.previous, clean, reason, scanned.reason]
  unfold Store.frozenRows
  cases store.skipped range with
  | true => simp
  | false =>
    simp only [false_eq_true, if_false, true_and]
    constructor
    · rintro ⟨last, present, steady, nonempty⟩
      exact ⟨present, steady, nonempty, last⟩
    · rintro ⟨present, steady, nonempty, last⟩
      exact ⟨last, present, steady, nonempty⟩

end Freezing

/-! ## Reading a page -/

section Reading

variable {store after : Store} {session : Session} {limit index : Nat}
  {groups : List (List Trade)} {group : List Trade} {bounds : PageRange}

section

variable (cuts : Cuts limit rows groups pages) (there : groups[index]? = some group)
include cuts there

/-- A group of rows is a stretch of them. -/
theorem exists_stretch :
    ∃ front back, rows = front ++ group ++ back := by
  obtain ⟨split, _⟩ := cuts
  obtain ⟨inside, same⟩ := List.getElem?_eq_some_iff.mp there
  refine ⟨(groups.take index).flatten, (groups.drop (index + 1)).flatten, ?_⟩
  rw [← split, ← same, append_assoc, ← flatten_cons, getElem_cons_drop,
    ← flatten_append, take_append_drop]

theorem bounds_of_cuts
    (selected : pages[index]? = some bounds) :
    Bounds limit group bounds := by
  obtain ⟨inside, rfl⟩ := List.getElem?_eq_some_iff.mp there
  obtain ⟨within, rfl⟩ := List.getElem?_eq_some_iff.mp selected
  exact cuts.2.get inside within

end

/-- The rows of a table between the bounds of a stretch are the stretch. -/
theorem select_stretch {table : TradeTable} {accept : Trade → Bool} {front back : List Trade}
    (split : table.select accept = front ++ group ++ back)
    (convex : ∀ first middle last : Trade, accept first = true → accept last = true →
      first.tradeId ≤ middle.tradeId → middle.tradeId ≤ last.tradeId → accept middle = true)
    (nonempty : group ≠ []) :
    (table.select fun row => decide ((pageRange group).first ≤ row.tradeId) &&
      decide (row.tradeId ≤ (pageRange group).last)) = group := by
  have ordered := @Table.sorted_select _ _ _ _ table accept
  rw [split] at ordered
  obtain ⟨others, _, beyond⟩ := pairwise_append.mp ordered
  obtain ⟨_, sorted, before⟩ := pairwise_append.mp others
  obtain ⟨first, rest, opening⟩ := exists_cons_of_ne_nil nonempty
  obtain ⟨firsts, last, ending⟩ : ∃ firsts last, group = firsts ++ [last] := by
    rcases group.eq_nil_or_concat with empty | ⟨firsts, last, whole⟩
    · exact absurd empty nonempty
    · exact ⟨firsts, last, by rw [whole, concat_eq_append]⟩
  have low : (pageRange group).first = first.tradeId := by
    unfold pageRange
    rw [opening]
    rfl
  have high : (pageRange group).last = last.tradeId := by
    unfold pageRange
    rw [ending, getLast?_concat]
    rfl
  have atLeast : ∀ row ∈ group, first.tradeId ≤ row.tradeId := by
    intro row mem
    rw [opening] at mem sorted
    rcases mem_cons.mp mem with rfl | later
    · exact le_rfl
    · exact ((pairwise_cons.mp sorted).1 row later).le
  have atMost : ∀ row ∈ group, row.tradeId ≤ last.tradeId := by
    intro row mem
    rw [ending] at mem sorted
    rcases mem_append.mp mem with early | here
    · exact ((pairwise_append.mp sorted).2.2 row early last (by simp)).le
    · rw [mem_singleton.mp here]
  have firstMember : first ∈ group := by simp [opening]
  have lastMember : last ∈ group := by simp [ending]
  have inside : ∀ row, row ∈ group → row ∈ table.rows ∧ accept row = true := by
    intro row mem
    apply Table.mem_select.mp
    rw [split]
    simp [mem]
  rw [low, high]
  refine Table.select_eq_of_mem sorted ?_
  intro row
  rw [and_eq_true, decide_eq_true_eq, decide_eq_true_eq]
  constructor
  · intro mem
    exact ⟨(inside row mem).1, atLeast row mem, atMost row mem⟩
  · rintro ⟨mem, above, below⟩
    have accepted := convex first row last (inside first firstMember).2
      (inside last lastMember).2 above below
    have listed := Table.mem_select.mpr ⟨mem, accepted⟩
    rw [split] at listed
    rcases mem_append.mp listed with earlier | late
    · rcases mem_append.mp earlier with early | here
      · exact absurd (before row early first firstMember) above.not_gt
      · exact here
    · exact absurd (beyond last (mem_append_right _ lastMember) row late) below.not_gt

/-- The rows of a page of the freeze, read from a later store that agrees with the
store of the freeze wherever a frozen row could be. -/
theorem readPage_ok (frozen : Frozen store session)
    (cuts : Cuts session.range.limit (store.frozenRows session) groups session.pages)
    (there : groups[index]? = some group) (selected : session.pages[index]? = some bounds)
    (same : ∀ row : Trade, session.predecessor.getD 0 < row.tradeId →
      row.tradeId ≤ session.range.throughTradeId →
      row.tradeId ≤ (highest store.trades).getD 0 →
      (row ∈ after.trades.rows ↔ row ∈ store.trades.rows)) :
    readPage after bounds = .ok group ∧ group.length = bounds.count := by
  obtain ⟨short, count, exact'⟩ := bounds_of_cuts cuts there selected
  refine ⟨?_, count.symm⟩
  unfold readPage
  rw [count]
  cases size : group with
  | nil => rfl
  | cons first rest =>
    have nonempty : group ≠ [] := by simp [size]
    rw [← size, if_neg (by simp [size]), exact' nonempty]
    obtain ⟨front, back, split⟩ := exists_stretch cuts there
    have convex : ∀ one middle two : Trade,
        (decide (session.predecessor.getD 0 < one.tradeId) &&
          decide (one.tradeId ≤ session.range.throughTradeId)) = true →
        (decide (session.predecessor.getD 0 < two.tradeId) &&
          decide (two.tradeId ≤ session.range.throughTradeId)) = true →
        one.tradeId ≤ middle.tradeId → middle.tradeId ≤ two.tradeId →
        (decide (session.predecessor.getD 0 < middle.tradeId) &&
          decide (middle.tradeId ≤ session.range.throughTradeId)) = true := by
      intro one middle two
      simp only [and_eq_true, decide_eq_true_eq]
      omega
    have stretch := select_stretch split convex nonempty
    have members : ∀ row ∈ group, row ∈ store.trades.rows ∧
        session.predecessor.getD 0 < row.tradeId ∧
        row.tradeId ≤ session.range.throughTradeId := by
      intro row mem
      have listed : row ∈ store.frozenRows session := by
        rw [split]
        simp [mem]
      have found := Table.mem_select.mp listed
      simpa only [and_eq_true, decide_eq_true_eq] using found
    obtain ⟨last, ending⟩ : ∃ last, group.getLast? = some last :=
      isSome_iff_exists.mp (getLast?_isSome.mpr nonempty)
    have lastMember := mem_of_getLast? ending
    have low : (pageRange group).first = first.tradeId := by
      unfold pageRange
      rw [size]
      rfl
    have high : (pageRange group).last = last.tradeId := by
      unfold pageRange
      rw [ending]
      rfl
    have firstMember : first ∈ group := by simp [size]
    have firstFacts := members first firstMember
    have lastFacts := members last lastMember
    have agree : (after.trades.select fun row =>
        decide ((pageRange group).first ≤ row.tradeId) &&
          decide (row.tradeId ≤ (pageRange group).last)) = group := by
      refine Eq.trans (Table.select_eq_of_mem_iff ?_) stretch
      intro row within
      rw [low, high, and_eq_true, decide_eq_true_eq, decide_eq_true_eq] at within
      refine same row (by omega) (by omega) ?_
      exact within.2.trans (tradeId_le_highest lastFacts.1)
    have ordered : first.tradeId ≤ last.tradeId := by
      have listed : last ∈ (after.trades.select fun row =>
          decide ((pageRange group).first ≤ row.tradeId) &&
            decide (row.tradeId ≤ (pageRange group).last)) := by
        rw [agree]
        exact lastMember
      have bounds := (Table.mem_select.mp listed).2
      rw [low, and_eq_true, decide_eq_true_eq] at bounds
      exact bounds.1
    have through := frozen.through
    have small : group.length ≤ 1000 := short.trans frozen.limit.2
    have some : 1 ≤ group.length := length_pos_iff.mpr nonempty
    unfold readTrades
    refine bind_ok.mpr ⟨(), ensure_ok.mpr ?_, ?_⟩
    · rw [low, high]
      have positive := frozen.positive first (by rw [split]; simp [firstMember])
      simp [positive, ordered, some, small]
    · refine bind_ok.mpr ⟨(pageRange group).first, rowNumber_ok.mpr ⟨by rw [low]; omega, rfl⟩, ?_⟩
      refine bind_ok.mpr ⟨(pageRange group).last, rowNumber_ok.mpr ⟨by rw [high]; omega, rfl⟩, ?_⟩
      rw [agree]
      exact congrArg Except.ok (take_of_length_le le_rfl)

end Reading

end MarketCow.Btc
