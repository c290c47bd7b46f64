import MarketCow.Btc.TradeHistory

/-!
# What a freeze has seen

The scan of a range cuts its rows into pages, and gives no reason against the
range exactly when the ids follow one another and the times never fall.
-/

namespace MarketCow.Btc

open Library List
open Live (ensure_ok)
open Sdk (Trade)

/-- The bounds of a page of rows. -/
def pageRange (group : List Trade) : PageRange where
  first := (group.head?.map Trade.tradeId).getD 0
  last := (group.getLast?.map Trade.tradeId).getD 0
  count := group.length

/-- The last id of some rows, or the id before them. -/
def lastId (predecessor : Option Nat) (rows : List Trade) : Option Nat :=
  (rows.getLast?.map Trade.tradeId).or predecessor

/-- Rows after a predecessor whose ids follow one another, from a start time on
and with times that never fall. -/
inductive Steady (predecessor : Option Nat) (startTimeMs : Int) : List Trade → Prop
  | nil : Steady predecessor startTimeMs []
  | snoc {rows : List Trade} {row : Trade} :
      Steady predecessor startTimeMs rows →
      (∀ before, lastId predecessor rows = some before → row.tradeId = before + 1) →
      startTimeMs ≤ row.tradeTimeMs →
      (∀ before, rows.getLast? = some before → before.tradeTimeMs ≤ row.tradeTimeMs) →
      Steady predecessor startTimeMs (rows ++ [row])

section Rows

variable {predecessor : Option Nat} {startTimeMs : Int} {rows : List Trade} {row : Trade}

theorem steady_snoc_iff :
    Steady predecessor startTimeMs (rows ++ [row]) ↔
      Steady predecessor startTimeMs rows ∧
        (∀ before, lastId predecessor rows = some before → row.tradeId = before + 1) ∧
        startTimeMs ≤ row.tradeTimeMs ∧
        ∀ before, rows.getLast? = some before → before.tradeTimeMs ≤ row.tradeTimeMs := by
  constructor
  · intro steady
    generalize whole : rows ++ [row] = all at steady
    cases steady with
    | nil => simp at whole
    | snoc front follows within ordered =>
      obtain ⟨rfl, same⟩ := append_inj' whole rfl
      obtain rfl := singleton_inj.mp same
      exact ⟨front, follows, within, ordered⟩
  · rintro ⟨front, follows, within, ordered⟩
    exact .snoc front follows within ordered

theorem lastId_snoc (predecessor : Option Nat) (rows : List Trade) (row : Trade) :
    lastId predecessor (rows ++ [row]) = some row.tradeId := by
  unfold lastId
  rw [getLast?_concat]
  rfl

/-- Steady rows are not before the start. -/
theorem Steady.within (steady : Steady predecessor startTimeMs rows) :
    ∀ row ∈ rows, startTimeMs ≤ row.tradeTimeMs := by
  induction steady with
  | nil => simp
  | snoc _ _ within _ ih =>
    intro row mem
    rcases mem_append.mp mem with early | last
    · exact ih row early
    · rw [mem_singleton.mp last]
      exact within

/-- The times of steady rows never fall. -/
theorem Steady.ordered (steady : Steady predecessor startTimeMs rows) :
    (rows.Pairwise fun first second => first.tradeTimeMs ≤ second.tradeTimeMs) ∧
      ∀ last, rows.getLast? = some last → ∀ row ∈ rows, row.tradeTimeMs ≤ last.tradeTimeMs := by
  induction steady with
  | nil => simp
  | @snoc rows row _ _ _ ordered ih =>
    obtain ⟨pairwise, top⟩ := ih
    have below : ∀ other ∈ rows, other.tradeTimeMs ≤ row.tradeTimeMs := by
      intro other mem
      rcases rows.eq_nil_or_concat with rfl | ⟨front, last, rfl⟩
      · cases mem
      · rw [concat_eq_append] at mem top ordered
        exact (top last getLast?_concat other mem).trans (ordered last getLast?_concat)
    constructor
    · refine pairwise_append.mpr ⟨pairwise, pairwise_singleton _ _, ?_⟩
      intro other mem second there
      rw [mem_singleton.mp there]
      exact below other mem
    · intro last same other mem
      rw [getLast?_concat] at same
      cases same
      rcases mem_append.mp mem with early | here
      · exact below other early
      · rw [mem_singleton.mp here]

/-- The ids of steady rows count up from the predecessor. -/
theorem Steady.numbered (steady : Steady (some number) startTimeMs rows) :
    rows.map Trade.tradeId = List.range' (number + 1) rows.length ∧
      lastId (some number) rows = some (number + rows.length) := by
  induction steady with
  | nil => exact ⟨rfl, rfl⟩
  | @snoc rows row _ follows _ _ ih =>
    obtain ⟨numbers, last⟩ := ih
    have next := follows _ last
    constructor
    · rw [map_append, numbers, map_singleton, length_append, length_singleton, range'_concat, next]
      congr 2
      omega
    · rw [lastId_snoc, next, length_append, length_singleton]
      congr 1

end Rows

/-! ## The scan -/

section Scanning

variable {range : Range} {late predecessor : Option Nat} {scan after : Scan} {row : Trade}
  {rows : List Trade} {cause : Option String}

/-- What the scan of one row does. -/
structure Stepped (range : Range) (scan : Scan) (row : Trade) (after : Scan) : Prop where
  positive : 0 < row.tradeId
  previous : after.previous = some row.tradeId
  previousTime : after.previousTime = some row.tradeTimeMs
  count : after.count = scan.count + 1
  full : scan.inPage + 1 = range.limit →
    after.pages = scan.pages ++
      [⟨if scan.inPage = 0 then row.tradeId else scan.first, row.tradeId, range.limit⟩] ∧
      after.inPage = 0
  filling : scan.inPage + 1 ≠ range.limit →
    after.pages = scan.pages ∧ after.inPage = scan.inPage + 1 ∧
      after.first = if scan.inPage = 0 then row.tradeId else scan.first
  reason : after.reason = none ↔
    scan.reason = none ∧ (∀ before, scan.previous = some before → row.tradeId = before + 1) ∧
      range.startTimeMs ≤ row.tradeTimeMs ∧
      ∀ time, scan.previousTime = some time → time ≤ row.tradeTimeMs

/-- Only the reason and the missing ids change over a gap. -/
theorem skipped_of_skip (skipped : scan.skip row = .ok after) :
    ∃ reason missing, after = { scan with reason, missing } ∧
      (reason = none ↔ scan.reason = none ∧
        ∀ before, scan.previous = some before → row.tradeId = before + 1) := by
  unfold Scan.skip at skipped
  split at skipped
  · rename_i previous present
    split at skipped
    · rename_i gap
      obtain ⟨_, _, skipped⟩ := bind_ok.mp skipped
      cases skipped
      refine ⟨_, _, rfl, ?_⟩
      constructor
      · intro never
        cases never
      · rintro ⟨_, follows⟩
        exact absurd (follows previous present) gap
    · rename_i next
      cases skipped
      refine ⟨_, _, rfl, ?_⟩
      rw [ne_eq, not_not] at next
      constructor
      · intro clean
        refine ⟨clean, ?_⟩
        intro before same
        rw [present] at same
        cases same
        exact next
      · exact fun both => both.1
  · rename_i absent
    cases skipped
    refine ⟨_, _, rfl, ?_⟩
    constructor
    · intro clean
      refine ⟨clean, ?_⟩
      intro before same
      rw [absent] at same
      cases same
    · exact fun both => both.1

theorem regressed (startTimeMs : Int) (scan : Scan) (row : Trade) :
    ∃ reason, scan.regress startTimeMs row = { scan with reason } ∧
      (reason = none ↔ scan.reason = none ∧ startTimeMs ≤ row.tradeTimeMs ∧
        ∀ time, scan.previousTime = some time → time ≤ row.tradeTimeMs) := by
  unfold Scan.regress
  split
  · rename_i fell
    refine ⟨_, rfl, ?_⟩
    constructor
    · intro never
      cases never
    · rintro ⟨_, within, ordered⟩
      rw [or_eq_true, decide_eq_true_eq, Option.any_eq_true_iff_get] at fell
      rcases fell with early | ⟨present, later⟩
      · omega
      · have bound := ordered _ (some_get present).symm
        rw [decide_eq_true_eq] at later
        omega
  · rename_i rose
    rw [or_eq_true, decide_eq_true_eq, not_or] at rose
    refine ⟨_, rfl, ?_⟩
    constructor
    · intro clean
      refine ⟨clean, by omega, ?_⟩
      intro time same
      rw [same, any_some, decide_eq_true_eq] at rose
      omega
    · exact fun all => all.1

/-- The full page is closed. -/
theorem filled_of_fill (filled : scan.fill limit row = .ok after) :
    (scan.inPage = limit → after.pages = scan.pages ++ [⟨scan.first, row.tradeId, scan.inPage⟩] ∧
        after.inPage = 0) ∧
      (scan.inPage ≠ limit → after.pages = scan.pages ∧ after.inPage = scan.inPage ∧
        after.first = scan.first) ∧
      after.previous = scan.previous ∧ after.previousTime = scan.previousTime ∧
      after.count = scan.count ∧ after.reason = scan.reason := by
  unfold Scan.fill at filled
  split at filled
  · rename_i full
    obtain ⟨_, closed, filled⟩ := bind_ok.mp filled
    obtain ⟨_, _, closed⟩ := bind_ok.mp closed
    cases closed
    obtain ⟨_, _, filled⟩ := bind_ok.mp filled
    cases filled
    exact ⟨fun _ => ⟨rfl, rfl⟩, fun open' => absurd full open', rfl, rfl, rfl, rfl⟩
  · rename_i filling
    cases filled
    exact ⟨fun full => absurd full filling, fun _ => ⟨rfl, rfl, rfl⟩, rfl, rfl, rfl, rfl⟩

/-- What one row adds to the scan. -/
theorem stepped_of_step (stepped : Scan.step range late scan row = .ok after) :
    Stepped range scan row after := by
  obtain ⟨_, _, weighed, weighs, stepped⟩ := bind₂_ok.mp stepped
  obtain ⟨_, identified, weighs⟩ := bind_ok.mp weighs
  iterate 2 obtain ⟨_, _, weighs⟩ := bind_ok.mp weighs
  cases weighs
  obtain ⟨skipped, skips, stepped⟩ := bind_ok.mp stepped
  obtain ⟨reason, missing, rfl, clean⟩ := skipped_of_skip skips
  obtain ⟨taken, takes, stepped⟩ := bind_ok.mp stepped
  obtain ⟨cause, same, steady⟩ := regressed range.startTimeMs
    { scan with
      byteUpper := scan.byteUpper + (row.price.length + row.quantity.length +
        (row.evidence.map fun known => known.evidenceId.length).getD 0 + 192)
      reason, missing } row
  rw [same] at takes
  obtain ⟨_, _, takes⟩ := bind_ok.mp takes
  cases takes
  obtain ⟨full, filling, previous, previousTime, count, reasons⟩ := filled_of_fill stepped
  have holds := ensure_ok.mp identified
  simp only [and_eq_true, decide_eq_true_eq] at holds
  refine ⟨holds.1, previous, previousTime, count, ?_, filling, ?_⟩
  · intro last
    obtain ⟨pages, inPage⟩ := full last
    rw [last] at pages
    exact ⟨pages, inPage⟩
  · rw [reasons, steady, clean]
    exact and_assoc

/-- The scan after some rows. -/
structure Scanned
    (range : Range) (predecessor : Option Nat) (cause : Option String) (rows : List Trade)
    (scan : Scan) : Prop where
  positive : ∀ row ∈ rows, 0 < row.tradeId
  previous : scan.previous = lastId predecessor rows
  previousTime : scan.previousTime = rows.getLast?.map Trade.tradeTimeMs
  count : scan.count = rows.length
  reason : scan.reason = none ↔ cause = none ∧ Steady predecessor range.startTimeMs rows
  paging : ∃ (groups : List (List Trade)) (rest : List Trade),
    rows = groups.flatten ++ rest ∧ scan.pages = groups.map pageRange ∧
    (∀ group ∈ groups, group ≠ [] ∧ group.length ≤ range.limit) ∧
    scan.inPage = rest.length ∧ rest.length < range.limit ∧
    ∀ first, rest.head? = some first → scan.first = first.tradeId

theorem pageRange_snoc (head : ∀ other, rest.head? = some other → first = other.tradeId) :
    pageRange (rest ++ [row]) =
      ⟨if rest.length = 0 then row.tradeId else first, row.tradeId, rest.length + 1⟩ := by
  unfold pageRange
  rw [getLast?_concat, length_append, length_singleton]
  cases rest with
  | nil => rfl
  | cons other rest =>
    rw [head other rfl]
    rfl

/-- One row more, and the scan still describes what it read. -/
theorem Scanned.step
    (scanned : Scanned range predecessor cause rows scan) (stepped : Stepped range scan row after) :
    Scanned range predecessor cause (rows ++ [row]) after where
  positive other member := by
    rcases mem_append.mp member with early | last
    · exact scanned.positive other early
    · rw [mem_singleton.mp last]
      exact stepped.positive
  previous := by rw [stepped.previous, lastId_snoc]
  previousTime := by
    rw [stepped.previousTime, getLast?_concat]
    rfl
  count := by rw [stepped.count, scanned.count, length_append, length_singleton]
  reason := by
    rw [stepped.reason, scanned.reason, steady_snoc_iff, scanned.previous, scanned.previousTime]
    have times : (∀ time, rows.getLast?.map Trade.tradeTimeMs = some time →
          time ≤ row.tradeTimeMs) ↔
        ∀ before, rows.getLast? = some before → before.tradeTimeMs ≤ row.tradeTimeMs := by
      cases rows.getLast? with
      | none | some last => simp
    rw [times, and_assoc]
  paging := by
    obtain ⟨groups, rest, split, pages, sizes, inPage, short, head⟩ := scanned.paging
    have bounds : pageRange (rest ++ [row]) = _ := pageRange_snoc head
    by_cases full : rest.length + 1 = range.limit
    · obtain ⟨closed, empty⟩ := stepped.full (by rw [inPage]; exact full)
      refine ⟨groups ++ [rest ++ [row]], [], ?_, ?_, ?_, ?_, ?_, ?_⟩
      · rw [split, flatten_append, flatten_singleton, append_nil, append_assoc]
      · rw [closed, pages, map_append, map_singleton, bounds, full, inPage]
      · intro group member
        rcases mem_append.mp member with early | last
        · exact sizes group early
        · rw [mem_singleton.mp last]
          refine ⟨by simp, ?_⟩
          rw [length_append, length_singleton]
          exact full.le
      · exact empty
      · rw [length_nil]
        omega
      · intro first impossible
        cases impossible
    · obtain ⟨same, count, first⟩ := stepped.filling (by rw [inPage]; exact full)
      refine ⟨groups, rest ++ [row], ?_, ?_, sizes, ?_, ?_, ?_⟩
      · rw [split, append_assoc]
      · rw [same, pages]
      · rw [count, inPage, length_append, length_singleton]
      · rw [length_append, length_singleton]
        omega
      · intro other same
        rw [first, inPage]
        have named := congrArg PageRange.first bounds
        unfold pageRange at named
        rw [same] at named
        exact named.symm

/-- The scan of all rows, from the left. -/
theorem scanned_of_foldlM (fresh : Scanned range predecessor cause [] start)
    (folded : rows.foldlM (Scan.step range late) start = .ok after) :
    Scanned range predecessor cause rows after := by
  induction rows using List.reverseRecOn generalizing after with
  | nil =>
    cases folded
    exact fresh
  | append_singleton rows row ih =>
    obtain ⟨middle, before, last⟩ := foldlM_append_ok.mp folded
    obtain ⟨_, stepped, finished⟩ := foldlM_cons_ok.mp last
    cases finished
    exact (ih before).step (stepped_of_step stepped)

theorem scanned_initial
    (range : Range) (predecessor : Option Nat) (skipped : Bool) (positive : 0 < range.limit) :
    Scanned range predecessor (if skipped then some "supplier_time_regression" else none) []
      (Scan.initial predecessor skipped) where
  positive _ impossible := absurd impossible not_mem_nil
  previous := rfl
  previousTime := rfl
  count := rfl
  reason := (and_iff_left .nil).symm
  paging := ⟨[], [], rfl, rfl, by simp, rfl, positive, by simp⟩

end Scanning

end MarketCow.Btc
