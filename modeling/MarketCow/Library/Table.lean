import Mathlib

/-!
# Tables with a key

A table of a database: at most one row for a key, and queries that return the
accepted rows in the order of their keys. Two tables that hold the same accepted
rows answer a query alike.
-/

namespace MarketCow.Library

/-- Rows in increasing order of their keys. -/
@[ext]
structure Table {α κ : Type} [LT κ] (key : α → κ) where
  rows : List α
  sorted : rows.Pairwise fun first second => key first < key second

namespace Table

variable {α κ : Type} [LinearOrder κ] {key : α → κ}

def empty : Table key := ⟨[], List.Pairwise.nil⟩

/-- The row of a key. -/
def find (table : Table key) (value : κ) : Option α :=
  table.rows.find? fun row => decide (key row = value)

/-- The accepted rows in the order of their keys. -/
def select (table : Table key) (accept : α → Bool) : List α :=
  table.rows.filter accept

/-- The accepted row with the largest key. -/
def last (table : Table key) (accept : α → Bool) : Option α :=
  (table.select accept).getLast?

/-- Write a row over the row of its key, if there is one. -/
def put (table : Table key) (row : α) : Table key where
  rows := table.rows.filter (fun other => decide (key other < key row)) ++
    row :: table.rows.filter (fun other => decide (key row < key other))
  sorted := by
    refine List.pairwise_append.mpr ⟨table.sorted.filter _, ?_, ?_⟩
    · refine List.pairwise_cons.mpr ⟨?_, table.sorted.filter _⟩
      intro other member
      exact of_decide_eq_true (List.mem_filter.mp member).2
    · intro first member second there
      have below : key first < key row := of_decide_eq_true (List.mem_filter.mp member).2
      rcases List.mem_cons.mp there with rfl | later
      · exact below
      · exact below.trans (of_decide_eq_true (List.mem_filter.mp later).2)

/-- Keep the accepted rows. -/
def keep (table : Table key) (accept : α → Bool) : Table key :=
  ⟨table.rows.filter accept, table.sorted.filter _⟩

/-- Delete the row of a key. -/
def remove (table : Table key) (value : κ) : Table key :=
  table.keep fun row => decide (key row ≠ value)

variable {table other : Table key} {row found : α} {value : κ} {accept : α → Bool}

/-! ## Rows and keys -/

/-- A key has one row. -/
theorem eq_of_key_eq
    (mem : first ∈ table.rows) (there : second ∈ table.rows) (same : key first = key second) :
    first = second := by
  have distinct : (table.rows.map key).Nodup :=
    List.pairwise_map.mpr (table.sorted.imp fun below => below.ne)
  exact List.inj_on_of_nodup_map distinct mem there same

theorem find_eq_some_iff :
    table.find value = some found ↔ found ∈ table.rows ∧ key found = value := by
  constructor
  · intro present
    exact ⟨List.mem_of_find?_eq_some present,
      of_decide_eq_true (List.find?_some (p := fun row => decide (key row = value)) present)⟩
  · rintro ⟨mem, rfl⟩
    cases present : table.find (key found) with
    | none =>
      have absent := List.find?_eq_none.mp present found mem
      simp at absent
    | some result =>
      have there := List.mem_of_find?_eq_some present
      have same : key result = key found :=
        of_decide_eq_true (List.find?_some (p := fun row => decide (key row = key found)) present)
      rw [eq_of_key_eq there mem same]

theorem find_eq_none_iff : table.find value = none ↔ ∀ row ∈ table.rows, key row ≠ value := by
  unfold find
  rw [List.find?_eq_none]
  simp

theorem mem_put :
    found ∈ (table.put row).rows ↔ found = row ∨ found ∈ table.rows ∧ key found ≠ key row := by
  unfold put
  simp only [List.mem_append, List.mem_cons, List.mem_filter, decide_eq_true_eq]
  constructor
  · rintro (⟨mem, below⟩ | same | ⟨mem, above⟩)
    · exact .inr ⟨mem, below.ne⟩
    · exact .inl same
    · exact .inr ⟨mem, above.ne'⟩
  · rintro (same | ⟨mem, ne⟩)
    · exact .inr (.inl same)
    · rcases lt_or_gt_of_ne ne with below | above
      · exact .inl ⟨mem, below⟩
      · exact .inr (.inr ⟨mem, above⟩)

theorem mem_keep : found ∈ (table.keep accept).rows ↔ found ∈ table.rows ∧ accept found = true :=
  List.mem_filter

theorem keep_sublist : (table.keep accept).rows.Sublist table.rows := List.filter_sublist

/-- Writing a row puts it in the place of the row of its key. -/
theorem put_perm : (table.put row).rows.Perm (row :: (table.remove (key row)).rows) := by
  have parts : (table.rows.filter fun other => decide (key other < key row)) ++
      table.rows.filter (fun other => decide (key row < key other)) =
      table.rows.filter fun other => decide (key other ≠ key row) := by
    have irreflexive : Std.Irrefl fun first second : α => key first < key second :=
      ⟨fun _ => lt_irrefl _⟩
    have asymmetric : Std.Antisymm fun first second : α => key first < key second :=
      ⟨fun _ _ less more => absurd less more.not_gt⟩
    refine List.Pairwise.eq_of_mem_iff ?_ (table.sorted.filter _) ?_
    · refine List.pairwise_append.mpr ⟨table.sorted.filter _, table.sorted.filter _, ?_⟩
      intro first mem second there
      have below := of_decide_eq_true (List.mem_filter.mp mem).2
      exact below.trans (of_decide_eq_true (List.mem_filter.mp there).2)
    · intro other
      simp only [List.mem_append, List.mem_filter, decide_eq_true_eq, ← and_or_left]
      exact and_congr_right fun _ => lt_or_lt_iff_ne
  change (table.rows.filter (fun other => decide (key other < key row)) ++
    row :: table.rows.filter (fun other => decide (key row < key other))).Perm
      (row :: table.rows.filter fun other => decide (key other ≠ key row))
  rw [← parts]
  exact List.perm_middle

/-! ## Queries -/

theorem mem_select : found ∈ table.select accept ↔ found ∈ table.rows ∧ accept found = true :=
  List.mem_filter

theorem sorted_select : (table.select accept).Pairwise fun first second => key first < key second :=
  table.sorted.filter _

/-- A query returns the accepted rows, in the order of their keys. -/
theorem select_eq_of_mem
    {rows : List α} (ordered : rows.Pairwise fun first second => key first < key second)
    (same : ∀ row, row ∈ rows ↔ row ∈ table.rows ∧ accept row = true) :
    table.select accept = rows := by
  have irreflexive : Std.Irrefl fun first second : α => key first < key second :=
    ⟨fun _ => lt_irrefl _⟩
  have asymmetric : Std.Antisymm fun first second : α => key first < key second :=
    ⟨fun _ _ less more => absurd less more.not_gt⟩
  refine List.Pairwise.eq_of_mem_iff sorted_select ordered ?_
  intro row
  rw [mem_select, same]

/-- Tables with the same accepted rows answer a query alike. -/
theorem select_eq_of_mem_iff
    (same : ∀ row, accept row = true → (row ∈ table.rows ↔ row ∈ other.rows)) :
    table.select accept = other.select accept := by
  refine select_eq_of_mem sorted_select ?_
  intro row
  rw [mem_select]
  exact and_congr_left fun accepted => (same row accepted).symm

theorem last_eq_some_iff :
    table.last accept = some found ↔
      found ∈ table.rows ∧ accept found = true ∧
        ∀ row ∈ table.rows, accept row = true → key row ≤ key found := by
  unfold last
  have ordered := @sorted_select _ _ _ _ table accept
  rcases (table.select accept).eq_nil_or_concat with empty | ⟨front, ending, split⟩
  · rw [empty, List.getLast?_nil]
    constructor
    · intro never
      cases never
    · rintro ⟨mem, accepted, _⟩
      have there := mem_select.mpr ⟨mem, accepted⟩
      rw [empty] at there
      cases there
  · rw [List.concat_eq_append] at split
    rw [split] at ordered ⊢
    rw [List.getLast?_concat]
    have below := (List.pairwise_append.mp ordered).2.2
    have within : ∀ row, row ∈ table.rows ∧ accept row = true ↔ row ∈ front ++ [ending] := by
      intro row
      rw [← split, mem_select]
    constructor
    · intro same
      obtain rfl := Option.some.inj same
      obtain ⟨mem, accepted⟩ := (within ending).mpr (by simp)
      refine ⟨mem, accepted, ?_⟩
      intro row there fits
      rcases List.mem_append.mp ((within row).mp ⟨there, fits⟩) with inFront | atEnd
      · exact (below row inFront ending (by simp)).le
      · rw [List.mem_singleton.mp atEnd]
    · rintro ⟨mem, accepted, bound⟩
      rcases List.mem_append.mp ((within found).mp ⟨mem, accepted⟩) with inFront | atEnd
      · obtain ⟨there, fits⟩ := (within ending).mpr (by simp)
        exact absurd (below found inFront ending (by simp)) (bound ending there fits).not_gt
      · rw [List.mem_singleton.mp atEnd]

theorem last_eq_none_iff : table.last accept = none ↔ ∀ row ∈ table.rows, accept row = false := by
  unfold last select
  rw [List.getLast?_eq_none_iff, List.filter_eq_nil_iff]
  simp

end Table

end MarketCow.Library
