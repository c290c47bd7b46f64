import Mathlib.Data.List.Basic
import Mathlib.Logic.Function.Basic
import Mathlib.Order.Defs.Unbundled

/-!
# Differences of sorted lists

Two lists of entries with strictly ordered keys are merged into the changes that
lead from the first to the second: an entry is set, or its key is removed. One
induction follows the merge, by the first key of both lists.
-/

namespace MarketCow.Library.SortedDiff

variable {κ ν : Type} [DecidableEq κ] [DecidableEq ν] (before : κ → κ → Prop) [DecidableRel before]

/-- Merge new entries with an old entry and what follows it. -/
def mergeEntry
    (old : κ × ν) (rest : List (κ × ν) → List (κ × Option ν)) : List (κ × ν) → List (κ × Option ν)
  | [] => (old.1, none) :: rest []
  | new :: news =>
    if old.1 = new.1 then
      if old.2 = new.2 then rest news else (new.1, some new.2) :: rest news
    else if before old.1 new.1 then (old.1, none) :: rest (new :: news)
    else (new.1, some new.2) :: mergeEntry old rest news

/-- The changes from old entries to new ones. -/
def diff : List (κ × ν) → List (κ × ν) → List (κ × Option ν)
  | [], news => news.map fun new => (new.1, some new.2)
  | old :: olds, news => mergeEntry before old (diff olds) news

/-- The keys strictly follow one another. -/
abbrev Ordered (entries : List (κ × ν)) : Prop :=
  entries.Pairwise fun first second => before first.1 second.1

/-- A key before all keys of a list. -/
abbrev Leads (key : κ) (entries : List (κ × ν)) : Prop :=
  ∀ entry ∈ entries, before key entry.1

section Steps

variable {before} {olds news : List (κ × ν)}

theorem diff_nil : diff before ([] : List (κ × ν)) [] = [] := rfl

/-- An old key before all others is removed. -/
theorem diff_removed [Std.Irrefl before] (first : Leads before old.1 news) :
    diff before (old :: olds) news = (old.1, none) :: diff before olds news := by
  cases news with
  | nil => rfl
  | cons new news =>
    have earlier := first new (by simp)
    have ne : old.1 ≠ new.1 := by
      intro same
      rw [same] at earlier
      exact Std.Irrefl.irrefl _ earlier
    change mergeEntry before old (diff before olds) (new :: news) = _
    unfold mergeEntry
    rw [if_neg ne, if_pos earlier]

/-- A new key before all others is added. -/
theorem diff_added [Std.Asymm before] (first : Leads before new.1 olds) :
    diff before olds (new :: news) = (new.1, some new.2) :: diff before olds news := by
  cases olds with
  | nil => rfl
  | cons old olds =>
    have earlier := first old (by simp)
    have later : ¬before old.1 new.1 := Std.Asymm.asymm _ _ earlier
    have ne : old.1 ≠ new.1 := by
      intro same
      rw [same] at earlier later
      exact later earlier
    change mergeEntry before old (diff before olds) (new :: news) = _
    rw [mergeEntry, if_neg ne, if_neg later]
    rfl

/-- A key on both sides is set when its value is another one. -/
theorem diff_same (same : old.1 = new.1) :
    diff before (old :: olds) (new :: news) = if old.2 = new.2 then diff before olds news
      else (new.1, some new.2) :: diff before olds news := by
  change mergeEntry before old (diff before olds) (new :: news) = _
  rw [mergeEntry, if_pos same]

omit [DecidableEq ν] in
/-- Follow the merge of two ordered lists. -/
theorem ordered_induction
    [Std.Trichotomous before] [IsTrans κ before] {motive : List (κ × ν) → List (κ × ν) → Prop}
    (done : motive [] [])
    (removed : ∀ old olds news, Leads before old.1 olds → Leads before old.1 news →
      motive olds news → motive (old :: olds) news)
    (added : ∀ olds new news, Leads before new.1 olds → Leads before new.1 news →
      motive olds news → motive olds (new :: news))
    (kept : ∀ old olds new news, old.1 = new.1 → Leads before old.1 olds →
      Leads before new.1 news → motive olds news → motive (old :: olds) (new :: news))
    (oldOrdered : Ordered before olds)
    (newOrdered : Ordered before news) : motive olds news := by
  induction olds generalizing news with
  | nil =>
    induction news with
    | nil => exact done
    | cons new news ih =>
      rw [Ordered, List.pairwise_cons] at newOrdered
      exact added [] new news (by simp) newOrdered.1 (ih newOrdered.2)
  | cons old olds oldHypothesis =>
    rw [Ordered, List.pairwise_cons] at oldOrdered
    induction news with
    | nil =>
      exact removed old olds [] oldOrdered.1 (by simp) (oldHypothesis oldOrdered.2 newOrdered)
    | cons new news newHypothesis =>
      have ordered := newOrdered
      rw [Ordered, List.pairwise_cons] at ordered
      by_cases same : old.1 = new.1
      · exact kept old olds new news same oldOrdered.1 ordered.1
          (oldHypothesis oldOrdered.2 ordered.2)
      by_cases earlier : before old.1 new.1
      · refine removed old olds (new :: news) oldOrdered.1 ?_
          (oldHypothesis oldOrdered.2 newOrdered)
        intro entry mem
        rcases List.mem_cons.mp mem with rfl | later
        · exact earlier
        · exact IsTrans.trans _ _ _ earlier (ordered.1 entry later)
      · have later : before new.1 old.1 := by
          by_contra none
          exact same (Std.Trichotomous.trichotomous _ _ earlier none)
        refine added (old :: olds) new news ?_ ordered.1 (newHypothesis ordered.2)
        intro entry mem
        rcases List.mem_cons.mp mem with rfl | rest
        · exact later
        · exact IsTrans.trans _ _ _ later (oldOrdered.1 entry rest)

end Steps

/-! ## What the changes do -/

/-- Make one change. -/
def applyChange (values : κ → Option ν) (change : κ × Option ν) : κ → Option ν :=
  Function.update values change.1 change.2

/-- Values that are those of some entries, on their keys and on some others. -/
structure Values (entries others : List (κ × ν)) (values : κ → Option ν) : Prop where
  here : ∀ entry ∈ entries, values entry.1 = some entry.2
  gone : ∀ other ∈ others, (∀ entry ∈ entries, entry.1 ≠ other.1) → values other.1 = none

section Ordered

variable {before} [IsStrictTotalOrder κ before] {olds news : List (κ × ν)}

omit [DecidableEq κ] [DecidableEq ν] [DecidableRel before] in
theorem Leads.ne (leads : Leads before key entries) : ∀ entry ∈ entries, entry.1 ≠ key := by
  rintro entry mem rfl
  exact irrefl_of before _ (leads entry mem)

section

variable (oldOrdered : Ordered before olds)
include oldOrdered

section

variable (newOrdered : Ordered before news)
include newOrdered

/-- The changes touch no other keys. -/
theorem apply_diff_other :
    ∀ values : κ → Option ν, (∀ old ∈ olds, old.1 ≠ key) → (∀ new ∈ news, new.1 ≠ key) →
      (diff before olds news).foldl applyChange values key = values key := by
  refine ordered_induction (motive := fun olds news => ∀ values : κ → Option ν,
    (∀ old ∈ olds, old.1 ≠ key) → (∀ new ∈ news, new.1 ≠ key) →
      (diff before olds news).foldl applyChange values key = values key)
    ?_ ?_ ?_ ?_ oldOrdered newOrdered
  · intro values _ _
    rfl
  · intro old olds news oldFirst newFirst ih values oldApart newApart
    rw [List.forall_mem_cons] at oldApart
    rw [diff_removed newFirst, List.foldl_cons, ih _ oldApart.2 newApart]
    exact Function.update_of_ne (Ne.symm oldApart.1) _ _
  · intro olds new news oldFirst newFirst ih values oldApart newApart
    rw [List.forall_mem_cons] at newApart
    rw [diff_added oldFirst, List.foldl_cons, ih _ oldApart newApart.2]
    exact Function.update_of_ne (Ne.symm newApart.1) _ _
  · intro old olds new news same oldFirst newFirst ih values oldApart newApart
    rw [List.forall_mem_cons] at oldApart newApart
    rw [diff_same same]
    split
    · exact ih values oldApart.2 newApart.2
    · rw [List.foldl_cons, ih _ oldApart.2 newApart.2]
      exact Function.update_of_ne (Ne.symm newApart.1) _ _

/-- The changes turn the old values into the new ones. -/
theorem apply_diff :
    ∀ values : κ → Option ν, (∀ old ∈ olds, values old.1 = some old.2) →
      Values news olds ((diff before olds news).foldl applyChange values) := by
  refine ordered_induction (motive := fun olds news => Ordered before olds → Ordered before news →
    ∀ values : κ → Option ν, (∀ old ∈ olds, values old.1 = some old.2) →
      Values news olds ((diff before olds news).foldl applyChange values))
    ?_ ?_ ?_ ?_ oldOrdered newOrdered oldOrdered newOrdered
  · intro _ _ values _
    exact ⟨by simp, by simp⟩
  · intro old olds news oldFirst newFirst ih oldOrdered newOrdered values held
    rw [Ordered, List.pairwise_cons] at oldOrdered
    rw [List.forall_mem_cons] at held
    rw [diff_removed newFirst, List.foldl_cons]
    obtain ⟨here, gone⟩ := ih oldOrdered.2 newOrdered
      (applyChange values (old.1, none)) fun other mem => by
        unfold applyChange
        rw [Function.update_of_ne (Leads.ne oldFirst other mem), held.2 other mem]
    refine ⟨here, ?_⟩
    intro other mem apart
    rcases List.mem_cons.mp mem with rfl | later
    · rw [apply_diff_other oldOrdered.2 newOrdered _ (Leads.ne oldFirst) (Leads.ne newFirst)]
      exact Function.update_self _ _ _
    · exact gone other later apart
  · intro olds new news oldFirst newFirst ih oldOrdered newOrdered values held
    rw [Ordered, List.pairwise_cons] at newOrdered
    rw [diff_added oldFirst, List.foldl_cons]
    obtain ⟨here, gone⟩ := ih oldOrdered newOrdered.2
      (applyChange values (new.1, some new.2)) fun other mem => by
        unfold applyChange
        rw [Function.update_of_ne (Leads.ne oldFirst other mem), held other mem]
    refine ⟨?_, fun other mem apart => gone other mem fun entry later =>
      apart entry (List.mem_cons_of_mem _ later)⟩
    intro entry mem
    rcases List.mem_cons.mp mem with rfl | later
    · rw [apply_diff_other oldOrdered newOrdered.2 _ (Leads.ne oldFirst) (Leads.ne newFirst)]
      exact Function.update_self _ _ _
    · exact here entry later
  · intro old olds new news same oldFirst newFirst ih oldOrdered newOrdered values held
    rw [Ordered, List.pairwise_cons] at oldOrdered newOrdered
    rw [List.forall_mem_cons] at held
    have oldApart : ∀ other ∈ olds, other.1 ≠ new.1 := same ▸ Leads.ne oldFirst
    -- Whether the value is set or kept, the key has its new value.
    have settled : ∀ next : κ → Option ν, next new.1 = some new.2 →
        (∀ other ∈ olds, next other.1 = some other.2) →
        Values (new :: news) (old :: olds) ((diff before olds news).foldl applyChange next) := by
      intro next settled rest
      obtain ⟨here, gone⟩ := ih oldOrdered.2 newOrdered.2 next rest
      refine ⟨?_, ?_⟩
      · intro entry mem
        rcases List.mem_cons.mp mem with rfl | later
        · rw [apply_diff_other oldOrdered.2 newOrdered.2 _ oldApart (Leads.ne newFirst), settled]
        · exact here entry later
      · intro other mem apart
        rw [List.forall_mem_cons] at apart
        rcases List.mem_cons.mp mem with rfl | later
        · exact absurd same.symm apart.1
        · exact gone other later apart.2
    rw [diff_same same]
    split
    · rename_i kept
      exact settled values (by rw [← same, held.1, kept]) held.2
    · refine settled _ (Function.update_self _ _ _) fun other mem => ?_
      unfold applyChange
      rw [Function.update_of_ne (oldApart other mem), held.2 other mem]

/-- There is nothing to change only between equal lists. -/
theorem diff_eq_nil_iff :
    diff before olds news = [] ↔ olds = news := by
  refine ordered_induction (motive := fun olds news => diff before olds news = [] ↔ olds = news)
    ?_ ?_ ?_ ?_ oldOrdered newOrdered
  · exact iff_of_true rfl rfl
  · intro old olds news _ newFirst _
    rw [diff_removed newFirst]
    refine iff_of_false (List.cons_ne_nil _ _) ?_
    rintro rfl
    exact Leads.ne newFirst old (by simp) rfl
  · intro olds new news oldFirst _ _
    rw [diff_added oldFirst]
    refine iff_of_false (List.cons_ne_nil _ _) ?_
    rintro rfl
    exact Leads.ne oldFirst new (by simp) rfl
  · intro old olds new news same _ _ ih
    rw [diff_same same, List.cons.injEq, Prod.ext_iff]
    split
    · rename_i kept
      rw [ih]
      exact (and_iff_right ⟨same, kept⟩).symm
    · rename_i changed
      exact iff_of_false (List.cons_ne_nil _ _) fun equal => changed equal.1.2

/-- A change sets a new entry or removes an old key. -/
theorem mem_diff :
    change ∈ diff before olds news →
      (∃ new ∈ news, change = (new.1, some new.2)) ∨ ∃ old ∈ olds, change = (old.1, none) := by
  refine ordered_induction (motive := fun olds news => change ∈ diff before olds news →
    (∃ new ∈ news, change = (new.1, some new.2)) ∨ ∃ old ∈ olds, change = (old.1, none))
    ?_ ?_ ?_ ?_ oldOrdered newOrdered
  · intro mem
    cases mem
  · intro old olds news _ newFirst ih mem
    rw [diff_removed newFirst] at mem
    rcases List.mem_cons.mp mem with here | later
    · exact .inr ⟨old, by simp, here⟩
    · rcases ih later with set | ⟨other, found, same⟩
      · exact .inl set
      · exact .inr ⟨other, by simp [found], same⟩
  · intro olds new news oldFirst _ ih mem
    rw [diff_added oldFirst] at mem
    rcases List.mem_cons.mp mem with here | later
    · exact .inl ⟨new, by simp, here⟩
    · rcases ih later with ⟨other, found, same⟩ | removed
      · exact .inl ⟨other, by simp [found], same⟩
      · exact .inr removed
  · intro old olds new news same _ _ ih mem
    have rest : change ∈ diff before olds news →
        (∃ other ∈ new :: news, change = (other.1, some other.2)) ∨
          ∃ other ∈ old :: olds, change = (other.1, none) := by
      intro later
      rcases ih later with ⟨other, found, equal⟩ | ⟨other, found, equal⟩
      · exact .inl ⟨other, by simp [found], equal⟩
      · exact .inr ⟨other, by simp [found], equal⟩
    rw [diff_same same] at mem
    split at mem
    · exact rest mem
    · rcases List.mem_cons.mp mem with here | later
      · exact .inl ⟨new, by simp, here⟩
      · exact rest later

end

end

end Ordered

/-! ## Room for the changes -/

/-- Besides some entries that are done, there is never more than a limit of
entries while the changes are made in order: when a new key is added, the new
keys up to it and the old keys after it fit. -/
def Fits (settled limit : Nat) (olds news : List (κ × ν)) : Prop :=
  ∀ front new back, news = front ++ new :: back → (∀ old ∈ olds, old.1 ≠ new.1) →
    settled + front.length + 1 + (olds.filter fun old => before new.1 old.1).length ≤ limit

section Fits

variable {before} [IsStrictTotalOrder κ before] {settled limit : Nat} {olds news : List (κ × ν)}

omit [DecidableEq κ] [DecidableEq ν] in
theorem Fits.removed
    (newFirst : Leads before old.1 news) (fits : Fits before settled limit (old :: olds) news) :
    Fits before settled limit olds news := by
  intro front new back split apart
  have mem : new ∈ news := by
    rw [split]
    simp
  have ne : old.1 ≠ new.1 := (Leads.ne newFirst new mem).symm
  have bound := fits front new back split (List.forall_mem_cons.mpr ⟨ne, apart⟩)
  have shorter : (olds.filter fun old => before new.1 old.1).length ≤
      ((old :: olds).filter fun old => before new.1 old.1).length :=
    ((List.sublist_cons_self old olds).filter _).length_le
  omega

omit [DecidableEq κ] [DecidableEq ν] in
theorem Fits.added {new : κ × ν}
    (oldFirst : Leads before new.1 olds) (fits : Fits before settled limit olds (new :: news)) :
    settled + 1 + olds.length ≤ limit ∧ Fits before (settled + 1) limit olds news := by
  constructor
  · have bound := fits [] new news rfl (Leads.ne oldFirst)
    have all : (olds.filter fun old => before new.1 old.1) = olds := by
      rw [List.filter_eq_self]
      intro old mem
      exact decide_eq_true (oldFirst old mem)
    rw [all] at bound
    simpa using bound
  · intro front other back split apart
    have bound := fits (new :: front) other back (by rw [split]; rfl) apart
    rw [List.length_cons] at bound
    omega

omit [DecidableEq κ] [DecidableEq ν] in
theorem Fits.kept (same : old.1 = new.1) (newFirst : Leads before new.1 news)
    (fits : Fits before settled limit (old :: olds) (new :: news)) :
    Fits before (settled + 1) limit olds news := by
  intro front other back split apart
  have mem : other ∈ news := by
    rw [split]
    simp
  have ne : old.1 ≠ other.1 := by
    rw [same]
    exact (Leads.ne newFirst other mem).symm
  have bound := fits (new :: front) other back (by rw [split]; rfl)
    (List.forall_mem_cons.mpr ⟨ne, apart⟩)
  have shorter : (olds.filter fun old => before other.1 old.1).length ≤
      ((old :: olds).filter fun old => before other.1 old.1).length :=
    ((List.sublist_cons_self old olds).filter _).length_le
  rw [List.length_cons] at bound
  omega

omit [DecidableEq κ] [DecidableEq ν] [IsStrictTotalOrder κ before] in
/-- A limit for all entries is enough. -/
theorem fits_of_length_le (bounded : settled + news.length + olds.length ≤ limit) :
    Fits before settled limit olds news := by
  intro front new back split _
  have lengths := congrArg List.length split
  rw [List.length_append, List.length_cons] at lengths
  have some := List.length_filter_le (fun old : κ × ν => decide (before new.1 old.1)) olds
  omega

omit [DecidableEq κ] [DecidableEq ν] [IsStrictTotalOrder κ before] in
/-- Only the keys matter. -/
theorem Fits.congr_keys (oldKeys : others.map Prod.fst = olds.map Prod.fst)
    (newKeys : afters.map Prod.fst = news.map Prod.fst)
    (fits : Fits before settled limit olds news) :
    Fits before settled limit others afters := by
  intro front new back split apart
  rw [split, List.map_append, List.map_cons] at newKeys
  obtain ⟨oldFront, rest, parts, frontKeys, restKeys⟩ := List.map_eq_append_iff.mp newKeys.symm
  obtain ⟨same, oldBack, rfl, sameKey, _⟩ := List.map_eq_cons_iff.mp restKeys
  have later : ∀ old ∈ olds, old.1 ≠ same.1 := by
    intro old mem
    have key := List.mem_map_of_mem (f := Prod.fst) mem
    rw [← oldKeys] at key
    obtain ⟨other, found, equal⟩ := List.mem_map.mp key
    rw [← equal, sameKey]
    exact apart other found
  have counts : ∀ {μ : Type} (list : List (κ × μ)),
      (list.filter fun entry => before new.1 entry.1).length =
        ((list.map Prod.fst).filter fun key => before new.1 key).length := by
    intro μ list
    rw [List.filter_map, List.length_map]
    rfl
  have bound := fits oldFront same oldBack parts later
  have lengths := congrArg List.length frontKeys
  rw [List.length_map, List.length_map] at lengths
  rw [counts, oldKeys, ← counts]
  rw [sameKey, lengths] at bound
  exact bound

end Fits

end MarketCow.Library.SortedDiff
