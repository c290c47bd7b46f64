import Mathlib

/-!
# Ordered maps

The standard library's extensional tree maps, used at the canonical
comparison of the key type. This module adds the observations an ordered map
of a program offers and the standard library leaves without lemmas: the list
of values in key order, the first and the last key, and building a map from a
list of pairs in which a later pair replaces an earlier one.
-/

namespace MarketCow.Library

/-- A map ordered by the canonical comparison of its keys. -/
abbrev TreeMap (κ ν : Type) [Ord κ] := Std.ExtTreeMap κ ν compare

/-- A set ordered by the canonical comparison of its elements. -/
abbrev TreeSet (κ : Type) [Ord κ] := Std.ExtTreeSet κ compare

namespace TreeMap

export Std.ExtTreeMap (getElem?_insert mem_toList_iff_getElem?_eq_some getElem?_empty
  ext_getElem? mem_iff_isSome_getElem? getElem?_erase getElem?_insert_self
  contains_eq_isSome_getElem? getElem?_map not_mem_empty length_toList isEmpty_iff size_empty
  toList_eq_nil_iff contains_iff_mem size_insert mem_insert mem_iff_contains getElem?_erase_self)

variable {κ ν : Type} [Ord κ] [Std.TransOrd κ]

/-- Values in increasing order of their keys. -/
def valueList (map : TreeMap κ ν) : List ν :=
  map.toList.map Prod.snd

/-- Keys in increasing order. -/
def keyList (map : TreeMap κ ν) : List κ :=
  map.toList.map Prod.fst

/-- The smallest key. -/
def firstKey? (map : TreeMap κ ν) : Option κ :=
  map.toList.head?.map Prod.fst

/-- The largest key. -/
def lastKey? (map : TreeMap κ ν) : Option κ :=
  map.toList.getLast?.map Prod.fst

/-- Insert the pairs of a list from left to right. -/
def collect (entries : List (κ × ν)) : TreeMap κ ν :=
  entries.foldl (fun map entry => map.insert entry.1 entry.2) ∅

/-- Run a state change on one entry, when it is present. -/
def adjust (map : TreeMap κ ν) (key : κ) (change : ν → ν) : TreeMap κ ν :=
  match map[key]? with
  | none => map
  | some value => map.insert key (change value)

section Lawful

variable [Std.LawfulEqOrd κ] {map : TreeMap κ ν}

theorem mem_valueList : value ∈ map.valueList ↔ ∃ key : κ, map[key]? = some value := by
  simp only [valueList, List.mem_map, Prod.exists]
  constructor
  · rintro ⟨key, other, present, rfl⟩
    exact ⟨key, TreeMap.mem_toList_iff_getElem?_eq_some.mp present⟩
  · rintro ⟨key, present⟩
    exact ⟨key, value, TreeMap.mem_toList_iff_getElem?_eq_some.mpr present, rfl⟩

theorem mem_keyList : key ∈ map.keyList ↔ ∃ value : ν, map[key]? = some value := by
  simp only [keyList, List.mem_map, Prod.exists]
  constructor
  · rintro ⟨other, value, present, rfl⟩
    exact ⟨value, TreeMap.mem_toList_iff_getElem?_eq_some.mp present⟩
  · rintro ⟨value, present⟩
    exact ⟨key, value, TreeMap.mem_toList_iff_getElem?_eq_some.mpr present, rfl⟩

/-- Looking a key up in a collected list finds the last pair with that key. -/
theorem getElem?_collect_append [DecidableEq κ] (entries : List (κ × ν)) (entry : κ × ν) (key : κ) :
    (collect (entries ++ [entry]))[key]? =
      if entry.1 = key then some entry.2 else (collect entries)[key]? := by
  simp [collect, List.foldl_append, TreeMap.getElem?_insert]

@[simp] theorem getElem?_adjust
    [DecidableEq κ] (map : TreeMap κ ν) (key other : κ) (change : ν → ν) :
    (adjust map key change)[other]? =
      if other = key then map[key]?.map change else map[other]? := by
  unfold adjust
  cases present : map[key]? with
  | none =>
    by_cases equal : other = key
    · subst other
      simp [present]
    · simp [equal]
  | some value =>
    by_cases equal : other = key
    · subst other
      simp
    · have ne : ¬key = other := fun same => equal same.symm
      simp [TreeMap.getElem?_insert, ne, equal]

/-- Filtering by the key keeps exactly the entries with an accepted key. -/
theorem getElem?_filterKeys (map : TreeMap κ ν) (keep : κ → Bool) (key : κ) :
    (map.filter fun key _ => keep key)[key]? = if keep key = true then map[key]? else none := by
  rw [Std.ExtTreeMap.getElem?_filter']
  by_cases kept : keep key = true
  · rw [if_pos kept]
    cases map[key]? <;> simp [kept]
  · rw [if_neg kept]
    cases map[key]? <;> simp [kept]

/-- Erasing keys one after another removes exactly these keys. -/
theorem getElem?_foldl_erase [DecidableEq κ] (keys : List κ) (map : TreeMap κ ν) (key : κ) :
    (keys.foldl (fun map key => map.erase key) map)[key]? =
      if key ∈ keys then none else map[key]? := by
  induction keys generalizing map with
  | nil => simp
  | cons first keys ih =>
    rw [List.foldl_cons, ih, TreeMap.getElem?_erase]
    by_cases later : key ∈ keys
    · simp [later]
    · by_cases same : first = key
      · simp [same]
      · have ne : ¬key = first := fun equal => same equal.symm
        simp [later, same, ne]

theorem isEmpty_false_iff :
    map.isEmpty = false ↔ ∃ (key : κ) (value : ν), map[key]? = some value := by
  rw [← Bool.not_eq_true, TreeMap.isEmpty_iff]
  constructor
  · intro nonempty
    by_contra absent
    push Not at absent
    apply nonempty
    apply TreeMap.ext_getElem?
    intro key
    cases present : map[key]? with
    | none => simp
    | some value => exact absurd present (absent key value)
  · rintro ⟨key, value, present⟩ empty
    subst empty
    simp at present

end Lawful

section Ordered

variable {κ ν : Type} [LinearOrder κ]

private theorem pairwise_toList (map : TreeMap κ ν) :
    map.toList.Pairwise fun first second => first.1 < second.1 := by
  have ordered := Std.ExtTreeMap.ordered_keys_toList (t := map)
  exact ordered.imp fun related => compare_lt_iff_lt.mp related

variable {map : TreeMap κ ν}

/-- A map lists what it was collected from, when that is in order. -/
theorem toList_eq_of_ordered (ordered : entries.Pairwise fun first second => first.1 < second.1)
    (held : ∀ key value, map[key]? = some value ↔ (key, value) ∈ entries) :
    map.toList = entries := by
  have antisymmetric : ∀ first second : κ × ν, first ∈ map.toList → second ∈ entries →
      first.1 < second.1 → second.1 < first.1 → first = second :=
    fun _ _ _ _ less more => absurd less more.not_gt
  have distinct : ∀ {list : List (κ × ν)}, (list.Pairwise fun first second =>
      first.1 < second.1) → list.Nodup := by
    intro list sorted
    refine sorted.imp fun less same => ?_
    rw [same] at less
    exact less.false
  refine List.Perm.eq_of_pairwise antisymmetric (pairwise_toList map) ordered ?_
  refine (List.perm_ext_iff_of_nodup (distinct (pairwise_toList map)) (distinct ordered)).mpr ?_
  intro entry
  rw [← held entry.1 entry.2]
  exact TreeMap.mem_toList_iff_getElem?_eq_some

/-- The last key is present and bounds every key. -/
theorem lastKey?_eq_some_iff :
    map.lastKey? = some key ↔
      (∃ value, map[key]? = some value) ∧
        ∀ other value, map[other]? = some value → other ≤ key := by
  have ordered := pairwise_toList map
  have entries : ∀ (other : κ) (value : ν),
      (other, value) ∈ map.toList ↔ map[other]? = some value := fun _ _ =>
    TreeMap.mem_toList_iff_getElem?_eq_some
  unfold lastKey?
  rcases map.toList.eq_nil_or_concat with empty | ⟨front, last, split⟩
  · rw [empty] at entries
    simp only [empty, List.getLast?_nil, Option.map_none, reduceCtorEq, false_iff, not_and]
    rintro ⟨value, present⟩
    exact absurd ((entries key value).mpr present) (List.not_mem_nil)
  · rw [split] at entries ordered
    simp only [split, List.concat_eq_append] at entries ordered ⊢
    have below := (List.pairwise_append.mp ordered).2.2
    simp only [List.getLast?_append, List.getLast?_singleton,
      Option.some_or, Option.map_some, Option.some.injEq]
    constructor
    · rintro rfl
      refine ⟨⟨last.2, (entries last.1 last.2).mp (by simp)⟩, ?_⟩
      intro other value present
      have mem := (entries other value).mpr present
      simp only [List.mem_append, List.mem_singleton] at mem
      rcases mem with inFront | isLast
      · exact le_of_lt (below _ inFront last (by simp))
      · rw [← isLast]
    · rintro ⟨⟨value, present⟩, bound⟩
      have mem := (entries key value).mpr present
      simp only [List.mem_append, List.mem_singleton] at mem
      rcases mem with inFront | isLast
      · have smaller := below _ inFront last (by simp)
        have larger := bound last.1 last.2 ((entries last.1 last.2).mp (by simp))
        exact absurd smaller (not_lt.mpr larger)
      · rw [← isLast]

/-- The first key is present and lies below every key. -/
theorem firstKey?_eq_some_iff :
    map.firstKey? = some key ↔
      (∃ value, map[key]? = some value) ∧
        ∀ other value, map[other]? = some value → key ≤ other := by
  have ordered := pairwise_toList map
  have entries : ∀ (other : κ) (value : ν),
      (other, value) ∈ map.toList ↔ map[other]? = some value := fun _ _ =>
    TreeMap.mem_toList_iff_getElem?_eq_some
  unfold firstKey?
  cases split : map.toList with
  | nil =>
    rw [split] at entries
    simp only [List.head?_nil, Option.map_none, reduceCtorEq, false_iff, not_and]
    rintro ⟨value, present⟩
    exact absurd ((entries key value).mpr present) (List.not_mem_nil)
  | cons head tail =>
    rw [split] at entries ordered
    have above := (List.pairwise_cons.mp ordered).1
    simp only [List.head?_cons, Option.map_some, Option.some.injEq]
    constructor
    · rintro rfl
      refine ⟨⟨head.2, (entries head.1 head.2).mp (by simp)⟩, ?_⟩
      intro other value present
      have mem := (entries other value).mpr present
      rcases List.mem_cons.mp mem with isHead | inTail
      · rw [← isHead]
      · exact le_of_lt (above _ inTail)
    · rintro ⟨⟨value, present⟩, bound⟩
      have mem := (entries key value).mpr present
      rcases List.mem_cons.mp mem with isHead | inTail
      · rw [← isHead]
      · have larger := above _ inTail
        have smaller := bound head.1 head.2 ((entries head.1 head.2).mp (by simp))
        exact absurd larger (not_lt.mpr smaller)

theorem lastKey?_eq_none_iff : map.lastKey? = none ↔ map.isEmpty = true := by
  unfold lastKey?
  rw [Option.map_eq_none_iff, List.getLast?_eq_none_iff,
    TreeMap.toList_eq_nil_iff, TreeMap.isEmpty_iff]

theorem firstKey?_eq_none_iff : map.firstKey? = none ↔ map.isEmpty = true := by
  unfold firstKey?
  rw [Option.map_eq_none_iff, List.head?_eq_none_iff,
    TreeMap.toList_eq_nil_iff, TreeMap.isEmpty_iff]

end Ordered

end TreeMap

namespace TreeSet

variable {κ : Type} [Ord κ] [Std.TransOrd κ]

/-- The set of the elements of a list. -/
def ofElements (elements : List κ) : TreeSet κ :=
  Std.ExtTreeSet.ofList elements compare

section Lawful

variable [Std.LawfulEqOrd κ] {elements : List κ}

@[simp] theorem mem_ofElements [DecidableEq κ] :
    element ∈ ofElements elements ↔ element ∈ elements := by
  unfold ofElements
  rw [Std.ExtTreeSet.mem_ofList, List.contains_iff_mem]

theorem ofElements_snoc [DecidableEq κ] (elements : List κ) (element : κ) :
    ofElements (elements ++ [element]) = (ofElements elements).insert element := by
  apply Std.ExtTreeSet.ext_mem
  intro other
  rw [Std.ExtTreeSet.mem_insert, mem_ofElements, mem_ofElements, List.mem_append,
    List.mem_singleton, Std.LawfulEqCmp.compare_eq_iff_eq, or_comm, eq_comm]

/-- Erasing the first of different elements leaves the set of the others. -/
theorem erase_ofElements_cons [DecidableEq κ] (fresh : element ∉ elements) :
    (ofElements (element :: elements)).erase element = ofElements elements := by
  apply Std.ExtTreeSet.ext_mem
  intro other
  rw [Std.ExtTreeSet.mem_erase, mem_ofElements, mem_ofElements, List.mem_cons, ne_eq,
    Std.LawfulEqCmp.compare_eq_iff_eq]
  constructor
  · rintro ⟨ne, same | mem⟩
    · exact absurd same.symm ne
    · exact mem
  · intro mem
    exact ⟨fun same => fresh (same ▸ mem), .inr mem⟩

theorem size_ofElements (distinct : elements.Nodup) :
    (ofElements elements).size = elements.length := by
  apply Std.ExtTreeSet.size_ofList
  apply distinct.imp
  intro first second ne equal
  exact ne (Std.LawfulEqCmp.compare_eq_iff_eq.mp equal)

end Lawful

end TreeSet

/-! ## Names that stand alone -/

export Bool (and_eq_true not_eq_true' not_eq_true or_eq_true false_eq_true)
export Option (some.inj map_eq_some_iff isSome_iff_exists bind_eq_some_iff some_get
  isNone_iff_eq_none map_eq_none_iff getD_some any_some elim_some map_some)
export Except (ok.inj error.inj)
export Std.ExtTreeMap (mem_toList_iff_getElem?_eq_some getElem?_erase getElem?_insert_self
  contains_eq_isSome_getElem? getElem?_empty mem_iff_isSome_getElem?)
export TreeMap (mem_valueList getElem?_filterKeys)

end MarketCow.Library
