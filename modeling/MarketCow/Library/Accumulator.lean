import MarketCow.Library.OrderedMap

/-!
# Sums over ordered maps

The combination of what the entries of a map contribute, under an operation in
which neither order nor grouping matters, and how it changes with one entry.
-/

namespace MarketCow.Library.TreeMap

variable {κ ν A : Type} [Ord κ] [Std.TransOrd κ] [Std.LawfulEqOrd κ]

/-- What the entries of a map contribute, combined. -/
def accumulate
    (combine : A → A → A) (start : A) (contribution : κ → ν → A) (map : TreeMap κ ν) : A :=
  (map.toList.map fun entry => contribution entry.1 entry.2).foldr combine start

omit [Std.LawfulEqOrd κ] in
@[simp] theorem accumulate_empty :
    accumulate combine start contribution (∅ : TreeMap κ ν) = start := by
  unfold accumulate
  rw [TreeMap.toList_eq_nil_iff.mpr rfl]
  rfl

variable {map : TreeMap κ ν}

/-- An entry of a map and the others are all entries. -/
theorem toList_perm_cons_erase (present : map[key]? = some value) :
    map.toList.Perm ((key, value) :: (map.erase key).toList) := by
  have nodup : ∀ other : TreeMap κ ν, other.toList.Nodup := by
    intro other
    refine (Std.ExtTreeMap.distinct_keys_toList (t := other)).imp ?_
    rintro first second ne rfl
    exact ne (Std.LawfulEqCmp.compare_eq_iff_eq.mpr rfl)
  refine (List.perm_ext_iff_of_nodup (nodup map) (List.nodup_cons.mpr ⟨?_, nodup _⟩)).mpr ?_
  · rw [mem_toList_iff_getElem?_eq_some]
    simp
  rintro ⟨other, found⟩
  rw [List.mem_cons, mem_toList_iff_getElem?_eq_some,
    mem_toList_iff_getElem?_eq_some, getElem?_erase]
  by_cases same : compare key other = .eq
  · obtain rfl := Std.LawfulEqCmp.compare_eq_iff_eq.mp same
    rw [if_pos same, present]
    simp [eq_comm]
  · rw [if_neg same]
    constructor
    · exact .inr
    · rintro (here | there)
      · cases here
        exact absurd (Std.LawfulEqCmp.compare_eq_iff_eq.mpr rfl) same
      · exact there

/-- The entries of a map, in any order, give the map back. -/
theorem collect_of_perm [DecidableEq κ] (perm : entries.Perm map.toList) :
    collect entries = map := by
  induction entries using List.reverseRecOn generalizing map with
  | nil => exact (TreeMap.toList_eq_nil_iff.mp perm.nil_eq.symm).symm
  | append_singleton entries entry ih =>
    have present : map[entry.1]? = some entry.2 := by
      rw [← mem_toList_iff_getElem?_eq_some, ← perm.mem_iff]
      simp
    have others : entries.Perm (map.erase entry.1).toList := by
      have whole := perm.trans (toList_perm_cons_erase present)
      exact (List.perm_append_comm.trans whole).cons_inv
    apply TreeMap.ext_getElem?
    intro key
    rw [getElem?_collect_append, ih others, getElem?_erase]
    by_cases same : entry.1 = key
    · rw [if_pos same, ← same, present]
    · rw [if_neg same, if_neg]
      rw [Std.LawfulEqCmp.compare_eq_iff_eq]
      exact same

theorem erase_of_absent (absent : map[key]? = none) : map.erase key = map := by
  apply TreeMap.ext_getElem?
  intro other
  rw [getElem?_erase]
  split
  · rename_i equal
    rw [← Std.LawfulEqCmp.compare_eq_iff_eq.mp equal, absent]
  · rfl

theorem insert_erase (map : TreeMap κ ν) (key : κ) (value : ν) :
    (map.erase key).insert key value = map.insert key value := by
  apply TreeMap.ext_getElem?
  intro other
  simp only [TreeMap.getElem?_insert, getElem?_erase]
  split <;> rfl

section Combined

variable {combine : A → A → A} [Std.Associative combine] [Std.Commutative combine]
  {start : A} {contribution : κ → ν → A} {map : TreeMap κ ν} {key : κ} {value : ν}

/-- The contribution of one entry, and that of the others. -/
theorem accumulate_erase (present : map[key]? = some value) :
    accumulate combine start contribution map =
      combine (contribution key value) (accumulate combine start contribution (map.erase key)) := by
  have moves : LeftCommutative combine := ⟨by
    intro first second third
    calc combine first (combine second third)
        = combine (combine first second) third := (Std.Associative.assoc first second third).symm
      _ = combine (combine second first) third :=
          congrArg (combine · third) (Std.Commutative.comm first second)
      _ = combine second (combine first third) := Std.Associative.assoc second first third⟩
  unfold accumulate
  rw [((toList_perm_cons_erase present).map _).foldr_eq]
  rfl

/-- An entry that is set adds its contribution to that of the others. -/
theorem accumulate_insert :
    accumulate combine start contribution (map.insert key value) =
      combine (contribution key value) (accumulate combine start contribution (map.erase key)) := by
  have there : (map.insert key value)[key]? = some value := by simp
  rw [accumulate_erase there]
  congr 2
  apply TreeMap.ext_getElem?
  intro other
  simp only [TreeMap.getElem?_insert, getElem?_erase]
  split <;> rfl

end Combined

end MarketCow.Library.TreeMap
