import MarketCow.Library.MapValues

/-!
# Sums over the values of a map

An ordered map that has one entry more than another has the same list of
entries up to order, and sums over its values differ by that entry.
-/

namespace MarketCow.Library.TreeMap

variable {κ ν : Type} [Ord κ] [Std.TransOrd κ]

/-- The sum of a measure over the values. -/
def sum (measure : ν → Nat) (map : TreeMap κ ν) : Nat :=
  (map.valueList.map measure).sum

@[simp] theorem sum_empty (measure : ν → Nat) : sum measure (∅ : TreeMap κ ν) = 0 := by
  unfold sum valueList
  rw [TreeMap.toList_eq_nil_iff.mpr rfl]
  rfl

variable [Std.LawfulEqOrd κ]

theorem nodup_toList (map : TreeMap κ ν) : map.toList.Nodup := by
  refine Std.ExtTreeMap.distinct_keys_toList.imp ?_
  intro first second ne same
  exact ne (Std.LawfulEqCmp.compare_eq_iff_eq.mpr (congrArg Prod.fst same))

section Entries

variable {first second : TreeMap κ ν} {key : κ} {value : ν}

/-- One entry more. -/
theorem toList_perm_cons (absent : first[key]? = none) (there : second[key]? = some value)
    (others : ∀ other, other ≠ key → second[other]? = first[other]?) :
    second.toList.Perm ((key, value) :: first.toList) := by
  have missing : (key, value) ∉ first.toList := by
    rw [mem_toList_iff_getElem?_eq_some, absent]
    nofun
  refine (List.perm_ext_iff_of_nodup (nodup_toList second)
    (List.nodup_cons.mpr ⟨missing, nodup_toList first⟩)).mpr ?_
  rintro ⟨other, found⟩
  rw [List.mem_cons, mem_toList_iff_getElem?_eq_some,
    mem_toList_iff_getElem?_eq_some, Prod.mk.injEq]
  by_cases same : other = key
  · rw [same, there, absent]
    constructor
    · intro equal
      exact .inl ⟨rfl, (some.inj equal).symm⟩
    · rintro (⟨_, rfl⟩ | equal)
      · rfl
      · cases equal
  · rw [others other same]
    constructor
    · exact .inr
    · rintro (⟨equal, _⟩ | lookup)
      · exact absurd equal same
      · exact lookup

end Entries

section Sums

variable {map first second : TreeMap κ ν} {key : κ} {value : ν} (measure : ν → Nat)

theorem sum_eq_add (absent : first[key]? = none) (there : second[key]? = some value)
    (others : ∀ other, other ≠ key → second[other]? = first[other]?) :
    sum measure second = measure value + sum measure first := by
  have permuted := (toList_perm_cons absent there others).map (measure ∘ Prod.snd)
  unfold sum valueList
  rw [List.map_map, List.map_map, permuted.sum_eq]
  rfl

/-- A new value takes the place of the old one. -/
theorem sum_insert : sum measure (map.insert key value) =
    measure value + sum measure (map.erase key) := by
  refine sum_eq_add measure TreeMap.getElem?_erase_self getElem?_insert_self ?_
  intro other ne
  have apart : compare key other ≠ .eq := by
    intro same
    exact ne (Std.LawfulEqCmp.compare_eq_iff_eq.mp same).symm
  rw [TreeMap.getElem?_insert, getElem?_erase, if_neg apart, if_neg apart]

/-- An old value and the rest. -/
theorem sum_of_getElem? (there : map[key]? = some value) :
    sum measure map = measure value + sum measure (map.erase key) := by
  refine sum_eq_add measure TreeMap.getElem?_erase_self there ?_
  intro other ne
  have apart : compare key other ≠ .eq := by
    intro same
    exact ne (Std.LawfulEqCmp.compare_eq_iff_eq.mp same).symm
  rw [getElem?_erase, if_neg apart]

theorem erase_of_getElem?_eq_none (absent : map[key]? = none) : map.erase key = map := by
  refine TreeMap.ext_getElem? fun other => ?_
  rw [getElem?_erase]
  split
  · rename_i same
    rw [← Std.LawfulEqCmp.compare_eq_iff_eq.mp same, absent]
  · rfl

end Sums

end MarketCow.Library.TreeMap
