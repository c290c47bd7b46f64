import MarketCow.Library.OrderedMap

/-!
# Collections and their values

Facts about all values of an ordered map, from facts about its entries, and
about sums over a list in which one item is replaced.
-/

namespace MarketCow
namespace Library
namespace TreeMap

variable {κ ν : Type} [Ord κ] [Std.TransOrd κ] [Std.LawfulEqOrd κ]

/-- Values of different keys are related pairwise. -/
theorem pairwise_valueList {map : TreeMap κ ν} {related : ν → ν → Prop}
    (entries : ∀ (first second : κ) (left right : ν), first ≠ second →
      map[first]? = some left → map[second]? = some right → related left right) :
    map.valueList.Pairwise related := by
  rw [valueList, List.pairwise_map]
  have distinct := Std.ExtTreeMap.distinct_keys_toList (t := map)
  refine distinct.imp_of_mem ?_
  intro first second inFirst inSecond ne
  refine entries first.1 second.1 first.2 second.2 ?_ (mem_toList_iff_getElem?_eq_some.mp inFirst)
    (mem_toList_iff_getElem?_eq_some.mp inSecond)
  intro same
  exact ne (Std.LawfulEqCmp.compare_eq_iff_eq.mpr same)

end TreeMap

section Sums

variable {α : Type} {items : List α} {position : Nat} {item other : α}

section

variable (measure : α → Nat) (there : items[position]? = some item)
include measure there

/-- Replacing an item changes a sum by the difference. -/
theorem sum_map_set :
    ((items.set position other).map measure).sum + measure item =
      (items.map measure).sum + measure other := by
  induction items generalizing position with
  | nil => cases there
  | cons first items ih =>
    cases position with
    | zero =>
      cases there
      simp only [List.set_cons_zero, List.map_cons, List.sum_cons]
      omega
    | succ position =>
      have rest := @ih position there
      simp only [List.set_cons_succ, List.map_cons, List.sum_cons]
      omega

/-- An item is part of the sum. -/
theorem le_sum_map :
    measure item ≤ (items.map measure).sum :=
  List.single_le_sum (fun _ _ => Nat.zero_le _) _ (List.mem_map_of_mem (List.mem_of_getElem? there))

/-- An item and the others make up the sum. -/
theorem sum_map_eraseIdx :
    (items.map measure).sum = ((items.eraseIdx position).map measure).sum + measure item := by
  induction items generalizing position with
  | nil => cases there
  | cons first items ih =>
    cases position with
    | zero =>
      cases there
      simp only [List.eraseIdx_cons_zero, List.map_cons, List.sum_cons]
      omega
    | succ position =>
      have rest := @ih position there
      simp only [List.eraseIdx_cons_succ, List.map_cons, List.sum_cons]
      omega

end

/-- A sum of flags counts the items that have them. -/
theorem sum_map_toNat (flag : α → Bool) (items : List α) :
    (items.map fun item => (flag item).toNat).sum = items.countP flag := by
  induction items with
  | nil => rfl
  | cons first items ih =>
    rw [List.map_cons, List.sum_cons, ih, List.countP_cons, Nat.add_comm]
    cases flag first <;> rfl

/-- Replacing an item changes a count by the difference. -/
theorem countP_set_add (flag : α → Bool) (there : items[position]? = some item) :
    (items.set position other).countP flag + (flag item).toNat =
      items.countP flag + (flag other).toNat := by
  rw [← sum_map_toNat, ← sum_map_toNat]
  exact sum_map_set _ there

/-- Items with a flag have one of two others. -/
theorem countP_le_add {flag first second : α → Bool}
    (either : ∀ item ∈ items, flag item = true → first item = true ∨ second item = true) :
    items.countP flag ≤ items.countP first + items.countP second := by
  induction items with
  | nil => exact Nat.zero_le _
  | cons item items ih =>
    have rest := ih fun other mem => either other (List.mem_cons_of_mem _ mem)
    have here := either item List.mem_cons_self
    rw [List.countP_cons, List.countP_cons, List.countP_cons]
    split <;> rename_i has
    · rcases here has with one | two
      · rw [if_pos one]
        omega
      · rw [if_pos two]
        omega
    · omega

end Sums

end Library
end MarketCow
