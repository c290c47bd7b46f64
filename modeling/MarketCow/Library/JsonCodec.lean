import MarketCow.Library.Codec
import MarketCow.Library.JsonText

/-!
# A codec of JSON values

There are countably many JSON values, so they have a codec; it prints chosen
objects as their compact text.
-/

namespace MarketCow.Library.Json

/-- The lists over a countable set are countable. -/
theorem countable_lists {α : Type} {values : Set α} (countable : values.Countable) :
    { items : List α | ∀ item ∈ items, item ∈ values }.Countable := by
  have instanceOf : Countable values := countable
  rw [← Set.range_list_map_coe]
  exact Set.countable_range _

/-- The values of a bounded size are countable. -/
theorem countable_sizeOf_le (bound : Nat) : { value : Json | sizeOf value ≤ bound }.Countable := by
  have strings := countable_string
  induction bound with
  | zero =>
    refine Set.countable_empty.mono ?_
    intro value small
    have small : sizeOf value ≤ 0 := small
    cases value <;> simp at small
  | succ bound ih =>
    have items := countable_lists ih
    have fields := countable_lists ((Set.countable_univ (α := String)).prod ih)
    have leaves : (({Json.null} : Set Json) ∪ Set.range Json.bool ∪ Set.range Json.integer ∪
        Set.range Json.float ∪ Set.range .string).Countable :=
      ((((Set.countable_singleton _).union (Set.countable_range _)).union
        (Set.countable_range _)).union (Set.countable_range _)).union (Set.countable_range _)
    refine ((leaves.union (items.image .array)).union (fields.image .object)).mono ?_
    intro value small
    have small : sizeOf value ≤ bound + 1 := small
    cases value with
    | null | bool flag | integer number | float text | string text => simp
    | array entries =>
      refine .inl (.inr ⟨entries, ?_, rfl⟩)
      intro entry mem
      have inside := List.sizeOf_lt_of_mem mem
      have whole := Json.array.sizeOf_spec entries
      change sizeOf entry ≤ bound
      omega
    | object entries =>
      refine .inr ⟨entries, ?_, rfl⟩
      intro entry mem
      have inside := List.sizeOf_lt_of_mem mem
      have whole := Json.object.sizeOf_spec entries
      have part : sizeOf entry = 1 + sizeOf entry.1 + sizeOf entry.2 := rfl
      refine ⟨Set.mem_univ _, ?_⟩
      change sizeOf entry.2 ≤ bound
      omega

theorem countable_json : Countable Json := by
  have covered : (Set.univ : Set Json) = ⋃ bound, { value : Json | sizeOf value ≤ bound } := by
    ext value
    simp only [Set.mem_univ, Set.mem_iUnion, Set.mem_ofPred_eq, true_iff]
    exact ⟨sizeOf value, le_rfl⟩
  apply Set.countable_univ_iff.mp
  rw [covered]
  exact Set.countable_iUnion countable_sizeOf_le

/-- The fields of an object, and any other value as a field. -/
def fieldsOf (value : Json) : List (String × Json) :=
  match value with
  | .object fields => fields
  | other => [("value", other)]

/-- The codec that prints some objects, and reads a line as well as a text. -/
noncomputable def printing (known : List Json) : Codec Json :=
  have : Countable Json := countable_json
  (Codec.withTexts known (fun value => print (.object (fieldsOf value)))
    (fun _ => newline_notMem_print _) (fun _ => brace_mem_print _)).lenient

/-- Values whose texts have different lengths are all printed. -/
theorem toVec_printing
    (ne : (known.map fun value => (print (.object (fieldsOf value))).length).Nodup)
    (mem : value ∈ known) (isObject : .object (fieldsOf value) = value) :
    (printing known).toVec value = print value := by
  have legible : Codec.Legible known (fun value => print (.object (fieldsOf value))) value := by
    refine ⟨mem, ?_⟩
    intro other there same
    exact List.inj_on_of_nodup_map ne there mem (congrArg List.length same)
  exact (if_pos legible).trans (congrArg print isObject)

end MarketCow.Library.Json
