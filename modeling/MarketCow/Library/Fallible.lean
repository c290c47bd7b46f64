import Mathlib

/-!
# Folds and computations that may fail

Inversion of a sequence of fallible steps, the rule that carries an invariant
through a fallible fold, and the rule for what a fold leaves alone.
-/

namespace MarketCow.Library.Fallible

variable {ε α β State Item : Type}

/-- A sequence succeeds exactly when both of its parts do. -/
theorem bind_ok {first : Except ε α} :
    (first >>= second) = .ok value ↔ ∃ middle, first = .ok middle ∧ second middle = .ok value := by
  cases first with
  | error cause =>
    constructor
    · intro succeeded
      cases succeeded
    · rintro ⟨_, never, _⟩
      cases never
  | ok middle =>
    constructor
    · intro succeeded
      exact ⟨middle, rfl, succeeded⟩
    · rintro ⟨other, same, succeeded⟩
      cases same
      exact succeeded

/-- A sequence of three parts succeeds exactly when each of them does. -/
theorem bind₂_ok {first : Except ε α} {second : α → Except ε β} {third : α → β → Except ε State} :
    (first >>= fun one => second one >>= third one) = .ok value ↔
      ∃ one, first = .ok one ∧ ∃ two, second one = .ok two ∧ third one two = .ok value := by
  rw [bind_ok]
  exact exists_congr fun one => and_congr_right fun _ => bind_ok

/-- A sequence of four parts succeeds exactly when each of them does. -/
theorem bind₃_ok {first : Except ε α} {second : α → Except ε β} {third : α → β → Except ε State}
    {fourth : α → β → State → Except ε Item} :
    (first >>= fun one => second one >>= fun two => third one two >>= fourth one two) = .ok value ↔
      ∃ one, first = .ok one ∧ ∃ two, second one = .ok two ∧
        ∃ three, third one two = .ok three ∧ fourth one two three = .ok value := by
  rw [bind_ok]
  exact exists_congr fun one => and_congr_right fun _ => bind₂_ok

/-- A sequence fails in its first part, or in its second after a success. -/
theorem bind_eq_error_iff {first : Except ε α} :
    (first >>= second) = .error cause ↔
      first = .error cause ∨ ∃ middle, first = .ok middle ∧ second middle = .error cause := by
  cases first with
  | error other =>
    constructor
    · intro failed
      exact .inl (congrArg Except.error (Except.error.inj failed))
    · rintro (failed | ⟨_, never, _⟩)
      · exact congrArg Except.error (Except.error.inj failed)
      · cases never
  | ok middle =>
    constructor
    · intro failed
      exact .inr ⟨middle, rfl, failed⟩
    · rintro (never | ⟨other, same, failed⟩)
      · cases never
      · cases same
        exact failed

variable {step : State → Item → Except ε State} {items : List Item}

/-- A successful fold over a nonempty list starts with a successful step. -/
theorem foldlM_cons_ok {item : Item} {start finish : State} :
    (item :: items).foldlM step start = .ok finish ↔
      ∃ middle, step start item = .ok middle ∧ items.foldlM step middle = .ok finish := by
  rw [List.foldlM_cons]
  exact bind_ok

/-- A successful fold over a concatenation passes through a state between the
parts. -/
theorem foldlM_append_ok {first second : List Item} {start finish : State} :
    (first ++ second).foldlM step start = .ok finish ↔
      ∃ middle, first.foldlM step start = .ok middle ∧ second.foldlM step middle = .ok finish := by
  rw [List.foldlM_append]
  exact bind_ok

/-- What every successful step preserves, a successful fold preserves. -/
theorem foldlM_invariant (invariant : State → Prop)
    (preserved : ∀ before, ∀ item ∈ items, ∀ after,
      invariant before → step before item = .ok after → invariant after)
    (atStart : invariant start)
    (folded : items.foldlM step start = .ok finish) :
    invariant finish := by
  induction items generalizing start with
  | nil =>
    cases folded
    exact atStart
  | cons item items ih =>
    obtain ⟨middle, taken, rest⟩ := foldlM_cons_ok.mp folded
    apply ih _ (preserved start item (by simp) middle atStart taken) rest
    intro before other mem
    exact preserved before other (by simp [mem])

/-- A fold fails at some step. -/
theorem exists_of_foldlM_eq_error
    {start : State} (failed : items.foldlM step start = .error cause) :
    ∃ item ∈ items, ∃ before, step before item = .error cause := by
  induction items generalizing start with
  | nil => cases failed
  | cons item items ih =>
    rw [List.foldlM_cons] at failed
    rcases bind_eq_error_iff.mp failed with now | ⟨middle, _, later⟩
    · exact ⟨item, by simp, start, now⟩
    · obtain ⟨other, mem, before, same⟩ := ih later
      exact ⟨other, by simp [mem], before, same⟩

variable {visit : Item → Except ε β}

/-- The results of a successful traversal are the results of its items. -/
theorem mem_of_mapM_ok (visited : items.mapM visit = .ok results) :
    (∀ item ∈ items, ∃ result ∈ results, visit item = .ok result) ∧
      ∀ result ∈ results, ∃ item ∈ items, visit item = .ok result := by
  induction items generalizing results with
  | nil =>
    cases visited
    simp
  | cons item items ih =>
    rw [List.mapM_cons] at visited
    obtain ⟨first, taken, rest, others, collected⟩ := bind₂_ok.mp visited
    cases collected
    obtain ⟨forward, backward⟩ := ih others
    constructor
    · intro other mem
      rcases List.mem_cons.mp mem with rfl | later
      · exact ⟨first, by simp, taken⟩
      · obtain ⟨result, present, same⟩ := forward other later
        exact ⟨result, by simp [present], same⟩
    · intro result mem
      rcases List.mem_cons.mp mem with rfl | later
      · exact ⟨item, by simp, taken⟩
      · obtain ⟨other, present, same⟩ := backward result later
        exact ⟨other, by simp [present], same⟩

/-- A traversal fails at some item. -/
theorem exists_of_mapM_eq_error (failed : items.mapM visit = .error cause) :
    ∃ item ∈ items, visit item = .error cause := by
  induction items with
  | nil => cases failed
  | cons item items ih =>
    rw [List.mapM_cons] at failed
    cases taken : visit item with
    | error other =>
      rw [taken] at failed
      obtain rfl := Except.error.inj failed
      exact ⟨item, by simp, taken⟩
    | ok first =>
      rw [taken] at failed
      cases rest : items.mapM visit with
      | error other =>
        replace failed : (items.mapM visit >>= fun results =>
            (pure (first :: results) : Except ε (List β))) = .error cause := failed
        rw [rest] at failed
        obtain rfl := Except.error.inj failed
        obtain ⟨found, mem, same⟩ := ih rest
        exact ⟨found, by simp [mem], same⟩
      | ok results =>
        replace failed : (items.mapM visit >>= fun results =>
            (pure (first :: results) : Except ε (List β))) = .error cause := failed
        rw [rest] at failed
        cases failed

/-- A fold leaves alone what each of its steps leaves alone. -/
theorem foldl_observed {Value : Type} (observe : State → Value) {step : State → Item → State}
    (kept : ∀ state item, observe (step state item) = observe state) (items : List Item)
    (start : State) :
    observe (items.foldl step start) = observe start := by
  induction items generalizing start with
  | nil => rfl
  | cons item items ih => rw [List.foldl_cons, ih, kept]

/-- The value of a computation that succeeds. -/
theorem eq_ok_get
    {ε α : Type*} {computation : Except ε α} (succeeds : computation.toOption.isSome = true) :
    computation = .ok (computation.toOption.get succeeds) := by
  cases computation with
  | error _ => cases succeeds
  | ok value => rfl

end MarketCow.Library.Fallible

namespace MarketCow.Library

export Fallible (bind_ok bind₂_ok bind₃_ok foldlM_cons_ok foldlM_append_ok)

end MarketCow.Library
