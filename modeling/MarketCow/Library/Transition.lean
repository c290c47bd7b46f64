import Mathlib

/-!
# Labelled transition relations

Runs of a labelled transition relation, read from left to right and extended
at their end. The run rules say that a property one step preserves is
preserved by a run, and that a relation between two systems which one step
maintains is maintained by runs with related labels.
-/

namespace MarketCow.Library

/-- A finite run: the labels of its steps in order. -/
inductive Run {State Label : Type} (step : State → Label → State → Prop)
    (start : State) : List Label → State → Prop
  | nil : Run step start [] start
  | snoc {labels : List Label} {middle : State} {label : Label} {finish : State} :
      Run step start labels middle →
      step middle label finish →
      Run step start (labels ++ [label]) finish

namespace Run

variable {State Label : Type} {step : State → Label → State → Prop} {start finish : State}

theorem single (taken : step start label finish) : Run step start [label] finish := by
  have extended := Run.snoc Run.nil taken
  rwa [List.nil_append] at extended

/-- Runs compose. -/
theorem append (before : Run step start first middle) (after : Run step middle second finish) :
    Run step start (first ++ second) finish := by
  induction after with
  | nil => simpa using before
  | snoc _ taken ih =>
    rw [← List.append_assoc]
    exact .snoc ih taken

/-- Prepend one step to a run. -/
theorem cons {start middle finish : State} {label : Label} {labels : List Label}
    (taken : step start label middle) (after : Run step middle labels finish) :
    Run step start (label :: labels) finish :=
  append (single taken) after

theorem nil_iff : Run step start [] finish ↔ finish = start := by
  constructor
  · intro run
    generalize empty : ([] : List Label) = labels at run
    cases run with
    | nil => rfl
    | snoc _ _ => simp at empty
  · rintro rfl
    exact .nil

variable {labels : List Label}

/-- The last step of a nonempty run. -/
theorem snoc_iff :
    Run step start (labels ++ [label]) finish ↔
      ∃ middle, Run step start labels middle ∧ step middle label finish := by
  constructor
  · intro run
    generalize whole : labels ++ [label] = all at run
    cases run with
    | nil => simp at whole
    | snoc before taken =>
      obtain ⟨sameLabels, sameLabel⟩ := List.append_inj' whole rfl
      obtain rfl := sameLabels
      obtain rfl := List.singleton_inj.mp sameLabel
      exact ⟨_, before, taken⟩
  · rintro ⟨middle, before, taken⟩
    exact .snoc before taken

/-- A run over a concatenation passes through a state between the parts. -/
theorem append_iff :
    Run step start (first ++ second) finish ↔
      ∃ middle, Run step start first middle ∧ Run step middle second finish := by
  constructor
  · intro run
    induction second using List.reverseRecOn generalizing finish with
    | nil => exact ⟨finish, by simpa using run, .nil⟩
    | append_singleton front label ih =>
      rw [← List.append_assoc, snoc_iff] at run
      obtain ⟨beforeLast, before, taken⟩ := run
      obtain ⟨middle, firstRun, frontRun⟩ := ih before
      exact ⟨middle, firstRun, .snoc frontRun taken⟩
  · rintro ⟨middle, before, after⟩
    exact append before after

/-- The first step of a nonempty run. -/
theorem cons_iff :
    Run step start (label :: labels) finish ↔
      ∃ middle, step start label middle ∧ Run step middle labels finish := by
  rw [← List.singleton_append, append_iff]
  constructor
  · rintro ⟨middle, firstRun, rest⟩
    obtain ⟨origin, atStart, taken⟩ :=
      snoc_iff.mp (show Run step start ([] ++ [label]) middle from firstRun)
    rw [nil_iff] at atStart
    subst origin
    exact ⟨middle, taken, rest⟩
  · rintro ⟨middle, taken, rest⟩
    exact ⟨middle, single taken, rest⟩

variable {allowed : State → Label → Prop}

/-- A run whose every step is allowed is a run of the allowed steps. -/
theorem restrict (run : Run step start labels finish)
    (everyStep : ∀ front label back middle,
      labels = front ++ label :: back → Run step start front middle → allowed middle label) :
    Run (fun before label after => step before label after ∧ allowed before label)
      start labels finish := by
  induction run with
  | nil => exact .nil
  | @snoc front middle label finish before taken ih =>
    refine .snoc (ih ?_) ⟨taken, everyStep front label [] middle rfl before⟩
    intro earlier other back state split reached
    exact everyStep earlier other (back ++ [label]) state (by simp [split]) reached

/-- Allowed steps are steps. -/
theorem unrestrict
    (run : Run (fun before label after => step before label after ∧ allowed before label)
      start labels finish) :
    Run step start labels finish := by
  induction run with
  | nil => exact .nil
  | snoc _ taken ih => exact .snoc ih taken.1

/-- A run of another relation that allows every step. -/
theorem imp (implied : ∀ before label after, step before label after → other before label after)
    (run : Run step start labels finish) :
    Run other start labels finish := by
  induction run with
  | nil => exact .nil
  | snoc _ taken ih => exact .snoc ih (implied _ _ _ taken)

variable {act : State → Label → Option State}

/-- Labels that a function can follow one after the other make a run. -/
theorem of_foldlM (played : labels.foldlM act start = some finish) :
    Run (fun before label after => act before label = some after) start labels finish := by
  induction labels generalizing start with
  | nil =>
    cases played
    exact .nil
  | cons label labels ih =>
    rw [List.foldlM_cons] at played
    obtain ⟨middle, taken, rest⟩ := Option.bind_eq_some_iff.mp played
    exact .cons taken (ih rest)

/-- The same for labels that a condition allows wherever they are followed. -/
theorem restrict_of_foldlM [∀ state label, Decidable (allowed state label)]
    (played : labels.foldlM
      (fun state label => if allowed state label then act state label else none) start =
        some finish) :
    Run (fun before label after => act before label = some after ∧ allowed before label)
      start labels finish := by
  apply (of_foldlM played).imp
  intro before label after taken
  obtain ⟨meets, taken⟩ := Option.ite_none_right_eq_some.mp taken
  exact ⟨taken, meets⟩

/-- The rule for a property that every step preserves. -/
theorem preserves {invariant : State → Prop}
    (preserved : ∀ before label after, invariant before → step before label after → invariant after)
    (run : Run step start labels finish)
    (atStart : invariant start) :
    invariant finish := by
  induction run with
  | nil => exact atStart
  | snoc _ taken ih => exact preserved _ _ _ ih taken

/-- A relation that determines the state after a step. -/
abbrev Deterministic (step : State → Label → State → Prop) : Prop :=
  ∀ before label after other, step before label after → step before label other → after = other

/-- Runs of a deterministic relation end in one state. -/
theorem deterministic (determined : Deterministic step)
    (run : Run step start labels finish) (again : Run step start labels other) :
    finish = other := by
  induction run generalizing other with
  | nil => exact (nil_iff.mp again).symm
  | snoc _ taken ih =>
    obtain ⟨middle, before, last⟩ := snoc_iff.mp again
    obtain rfl := ih before
    exact determined _ _ _ _ taken last

/-! ## Properties along a run -/

/-- A property of every state that a run passes through. -/
def Throughout (step : State → Label → State → Prop) (property : State → Prop) (start : State)
    (labels : List Label) : Prop :=
  ∀ earlier later state, labels = earlier ++ later → Run step start earlier state → property state

/-- A condition on every step of a run: on the labels before it, the state
before it and its label. -/
def EachStep (step : State → Label → State → Prop) (condition : List Label → State → Label → Prop)
    (start : State) (labels : List Label) : Prop :=
  ∀ earlier label later before,
    labels = earlier ++ label :: later → Run step start earlier before →
      condition earlier before label

section Along

variable {property : State → Prop} {condition : List Label → State → Label → Prop}
  {start finish next : State} {labels : List Label} {label : Label}

theorem throughout_nil_iff : Throughout step property start [] ↔ property start := by
  constructor
  · intro everywhere
    exact everywhere [] [] start rfl .nil
  · intro atStart earlier later state split reached
    obtain ⟨rfl, _⟩ := List.append_eq_nil_iff.mp split.symm
    rw [nil_iff.mp reached]
    exact atStart

theorem throughout_snoc_iff (determined : Deterministic step) (run : Run step start labels finish)
    (taken : step finish label next) :
    Throughout step property start (labels ++ [label]) ↔
      Throughout step property start labels ∧ property next := by
  constructor
  · intro everywhere
    refine ⟨?_, everywhere (labels ++ [label]) [] next (by simp) (.snoc run taken)⟩
    intro earlier later state split reached
    exact everywhere earlier (later ++ [label]) state (by simp [split]) reached
  · rintro ⟨everywhere, last⟩ earlier later state split reached
    rcases List.eq_nil_or_concat later with rfl | ⟨front, ending, rfl⟩
    · rw [List.append_nil] at split
      subst split
      rw [reached.deterministic determined (Run.snoc run taken)]
      exact last
    · rw [List.concat_eq_append, ← List.append_assoc] at split
      exact everywhere earlier front state (List.append_inj' split rfl).1 reached

theorem eachStep_nil : EachStep step condition start [] := by
  intro earlier label later before split
  simp at split

section

variable (determined : Deterministic step)
include determined

theorem eachStep_snoc_iff (run : Run step start labels finish) :
    EachStep step condition start (labels ++ [label]) ↔
      EachStep step condition start labels ∧ condition labels finish label := by
  constructor
  · intro each
    refine ⟨?_, each labels label [] finish rfl run⟩
    intro earlier other later before split reached
    exact each earlier other (later ++ [label]) before (by simp [split]) reached
  · rintro ⟨each, last⟩ earlier other later before split reached
    rcases List.eq_nil_or_concat later with rfl | ⟨front, ending, rfl⟩
    · obtain ⟨rfl, same⟩ := List.append_inj' split rfl
      obtain rfl := List.singleton_inj.mp same
      rw [reached.deterministic determined run]
      exact last
    · rw [List.concat_eq_append, ← List.cons_append, ← List.append_assoc] at split
      exact each earlier other front before (List.append_inj' split rfl).1 reached

/-- Every step of a run of the allowed steps is allowed. -/
theorem eachStep_of_restrict
    (run : Run (fun before label after => step before label after ∧ allowed before label)
      start labels finish) :
    EachStep step (fun _ => allowed) start labels := by
  induction run with
  | nil => exact eachStep_nil
  | snoc before taken ih => exact (eachStep_snoc_iff determined before.unrestrict).mpr ⟨ih, taken.2⟩

/-- When, under an invariant, a step keeps a property exactly if it meets a
condition, then a run keeps the property exactly if all its steps meet it. -/
theorem throughout_iff_eachStep {invariant : State → Prop} {condition : State → Label → Prop}
    (invariantPreserved : ∀ before label after,
      invariant before → step before label after → invariant after)
    (propertyKept : ∀ before label after,
      invariant before → property before → step before label after →
        (property after ↔ condition before label))
    (invariantAtStart : invariant start)
    (propertyAtStart : property start)
    (run : Run step start labels finish) :
    Throughout step property start labels ↔ EachStep step (fun _ => condition) start labels := by
  induction run with
  | nil =>
    rw [throughout_nil_iff]
    exact ⟨fun _ => eachStep_nil, fun _ => propertyAtStart⟩
  | @snoc labels middle label finish before taken ih =>
    rw [throughout_snoc_iff determined before taken, eachStep_snoc_iff determined before, ← ih]
    refine and_congr_right fun everywhere => ?_
    exact propertyKept middle label finish (before.preserves invariantPreserved invariantAtStart)
      (everywhere labels [] middle (by simp) before) taken

end

end Along

end Run

end MarketCow.Library
