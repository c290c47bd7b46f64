import Mathlib.Data.List.Forall2
import Mathlib.Logic.Relation

/-!
# Computations that change a state and may fail

What a computation changed before it failed stays changed. The rules say when a
sequence succeeds, and carry a relation between the state before and the state
after through a computation, whether it succeeds or fails.
-/

namespace MarketCow.Library

def Effect (σ ε α : Type) : Type := σ → Except ε α × σ

namespace Effect

variable {σ ε α β Item : Type}

protected def pure (value : α) : Effect σ ε α :=
  fun state => (.ok value, state)

protected def bind (first : Effect σ ε α) (second : α → Effect σ ε β) : Effect σ ε β :=
  fun state =>
    match first state with
    | (.ok value, middle) => second value middle
    | (.error cause, middle) => (.error cause, middle)

instance : Monad (Effect σ ε) where
  pure := Effect.pure
  bind := Effect.bind

/-- The state. -/
def get : Effect σ ε σ := fun state => (.ok state, state)

/-- Change the state. -/
def modify (change : σ → σ) : Effect σ ε Unit := fun state => (.ok (), change state)

def fail (cause : ε) : Effect σ ε α := fun state => (.error cause, state)

/-- A computation that leaves the state alone. -/
def lift (computation : Except ε α) : Effect σ ε α := fun state => (computation, state)

/-- Fail unless a condition holds. -/
def ensure (condition : Bool) (cause : ε) : Effect σ ε Unit :=
  if condition then pure () else fail cause

/-- A value, or a failure in its absence. -/
def need (value : Option α) (cause : ε) : Effect σ ε α :=
  match value with
  | some value => pure value
  | none => fail cause

/-- How a computation ends, as a value. -/
def attempt (computation : Effect σ ε α) : Effect σ ε (Except ε α) :=
  fun state => (.ok (computation state).1, (computation state).2)

/-- Visit the items of a list from left to right. -/
def forEach (visit : Item → Effect σ ε Unit) : List Item → Effect σ ε Unit
  | [] => pure ()
  | item :: items => visit item >>= fun _ => forEach visit items

/-- The results of visiting the items of a list from left to right. -/
def collect (visit : Item → Effect σ ε β) : List Item → Effect σ ε (List β)
  | [] => pure []
  | item :: items => do
    let result ← visit item
    let results ← collect visit items
    pure (result :: results)

theorem bind_apply (first : Effect σ ε α) (second : α → Effect σ ε β) (state : σ) :
    (first >>= second) state = match first state with
      | (.ok value, middle) => second value middle
      | (.error cause, middle) => (.error cause, middle) := rfl

instance : LawfulMonad (Effect σ ε) :=
  LawfulMonad.mk' (Effect σ ε)
    (fun computation => funext fun state => by
      change (computation >>= fun value => pure (id value)) state = computation state
      rw [bind_apply]
      rcases computation state with ⟨_ | _, _⟩ <;> rfl)
    (fun _ _ => rfl)
    (fun first second third => funext fun state => by
      rw [bind_apply, bind_apply, bind_apply]
      rcases first state with ⟨_ | _, _⟩ <;> rfl)

/-! ## Success and failure -/

@[simp] theorem pure_apply (value : α) (state : σ) :
    (pure value : Effect σ ε α) state = (.ok value, state) := rfl

@[simp] theorem get_apply (state : σ) : (get : Effect σ ε σ) state = (.ok state, state) := rfl

@[simp] theorem modify_apply (change : σ → σ) (state : σ) :
    (modify change : Effect σ ε Unit) state = (.ok (), change state) := rfl

@[simp] theorem fail_apply (cause : ε) (state : σ) :
    (fail cause : Effect σ ε α) state = (.error cause, state) := rfl

@[simp] theorem lift_apply (computation : Except ε α) (state : σ) :
    (lift computation : Effect σ ε α) state = (computation, state) := rfl

variable {first : Effect σ ε α} {second : α → Effect σ ε β} {state middle : σ}

theorem bind_of_ok (succeeded : first state = (.ok value, middle)) :
    (first >>= second) state = second value middle := by
  rw [bind_apply, succeeded]

variable {cause : ε}

theorem bind_of_error (failed : first state = (.error cause, middle)) :
    (first >>= second) state = (.error cause, middle) := by
  rw [bind_apply, failed]

variable {state after : σ}

/-- A sequence succeeds exactly when both of its parts do. -/
theorem bind_ok :
    (first >>= second) state = (.ok result, after) ↔
      ∃ value middle, first state = (.ok value, middle) ∧
        second value middle = (.ok result, after) := by
  rcases taken : first state with ⟨_ | value, middle⟩
  · rw [bind_of_error taken]
    constructor
    · intro never
      cases never
    · rintro ⟨_, _, never, _⟩
      cases never
  · rw [bind_of_ok taken]
    constructor
    · intro succeeded
      exact ⟨value, middle, rfl, succeeded⟩
    · rintro ⟨_, _, same, succeeded⟩
      cases same
      exact succeeded

theorem get_bind {second : σ → Effect σ ε β} : (get >>= second) state = second state state := rfl

theorem modify_bind {change : σ → σ} {second : Unit → Effect σ ε β} :
    (modify change >>= second) state = second () (change state) := rfl

theorem attempt_bind {second : Except ε α → Effect σ ε β} :
    (attempt computation >>= second) state = second (computation state).1 (computation state).2 :=
  rfl

@[simp] theorem lift_ok_bind (value : α) (second : α → Effect σ ε β) :
    (lift (.ok value) >>= second) = second value := rfl

@[simp] theorem ensure_true_bind (cause : ε) (second : Unit → Effect σ ε β) :
    (ensure true cause >>= second) = second () := rfl

@[simp] theorem need_some_bind (value : α) (cause : ε) (second : α → Effect σ ε β) :
    (need (some value) cause >>= second) = second value := rfl

@[simp] theorem need_none_bind (cause : ε) (second : α → Effect σ ε β) :
    (need none cause >>= second) = fail cause := rfl

theorem lift_bind_ok :
    (lift computation >>= second) state = (.ok result, after) ↔
      ∃ value, computation = .ok value ∧ second value state = (.ok result, after) := by
  cases computation with
  | error cause =>
    constructor
    · intro never
      cases never
    · rintro ⟨_, never, _⟩
      cases never
  | ok value =>
    constructor
    · intro succeeded
      exact ⟨value, rfl, succeeded⟩
    · rintro ⟨_, same, succeeded⟩
      cases same
      exact succeeded

variable {condition : Bool}

theorem ensure_bind_ok {second : Unit → Effect σ ε β} :
    (ensure condition cause >>= second) state = (.ok result, after) ↔
      condition = true ∧ second () state = (.ok result, after) := by
  cases condition with
  | false =>
    constructor
    · intro never
      cases never
    · rintro ⟨never, _⟩
      cases never
  | true => exact (and_iff_right rfl).symm

theorem need_bind_ok :
    (need value cause >>= second) state = (.ok result, after) ↔
      ∃ found, value = some found ∧ second found state = (.ok result, after) := by
  cases value with
  | none =>
    constructor
    · intro never
      cases never
    · rintro ⟨_, never, _⟩
      cases never
  | some value =>
    constructor
    · intro succeeded
      exact ⟨value, rfl, succeeded⟩
    · rintro ⟨_, same, succeeded⟩
      cases same
      exact succeeded

variable {result : Except ε β}

/-- A sequence fails in its first part, or goes on with its second one. -/
theorem bind_cases (ran : (first >>= second) state = (result, after)) :
    (∃ cause, first state = (.error cause, after) ∧ result = .error cause) ∨
      ∃ value middle, first state = (.ok value, middle) ∧ second value middle = (result, after) := by
  rcases taken : first state with ⟨cause | value, middle⟩
  · rw [bind_of_error taken] at ran
    cases ran
    exact .inl ⟨cause, rfl, rfl⟩
  · rw [bind_of_ok taken] at ran
    exact .inr ⟨value, middle, rfl, ran⟩

/-- A computation that leaves the state alone fails in that state. -/
theorem lift_bind_cases (ran : (lift computation >>= second) state = (result, after)) :
    (∃ cause, result = .error cause) ∧ after = state ∨
      ∃ value, computation = .ok value ∧ second value state = (result, after) := by
  cases computation with
  | error cause =>
    cases ran
    exact .inl ⟨⟨cause, rfl⟩, rfl⟩
  | ok value => exact .inr ⟨value, rfl, ran⟩

theorem ensure_bind_cases {second : Unit → Effect σ ε β}
    (ran : (ensure condition cause >>= second) state = (result, after)) :
    (∃ cause, result = .error cause) ∧ after = state ∨
      condition = true ∧ second () state = (result, after) := by
  cases condition with
  | false =>
    cases ran
    exact .inl ⟨⟨cause, rfl⟩, rfl⟩
  | true => exact .inr ⟨rfl, ran⟩

theorem need_bind_cases (ran : (need value cause >>= second) state = (result, after)) :
    (∃ cause, result = .error cause) ∧ after = state ∨
      ∃ found, value = some found ∧ second found state = (result, after) := by
  cases value with
  | none =>
    cases ran
    exact .inl ⟨⟨cause, rfl⟩, rfl⟩
  | some value => exact .inr ⟨value, rfl, ran⟩

/-- A nonempty list is visited item by item. -/
theorem collect_cons_ok_iff
    {visit : Item → Effect σ ε β} :
    collect visit (item :: items) state = (.ok results, after) ↔
      ∃ result rest middle, visit item state = (.ok result, middle) ∧
        collect visit items middle = (.ok rest, after) ∧ results = result :: rest := by
  constructor
  · intro collected
    obtain ⟨result, middle, first, collected⟩ := bind_ok.mp collected
    obtain ⟨rest, _, others, collected⟩ := bind_ok.mp collected
    cases collected
    exact ⟨result, rest, middle, first, others, rfl⟩
  · rintro ⟨result, rest, middle, first, others, rfl⟩
    exact bind_ok.mpr ⟨result, middle, first, bind_ok.mpr ⟨rest, after, others, rfl⟩⟩

variable (visit : Item → Effect σ ε β)

theorem collect_cons (item : Item) (items : List Item) :
    collect visit (item :: items) =
      visit item >>= fun result => collect visit items >>= fun results =>
        pure (result :: results) := rfl

/-- Two lists are visited one after the other. -/
theorem collect_append (front back : List Item) :
    collect visit (front ++ back) =
      collect visit front >>= fun results => collect visit back >>= fun others =>
        pure (results ++ others) := by
  induction front with
  | nil =>
    change collect visit back = pure [] >>= _
    rw [pure_bind]
    exact (bind_pure _).symm
  | cons item items ih =>
    rw [List.cons_append, collect_cons, collect_cons, ih, bind_assoc]
    refine congrArg _ (funext fun first => ?_)
    rw [bind_assoc, bind_assoc]
    refine congrArg _ (funext fun rest => ?_)
    rw [pure_bind, bind_assoc]
    exact congrArg _ (funext fun others => pure_bind _ _)

/-! ## What a computation does to the state -/

/-- Whatever comes of a computation, the state before and the state after are
related. -/
def Moves (related : σ → σ → Prop) (computation : Effect σ ε α) : Prop :=
  ∀ state, related state (computation state).2

namespace Moves

variable {related : σ → σ → Prop}

theorem of_pure [Std.Refl related] (value : α) : Moves related (pure value : Effect σ ε α) :=
  fun state => Std.Refl.refl state

theorem of_get [Std.Refl related] : Moves related (get : Effect σ ε σ) :=
  fun state => Std.Refl.refl state

theorem of_fail [Std.Refl related] (cause : ε) : Moves related (fail cause : Effect σ ε α) :=
  fun state => Std.Refl.refl state

theorem of_lift [Std.Refl related] (computation : Except ε α) :
    Moves related (lift computation : Effect σ ε α) :=
  fun state => Std.Refl.refl state

theorem of_ensure [Std.Refl related] (condition : Bool) (cause : ε) :
    Moves related (ensure condition cause : Effect σ ε Unit) := by
  cases condition with
  | false => exact of_fail cause
  | true => exact of_pure ()

theorem of_need [Std.Refl related] (value : Option α) (cause : ε) :
    Moves related (need value cause : Effect σ ε α) := by
  cases value with
  | none => exact of_fail cause
  | some value => exact of_pure value

theorem of_modify {change : σ → σ} (step : ∀ state, related state (change state)) :
    Moves related (modify change : Effect σ ε Unit) :=
  step

/-- A sequence does what its parts do, one after the other. -/
theorem bind [IsTrans σ related] {second : α → Effect σ ε β} (before : Moves related first)
    (after : ∀ value, Moves related (second value)) :
    Moves related (first >>= second) := by
  intro state
  have start := before state
  rcases taken : first state with ⟨_ | value, middle⟩
  · rw [bind_of_error taken]
    rw [taken] at start
    exact start
  · rw [bind_of_ok taken]
    rw [taken] at start
    exact IsTrans.trans _ _ _ start (after value middle)

theorem forEach [Std.Refl related] [IsTrans σ related] {visit : Item → Effect σ ε Unit}
    (each : ∀ item, Moves related (visit item))
    (items : List Item) :
    Moves related (Effect.forEach visit items) := by
  induction items with
  | nil => exact of_pure ()
  | cons item items ih => exact bind (each item) fun _ => ih

theorem collect [Std.Refl related] [IsTrans σ related] {visit : Item → Effect σ ε β}
    (each : ∀ item, Moves related (visit item))
    (items : List Item) :
    Moves related (Effect.collect visit items) := by
  induction items with
  | nil => exact of_pure []
  | cons item items ih => exact bind (each item) fun _ => bind ih fun _ => of_pure _

end Moves

/-- Keeping a property is a way to move. -/
def keeping (property : σ → Prop) : σ → σ → Prop :=
  fun before after => property before → property after

instance (property : σ → Prop) : Std.Refl (keeping property) :=
  ⟨fun _ held => held⟩

instance (property : σ → Prop) : IsTrans σ (keeping property) :=
  ⟨fun _ _ _ first second held => second (first held)⟩

/-! ## Two runs side by side -/

/-- Two results: related values, or one cause. -/
inductive ResultAgrees (values : α → β → Prop) : Except ε α → Except ε β → Prop
  | ok {left : α} {right : β} : values left right → ResultAgrees values (.ok left) (.ok right)
  | error (cause : ε) : ResultAgrees values (.error cause) (.error cause)

/-- Two ends of runs: related results and related states. -/
structure Agree
    (states : σ → σ → Prop) (values : α → β → Prop) (left : Except ε α × σ)
    (right : Except ε β × σ) : Prop where
  result : ResultAgrees values left.1 right.1
  state : states left.2 right.2

namespace Agree

variable {γ δ : Type} {states : σ → σ → Prop} {values : α → β → Prop} {results : γ → δ → Prop}
  {left right : σ}

theorem of_error (cause : ε) (related : states left right) :
    Agree states values (.error cause, left) (.error cause, right) :=
  ⟨.error cause, related⟩

theorem of_ok {first : α} {second : β} (same : values first second) (related : states left right) :
    Agree states values ((.ok first : Except ε α), left) ((.ok second : Except ε β), right) :=
  ⟨.ok same, related⟩

/-- Sequences agree when their first parts do, and their second parts do after
any success of the first. -/
theorem bind {second : α → Effect σ ε γ} {otherSecond : β → Effect σ ε δ}
    (before : Agree states values (first left) (other right))
    (after : ∀ value otherValue middle otherMiddle,
      first left = (.ok value, middle) → other right = (.ok otherValue, otherMiddle) →
      values value otherValue → states middle otherMiddle →
      Agree states results (second value middle) (otherSecond otherValue otherMiddle)) :
    Agree states results ((first >>= second) left) ((other >>= otherSecond) right) := by
  rcases taken : first left with ⟨cause | value, middle⟩ <;>
    rcases otherTaken : other right with ⟨otherCause | otherValue, otherMiddle⟩ <;>
    rw [taken, otherTaken] at before
  · rw [bind_of_error taken, bind_of_error otherTaken]
    cases before.result
    exact ⟨.error _, before.state⟩
  · cases before.result
  · cases before.result
  · rw [bind_of_ok taken, bind_of_ok otherTaken]
    cases before.result with
    | ok same => exact after value otherValue middle otherMiddle taken otherTaken same before.state

/-- Lists are visited in agreement when each item is, wherever the visit of the
items before it succeeds. -/
theorem collect {visit : Item → Effect σ ε α} {other : Item → Effect σ ε β} {items : List Item}
    (related : states left right)
    (each : ∀ front item back, items = front ++ item :: back → ∀ results middle otherMiddle,
      Effect.collect visit front left = (.ok results, middle) → states middle otherMiddle →
      Agree states values (visit item middle) (other item otherMiddle)) :
    Agree states (List.Forall₂ values) (Effect.collect visit items left)
      (Effect.collect other items right) := by
  induction items generalizing left right with
  | nil => exact of_ok .nil related
  | cons item items ih =>
    rw [collect_cons, collect_cons]
    refine bind (each [] item items rfl [] left right rfl related) ?_
    intro value otherValue middle otherMiddle now _ same relatedMiddle
    refine bind (ih relatedMiddle ?_) ?_
    · intro front later back split results next otherNext visited
      refine each (item :: front) later back (by rw [split]; rfl) (value :: results) next
        otherNext ?_
      exact collect_cons_ok_iff.mpr ⟨value, results, middle, now, visited, rfl⟩
    · intro rest otherRest _ _ _ _ others relatedAfter
      exact of_ok (.cons same others) relatedAfter

end Agree

end Effect
end MarketCow.Library
