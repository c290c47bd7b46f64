import MarketCow.Library.Fallible
import MarketCow.Library.OrderedMap

/-!
# Claiming keys

A fold that gives every key to at most one item: each step claims the keys of its
item, and fails when another item has one of them.
-/

namespace MarketCow.Library

variable {α κ ε : Type} [Ord κ] [Std.TransOrd κ]

/-- A set with more elements. -/
def TreeSet.claim (taken : TreeSet κ) (keys : List κ) : TreeSet κ :=
  keys.foldl (fun taken key => taken.insert key) taken

theorem TreeSet.claim_append (taken : TreeSet κ) (first second : List κ) :
    taken.claim (first ++ second) = (taken.claim first).claim second :=
  List.foldl_append

/-- Different keys that nobody has. -/
def Free (taken : TreeSet κ) (keys : List κ) : Prop :=
  keys.Nodup ∧ ∀ key ∈ keys, key ∉ taken

theorem free_nil (taken : TreeSet κ) : Free taken [] :=
  ⟨List.nodup_nil, fun _ mem => absurd mem List.not_mem_nil⟩

variable [Std.LawfulEqOrd κ]

theorem TreeSet.mem_claim {taken : TreeSet κ} {keys : List κ} {key : κ} :
    key ∈ taken.claim keys ↔ key ∈ taken ∨ key ∈ keys := by
  unfold TreeSet.claim
  induction keys generalizing taken with
  | nil => simp
  | cons first keys ih =>
    rw [List.foldl_cons, ih, Std.ExtTreeSet.mem_insert,
      Std.LawfulEqCmp.compare_eq_iff_eq, List.mem_cons, eq_comm, @or_comm (key = first),
      or_assoc]

theorem free_append_iff {taken : TreeSet κ} {first second : List κ} :
    Free taken (first ++ second) ↔ Free taken first ∧ Free (taken.claim first) second := by
  unfold Free
  simp only [List.nodup_append, List.mem_append, TreeSet.mem_claim]
  constructor
  · rintro ⟨⟨left, right, apart⟩, fresh⟩
    refine ⟨⟨left, fun key mem => fresh key (.inl mem)⟩, right, ?_⟩
    rintro key mem (taken | claimed)
    · exact fresh key (.inr mem) taken
    · exact apart key claimed key mem rfl
  · rintro ⟨⟨left, fresh⟩, right, others⟩
    refine ⟨⟨left, right, ?_⟩, ?_⟩
    · rintro key mem _ other rfl
      exact others key other (.inr mem)
    · rintro key (mem | mem)
      · exact fresh key mem
      · exact fun taken => others key mem (.inl taken)

/-- Each step claims the keys of its item, if the item is good. -/
def Claims
    (step : TreeSet κ → α → Except ε (TreeSet κ)) (good : α → Prop) (keys : α → List κ) : Prop :=
  ∀ taken item after, step taken item = .ok after ↔
    good item ∧ Free taken (keys item) ∧ after = taken.claim (keys item)

variable {step : TreeSet κ → α → Except ε (TreeSet κ)} {good : α → Prop} {keys : α → List κ}

/-- The fold succeeds exactly when the items are good and no key has two owners. -/
theorem Claims.foldlM_ok_iff
    (claims : Claims step good keys) {items : List α} {taken after : TreeSet κ} :
    items.foldlM step taken = .ok after ↔
      (∀ item ∈ items, good item) ∧ Free taken (items.flatMap keys) ∧
        after = taken.claim (items.flatMap keys) := by
  induction items generalizing taken with
  | nil =>
    simp only [List.foldlM_nil, List.flatMap_nil, List.not_mem_nil, false_implies, implies_true,
      true_and]
    constructor
    · intro same
      exact ⟨free_nil taken, (ok.inj same).symm⟩
    · rintro ⟨_, rfl⟩
      rfl
  | cons item items ih =>
    rw [foldlM_cons_ok, List.flatMap_cons, free_append_iff, TreeSet.claim_append]
    simp only [List.forall_mem_cons]
    constructor
    · rintro ⟨middle, first, rest⟩
      obtain ⟨fine, free, rfl⟩ := (claims taken item middle).mp first
      obtain ⟨others, later, rfl⟩ := ih.mp rest
      exact ⟨⟨fine, others⟩, ⟨free, later⟩, rfl⟩
    · rintro ⟨⟨fine, others⟩, ⟨free, later⟩, rfl⟩
      exact ⟨taken.claim (keys item), (claims taken item _).mpr ⟨fine, free, rfl⟩,
        ih.mpr ⟨others, later, rfl⟩⟩

end MarketCow.Library
