import MarketCow.Polymarket.Websocket.FrameStep

/-!
# Invalidations

To invalidate a token is to open a recovery and to make the token wait. Where
the positions of the records fit in 64 bits, a list of subscribed tokens is
invalidated as a whole.
-/

namespace MarketCow.Websocket

open Library MarketCow.Core Polymarket List
open Adapter (invalidateAll invalidateNext invalidateOnce)
open Effect (bind_apply bind_of_ok bind_ok get_bind)

section Tokens

variable {externals : Externals} {token reason : String} {received : DateTime} {cursor : Nat}
  {adapter after : Adapter}

/-- A subscribed token can always be invalidated. -/
theorem invalidate_of_subscribed
    (externals : Externals) (reason : String) (received : DateTime) (cursor : Nat)
    (subscribed : token ∈ adapter.identities) :
    ∃ event attempt,
      Adapter.invalidate externals token reason received cursor adapter =
        (.ok event, adapter.forget token attempt) ∧
      (field event "token_id").asString? = some token := by
  obtain ⟨identity, known⟩ := isSome_iff_exists.mp (mem_iff_isSome_getElem?.mp subscribed)
  unfold Adapter.invalidate
  rw [get_bind, bind_apply, known]
  exact ⟨_, _, rfl, rfl⟩

/-- A token that is not subscribed to cannot. -/
theorem invalidate_of_unsubscribed (unsubscribed : token ∉ adapter.identities) :
    Adapter.invalidate externals token reason received cursor adapter =
      (.error (.context "unknown recovery token"), adapter) := by
  unfold Adapter.invalidate
  rw [get_bind, bind_apply, Std.ExtTreeMap.getElem?_eq_none unsubscribed]
  rfl

theorem waits_forget (attempt : String) : token ∈ (adapter.forget token attempt).waiting :=
  Std.ExtTreeSet.mem_insert_self

/-- Invalidating a token keeps a state consistent. -/
theorem Consistent.forget
    (consistent : Consistent externals adapter) (subscribed : token ∈ adapter.identities)
    (attempt : String) : Consistent externals (adapter.forget token attempt) :=
  consistent.of_elsewhere (elsewhere_forget adapter attempt)
    (fun _ => .of_waiting (waits_forget attempt)) fun _ _ => subscribed

end Tokens

/-! ## The tokens of a frame -/

/-- Nothing but some tokens has changed, and no token has stopped to wait. -/
structure Blocks (tokens : String → Prop) (before after : Adapter) : Prop where
  within : Within tokens before after
  waiting : ∀ token ∈ before.waiting, token ∈ after.waiting

instance (tokens : String → Prop) : Std.Refl (Blocks tokens) :=
  ⟨fun adapter => ⟨Std.Refl.refl adapter, fun _ waits => waits⟩⟩

instance (tokens : String → Prop) : IsTrans Adapter (Blocks tokens) where
  trans _ _ _ one two :=
    ⟨IsTrans.trans _ _ _ one.within two.within,
      fun token waits => two.waiting token (one.waiting token waits)⟩

theorem Blocks.of_forget {tokens : String → Prop} (adapter : Adapter) (attempt : String)
    (mem : tokens token) : Blocks tokens adapter (adapter.forget token attempt) where
  within := by
    refine (elsewhere_forget adapter attempt).mono ?_
    rintro _ rfl
    exact mem
  waiting := fun _ waits => Std.ExtTreeSet.mem_insert.mpr (.inr waits)

section Lists

variable {externals : Externals} {tokens : String → Prop} {token reason : String}
  {received : DateTime} {position cursor : Nat} {sourceGap : Bool} {adapter after : Adapter}

theorem moves_invalidate_blocks (mem : tokens token) :
    Effect.Moves (Blocks tokens) (Adapter.invalidate externals token reason received cursor) :=
  .bind .of_get fun _ => .bind (.of_need _ _) fun _ =>
    .bind (.of_modify fun adapter => .of_forget adapter _ mem) fun _ => .of_pure _

theorem moves_invalidateNext (mem : tokens token) :
    Effect.Moves (Blocks tokens)
      (invalidateNext externals sourceGap token reason received cursor) := by
  unfold invalidateNext
  split
  · refine .bind .of_get fun adapter => ?_
    split
    · exact .of_pure _
    · exact .bind (moves_invalidate_blocks mem) fun _ => .of_pure _
  · rw [map_eq_pure_bind]
    exact .bind (moves_invalidate_blocks mem) fun _ => .of_pure _

variable {listed : List String}

/-- However it ends, an invalidation makes no token stop to wait. -/
theorem moves_invalidateAll (mem : ∀ token ∈ listed, tokens token) :
    Effect.Moves (Blocks tokens) (invalidateAll externals sourceGap reason received
      position invalidations listed) := by
  induction listed generalizing invalidations with
  | nil => exact .of_pure _
  | cons token listed ih =>
    refine .bind (.of_lift _) fun cursor =>
      .bind (moves_invalidateNext (mem token mem_cons_self)) fun event => ?_
    exact ih fun other later => mem other (mem_cons_of_mem token later)

theorem names_of_invalidate
    (ran : Adapter.invalidate externals token reason received cursor adapter = (.ok event, after)) :
    (field event "token_id").asString? = some token := by
  by_cases subscribed : token ∈ adapter.identities
  · obtain ⟨found, attempt, invalidated, names⟩ :=
      invalidate_of_subscribed externals reason received cursor subscribed
    rw [ok.inj (Prod.mk.inj (ran.symm.trans invalidated)).1]
    exact names
  · have never := (Prod.mk.inj (ran.symm.trans (invalidate_of_unsubscribed subscribed))).1
    cases never

theorem names_of_invalidateNext
    (ran : invalidateNext externals sourceGap token reason received cursor adapter =
      (.ok (some event), after)) :
    (field event "token_id").asString? = some token := by
  unfold invalidateNext at ran
  split at ran
  · unfold invalidateOnce at ran
    rw [get_bind] at ran
    split at ran
    · simp at ran
    · obtain ⟨found, middle, invalidated, ran⟩ := bind_ok.mp ran
      obtain rfl := some.inj (ok.inj (Prod.mk.inj ran).1)
      exact names_of_invalidate invalidated
  · rw [map_eq_pure_bind] at ran
    obtain ⟨found, middle, invalidated, ran⟩ := bind_ok.mp ran
    obtain rfl := some.inj (ok.inj (Prod.mk.inj ran).1)
    exact names_of_invalidate invalidated

/-- The records of an invalidation name the tokens of its list. -/
theorem names_of_invalidateAll
    (mem : ∀ token ∈ listed, tokens token)
    (named : ∀ event ∈ invalidations, ∃ token, tokens token ∧
      (field event "token_id").asString? = some token)
    (ran : invalidateAll externals sourceGap reason received position invalidations listed
      adapter = (.ok events, after)) :
    ∀ event ∈ events, ∃ token, tokens token ∧ (field event "token_id").asString? = some token := by
  induction listed generalizing invalidations adapter with
  | nil =>
    obtain ⟨same, _⟩ := Prod.mk.inj ran
    rw [← ok.inj same]
    exact named
  | cons token listed ih =>
    obtain ⟨cursor, _, ran⟩ := Effect.lift_bind_ok.mp ran
    obtain ⟨emitted, middle, invalidated, ran⟩ := bind_ok.mp ran
    refine ih (fun other later => mem other (mem_cons_of_mem token later)) ?_ ran
    intro event listedEvent
    rcases mem_append.mp listedEvent with earlier | new
    · exact named event earlier
    · rw [Option.mem_toList.mp new] at invalidated
      exact ⟨token, mem token mem_cons_self, names_of_invalidateNext invalidated⟩

/-- A subscribed token waits after its invalidation, or after the gap that found
its recovery open. -/
theorem invalidateNext_of_subscribed
    (externals : Externals) (reason : String) (received : DateTime) (cursor : Nat)
    (subscribed : token ∈ adapter.identities)
    (blocked : sourceGap = true → ∀ attempt, adapter.recoveries[token]? = some attempt →
      token ∈ adapter.waiting) :
    ∃ event next,
      invalidateNext externals sourceGap token reason received cursor adapter =
        (.ok event, next) ∧
      token ∈ next.waiting ∧
      ∀ emission, event = some emission → (field emission "token_id").asString? = some token := by
  obtain ⟨event, attempt, invalidated, names⟩ := invalidate_of_subscribed externals reason
    received cursor subscribed
  have opened : ∃ event next,
      (Adapter.invalidate externals token reason received cursor >>= fun event =>
        pure (some event)) adapter = (.ok event, next) ∧
      token ∈ next.waiting ∧
      ∀ emission, event = some emission → (field emission "token_id").asString? = some token := by
    refine ⟨some event, adapter.forget token attempt, bind_of_ok invalidated,
      waits_forget attempt, ?_⟩
    intro emission same
    rw [← some.inj same]
    exact names
  unfold invalidateNext
  cases sourceGap with
  | false =>
    rw [if_neg Bool.false_ne_true, map_eq_pure_bind]
    exact opened
  | true =>
    rw [if_pos rfl]
    unfold invalidateOnce
    rw [get_bind]
    split
    · rename_i known
      obtain ⟨attempt, found⟩ := isSome_iff_exists.mp
        ((contains_eq_isSome_getElem?.symm).trans known)
      exact ⟨none, adapter, rfl, blocked rfl attempt found, by simp⟩
    · exact opened

/-- Where the positions fit, all tokens of a list wait afterwards. -/
theorem invalidateAll_of_subscribed
    (externals : Externals) (reason : String) (received : DateTime) (invalidations : List Json)
    (bounded : position + (invalidations.length + listed.length) < 2 ^ 64)
    (subscribed : ∀ token ∈ listed, token ∈ adapter.identities)
    (blocked : sourceGap = true → ∀ token ∈ listed, ∀ attempt,
      adapter.recoveries[token]? = some attempt → token ∈ adapter.waiting) :
    ∃ events next,
      invalidateAll externals sourceGap reason received position invalidations listed
        adapter = (.ok events, next) ∧
      ∀ token ∈ listed, token ∈ next.waiting := by
  induction listed generalizing invalidations adapter with
  | nil => exact ⟨invalidations, adapter, rfl, fun _ mem => by cases mem⟩
  | cons token listed ih =>
    obtain ⟨event, middle, invalidated, waits, _⟩ := invalidateNext_of_subscribed
      externals reason received (position + (invalidations.length + 1))
      (subscribed token mem_cons_self) fun gap => blocked gap token mem_cons_self
    have moved : Blocks (fun other => other = token) adapter middle := by
      have moved : Blocks (fun other => other = token) adapter
          (invalidateNext externals sourceGap token reason received
            (position + (invalidations.length + 1)) adapter).2 := by
        apply moves_invalidateNext
        rfl
      rw [invalidated] at moved
      exact moved
    have shorter : (invalidations ++ event.toList).length + listed.length ≤
        invalidations.length + (token :: listed).length := by
      rw [length_append, length_cons]
      have : event.toList.length ≤ 1 := by cases event <;> simp
      omega
    have known : ∀ other ∈ listed, other ∈ middle.identities := by
      intro other later
      rw [moved.within.identities]
      exact subscribed other (mem_cons_of_mem token later)
    have stillBlocked : sourceGap = true → ∀ other ∈ listed, ∀ attempt,
        middle.recoveries[other]? = some attempt → other ∈ middle.waiting := by
      intro gap other later attempt opened
      by_cases same : other = token
      · rw [same]
        exact waits
      · rw [(moved.within.others other same).recovery] at opened
        exact moved.waiting other (blocked gap other (mem_cons_of_mem token later) attempt opened)
    have fits : position + ((invalidations ++ event.toList).length + listed.length) < 2 ^ 64 := by
      omega
    obtain ⟨events, next, rest, others⟩ := ih _ fits known stillBlocked
    have counted : checkedAdd position (invalidations.length + 1) "cursor overflow" =
        .ok (position + (invalidations.length + 1)) := by
      rw [length_cons] at bounded
      exact checkedAdd_ok_iff.mpr ⟨by omega, rfl⟩
    refine ⟨events, next, ?_, ?_⟩
    · unfold invalidateAll
      rw [counted]
      exact (bind_of_ok invalidated).trans rest
    · intro other mem
      rcases mem_cons.mp mem with rfl | later
      · have kept : Blocks (· ∈ listed) middle
            (invalidateAll externals sourceGap reason received position
              (invalidations ++ event.toList) listed middle).2 :=
          moves_invalidateAll (fun _ mem => mem) middle
        rw [rest] at kept
        exact kept.waiting other waits
      · exact others other later

end Lists

end MarketCow.Websocket
