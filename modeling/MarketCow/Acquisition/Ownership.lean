import MarketCow.Acquisition.Shards
import MarketCow.Library.Fallible

/-!
# Who owns a token

As long as nobody asks for a token that an unanswered command may already have
subscribed, each token belongs to one shard, and whichever commands have been
carried out, the tokens and the sockets stay within their limits.
-/

namespace MarketCow.Acquisition

open Library Finset
open List (foldr_cons mem_cons mem_cons_of_mem mem_cons_self mem_map mem_append)
open Shards (jobs pairTokens pollAll)

/-- The tokens that a shard has, or will have when its command is done. -/
def Shard.footprint (shard : Shard) : Finset String :=
  shard.tokens ∪ shard.retirementTarget.getD ∅

structure ShardSound (limit : Nat) (shard : Shard) : Prop where
  size : shard.tokens.card ≤ limit
  target : ∀ target, shard.retirementTarget = some target → target.card ≤ shard.tokens.card
  pending : ∀ next receipt, shard.pending = some (next, receipt) →
    shard.retirementTarget = some next

/-- The tokens of all shards, counted for each. -/
def Shards.charged (shards : List Shard) : Nat :=
  (shards.map fun shard => shard.tokens.card).sum

structure PoolSound (pool : Shards) : Prop where
  shards : ∀ shard ∈ pool.shards, ShardSound pool.shardTokens shard
  disjoint : pool.shards.Pairwise fun left right => Disjoint left.footprint right.footprint
  different : pool.shards.Pairwise fun left right => left.id ≠ right.id
  known : ∀ shard ∈ pool.shards, shard.id < pool.nextId
  capacity : Shards.charged pool.shards ≤ pool.maximumTokens
  sockets : pool.jobs ≤ pool.maximumShards

/-! ## Shards that only let go -/

/-- The shard has not got anything new. -/
structure Shrinks (limit : Nat) (old new : Shard) : Prop where
  same : new.id = old.id
  sound : ShardSound limit old → ShardSound limit new
  footprint : new.footprint ⊆ old.footprint
  tokens : new.tokens.card ≤ old.tokens.card

namespace Shrinks

variable {limit : Nat} {shard : Shard}

theorem refl : Shrinks limit shard shard := ⟨rfl, id, subset_rfl, le_rfl⟩

theorem received : Shrinks limit shard shard.received :=
  ⟨rfl, fun sound => ⟨sound.size, sound.target, sound.pending⟩, subset_rfl, le_rfl⟩

theorem answeredWith (receipt : Receipt) : Shrinks limit shard (shard.answeredWith receipt) := by
  unfold Shard.answeredWith
  split
  · rename_i next pending
    refine ⟨rfl, fun sound => ⟨sound.size, sound.target, ?_⟩, subset_rfl, le_rfl⟩
    rintro _ _ ⟨⟩
    exact sound.pending next .empty pending
  · exact refl

theorem ended : Shrinks limit shard shard.ended := by
  have answered : Shrinks limit shard (shard.answeredWith .closed) := answeredWith _
  refine ⟨answered.same, fun sound => ?_, answered.footprint, answered.tokens⟩
  have kept := answered.sound sound
  exact ⟨kept.size, kept.target, kept.pending⟩

theorem retireTokens
    (removed : Finset String) : Shrinks limit shard (Shards.retireTokens removed shard) := by
  unfold Shards.retireTokens
  split
  · exact refl
  · split
    · exact ⟨rfl, fun sound => ⟨sound.size, sound.target, sound.pending⟩, subset_rfl, le_rfl⟩
    · refine ⟨rfl, fun sound => ⟨sound.size, ?_, ?_⟩, ?_, le_rfl⟩
      · rintro _ ⟨⟩
        exact card_le_card sdiff_subset
      · rintro _ _ ⟨⟩
        rfl
      · refine union_subset subset_union_left ?_
        exact sdiff_subset.trans subset_union_left

/-- An answer makes the target the tokens of the shard. -/
theorem poll (sound : ShardSound limit shard) : Shrinks limit shard shard.poll.1 := by
  unfold Shard.poll
  dsimp only
  split
  · exact refl
  · rename_i retried asked
    have retries : Shrinks limit shard retried ∧ ShardSound limit retried ∧
        retried.retirementTarget = shard.retirementTarget := by
      split at asked
      · rename_i next absent target
        split at asked
        · cases asked
          have kept : ShardSound limit
              { shard with commandWaits := true, pending := some (next, .empty) } := by
            refine ⟨sound.size, sound.target, ?_⟩
            rintro _ _ ⟨⟩
            exact target
          exact ⟨⟨rfl, fun _ => kept, subset_rfl, le_rfl⟩, kept, rfl⟩
        · cases asked
      · cases asked
        exact ⟨refl, sound, rfl⟩
    obtain ⟨shrinks, kept, target⟩ := retries
    split
    · exact shrinks
    · exact shrinks
    · rename_i next pending
      have wanted := kept.pending next _ pending
      refine ⟨shrinks.same, fun _ => ⟨(kept.target next wanted).trans kept.size, ?_, ?_⟩, ?_, ?_⟩
      · rintro _ ⟨⟩
      · rintro _ _ ⟨⟩
      · intro token mem
        rw [target] at wanted
        simp only [Shard.footprint, Option.getD_none, union_empty] at mem
        simp only [Shard.footprint, wanted, Option.getD_some, mem_union]
        exact .inr mem
      · exact (kept.target next wanted).trans shrinks.tokens
    · refine ⟨shrinks.same, fun _ => ⟨kept.size, kept.target, ?_⟩, shrinks.footprint, shrinks.tokens⟩
      rintro _ _ ⟨⟩
    · refine ⟨shrinks.same, fun _ => ⟨kept.size, kept.target, ?_⟩, shrinks.footprint, shrinks.tokens⟩
      rintro _ _ ⟨⟩

end Shrinks

variable {limit : Nat}

/-- Lists of shards that only let go keep what a pool needs. -/
theorem shrunk
    (related : List.Forall₂ (Shrinks limit) old new) (sound : ∀ shard ∈ old, ShardSound limit shard)
    (disjoint : old.Pairwise fun left right => Disjoint left.footprint right.footprint)
    (ne : old.Pairwise fun left right => left.id ≠ right.id) :
    (∀ shard ∈ new, ShardSound limit shard) ∧
      (new.Pairwise fun left right => Disjoint left.footprint right.footprint) ∧
      (new.Pairwise fun left right => left.id ≠ right.id) ∧
      Shards.charged new ≤ Shards.charged old ∧
      ∀ shard ∈ new, ∃ before ∈ old, Shrinks limit before shard := by
  induction related with
  | nil => simp
  | @cons first shard old new shrinks related ih =>
    rw [List.pairwise_cons] at disjoint ne
    obtain ⟨kept, apart, distinct, charged, origin⟩ := ih
      (fun shard mem => sound shard (mem_cons_of_mem _ mem)) disjoint.2 ne.2
    refine ⟨?_, ?_, ?_, ?_, ?_⟩
    · intro other mem
      rcases mem_cons.mp mem with rfl | later
      · exact shrinks.sound (sound first mem_cons_self)
      · exact kept other later
    · refine List.pairwise_cons.mpr ⟨?_, apart⟩
      intro other mem
      obtain ⟨before, earlier, shrunk⟩ := origin other mem
      exact (disjoint.1 before earlier).mono shrinks.footprint shrunk.footprint
    · refine List.pairwise_cons.mpr ⟨?_, distinct⟩
      intro other mem
      obtain ⟨before, earlier, shrunk⟩ := origin other mem
      rw [shrinks.same, shrunk.same]
      exact ne.1 before earlier
    · have less := shrinks.tokens
      simp only [Shards.charged, List.map_cons, List.sum_cons] at charged ⊢
      omega
    · intro other mem
      rcases mem_cons.mp mem with rfl | later
      · exact ⟨first, mem_cons_self, shrinks⟩
      · obtain ⟨before, earlier, shrunk⟩ := origin other later
        exact ⟨before, mem_cons_of_mem _ earlier, shrunk⟩

theorem forall₂_map (change : Shard → Shard) (shrinks : ∀ shard, Shrinks limit shard (change shard))
    (shards : List Shard) : List.Forall₂ (Shrinks limit) shards (shards.map change) := by
  induction shards with
  | nil => exact .nil
  | cons shard shards ih => exact .cons (shrinks shard) ih

theorem forall₂_pollAll (shards : List Shard) (sound : ∀ shard ∈ shards, ShardSound limit shard) :
    List.Forall₂ (Shrinks limit) shards (pollAll shards).1 := by
  induction shards with
  | nil => exact .nil
  | cons shard shards ih =>
    have first := Shrinks.poll (sound shard mem_cons_self)
    have rest := ih fun shard mem => sound shard (mem_cons_of_mem _ mem)
    have same : List.Forall₂ (Shrinks limit) shards shards := List.forall₂_same.mpr fun _ _ => .refl
    unfold pollAll
    split
    · rename_i polled
      rw [polled] at first
      exact .cons first same
    · rename_i polled
      rw [polled] at first
      split <;> rename_i polledAll <;> rw [polledAll] at rest <;>
        exact .cons first rest

theorem Shards.handleFinished_finished (pool : Shards) (id : Nat)
    (exit : ShardExit) : (pool.handleFinished id exit).1.finished = pool.finished := by
  unfold Shards.handleFinished
  split
  · rfl
  · dsimp only
    split
    · rfl
    · split
      · rfl
      · rename_i spawned
        iterate 3 obtain ⟨_, _, spawned⟩ := bind_ok.mp spawned
        cases spawned
        rfl

namespace PoolSound

variable {pool : Shards}

theorem fresh
    (made : Shards.new maximumTokens maximumShards shardTokens = .ok pool) : PoolSound pool := by
  obtain ⟨_, _, made⟩ := bind_ok.mp made
  cases made
  refine ⟨?_, .nil, .nil, ?_, Nat.zero_le _, Nat.zero_le _⟩
  · rintro _ ⟨⟩
  · rintro _ ⟨⟩

variable {shards : List Shard}

/-- A pool whose shards only let go stays sound. -/
theorem shrink (sound : PoolSound pool)
    (related : List.Forall₂ (Shrinks pool.shardTokens) pool.shards shards) :
    PoolSound { pool with shards } := by
  obtain ⟨kept, apart, distinct, charged, origin⟩ :=
    shrunk related sound.shards sound.disjoint sound.different
  refine ⟨kept, apart, distinct, ?_, charged.trans sound.capacity, sound.sockets⟩
  intro shard mem
  obtain ⟨before, earlier, shrinks⟩ := origin shard mem
  rw [shrinks.same]
  exact sound.known before earlier

theorem update {id : Nat} {change : Shard → Shard}
    (sound : PoolSound pool) (shrinks : ∀ shard, Shrinks pool.shardTokens shard (change shard)) :
    PoolSound (pool.update id change) := by
  refine sound.shrink (forall₂_map _ ?_ _)
  intro shard
  split
  · exact shrinks shard
  · exact .refl

theorem mem_tokens :
    token ∈ shards.foldr (fun (shard : Shard) tokens => shard.tokens ∪ tokens) ∅ ↔
      ∃ shard : Shard, shard ∈ shards ∧ token ∈ shard.tokens := by
  induction shards with
  | nil => simp
  | cons shard shards ih => simp [ih]

/-- The tokens of disjoint shards are counted once. -/
theorem card_tokens
    (disjoint : shards.Pairwise fun left right => Disjoint left.footprint right.footprint) :
    (shards.foldr (fun (shard : Shard) tokens => shard.tokens ∪ tokens) ∅).card =
      Shards.charged shards := by
  induction shards with
  | nil => rfl
  | cons shard shards ih =>
    rw [List.pairwise_cons] at disjoint
    have apart : Disjoint shard.tokens
        (shards.foldr (fun (shard : Shard) tokens => shard.tokens ∪ tokens) ∅) := by
      rw [disjoint_left]
      intro token mine others
      obtain ⟨other, mem, theirs⟩ := mem_tokens.mp others
      exact disjoint_left.mp (disjoint.1 other mem)
        (mem_union_left _ mine) (mem_union_left _ theirs)
    rw [foldr_cons, card_union_of_disjoint apart, ih disjoint.2]
    rfl

theorem apart (sound : PoolSound pool) :
    ∀ left ∈ pool.shards, ∀ right ∈ pool.shards, left.id ≠ right.id →
      Disjoint left.footprint right.footprint := by
  intro left inLeft right inRight ne
  have symmetric : Std.Symm fun left right : Shard => Disjoint left.footprint right.footprint :=
    ⟨fun _ _ disjoint => disjoint.symm⟩
  exact sound.disjoint.forall inLeft inRight fun same => ne (congrArg Shard.id same)

/-- Without a shard, its tokens are not counted. -/
theorem charged_filter {id : Nat} {shard : Shard} (mem : shard ∈ shards) (mine : shard.id = id) :
    Shards.charged (shards.filter fun shard => shard.id ≠ id) + shard.tokens.card ≤
      Shards.charged shards := by
  induction shards with
  | nil => cases mem
  | cons first shards ih =>
    have rest : Shards.charged (shards.filter fun shard => shard.id ≠ id) ≤
        Shards.charged shards :=
      List.Sublist.sum_le_sum (List.filter_sublist.map _) (by simp)
    simp only [Shards.charged, List.map_cons, List.sum_cons] at rest ih ⊢
    rcases mem_cons.mp mem with rfl | later
    · rw [List.filter_cons_of_neg (by simpa using mine)]
      omega
    · have earlier := ih later
      by_cases other : first.id = id
      · rw [List.filter_cons_of_neg (by simpa using other)]
        omega
      · rw [List.filter_cons_of_pos (by simpa using other), List.map_cons, List.sum_cons]
        omega

theorem remove (sound : PoolSound pool) (id : Nat) :
    PoolSound { pool with shards := pool.shards.filter fun shard => shard.id ≠ id } := by
  refine ⟨?_, sound.disjoint.filter _, sound.different.filter _, ?_, ?_, sound.sockets⟩
  · intro shard mem
    exact sound.shards shard (List.mem_of_mem_filter mem)
  · intro shard mem
    exact sound.known shard (List.mem_of_mem_filter mem)
  · refine le_trans ?_ sound.capacity
    exact List.Sublist.sum_le_sum (List.filter_sublist.map _) (by simp)

/-- One shard may get tokens that no other shard has or will have. -/
theorem grow {id : Nat} {change : Shard → Shard}
    (sound : PoolSound pool) (same : ∀ shard, (change shard).id = shard.id)
    (tokens : ∀ shard, (change shard).tokens = shard.tokens)
    (kept : ∀ shard ∈ pool.shards, shard.id = id → ShardSound pool.shardTokens (change shard))
    (apart : ∀ shard ∈ pool.shards, shard.id = id → ∀ other ∈ pool.shards, other.id ≠ id →
      Disjoint (change shard).footprint other.footprint) :
    PoolSound (pool.update id change) := by
  refine ⟨?_, ?_, ?_, ?_, ?_, sound.sockets⟩
  · intro shard mem
    obtain ⟨before, earlier, rfl⟩ := mem_map.mp mem
    split
    · rename_i mine
      exact kept before earlier mine
    · exact sound.shards before earlier
  · refine List.pairwise_map.mpr ?_
    refine (sound.disjoint.and sound.different).imp_of_mem ?_
    rintro left right inLeft inRight ⟨disjoint, ne⟩
    by_cases mine : left.id = id
    · have others : right.id ≠ id := fun also => ne (mine.trans also.symm)
      rw [if_pos mine, if_neg others]
      exact apart left inLeft mine right inRight others
    · rw [if_neg mine]
      split
      · rename_i also
        exact (apart right inRight also left inLeft mine).symm
      · exact disjoint
  · refine List.pairwise_map.mpr (sound.different.imp ?_)
    intro left right ne
    have ids : ∀ shard : Shard, (if shard.id = id then change shard else shard).id = shard.id := by
      intro shard
      split
      · exact same shard
      · rfl
    rw [ids, ids]
    exact ne
  · intro shard mem
    obtain ⟨before, earlier, rfl⟩ := mem_map.mp mem
    split
    · rw [same]
      exact sound.known before earlier
    · exact sound.known before earlier
  · refine le_trans (le_of_eq ?_) sound.capacity
    unfold Shards.charged Shards.update
    rw [List.map_map]
    congr 1
    refine List.map_congr_left ?_
    intro shard _
    rw [Function.comp_apply]
    split
    · rw [tokens]
    · rfl

/-- A new socket for tokens that no other shard has or will have. -/
theorem spawn {tokens : Finset String} {after : Shards} {id : Nat}
    (sound : PoolSound pool) (spawned : pool.spawnOwnedTokens tokens = .ok (after, id))
    (apart : ∀ shard ∈ pool.shards, Disjoint shard.footprint tokens)
    (capacity : Shards.charged pool.shards + tokens.card ≤ pool.maximumTokens) :
    PoolSound after ∧ id = pool.nextId ∧ after.shardTokens = pool.shardTokens ∧
      after.maximumTokens = pool.maximumTokens ∧
      after.shards = pool.shards ++ [Shard.fresh pool.nextId tokens] := by
  obtain ⟨_, fits, _, room, _, _, spawned⟩ := bind₃_ok.mp spawned
  simp only [ensure_ok, Bool.and_eq_true, decide_eq_true_eq] at fits room
  cases spawned
  refine ⟨⟨?_, ?_, ?_, ?_, ?_, ?_⟩, rfl, rfl, rfl, rfl⟩
  · intro shard mem
    rcases mem_append.mp mem with earlier | last
    · exact sound.shards shard earlier
    · obtain rfl := List.mem_singleton.mp last
      refine ⟨fits.2, ?_, ?_⟩
      · rintro _ ⟨⟩
      · rintro _ _ ⟨⟩
  · refine List.pairwise_append.mpr ⟨sound.disjoint, List.pairwise_singleton _ _, ?_⟩
    intro shard earlier other last
    obtain rfl := List.mem_singleton.mp last
    simpa [Shard.footprint, Shard.fresh] using apart shard earlier
  · refine List.pairwise_append.mpr ⟨sound.different, List.pairwise_singleton _ _, ?_⟩
    intro shard earlier other last
    obtain rfl := List.mem_singleton.mp last
    exact (sound.known shard earlier).ne
  · intro shard mem
    rcases mem_append.mp mem with earlier | last
    · exact (sound.known shard earlier).trans (Nat.lt_succ_self _)
    · obtain rfl := List.mem_singleton.mp last
      exact Nat.lt_succ_self _
  · simpa [Shards.charged, Shard.fresh] using capacity
  · have sockets := sound.sockets
    simp only [jobs, List.length_append, List.length_singleton] at room ⊢
    omega

/-- A socket whose task has ended is replaced by one with the same tokens and
the same target. -/
theorem handleFinished {id : Nat} {exit : ShardExit} (sound : PoolSound pool) :
    PoolSound (pool.handleFinished id exit).1 ∧
      ∀ shard ∈ (pool.handleFinished id exit).1.shards, ∃ before ∈ pool.shards,
        shard.tokens = before.tokens ∧ shard.retirementTarget = before.retirementTarget := by
  have removed := sound.remove id
  have stays : ∀ shard ∈ pool.shards.filter fun shard => shard.id ≠ id, ∃ before ∈ pool.shards,
      shard.tokens = before.tokens ∧ shard.retirementTarget = before.retirementTarget :=
    fun shard mem => ⟨shard, List.mem_of_mem_filter mem, rfl, rfl⟩
  unfold Shards.handleFinished
  cases found : pool.shards.find? fun shard => shard.id = id with
  | none => exact ⟨sound, fun shard mem => ⟨shard, mem, rfl, rfl⟩⟩
  | some shard =>
    have present := List.mem_of_find?_eq_some found
    have mine : shard.id = id := by simpa using List.find?_some found
    have others : ∀ other ∈ pool.shards.filter (fun shard => shard.id ≠ id),
        Disjoint other.footprint shard.footprint := by
      intro other mem
      rw [List.mem_filter, decide_eq_true_eq] at mem
      exact sound.apart other mem.1 shard present (mine ▸ mem.2)
    dsimp only
    split
    · exact ⟨removed, stays⟩
    · split
      · exact ⟨removed, stays⟩
      · rename_i after replacement spawned
        have tokens : shard.tokens ⊆ shard.footprint := subset_union_left
        have capacity := (charged_filter present mine).trans sound.capacity
        obtain ⟨kept, rfl, limit, _, shards⟩ := removed.spawn spawned
          (fun other mem => (others other mem).mono_right tokens) capacity
        have before := sound.shards shard present
        have footprint : ({ Shard.fresh pool.nextId shard.tokens with
            retirementTarget := shard.retirementTarget } : Shard).footprint = shard.footprint := rfl
        have fresh : ∀ other ∈ after.shards, other.id = pool.nextId →
            other = Shard.fresh pool.nextId shard.tokens := by
          intro other mem new
          rw [shards, mem_append, List.mem_singleton] at mem
          rcases mem with earlier | last
          · exact absurd new (removed.known other earlier).ne
          · exact last
        refine ⟨?_, ?_⟩
        · have grown := @grow after pool.nextId
            (fun fresh => { fresh with retirementTarget := shard.retirementTarget }) kept
            (fun _ => rfl) (fun _ => rfl) ?_ ?_
          · exact ⟨grown.shards, grown.disjoint, grown.different, grown.known, grown.capacity,
              grown.sockets⟩
          · intro other mem new
            rw [fresh other mem new, limit]
            refine ⟨before.size, before.target, ?_⟩
            rintro _ _ ⟨⟩
          · intro other mem new another present ne
            rw [fresh other mem new, footprint]
            rw [shards, mem_append, List.mem_singleton] at present
            rcases present with earlier | rfl
            · exact (others another earlier).symm
            · exact absurd rfl ne
        · intro other mem
          obtain ⟨source, origin, rfl⟩ := mem_map.mp mem
          split
          · rename_i new
            rw [fresh source origin new]
            exact ⟨shard, present, rfl, rfl⟩
          · rw [shards, mem_append, List.mem_singleton] at origin
            rcases origin with earlier | rfl
            · exact stays source earlier
            · rename_i new
              exact absurd rfl new

/-- Noticing the ends of tasks changes no tokens and no targets. -/
theorem reapAll (sound : PoolSound pool) (whole : pool.finished = finished) :
    PoolSound (Shards.reapAll finished pool).1 ∧
      ∀ shard ∈ (Shards.reapAll finished pool).1.shards, ∃ before ∈ pool.shards,
        shard.tokens = before.tokens ∧ shard.retirementTarget = before.retirementTarget := by
  induction finished generalizing pool with
  | nil => exact ⟨sound, fun shard mem => ⟨shard, mem, rfl, rfl⟩⟩
  | cons job finished ih =>
    obtain ⟨id, exit⟩ := job
    have taken : PoolSound { pool with finished } := by
      refine ⟨sound.shards, sound.disjoint, sound.different, sound.known, sound.capacity, ?_⟩
      have sockets := sound.sockets
      simp only [jobs, whole, List.length_cons] at sockets ⊢
      omega
    obtain ⟨handled, origin⟩ := @handleFinished _ id exit taken
    have rest := Shards.handleFinished_finished { pool with finished } id exit
    unfold Shards.reapAll
    split
    · rename_i noticed
      rw [noticed] at handled origin
      exact ⟨handled, origin⟩
    · rename_i noticed
      rw [noticed] at handled origin rest
      obtain ⟨kept, earlier⟩ := ih handled rest
      refine ⟨kept, ?_⟩
      intro shard mem
      obtain ⟨middle, there, tokens, target⟩ := earlier shard mem
      obtain ⟨before, first, sameTokens, sameTarget⟩ := origin middle there
      exact ⟨before, first, tokens.trans sameTokens, target.trans sameTarget⟩

theorem reap (sound : PoolSound pool) :
    PoolSound pool.reap.1 ∧ ∀ shard ∈ pool.reap.1.shards, ∃ before ∈ pool.shards,
      shard.tokens = before.tokens ∧ shard.retirementTarget = before.retirementTarget :=
  sound.reapAll rfl

/-- New sockets for batches of tokens that no shard has or will have. -/
theorem spawnAll {batches : List (Finset String)} (sound : PoolSound pool)
    (apart : ∀ batch ∈ batches, ∀ shard ∈ pool.shards, Disjoint shard.footprint batch)
    (ne : batches.Pairwise Disjoint)
    (capacity : Shards.charged pool.shards + (batches.map Finset.card).sum ≤ pool.maximumTokens) :
    PoolSound (Shards.spawnAll batches pool).1 := by
  induction batches generalizing pool with
  | nil => exact sound
  | cons tokens batches ih =>
    rw [List.map_cons, List.sum_cons] at capacity
    rw [List.pairwise_cons] at ne
    unfold Shards.spawnAll
    split
    · exact sound
    · rename_i after id spawned
      obtain ⟨kept, _, _, maximum, shards⟩ := sound.spawn spawned
        (apart tokens mem_cons_self) (by omega)
      have later := ih kept ?_ ne.2 ?_
      · split <;> rename_i rest <;> rw [rest] at later <;> exact later
      · intro batch mem shard present
        rw [shards, mem_append, List.mem_singleton] at present
        rcases present with earlier | rfl
        · exact apart batch (mem_cons_of_mem _ mem) shard earlier
        · simpa [Shard.footprint, Shard.fresh] using ne.1 batch mem
      · rw [shards, maximum]
        simp only [Shards.charged, List.map_append, List.sum_append, List.map_singleton,
          List.sum_singleton, Shard.fresh] at capacity ⊢
        omega

end PoolSound

/-- Pairs that are inserted are new and different. -/
theorem insertPairs_apart (inserted : Shards.insertPairs pairs owned = .ok tokens) :
    (∀ batch ∈ pairs.map pairTokens, Disjoint owned batch) ∧
      (pairs.map pairTokens).Pairwise Disjoint ∧
      tokens.card = owned.card + ((pairs.map pairTokens).map Finset.card).sum := by
  induction pairs generalizing owned with
  | nil =>
    cases inserted
    simp
  | cons pair pairs ih =>
    obtain ⟨first, second⟩ := pair
    obtain ⟨_, _, _, firstNew, _, secondNew, inserted⟩ := bind₃_ok.mp inserted
    simp only [ensure_ok, decide_eq_true_eq] at firstNew secondNew
    obtain ⟨apart, ne, counted⟩ := ih inserted
    have whole : insert second (insert first owned) = owned ∪ pairTokens (first, second) := by
      ext token
      simp only [pairTokens, mem_insert, mem_union, mem_singleton]
      tauto
    have new : Disjoint owned (pairTokens (first, second)) := by
      rw [disjoint_left]
      intro token mine theirs
      simp only [pairTokens, mem_insert, mem_singleton] at theirs
      rcases theirs with rfl | rfl
      · exact firstNew mine
      · exact secondNew (mem_insert_of_mem mine)
    rw [whole] at apart counted
    refine ⟨?_, ?_, ?_⟩
    · intro batch mem
      rcases mem_cons.mp mem with rfl | later
      · exact new
      · exact (apart batch later).mono_left subset_union_left
    · refine List.pairwise_cons.mpr ⟨?_, ne⟩
      intro batch later
      exact (apart batch later).mono_left subset_union_right
    · rw [counted, card_union_of_disjoint new, List.map_cons, List.map_cons,
        List.sum_cons, Nat.add_assoc]

/-! ## Requests -/

/-- The tokens of some pairs. -/
def pairsTokens (pairs : List (String × String)) : Finset String :=
  pairs.foldr (fun pair tokens => pairTokens pair ∪ tokens) ∅

theorem mem_pairsTokens : token ∈ pairsTokens pairs ↔ ∃ pair ∈ pairs, token ∈ pairTokens pair := by
  induction pairs with
  | nil => simp [pairsTokens]
  | cons pair pairs ih =>
    change token ∈ pairTokens pair ∪ pairsTokens pairs ↔ _
    rw [mem_union, ih]
    simp

/-- The tokens that a request adds. One for tokens that are owned adds none, nor
does one to replace a pair whose shard is changing already. -/
def ShardsAction.added (pool : Shards) : ShardsAction → Finset String
  | .addPairs pairs =>
    if Disjoint pool.reap.1.tokens (pairsTokens pairs) then pairsTokens pairs else ∅
  | .requestPairReplacement removedPair addedPair =>
    let removed := pairTokens removedPair
    let added := pairTokens addedPair
    if Disjoint added pool.tokens ∧
        (Disjoint removed pool.tokens ∨ removed ⊆ pool.tokens ∧ pool.changing removed = false) then
      added
    else ∅
  | _ => ∅

/-- No unanswered command may already have subscribed the tokens. -/
def Uncontended (pool : Shards) (tokens : Finset String) : Prop :=
  ∀ shard ∈ pool.shards, ∀ target, shard.retirementTarget = some target → Disjoint target tokens

namespace PoolSound

variable {pool : Shards}

theorem addPairs {pairs : List (String × String)} (sound : PoolSound pool)
    (uncontended : (∀ batch ∈ pairs.map pairTokens, Disjoint pool.reap.1.tokens batch) →
      ∀ batch ∈ pairs.map pairTokens, Uncontended pool batch) :
    PoolSound (pool.addPairs pairs).1 := by
  obtain ⟨reaped, origin⟩ := sound.reap
  unfold Shards.addPairs
  split
  · rename_i noticed
    rw [noticed] at reaped
    exact reaped
  · rename_i middle noticed
    rw [noticed] at reaped origin uncontended
    split
    · exact reaped
    · rename_i batches validated
      split
      · exact reaped
      · obtain ⟨tokens, inserted, _, within, _, _, validated⟩ := bind₃_ok.mp validated
        cases validated
        rw [ensure_ok, decide_eq_true_eq] at within
        obtain ⟨apart, ne, counted⟩ := insertPairs_apart inserted
        refine reaped.spawnAll ?_ ne ?_
        · intro batch mem shard present
          refine disjoint_union_left.mpr ⟨?_, ?_⟩
          · refine (apart batch mem).mono_left ?_
            intro token mine
            exact mem_tokens.mpr ⟨shard, present, mine⟩
          · obtain ⟨before, earlier, _, target⟩ := origin shard present
            rw [target]
            cases known : before.retirementTarget with
            | none => exact disjoint_empty_left _
            | some next => exact uncontended apart batch mem before earlier next known
        · have owned : middle.tokens.card = Shards.charged middle.shards :=
            card_tokens reaped.disjoint
          exact (counted.trans (congrArg (· + _) owned)).symm.le.trans within

section

variable (sound : PoolSound pool)
include sound

theorem beginRetire (removed : Finset String) : PoolSound (pool.beginRetire removed).1 := by
  unfold Shards.beginRetire
  split
  · split
    · exact sound
    · exact sound.shrink (forall₂_map _ (fun _ => Shrinks.retireTokens removed) _)
  · exact sound

theorem requestRetire (removed : Finset String) : PoolSound (pool.requestRetire removed).1 := by
  unfold Shards.requestRetire
  split
  · dsimp only
    split
    · exact sound
    · split
      · exact sound
      · have begun := sound.beginRetire (removed ∩ pool.tokens)
        split <;> rename_i requested <;> rw [requested] at begun <;> exact begun
  · exact sound

/-- The shard that has the removed pair may get the added one. -/
theorem replacePair (pair : removed.card = 2) (addedPair : added.card ≤ 2)
    (unchanged : pool.changing removed = false) (new : Disjoint added pool.tokens)
    (uncontended : Uncontended pool added) :
    PoolSound (pool.replacePair removed added).1 := by
  unfold Shards.replacePair
  split
  · rename_i shard matching
    have mem : shard ∈ pool.shards.filter fun shard => decide (removed ⊆ shard.tokens) := by
      rw [matching]
      exact List.mem_singleton_self _
    rw [List.mem_filter, decide_eq_true_eq] at mem
    obtain ⟨present, has⟩ := mem
    dsimp only
    split
    · rename_i fits
      split
      · have only : ∀ other ∈ pool.shards, other.id = shard.id → other = shard := by
          intro other there same
          have symmetric : Std.Symm fun left right : Shard => left.id ≠ right.id :=
            ⟨fun _ _ ne => ne.symm⟩
          by_contra ne
          exact sound.different.forall there present ne same
        have free : shard.retirementTarget = none := by
          have still := List.any_eq_false.mp unchanged shard present
          have meets : ¬Disjoint shard.tokens removed := by
            intro apart
            have empty := disjoint_of_subset_left has apart
            rw [disjoint_self_iff_empty] at empty
            rw [empty] at pair
            cases pair
          simp only [meets, not_false_eq_true, decide_true, Bool.true_and, Bool.or_eq_true,
            Option.isSome_iff_ne_none, not_or, not_not] at still
          exact still.1
        have kept := sound.shards shard present
        refine sound.grow (fun _ => rfl) (fun _ => rfl) ?_ ?_
        · intro other there same
          obtain rfl := only other there same
          refine ⟨kept.size, ?_, ?_⟩
          · rintro _ ⟨⟩
            have removes := card_sdiff_of_subset has
            have union := card_union_le (other.tokens \ removed) added
            have atLeast := card_le_card has
            change (other.tokens \ removed ∪ added).card ≤ other.tokens.card
            omega
          · rintro _ _ ⟨⟩
            rfl
        · intro other there same another also ne
          obtain rfl := only other there same
          have apart := sound.apart other there another also fun equal => ne equal.symm
          have footprint : (other.request (other.tokens \ removed ∪ added)).footprint ⊆
              other.tokens ∪ added := by
            refine union_subset subset_union_left ?_
            exact union_subset_union_left sdiff_subset
          refine disjoint_of_subset_left footprint (disjoint_union_left.mpr ⟨?_, ?_⟩)
          · exact apart.mono_left subset_union_left
          · refine disjoint_union_right.mpr ⟨new.mono_right ?_, ?_⟩
            · intro token mine
              exact mem_tokens.mpr ⟨another, also, mine⟩
            · cases known : another.retirementTarget with
              | none => exact disjoint_empty_right _
              | some target => exact (uncontended another also target known).symm
      · exact sound
    · exact sound
  · exact sound

theorem requestPairReplacement
    (uncontended : Uncontended pool
      (ShardsAction.added pool (.requestPairReplacement removed added))) :
    PoolSound (pool.requestPairReplacement removed added).1 := by
  unfold ShardsAction.added at uncontended
  dsimp only at uncontended
  unfold Shards.requestPairReplacement
  split
  · rename_i valid
    dsimp only
    split
    · exact sound
    · split
      · rename_i fresh
        rw [if_pos ⟨fresh.2, .inl fresh.1⟩] at uncontended
        have adds := @addPairs _ [added] sound (fun _ => by simpa using uncontended)
        split <;> rename_i requested <;> rw [requested] at adds <;> exact adds
      · split
        · rename_i owned
          split
          · exact sound
          · rename_i unchanged
            rw [if_pos ⟨owned.2, .inr ⟨owned.1, Bool.not_eq_true _ ▸ unchanged⟩⟩] at uncontended
            refine sound.replacePair ?_ card_le_two (Bool.not_eq_true _ ▸ unchanged)
              owned.2 uncontended
            refine card_pair ?_
            have ne := valid.1
            simp only [Shards.validPair, Bool.and_eq_true, bne_iff_ne] at ne
            exact ne.1.1
        · exact sound
  · exact sound

end

theorem pollRetirements (sound : PoolSound pool) : PoolSound pool.pollRetirements.1 := by
  have polled := sound.shrink (forall₂_pollAll pool.shards sound.shards)
  unfold Shards.pollRetirements
  split
  · rename_i answered
    rw [answered] at polled
    exact polled
  · rename_i answered
    rw [answered] at polled
    have reaped := polled.reap.1
    split <;> rename_i noticed <;> rw [noticed] at reaped <;> exact reaped

/-- Steps that ask for nothing contended keep the pool sound. -/
theorem step {action : ShardsAction} {after : Shards}
    (sound : PoolSound pool) (taken : ShardsStep pool action after)
    (uncontended : Uncontended pool (action.added pool)) : PoolSound after := by
  cases taken with
  | @pairsAdded pairs =>
    refine sound.addPairs fun apart batch mem shard present target known => ?_
    have fresh : Disjoint pool.reap.1.tokens (pairsTokens pairs) := by
      rw [disjoint_right]
      intro token listed
      obtain ⟨pair, inPairs, mine⟩ := mem_pairsTokens.mp listed
      exact disjoint_right.mp (apart _ (List.mem_map_of_mem inPairs)) mine
    unfold ShardsAction.added at uncontended
    dsimp only at uncontended
    rw [if_pos fresh] at uncontended
    refine (uncontended shard present target known).mono_right ?_
    intro token mine
    obtain ⟨pair, inPairs, rfl⟩ := mem_map.mp mem
    exact mem_pairsTokens.mpr ⟨pair, inPairs, mine⟩
  | retirementBegun => exact sound.beginRetire _
  | retirementRequested => exact sound.requestRetire _
  | replacementRequested => exact sound.requestPairReplacement uncontended
  | polled => exact sound.pollRetirements
  | reaped => exact sound.reap.1
  | @joined id exit finished first =>
    have taken : PoolSound { pool with finished } := by
      refine ⟨sound.shards, sound.disjoint, sound.different, sound.known, sound.capacity, ?_⟩
      have sockets := sound.sockets
      simp only [jobs, first, List.length_cons] at sockets ⊢
      omega
    exact taken.handleFinished.1
  | received => exact sound.update fun _ => Shrinks.received
  | answered | lost => exact sound.update fun _ => Shrinks.answeredWith _
  | @exited id exit running =>
    have ended := @update _ id _ sound fun _ => Shrinks.ended
    refine ⟨ended.shards, ended.disjoint, ended.different, ended.known, ended.capacity, ?_⟩
    have sockets := sound.sockets
    have positive := List.length_pos_of_mem running
    simp only [jobs, Shards.update, List.length_erase_of_mem running,
      List.length_append, List.length_singleton] at sockets ⊢
    omega

end PoolSound

/-! ## Ownership and capacity -/

/-- A step that adds no token which an unanswered command may already have
subscribed. -/
def UncontendedStep (pool : Shards) (action : ShardsAction) (after : Shards) : Prop :=
  ShardsStep pool action after ∧ Uncontended pool (action.added pool)

def UncontendedRun (maximumTokens maximumShards shardTokens : Nat) (actions : List ShardsAction)
    (pool : Shards) : Prop :=
  ∃ fresh, Shards.new maximumTokens maximumShards shardTokens = .ok fresh ∧
    Run UncontendedStep fresh actions pool

/-- The tokens of the pool when the commands of some shards have been carried
out. -/
def Shards.carriedOut (pool : Shards) (done : Shard → Bool) : Finset String :=
  pool.shards.foldr
    (fun shard tokens =>
      (if done shard then shard.retirementTarget.getD shard.tokens else shard.tokens) ∪ tokens) ∅

/-- Every token has one owner, also when commands are carried out, and tokens
and sockets stay within their limits. -/
structure OwnershipKept (pool : Shards) : Prop where
  disjoint : pool.shards.Pairwise fun left right => Disjoint left.footprint right.footprint
  capacity : pool.tokens.card ≤ pool.maximumTokens
  carriedOut : ∀ done : Shard → Bool, (pool.carriedOut done).card ≤ pool.maximumTokens
  shards : ∀ shard ∈ pool.shards, shard.tokens.card ≤ pool.shardTokens ∧
    ∀ target, shard.retirementTarget = some target → target.card ≤ pool.shardTokens
  sockets : pool.running.length ≤ pool.maximumShards ∧ pool.jobs ≤ pool.maximumShards

theorem carriedOut_le_charged
    (done : Shard → Bool) (sound : ∀ shard ∈ shards, ShardSound limit shard) :
    (shards.foldr (fun (shard : Shard) tokens =>
      (if done shard then shard.retirementTarget.getD shard.tokens else shard.tokens) ∪ tokens)
        ∅).card ≤ Shards.charged shards := by
  induction shards with
  | nil => exact le_rfl
  | cons shard shards ih =>
    have rest := ih fun other mem =>
      sound other (mem_cons_of_mem _ mem)
    have first : (if done shard then shard.retirementTarget.getD shard.tokens
        else shard.tokens).card ≤ shard.tokens.card := by
      split
      · cases known : shard.retirementTarget with
        | none => exact le_rfl
        | some target => exact (sound shard mem_cons_self).target target known
      · exact le_rfl
    rw [foldr_cons]
    refine (card_union_le _ _).trans ?_
    exact Nat.add_le_add first rest

theorem ownershipKept_of_run
    {maximumTokens maximumShards shardTokens : Nat} {actions : List ShardsAction} {pool : Shards}
    (run : UncontendedRun maximumTokens maximumShards shardTokens actions pool) :
    OwnershipKept pool := by
  obtain ⟨fresh, made, steps⟩ := run
  have sound : PoolSound pool :=
    steps.preserves (fun _ _ _ sound taken => sound.step taken.1 taken.2) (PoolSound.fresh made)
  refine ⟨sound.disjoint, ?_, ?_, ?_, ?_⟩
  · exact (PoolSound.card_tokens sound.disjoint).le.trans sound.capacity
  · intro done
    exact (carriedOut_le_charged done sound.shards).trans sound.capacity
  · intro shard member
    have kept := sound.shards shard member
    exact ⟨kept.size, fun target known => (kept.target target known).trans kept.size⟩
  · exact ⟨(Nat.le_add_right _ _).trans sound.sockets, sound.sockets⟩

/-! ## A contended token -/

/-- The pool after the first pair was added and its rotation was asked for. -/
def sampleRotation : List ShardsAction :=
  [.addPairs [("11", "12")], .requestPairReplacement ("11", "12") ("31", "32")]

def sampleShards (maximumTokens : Nat) : Shards :=
  { maximumTokens
    maximumShards := 2
    shardTokens := 2
    nextId := 0
    shards := []
    running := []
    finished := []
    failed := [] }

theorem sampleRotation_run (maximumTokens : Nat) :
    Run ShardsStep (sampleShards maximumTokens) sampleRotation
      (((sampleShards maximumTokens).addPairs [("11", "12")]).1.requestPairReplacement
        ("11", "12") ("31", "32")).1 :=
  .snoc (Run.single .pairsAdded) .replacementRequested

/-- A pair can be added while a command for it is unanswered; then it is on two
sockets. And the tokens of a rotation are counted once, not together with those
they replace. -/
theorem rotation_then_add_shares_tokens :
    (∃ (actions : List ShardsAction) (pool : Shards), ShardsRun 4 2 2 actions pool ∧
      pool.shards.map Shard.tokens = [{"31", "32"}, {"31", "32"}] ∧
      ¬pool.shards.Pairwise fun left right => Disjoint left.footprint right.footprint) ∧
    ∃ (actions : List ShardsAction) (pool : Shards), ShardsRun 2 2 2 actions pool ∧
      ¬(pool.shards.foldr (fun (shard : Shard) tokens => shard.footprint ∪ tokens) ∅).card ≤
        pool.maximumTokens := by
  refine ⟨?_, ?_⟩
  · have added := Run.snoc (sampleRotation_run 4) (@ShardsStep.pairsAdded _ [("31", "32")])
    have received := Run.snoc added (@ShardsStep.received _ 0)
    have answered := Run.snoc received (@ShardsStep.answered _ 0 (.ok ()))
    have polled := Run.snoc answered ShardsStep.polled
    exact ⟨_, _, ⟨_, rfl, polled⟩, by decide +kernel, by decide +kernel⟩
  · exact ⟨_, _, ⟨_, rfl, sampleRotation_run 2⟩, by decide +kernel⟩

theorem ownershipKept_sample :
    OwnershipKept
      (((sampleShards 4).addPairs [("11", "12")]).1.requestPairReplacement
        ("11", "12") ("31", "32")).1 := by
  have added : Run UncontendedStep (sampleShards 4) [.addPairs [("11", "12")]]
      ((sampleShards 4).addPairs [("11", "12")]).1 := by
    refine Run.single ⟨.pairsAdded, ?_⟩
    rintro _ ⟨⟩
  refine @ownershipKept_of_run 4 2 2 _ _ ⟨_, rfl, .snoc added ⟨.replacementRequested, ?_⟩⟩
  have untouched : ∀ shard ∈ ((sampleShards 4).addPairs [("11", "12")]).1.shards,
      shard.retirementTarget = none := by
    decide +kernel
  intro shard member target known
  rw [untouched shard member] at known
  cases known

end MarketCow.Acquisition
