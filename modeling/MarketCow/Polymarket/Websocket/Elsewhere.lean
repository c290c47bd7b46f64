import MarketCow.Polymarket.Websocket.Reduce

/-!
# What a token leaves alone

Reducing an event and opening or closing a recovery concerns one token. Whatever
comes of it, the other tokens keep their books, clocks and recoveries.
-/

namespace MarketCow.Websocket

open Library MarketCow.Core Polymarket

/-- A token that two states do not differ in. -/
structure SameAt (token : String) (before after : Adapter) : Prop where
  waiting : token ∈ after.waiting ↔ token ∈ before.waiting
  book : after.engineBook token = before.engineBook token
  epoch : after.epochs[token]? = before.epochs[token]?
  sequence : after.sequences[token]? = before.sequences[token]?
  received : after.bookReceived[token]? = before.bookReceived[token]?
  source : after.bookSource[token]? = before.bookSource[token]?
  checksum : after.depthChecksums[token]? = before.depthChecksums[token]?
  recovery : after.recoveries[token]? = before.recoveries[token]?

namespace SameAt

variable {token : String} {first second third : Adapter}

theorem refl (adapter : Adapter) : SameAt token adapter adapter :=
  ⟨.rfl, rfl, rfl, rfl, rfl, rfl, rfl, rfl⟩

theorem trans (one : SameAt token first second)
    (two : SameAt token second third) : SameAt token first third where
  waiting := two.waiting.trans one.waiting
  book := two.book.trans one.book
  epoch := two.epoch.trans one.epoch
  sequence := two.sequence.trans one.sequence
  received := two.received.trans one.received
  source := two.source.trans one.source
  checksum := two.checksum.trans one.checksum
  recovery := two.recovery.trans one.recovery

end SameAt

/-- Nothing but some tokens has changed, and new confirmations are about them. -/
structure Within (tokens : String → Prop) (before after : Adapter) : Prop where
  identities : after.identities = before.identities
  others : ∀ other, ¬tokens other → SameAt other before after
  confirmations : ∀ confirmation ∈ after.confirmations,
    confirmation ∈ before.confirmations ∨ tokens confirmation.tokenId

instance (tokens : String → Prop) : Std.Refl (Within tokens) :=
  ⟨fun adapter => ⟨rfl, fun _ _ => .refl adapter, fun _ member => .inl member⟩⟩

instance (tokens : String → Prop) : IsTrans Adapter (Within tokens) where
  trans first second third one two := by
    refine ⟨two.identities.trans one.identities, ?_, ?_⟩
    · intro other different
      exact (one.others other different).trans (two.others other different)
    · intro confirmation member
      rcases two.confirmations confirmation member with earlier | new
      · exact one.confirmations confirmation earlier
      · exact .inr new

theorem Within.mono {tokens more : String → Prop} (moved : Within tokens before after)
    (included : ∀ token, tokens token → more token) : Within more before after where
  identities := moved.identities
  others := fun other outside => moved.others other fun mem => outside (included other mem)
  confirmations := by
    intro confirmation present
    rcases moved.confirmations confirmation present with earlier | new
    · exact .inl earlier
    · exact .inr (included _ new)

/-- Nothing but one token has changed. -/
abbrev Elsewhere (token : String) : Adapter → Adapter → Prop :=
  Within fun other => other = token

section Maps

variable {ν : Type} {token other : String} (map : TreeMap String ν)

theorem getElem?_insert_other (value : ν) (ne : other ≠ token) :
    (map.insert token value)[other]? = map[other]? := by
  rw [TreeMap.getElem?_insert, if_neg]
  rw [Std.LawfulEqOrd.compare_eq_iff_eq]
  exact ne.symm

theorem getElem?_erase_other (ne : other ≠ token) : (map.erase token)[other]? = map[other]? := by
  rw [getElem?_erase, if_neg]
  rw [Std.LawfulEqOrd.compare_eq_iff_eq]
  exact ne.symm

@[simp] theorem getElem?_insert_token (value : ν) : (map.insert token value)[token]? = some value :=
  getElem?_insert_self

@[simp] theorem getElem?_erase_token (map : TreeMap String ν) : (map.erase token)[token]? = none :=
  TreeMap.getElem?_erase_self

variable {tokens : TreeSet String}

theorem mem_insert_other (ne : other ≠ token) : other ∈ tokens.insert token ↔ other ∈ tokens := by
  rw [Std.ExtTreeSet.mem_insert, Std.LawfulEqOrd.compare_eq_iff_eq]
  exact or_iff_right ne.symm

theorem mem_erase_other (ne : other ≠ token) : other ∈ tokens.erase token ↔ other ∈ tokens := by
  rw [Std.ExtTreeSet.mem_erase, ne_eq, Std.LawfulEqOrd.compare_eq_iff_eq]
  exact and_iff_right ne.symm

end Maps

section Moves

variable {externals : Externals} {frame : Frame} {token market condition : String}
  {observed : DateTime} {emitted : Nat} {book : Book} {tick : Price} {checksum : String}
  {stored : EventKind}

theorem elsewhere_engine (adapter : Adapter) (engine : SingleWriter Unit) :
    Elsewhere token adapter (adapter.withEngine token engine) := by
  refine ⟨rfl, fun other ne => ?_, fun _ mem => .inl mem⟩
  refine ⟨.rfl, ?_, rfl, rfl, rfl, rfl, rfl, rfl⟩
  unfold Adapter.engineBook Adapter.withEngine
  rw [getElem?_insert_other _ _ ne]

theorem moves_reduceEvent (event : CanonicalEvent) :
    Effect.Moves (Elsewhere token) (Adapter.reduceEvent externals frame token event) := by
  refine .bind .of_get fun adapter => .bind (.of_modify fun _ => elsewhere_engine _ _) fun _ =>
    .bind (.of_lift _) fun cursor => .bind (.of_modify fun _ => elsewhere_engine _ _) fun _ => ?_
  unfold Adapter.engineOutcome
  split
  · exact .of_pure _
  · exact .of_pure _
  · exact .of_fail _
  · exact .of_fail _

theorem moves_startEpoch :
    Effect.Moves (Elsewhere token) (Adapter.startEpoch externals frame token emitted) := by
  refine .bind (.of_modify fun adapter => ?_) fun _ => .bind (.of_lift _) fun cursor =>
    .of_modify fun adapter => ?_
  · refine ⟨rfl, fun other ne => ?_, fun _ mem => .inl mem⟩
    exact ⟨mem_erase_other ne, rfl, rfl, rfl, rfl, rfl, rfl, rfl⟩
  · refine ⟨rfl, fun other ne => ?_, fun _ mem => .inl mem⟩
    exact ⟨.rfl, rfl, getElem?_insert_other _ _ ne, getElem?_insert_other _ _ ne,
      rfl, rfl, rfl, rfl⟩

/-- Changes of ticks and last trades are no changes of a book. -/
theorem elsewhere_facts (adapter : Adapter) (ticks lastTrades : TreeMap String Price) :
    Elsewhere token adapter { adapter with ticks, lastTrades } :=
  ⟨rfl, fun _ _ => ⟨.rfl, rfl, rfl, rfl, rfl, rfl, rfl, rfl⟩, fun _ mem => .inl mem⟩

theorem moves_recordLastTrade (full : Bool) :
    Effect.Moves (Elsewhere token)
      (Adapter.recordLastTrade externals frame token full tick book) := by
  unfold Adapter.recordLastTrade
  split
  · exact .bind (.of_lift _) fun lastTrade => .bind (.of_ensure _ _) fun _ =>
      .of_modify fun adapter => elsewhere_facts adapter adapter.ticks _
  · split
    · exact .of_modify fun adapter => elsewhere_facts adapter adapter.ticks _
    · exact .of_pure _

theorem moves_confirmBook :
    Effect.Moves (Elsewhere token)
      (Adapter.confirmBook frame token market condition observed checksum) := by
  refine .bind .of_get fun adapter => .bind (.of_need _ _) fun epoch => .bind (.of_need _ _)
    fun sequence => .bind (.of_need _ _) fun received => .of_modify fun adapter => ?_
  refine ⟨rfl, fun _ _ => ⟨.rfl, rfl, rfl, rfl, rfl, rfl, rfl, rfl⟩, fun confirmation mem => ?_⟩
  rcases List.mem_append.mp mem with earlier | new
  · exact .inl earlier
  · rw [List.mem_singleton.mp new]
    exact .inr rfl

theorem elsewhere_moveClocks (adapter : Adapter) :
    Elsewhere token adapter (Adapter.moveClocks frame token observed checksum adapter) := by
  refine ⟨rfl, fun other ne => ?_, fun _ mem => .inl mem⟩
  refine ⟨.rfl, rfl, rfl, rfl, ?_, ?_, getElem?_insert_other _ _ ne, rfl⟩
  · unfold Adapter.moveClocks
    split
    · exact getElem?_insert_other _ _ ne
    · rfl
  · unfold Adapter.moveClocks
    dsimp only
    split
    · exact getElem?_insert_other _ _ ne
    · rfl

theorem moves_publishBook :
    Effect.Moves (Elsewhere token) (Adapter.publishBook externals frame token market condition
      observed emitted book tick checksum stored) := by
  refine .bind (.of_modify elsewhere_moveClocks) fun _ => .bind .of_get fun _ =>
    .bind (.of_need _ _) fun _ => .bind (.of_need _ _) fun _ => .bind (.of_need _ _) fun _ =>
    .bind (.of_lift _) fun _ => .bind (.of_modify fun adapter => ?_) fun _ =>
    .bind (.of_need _ _) fun _ => .bind (.of_lift _) fun _ => .bind (.of_lift _) fun _ =>
    .of_pure _
  refine ⟨rfl, fun other ne => ?_, fun _ mem => .inl mem⟩
  exact ⟨.rfl, rfl, rfl, getElem?_insert_other _ _ ne, rfl, rfl, rfl, rfl⟩

theorem moves_settleBook (full : Bool) :
    Effect.Moves (Elsewhere token) (Adapter.settleBook externals frame token market condition
      observed emitted full book stored) := by
  unfold Adapter.settleBook
  refine .bind ?_ fun _ => .bind (.of_need _ _) fun tick => .bind (.of_modify fun adapter => ?_)
    fun _ => .bind (moves_recordLastTrade full) fun _ => .bind .of_get fun adapter => ?_
  · unfold Adapter.startFullBook
    split
    · exact moves_startEpoch
    · exact .of_pure _
  · exact elsewhere_facts adapter _ adapter.lastTrades
  · split
    · exact .bind moves_confirmBook fun _ => .of_pure _
    · exact .bind moves_publishBook fun _ => .of_pure _

/-- An event concerns its token. -/
theorem moves_applyEvent (event : CanonicalEvent) :
    Effect.Moves (Elsewhere event.kind.tokenId)
      (Adapter.applyEvent externals frame emitted event) := by
  refine .bind .of_get fun adapter => .bind (.of_need _ _) fun identity =>
    .bind (.of_ensure _ _) fun _ => ?_
  dsimp only
  split
  · exact .of_pure _
  · refine .bind (moves_reduceEvent event) fun outcome => ?_
    split
    · exact .of_pure _
    · exact .bind (.of_lift _) fun book => moves_settleBook _

theorem elsewhere_forget (adapter : Adapter) (attempt : String) :
    Elsewhere token adapter (adapter.forget token attempt) := by
  refine ⟨rfl, fun other ne => ?_, fun _ mem => .inl mem⟩
  refine ⟨mem_insert_other ne, ?_, getElem?_erase_other _ ne,
    getElem?_erase_other _ ne, getElem?_erase_other _ ne,
    getElem?_erase_other _ ne, getElem?_erase_other _ ne,
    getElem?_insert_other _ _ ne⟩
  unfold Adapter.engineBook Adapter.forget
  rw [getElem?_erase_other _ ne]

/-- Closing a recovery concerns its token. -/
theorem elsewhere_close (adapter : Adapter) :
    Elsewhere token adapter { adapter with recoveries := adapter.recoveries.erase token } :=
  ⟨rfl, fun _ ne => ⟨.rfl, rfl, rfl, rfl, rfl, rfl, rfl,
    getElem?_erase_other _ ne⟩, fun _ mem => .inl mem⟩

end Moves

end MarketCow.Websocket
