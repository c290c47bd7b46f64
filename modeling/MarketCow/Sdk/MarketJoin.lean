import MarketCow.Live.ClientSound
import MarketCow.Live.Delivery
import MarketCow.Sdk.SharedMarket

/-!
# Joining a market stream

A consumer that folds what it is returned shows the state of the owner after
each frame, as long as each connection begins with a frame that is newer than
the seeds of the consumers, and the state that is sent as a seed fits the budget
of a state although the connection was lost.
-/

namespace MarketCow.Sdk.SharedMarket

open Library List Option
open Live
open Follower (follow start)
open Hub (act hand unavailable)

/-! ## Following -/

/-- A consumer takes everything it is due, and shows the state of the owner after
each frame. -/
structure Consumer.Follows (codec : Codec) (blank : MarketState) (consumer : Consumer) : Prop where
  accepted : ∃ follower, consumer.due.foldlM (follow codec blank)
    (start blank consumer.seedSequence) = .ok follower
  shows : ∀ front frame owner, front ++ [.frame frame owner] <+: consumer.due →
    ∃ follower, (front ++ [.frame frame owner]).foldlM (follow codec blank)
      (start blank consumer.seedSequence) = .ok follower ∧ follower.state = owner

section Following

variable {codec : Codec} {blank : MarketState} {consumer : Consumer} {event : MarketDelivery}
  {follower later : Follower}

/-- One delivery more. -/
theorem Consumer.Follows.hand (follows : consumer.Follows codec blank)
    (folded : consumer.due.foldlM (follow codec blank)
      (start blank consumer.seedSequence) = .ok follower)
    (taken : follower.follow codec blank event = .ok later)
    (same : ∀ frame owner, event = .frame frame owner → later.state = owner) :
    ({ consumer with due := consumer.due ++ [event] } : Consumer).Follows codec blank ∧
      (consumer.due ++ [event]).foldlM (follow codec blank)
        (start blank consumer.seedSequence) = .ok later := by
  have whole : (consumer.due ++ [event]).foldlM (follow codec blank)
      (start blank consumer.seedSequence) = .ok later := by
    refine foldlM_append_ok.mpr ⟨follower, folded, ?_⟩
    exact foldlM_cons_ok.mpr ⟨later, taken, rfl⟩
  refine ⟨⟨⟨later, whole⟩, ?_⟩, whole⟩
  intro front frame owner begins
  rcases prefix_concat_iff.mp begins with equal | before
  · have last : MarketDelivery.frame frame owner = event := by
      have ends := (append_inj' equal rfl).2
      exact (List.cons.inj ends).1
    change (front ++ [MarketDelivery.frame frame owner]) = consumer.due ++ [event] at equal
    rw [equal]
    exact ⟨later, whole, same frame owner last.symm⟩
  · exact follows.shows front frame owner before

theorem follows_nil (seedSequence : Option Nat) :
    ({ seedSequence, due := [] } : Consumer).Follows codec blank where
  accepted := ⟨_, rfl⟩
  shows := by
    intro front frame owner begins
    have empty := prefix_nil.mp begins
    exact absurd empty (append_ne_nil_of_right_ne_nil front (cons_ne_nil _ _))

variable {frame : MarketFrame}

/-- A frame that is newer than the seed is folded into the state. -/
theorem follow_newer {owner : MarketState} {state after : MarketState}
    (newer : ∀ sequence ∈ seedSequence, sequence < frame.stateSequence)
    (applied : state.apply codec frame = .ok after) :
    follow codec blank
        { receiver := { seedSequence, seedPending := false }, state } (.frame frame owner) =
      .ok { receiver := { seedSequence, seedPending := false }, state := after } := by
  have returned : (seedSequence.any fun sequence => decide (frame.stateSequence ≤ sequence)) =
      false := by
    cases seedSequence with
    | none => rfl
    | some sequence =>
      rw [any_some]
      exact decide_eq_false (not_le.mpr (newer sequence rfl))
  unfold follow Receiver.next
  dsimp only
  rw [returned, Bool.and_false, if_neg Bool.false_ne_true]
  unfold Follower.take
  dsimp only
  rw [applied]
  rfl

/-- The frame that the seed already contains is left out. -/
theorem follow_seeded :
    follow codec blank
        { receiver := { seedSequence := some frame.stateSequence, seedPending := false }, state }
        (.frame frame owner) =
      .ok
        { receiver := { seedSequence := some frame.stateSequence, seedPending := false }
          state } := by
  have left : (!false && (some frame.stateSequence).any fun sequence =>
      decide (frame.stateSequence ≤ sequence)) = true := by
    rw [any_some]
    exact decide_eq_true (le_refl _)
  unfold follow Receiver.next
  dsimp only
  rw [left, if_pos rfl]

/-- The seed itself is never left out. -/
theorem follow_seed {owner after : MarketState} (applied : blank.apply codec frame = .ok after) :
    follow codec blank (start blank (some frame.stateSequence))
        (.frame frame owner) =
      .ok
        { receiver := { seedSequence := some frame.stateSequence, seedPending := false }
          state := after } := by
  unfold follow Receiver.next start
  dsimp only
  rw [isSome_some, Bool.not_true, Bool.false_and, if_neg Bool.false_ne_true]
  unfold Follower.take
  dsimp only
  rw [applied]
  rfl

end Following

/-! ## The owner and a consumer -/

/-- A consumer is about to be handed a frame that the owner has taken. -/
def Waits (codec : Codec) (owner : MarketState) (frame : MarketFrame) (seed : Option Nat)
    (state : MarketState) : Prop :=
  (state.apply codec frame = .ok owner ∧ ∀ sequence ∈ seed, sequence < frame.stateSequence) ∨
    (state = owner ∧ seed = some frame.stateSequence)

/-- What the state of a consumer is, when it has folded everything it is due. -/
def Synced (codec : Codec) (blank owner : MarketState) (seed : Option Nat) (state : MarketState) :
    Phase → Prop
  | .idle => state = blank
  | .streaming =>
    (owner.sequence = none ∧ state = blank) ∨
      (state = owner ∧ ∃ current, owner.sequence = some current ∧ ∀ sequence ∈ seed,
        sequence ≤ current)
  | .applied frame => Waits codec owner frame seed state
  | .flagged frame => Waits codec owner frame seed state
  | _ => True

/-- No frame of the connection has been handed out. -/
def First (codec : Codec) (blank owner : MarketState) : Phase → Prop
  | .streaming => owner.sequence = none
  | .applied frame => blank.apply codec frame = .ok owner
  | .flagged frame => blank.apply codec frame = .ok owner
  | _ => True

/-- Phases of a connection that the owner has noted. -/
def Phase.Connected : Phase → Prop
  | .streaming => True
  | .applied _ => True
  | .flagged _ => True
  | .lost _ _ => True
  | _ => False

/-- Phases in which a consumer may still be joining a connection. -/
def Phase.Joined : Phase → Prop
  | .idle => False
  | .finished => False
  | _ => True

/-- The frame that the owner has taken last. -/
def Phase.Taken (owner : MarketState) : Phase → Prop
  | .applied frame => owner.sequence = some frame.stateSequence
  | .flagged frame => owner.sequence = some frame.stateSequence
  | _ => True

/-- A consumer in step with the owner. -/
structure InStep (codec : Codec) (blank owner : MarketState) (phase : Phase) (consumer : Consumer) :
    Prop where
  follows : consumer.Follows codec blank
  synced : ∃ state, consumer.due.foldlM (follow codec blank)
      (start blank consumer.seedSequence) =
        .ok { receiver := { seedSequence := consumer.seedSequence, seedPending := false }, state } ∧
    Synced codec blank owner consumer.seedSequence state phase

/-- The states that a hub can reach. -/
structure Consistent (codec : Codec) (blank : MarketState) (hub : Hub) : Prop where
  blanks : Blank hub.state blank
  sound : StateSound codec hub.state
  connected : hub.connected = true → hub.state.sequence.isSome = true ∧ hub.phase.Connected
  unconnected : hub.connected = false → First codec blank hub.state hub.phase
  joining : hub.joining = some true → hub.state.sequence.isSome = true ∧ hub.phase.Joined
  waiting : hub.joining = some false → First codec blank hub.state hub.phase
  taken : hub.phase.Taken hub.state
  flagged : ∀ frame, hub.phase = .flagged frame → hub.connected = true
  consumers : ∀ consumer ∈ hub.consumers, InStep codec blank hub.state hub.phase consumer

/-- The condition under which a step keeps the consumers in step: the first frame
of a connection is newer than all seeds, and a seed fits a state. -/
def Meets (codec : Codec) (hub : Hub) : Action → Prop
  | .receive frame _ =>
    hub.state.sequence = none → (hub.state.apply codec frame).isOk = true →
      ∀ consumer ∈ hub.consumers, ∀ sequence ∈ consumer.seedSequence, sequence < frame.stateSequence
  | .seed =>
    hub.joining = some true → hub.state.shown.encodedLength ≤ hub.state.budget.maximumStateBytes
  | _ => True

namespace Consistent

variable {codec : Codec} {blank : MarketState} {hub after : Hub}

section

variable (consistent : Consistent codec blank hub)
include consistent

/-- Consumers that are handed nothing stay in step when the owner goes on. -/
theorem keep
    (kept : ∀ consumer ∈ hub.consumers, ∀ state,
      Synced codec blank hub.state consumer.seedSequence state hub.phase →
        Synced codec blank owner consumer.seedSequence state phase) :
    ∀ consumer ∈ hub.consumers, InStep codec blank owner phase consumer := by
  intro consumer mem
  obtain ⟨follows, state, folded, synced⟩ := consistent.consumers consumer mem
  exact ⟨follows, state, folded, kept consumer mem state synced⟩

/-- Consumers that are handed a delivery. -/
theorem handed
    (taken : ∀ consumer ∈ hub.consumers, ∀ state,
      Synced codec blank hub.state consumer.seedSequence state hub.phase →
        ∃ later, follow codec blank
            { receiver := { seedSequence := consumer.seedSequence, seedPending := false }, state }
            event =
          .ok { receiver := { seedSequence := consumer.seedSequence, seedPending := false }
                state := later } ∧
          (∀ frame owner, event = .frame frame owner → later = owner) ∧
            Synced codec blank hub.state consumer.seedSequence later phase) :
    ∀ consumer ∈ hub.consumers.map fun consumer =>
        ({ consumer with due := consumer.due ++ [event] } : Consumer),
      InStep codec blank hub.state phase consumer := by
  intro consumer mem
  obtain ⟨before, old, rfl⟩ := mem_map.mp mem
  obtain ⟨follows, state, folded, synced⟩ := consistent.consumers before old
  obtain ⟨later, followed, same, still⟩ := taken before old state synced
  obtain ⟨extended, whole⟩ := follows.hand folded followed same
  exact ⟨extended, later, whole, still⟩

/-- A state whose sequence is known holds books. -/
theorem holds (numbered : hub.state.sequence.isSome = true) :
    ∃ up down, Holds codec hub.state up down := by
  rcases consistent.sound with ⟨absent, _⟩ | holds
  · rw [absent] at numbered
    cases numbered
  · exact holds

end

variable {state : MarketState}

theorem sound_unavailable (sound : StateSound codec state) :
    StateSound codec (unavailable state) := by
  rcases sound with empty | ⟨up, down, holds⟩
  · exact .inl empty
  · exact .inr ⟨up, down, holds.books, holds.up, holds.down⟩

theorem blanks_unavailable (blanks : Blank state blank) : Blank (unavailable state) blank :=
  ⟨blanks.key, blanks.streamId, blanks.budget, blanks.sequence, blanks.books⟩

/-- A connection is made. -/
theorem connect
    (consistent : Consistent codec blank hub) (taken : hub.act codec .connect = some after) :
    Consistent codec blank after := by
  unfold act at taken
  cases phase : hub.phase with
  | idle =>
    rw [phase] at taken
    cases taken
    have sound : StateSound codec { hub.state with sequence := none } := by
      rcases consistent.sound with ⟨_, empty⟩ | ⟨up, down, holds⟩
      · exact .inl ⟨rfl, empty⟩
      · exact .inr ⟨up, down, holds.books, holds.up, holds.down⟩
    have blanks := consistent.blanks
    exact
      { blanks := ⟨blanks.key, blanks.streamId, blanks.budget, blanks.sequence, blanks.books⟩
        sound := sound_unavailable sound
        connected := fun on => by
          have connection := (consistent.connected on).2
          rw [phase] at connection
          exact absurd connection not_false
        unconnected := fun _ => rfl
        joining := fun on => by
          have joined := (consistent.joining on).2
          rw [phase] at joined
          exact absurd joined not_false
        waiting := fun _ => rfl
        taken := trivial
        flagged := nofun
        consumers := consistent.keep fun consumer _ state synced => by
          rw [phase] at synced
          exact .inl ⟨rfl, synced⟩ }
  | _ =>
    rw [phase] at taken
    cases taken

variable {retryAfterMs : Nat}

/-- A frame is taken or ends the connection. -/
theorem receive {frame : MarketFrame} (consistent : Consistent codec blank hub)
    (meets : Meets codec hub (.receive frame retryAfterMs))
    (taken : hub.act codec (.receive frame retryAfterMs) = some after) :
    Consistent codec blank after := by
  unfold act at taken
  cases phase : hub.phase with
  | streaming =>
    rw [phase] at taken
    cases taken
    unfold Hub.receive
    cases applied : hub.state.apply codec frame with
    | ok owner =>
      have took := apply_took consistent.sound applied
      have blanks := consistent.blanks
      have numbered : owner.sequence.isSome = true := by
        rw [took.sequence]
        rfl
      exact
        { blanks := ⟨blanks.key.trans took.key.symm, blanks.streamId.trans took.streamId.symm,
            blanks.budget.trans took.budget.symm, blanks.sequence, blanks.books⟩
          sound := .inr took.holds
          connected := fun _ => ⟨numbered, trivial⟩
          unconnected := fun off => by
            have first := consistent.unconnected off
            rw [phase] at first
            exact blanks.apply_first first applied
          joining := fun _ => ⟨numbered, trivial⟩
          waiting := fun off => by
            have first := consistent.waiting off
            rw [phase] at first
            exact blanks.apply_first first applied
          taken := took.sequence
          flagged := nofun
          consumers := consistent.keep fun consumer mem state synced => by
            rw [phase] at synced
            refine .inl ?_
            rcases synced with ⟨cleared, rfl⟩ | ⟨rfl, current, known, older⟩
            · exact ⟨blanks.apply_first cleared applied,
                meets cleared (by rw [applied]; rfl) consumer mem⟩
            · refine ⟨applied, fun sequence seeded => ?_⟩
              exact lt_of_le_of_lt (older sequence seeded) (took.later current known) }
    | error reason =>
      exact
        { blanks := blanks_unavailable consistent.blanks
          sound := sound_unavailable consistent.sound
          connected := fun on => ⟨(consistent.connected on).1, trivial⟩
          unconnected := fun _ => trivial
          joining := fun on => ⟨(consistent.joining on).1, trivial⟩
          waiting := fun _ => trivial
          taken := trivial
          flagged := nofun
          consumers := consistent.keep fun _ _ _ _ => trivial }
  | _ =>
    rw [phase] at taken
    cases taken

variable {reason : String}

section

variable (consistent : Consistent codec blank hub)
include consistent

/-- The connection is lost. -/
theorem lose (taken : hub.act codec (.lose reason retryAfterMs) = some after) :
    Consistent codec blank after := by
  unfold act at taken
  cases phase : hub.phase with
  | streaming =>
    rw [phase] at taken
    cases taken
    exact
      { blanks := blanks_unavailable consistent.blanks
        sound := sound_unavailable consistent.sound
        connected := fun on => ⟨(consistent.connected on).1, trivial⟩
        unconnected := fun _ => trivial
        joining := fun on => ⟨(consistent.joining on).1, trivial⟩
        waiting := fun _ => trivial
        taken := trivial
        flagged := nofun
        consumers := consistent.keep fun _ _ _ _ => trivial }
  | _ =>
    rw [phase] at taken
    cases taken

theorem flag (taken : hub.act codec .flag = some after) :
    Consistent codec blank after := by
  unfold act at taken
  cases phase : hub.phase with
  | applied frame =>
    rw [phase] at taken
    cases taken
    have last := consistent.taken
    rw [phase] at last
    have numbered : hub.state.sequence.isSome = true := by
      rw [show hub.state.sequence = some frame.stateSequence from last]
      rfl
    exact
      { consistent with
        connected := fun _ => ⟨numbered, trivial⟩
        unconnected := nofun
        joining := fun _ => ⟨numbered, trivial⟩
        waiting := fun off => by
          have first := consistent.waiting off
          rw [phase] at first
          exact first
        taken := last
        flagged := fun _ _ => rfl
        consumers := consistent.keep fun consumer _ state synced => by
          rw [phase] at synced
          exact synced }
  | _ =>
    rw [phase] at taken
    cases taken

/-- A frame is handed out. -/
theorem send (taken : hub.act codec .send = some after) :
    Consistent codec blank after := by
  unfold act at taken
  cases phase : hub.phase with
  | flagged frame =>
    rw [phase] at taken
    unfold hand at taken
    cases free : hub.joining with
    | some connected =>
      rw [free] at taken
      cases taken
    | none =>
      rw [free] at taken
      cases taken
      have last : hub.state.sequence = some frame.stateSequence := by
        have last := consistent.taken
        rw [phase] at last
        exact last
      have numbered : hub.state.sequence.isSome = true := by
        rw [last]
        rfl
      exact
        { consistent with
          connected := fun _ => ⟨numbered, trivial⟩
          unconnected := fun off => by
            rw [consistent.flagged frame phase] at off
            cases off
          joining := nofun
          waiting := nofun
          taken := trivial
          flagged := nofun
          consumers := consistent.handed fun consumer _ state synced => by
            rw [phase] at synced
            rcases synced with ⟨applied, newer⟩ | ⟨rfl, seeded⟩
            · refine ⟨hub.state, follow_newer newer applied, ?_, .inr ⟨rfl, _, last, ?_⟩⟩
              · intro other owner same
                cases same
                rfl
              · intro sequence mem
                exact (newer sequence mem).le
            · rw [seeded]
              refine ⟨hub.state, follow_seeded, ?_, .inr ⟨rfl, _, last, ?_⟩⟩
              · intro other owner same
                cases same
                rfl
              · intro sequence mem
                cases mem
                exact le_refl _ }
  | _ =>
    rw [phase] at taken
    cases taken

theorem unflag (taken : hub.act codec .unflag = some after) :
    Consistent codec blank after := by
  unfold act at taken
  cases phase : hub.phase with
  | lost reason retryAfterMs =>
    rw [phase] at taken
    cases taken
    exact
      { consistent with
        connected := nofun
        unconnected := fun _ => trivial
        joining := fun on => ⟨(consistent.joining on).1, trivial⟩
        waiting := fun _ => trivial
        taken := trivial
        flagged := nofun
        consumers := consistent.keep fun _ _ _ _ => trivial }
  | _ =>
    rw [phase] at taken
    cases taken

/-- Consumers are told that the stream recovers, and begin again. -/
theorem recovering (unconnected : hub.connected = false)
    (taken : hub.hand (.recovering reason retryAfterMs) .idle = some after) :
    Consistent codec blank after := by
  unfold hand at taken
  cases free : hub.joining with
  | some connected =>
    rw [free] at taken
    cases taken
  | none =>
    rw [free] at taken
    cases taken
    exact
      { consistent with
        connected := fun on => absurd (unconnected.symm.trans on) (by decide)
        unconnected := fun _ => trivial
        joining := nofun
        waiting := nofun
        taken := trivial
        flagged := nofun
        consumers := consistent.handed fun consumer _ state _ => ⟨blank, rfl, nofun, rfl⟩ }

/-- The owner has noted that it is not connected. -/
theorem off_of_phase (phase : ¬ hub.phase.Connected) : hub.connected = false := by
  cases connected : hub.connected with
  | false => rfl
  | true => exact absurd (consistent.connected connected).2 phase

theorem refuse (taken : hub.act codec (.refuse reason retryAfterMs) = some after) :
    Consistent codec blank after := by
  unfold act at taken
  cases phase : hub.phase with
  | idle =>
    rw [phase] at taken
    exact consistent.recovering (consistent.off_of_phase (by rw [phase]; exact not_false)) taken
  | _ =>
    rw [phase] at taken
    cases taken

theorem recover (taken : hub.act codec .recover = some after) :
    Consistent codec blank after := by
  unfold act at taken
  cases phase : hub.phase with
  | recovering reason retryAfterMs =>
    rw [phase] at taken
    exact consistent.recovering (consistent.off_of_phase (by rw [phase]; exact not_false)) taken
  | _ =>
    rw [phase] at taken
    cases taken

/-- The owner goes to a phase in which it hands out nothing. -/
theorem quiet (same : state = hub.state ∨ state = unavailable hub.state)
    (last : phase = .stopping ∨ phase = .finished) (free : phase = .finished → hub.joining = none) :
    Consistent codec blank { hub with state, phase, connected := false } := by
  have numbered : state.sequence = hub.state.sequence := by
    rcases same with rfl | rfl <;> rfl
  have synced : ∀ seed other, Synced codec blank state seed other phase := by
    intro seed other
    rcases last with rfl | rfl <;> trivial
  have first : First codec blank state phase := by
    rcases last with rfl | rfl <;> trivial
  exact
    { blanks := by
        rcases same with rfl | rfl
        · exact consistent.blanks
        · exact blanks_unavailable consistent.blanks
      sound := by
        rcases same with rfl | rfl
        · exact consistent.sound
        · exact sound_unavailable consistent.sound
      connected := nofun
      unconnected := fun _ => first
      joining := fun on => by
        refine ⟨?_, ?_⟩
        · change state.sequence.isSome = true
          rw [numbered]
          exact (consistent.joining on).1
        · rcases last with rfl | rfl
          · trivial
          · rw [free rfl] at on
            cases on
      waiting := fun _ => first
      taken := by rcases last with rfl | rfl <;> trivial
      flagged := fun frame here => by rcases last with rfl | rfl <;> cases here
      consumers := consistent.keep fun consumer _ other _ => synced consumer.seedSequence other }

theorem stop (taken : hub.act codec .stop = some after) :
    Consistent codec blank after := by
  have whole : Consistent codec blank { hub with connected := false, phase := .stopping } :=
    consistent.quiet (.inl rfl) (.inl rfl) nofun
  unfold act at taken
  cases phase : hub.phase with
  | idle | streaming =>
    rw [phase] at taken
    cases taken
    exact whole
  | _ =>
    rw [phase] at taken
    cases taken

theorem darken (taken : hub.act codec .darken = some after) :
    Consistent codec blank after := by
  unfold act at taken
  cases phase : hub.phase with
  | stopping =>
    rw [phase] at taken
    cases taken
    have off := consistent.off_of_phase (by rw [phase]; exact not_false)
    have whole : Consistent codec blank
        { hub with state := unavailable hub.state, connected := false, phase := .stopping } :=
      consistent.quiet (.inr rfl) (.inl rfl) nofun
    rw [← off] at whole
    rw [← phase] at whole ⊢
    exact whole
  | _ =>
    rw [phase] at taken
    cases taken

theorem finish (taken : hub.act codec .finish = some after) :
    Consistent codec blank after := by
  have whole : ¬ hub.phase.Connected → hub.finish = some after → Consistent codec blank after := by
    intro phase finished
    have off := consistent.off_of_phase phase
    unfold Hub.finish at finished
    cases free : hub.joining with
    | some connected =>
      rw [free] at finished
      cases finished
    | none =>
      rw [free] at finished
      cases finished
      have ended : Consistent codec blank { hub with connected := false, phase := .finished } :=
        consistent.quiet (.inl rfl) (.inr rfl) fun _ => free
      rw [← off] at ended
      rw [← free]
      exact ended
  unfold act at taken
  cases phase : hub.phase with
  | idle | recovering reason retryAfterMs | stopping =>
    rw [phase] at taken whole
    exact whole not_false taken
  | _ =>
    rw [phase] at taken
    cases taken

/-- A consumer begins to join. -/
theorem attach (taken : hub.act codec .attach = some after) :
    Consistent codec blank after := by
  have joined : hub.phase.Connected → hub.phase.Joined := by
    intro connected
    cases phase : hub.phase with
    | idle | finished =>
      rw [phase] at connected
      exact connected
    | _ => trivial
  have whole : Consistent codec blank { hub with joining := some hub.connected } :=
    { consistent with
      joining := fun on => by
        obtain ⟨numbered, connected⟩ := consistent.connected (some.inj on)
        exact ⟨numbered, joined connected⟩
      waiting := fun off => consistent.unconnected (some.inj off) }
  unfold act at taken
  cases free : hub.joining with
  | some connected =>
    rw [free] at taken
    cases phase : hub.phase <;> rw [phase] at taken <;> cases taken
  | none =>
    rw [free] at taken
    cases phase : hub.phase <;> rw [phase] at taken <;> cases taken <;>
      rw [phase] at whole <;> exact whole

/-- A consumer that joins is in step with the owner. -/
theorem seeded
    {connected : Bool} (joining : hub.joining = some connected) (meets : Meets codec hub .seed) :
    InStep codec blank hub.state hub.phase (hub.seedOf connected) := by
  unfold Hub.seedOf
  cases connected with
  | false =>
    have first := consistent.waiting joining
    refine ⟨follows_nil none, blank, rfl, ?_⟩
    cases phase : hub.phase with
    | idle => rfl
    | streaming =>
      rw [phase] at first
      exact .inl ⟨first, rfl⟩
    | applied frame | flagged frame =>
      rw [phase] at first
      exact .inl ⟨first, nofun⟩
    | _ => trivial
  | true =>
    obtain ⟨numbered, joined⟩ := consistent.joining joining
    obtain ⟨up, down, holds⟩ := consistent.holds numbered
    obtain ⟨sequence, known⟩ := isSome_iff_exists.mp numbered
    have sent : ∃ frame, hub.state.snapshot = some frame ∧ frame.stateSequence = sequence := by
      unfold MarketState.snapshot
      rw [known]
      exact ⟨_, rfl, rfl⟩
    obtain ⟨frame, sent, named⟩ := sent
    rw [sent]
    dsimp only
    have read := holds.read_back (meets joining) consistent.blanks sent
    have followed : follow codec blank (start blank (some frame.stateSequence))
        (.frame frame hub.state) = _ := follow_seed read
    have extended := (follows_nil (some frame.stateSequence)).hand rfl followed
      (fun other owner same => by cases same; rfl)
    refine ⟨extended.1, hub.state, extended.2, ?_⟩
    cases phase : hub.phase with
    | idle =>
      rw [phase] at joined
      exact absurd joined not_false
    | streaming =>
      refine .inr ⟨rfl, sequence, known, ?_⟩
      intro other mem
      cases mem
      exact named.le
    | applied last | flagged last =>
      have last := consistent.taken
      rw [phase] at last
      refine .inr ⟨rfl, ?_⟩
      rw [named, ← known]
      exact last
    | _ => trivial

theorem seed (meets : Meets codec hub .seed) (taken : hub.act codec .seed = some after) :
    Consistent codec blank after := by
  obtain ⟨connected, joining, rfl⟩ := map_eq_some_iff.mp taken
  have joined := consistent.seeded joining meets
  exact
    { consistent with
      joining := nofun
      waiting := nofun
      consumers := by
        intro consumer mem
        rcases mem_append.mp mem with old | new
        · exact consistent.consumers consumer old
        · rw [mem_singleton.mp new]
          exact joined }

theorem abandon (taken : hub.act codec .abandon = some after) :
    Consistent codec blank after := by
  obtain ⟨connected, joining, rfl⟩ := map_eq_some_iff.mp taken
  exact
    { consistent with
      joining := nofun
      waiting := nofun }

end

/-- Every step that meets the condition keeps the consumers in step. -/
theorem step
    {action : Action} (consistent : Consistent codec blank hub) (meets : Meets codec hub action)
    (taken : Hub.step codec hub action after) :
    Consistent codec blank after := by
  cases action with
  | connect => exact consistent.connect taken
  | refuse reason retryAfterMs => exact consistent.refuse taken
  | receive frame retryAfterMs => exact consistent.receive meets taken
  | lose reason retryAfterMs => exact consistent.lose taken
  | flag => exact consistent.flag taken
  | send => exact consistent.send taken
  | unflag => exact consistent.unflag taken
  | recover => exact consistent.recover taken
  | stop => exact consistent.stop taken
  | darken => exact consistent.darken taken
  | finish => exact consistent.finish taken
  | attach => exact consistent.attach taken
  | seed => exact consistent.seed meets taken
  | abandon => exact consistent.abandon taken

end Consistent

theorem consistent_new (sequence : blank.sequence = none) (books : blank.books = []) :
    Consistent codec blank (Hub.new blank) where
  blanks := ⟨rfl, rfl, rfl, sequence, books⟩
  sound := .inl ⟨sequence, books⟩
  connected := nofun
  unconnected := fun _ => trivial
  joining := nofun
  waiting := nofun
  taken := trivial
  flagged := nofun
  consumers := fun _ mem => absurd mem not_mem_nil

/-- A state that is bound and budgeted is blank. -/
theorem blank_of_new (made : MarketState.new key streamId budget = .ok blank) :
    blank.sequence = none ∧ blank.books = [] := by
  unfold MarketState.new at made
  iterate 3 obtain ⟨_, _, made⟩ := bind_ok.mp made
  cases made
  exact ⟨rfl, rfl⟩

/-- In every run whose steps meet the condition, a consumer that joined at any
moment takes everything it is due and shows the state of the owner after each
frame. -/
theorem follows_of_run
    {codec : Codec} {key : Option MarketKey} {streamId : String} {budget : DeliveryBudget}
    {blank : MarketState} {actions : List Action} {hub : Hub}
    (made : MarketState.new key streamId budget = .ok blank)
    (run : Run (fun before action after => Hub.step codec before action after ∧
      Meets codec before action) (Hub.new blank) actions hub) :
    ∀ consumer ∈ hub.consumers, consumer.Follows codec blank := by
  obtain ⟨sequence, books⟩ := blank_of_new made
  have consistent : Consistent codec blank hub :=
    run.preserves (fun _ _ _ consistent taken => consistent.step taken.2 taken.1)
      (consistent_new sequence books)
  intro consumer member
  exact (consistent.consumers consumer member).follows

/-! ## A consumer that joins -/

instance (codec : Codec) (hub : Hub) (action : Action) : Decidable (Meets codec hub action) :=
  match action with
  | .receive frame _ =>
    inferInstanceAs (Decidable (hub.state.sequence = none →
      (hub.state.apply codec frame).isOk = true → ∀ consumer ∈ hub.consumers,
        ∀ sequence ∈ consumer.seedSequence, sequence < frame.stateSequence))
  | .seed =>
    inferInstanceAs (Decidable (hub.joining = some true →
      hub.state.shown.encodedLength ≤ hub.state.budget.maximumStateBytes))
  | .connect => isTrue trivial
  | .refuse _ _ => isTrue trivial
  | .lose _ _ => isTrue trivial
  | .flag => isTrue trivial
  | .send => isTrue trivial
  | .unflag => isTrue trivial
  | .recover => isTrue trivial
  | .stop => isTrue trivial
  | .darken => isTrue trivial
  | .finish => isTrue trivial
  | .attach => isTrue trivial
  | .abandon => isTrue trivial

def sampleFrame (sequence : Nat) : MarketFrame :=
  message (sampleState "5" sequence) "2026-10-09T00:00:00Z" (.snapshot (sampleSnapshot "5" 1 1))

/-- A consumer joins after the first frame. -/
def joiningActions : List Action :=
  [.connect, .receive (sampleFrame 1) 250, .flag, .send, .attach, .seed]

/-- The connection is lost, and the next one begins with a frame of a sequence. -/
def rejoiningActions (sequence : Nat) : List Action :=
  joiningActions ++ [.lose "closed" 250, .unflag, .recover, .connect,
    .receive (sampleFrame sequence) 250, .flag, .send]

/-- The sequence of the state that a consumer has folded, and that of the owner
after the last frame. -/
def glance (consumer : Consumer) : Option (Option Nat) × Option (Option Nat) :=
  ((consumer.due.foldlM (follow sampleCodec sampleClient)
      (start sampleClient consumer.seedSequence)).toOption.map
      fun follower => follower.state.sequence,
    consumer.due.getLast?.bind fun event =>
      match event with
      | .frame _ owner => some owner.sequence
      | .recovering _ _ => none)

theorem follows_of_run_sample :
    ∃ hub,
      Run (fun before action after => Hub.step sampleCodec before action after ∧
        Meets sampleCodec before action) (Hub.new sampleClient) (rejoiningActions 2) hub ∧
        hub.consumers.map glance = [(some (some 2), some (some 2))] ∧
          ∀ consumer ∈ hub.consumers, consumer.Follows sampleCodec sampleClient := by
  have played : ((rejoiningActions 2).foldlM (fun hub action =>
      if Meets sampleCodec hub action then hub.act sampleCodec action else none)
        (Hub.new sampleClient)).map (fun hub => hub.consumers.map glance) =
      some [(some (some 2), some (some 2))] := by
    decide +kernel
  obtain ⟨hub, reached, shape⟩ := map_eq_some_iff.mp played
  have run := Run.restrict_of_foldlM reached
  exact ⟨hub, run, shape, follows_of_run sampleClient_new run⟩

/-- The snapshot of a second connection has the sequence of the seed and is left
out, so the consumer does not show the state of the owner. -/
theorem snapshot_left_out :
    ∃ hub,
      Run (Hub.step sampleCodec) (Hub.new sampleClient) (rejoiningActions 1) hub ∧
        ∃ consumer ∈ hub.consumers, ¬ consumer.Follows sampleCodec sampleClient := by
  have played : ((rejoiningActions 1).foldlM (act sampleCodec)
      (Hub.new sampleClient)).map (fun hub => hub.consumers.map glance) =
      some [(some none, some (some 1))] := by
    decide +kernel
  obtain ⟨hub, reached, shape⟩ := map_eq_some_iff.mp played
  have run : Run (Hub.step sampleCodec) (Hub.new sampleClient) (rejoiningActions 1) hub :=
    Run.of_foldlM reached
  obtain ⟨consumer, rest, listed, seen, _⟩ := map_eq_cons_iff.mp shape
  refine ⟨hub, run, consumer, by rw [listed]; exact mem_cons_self, ?_⟩
  intro follows
  obtain ⟨folded, last⟩ := Prod.mk.inj seen
  obtain ⟨event, ends, owned⟩ := bind_eq_some_iff.mp last
  obtain ⟨front, whole⟩ := getLast?_eq_some_iff.mp ends
  cases event with
  | recovering reason retryAfterMs => cases owned
  | frame frame owner =>
    obtain ⟨follower, reached, same⟩ := follows.shows front frame owner (by rw [whole])
    rw [← whole] at reached
    rw [reached] at folded
    have sequence : some follower.state.sequence = some none := folded
    rw [same] at sequence
    have known : some owner.sequence = some (some 1) := owned
    rw [sequence] at known
    cases known

/-! ## A state that is handed on -/

/-- A client that took some frames and refused others is blank or holds both books. -/
theorem kept_of_frames {codec : Codec} {blank : MarketState} (sequence : blank.sequence = none)
    (books : blank.books = []) (frames : List MarketFrame) :
    let state := frames.foldl
      (fun state frame => (state.apply codec frame).toOption.getD state) blank
    Blank state blank ∧ ((state.sequence = none ∧ state.books = []) ∨
      (∃ up down, Holds codec state up down) ∧
        state.shown.encodedLength ≤ state.budget.maximumStateBytes) := by
  intro state
  induction frames using reverseRecOn with
  | nil => exact ⟨⟨rfl, rfl, rfl, sequence, books⟩, .inl ⟨sequence, books⟩⟩
  | append_singleton front frame ih =>
    obtain ⟨blanks, shape⟩ := ih
    dsimp only [state]
    rw [foldl_append, foldl_cons, foldl_nil]
    generalize front.foldl _ blank = before at blanks shape ⊢
    cases taken : before.apply codec frame with
    | error cause => exact ⟨blanks, shape⟩
    | ok after =>
      have took : Took codec before frame after := apply_took (shape.imp_right And.left) taken
      exact
        ⟨⟨blanks.key.trans took.key.symm, blanks.streamId.trans took.streamId.symm,
            blanks.budget.trans took.budget.symm, sequence, books⟩,
          .inr ⟨took.holds, took.bounded⟩⟩

/-- A client that took some frames and refused others keeps to its limits, and a new
client that is sent its state whole is in the same state. -/
theorem snapshot_read_back
    (codec : Codec) (key : Option MarketKey) (streamId : String) (budget : DeliveryBudget)
    (blank : MarketState) (made : MarketState.new key streamId budget = .ok blank)
    (frames : List MarketFrame) :
    let state := frames.foldl
      (fun state frame => (state.apply codec frame).toOption.getD state) blank
    (∀ book ∈ state.books, ∀ side, (book.side side).size ≤ blank.budget.maximumLevelsPerSide) ∧
      ∀ sent, state.snapshot = some sent →
        state.shown.encodedLength ≤ blank.budget.maximumStateBytes ∧
          blank.apply codec sent = .ok state := by
  obtain ⟨sequence, books⟩ := blank_of_new made
  intro state
  obtain ⟨blanks, ⟨unnumbered, none⟩ | ⟨⟨up, down, holds⟩, bounded⟩⟩ :=
    @kept_of_frames codec _ sequence books frames
  · refine ⟨fun book member => ?_, fun sent read => ?_⟩
    · rw [none] at member
      cases member
    · unfold MarketState.snapshot at read
      rw [unnumbered] at read
      cases read
  · rw [blanks.budget]
    refine ⟨fun book member side => ?_, fun sent read =>
      ⟨bounded, holds.read_back bounded blanks read⟩⟩
    rw [holds.books] at member
    rcases mem_pair.mp member with rfl | rfl
    · exact (holds.up.sides.side side).bounded
    · exact (holds.down.sides.side side).bounded

/-- The frame that comes again is refused. -/
theorem snapshot_read_back_sample :
    let state := [sampleFrame 1, sampleFrame 1].foldl
      (fun state frame => (state.apply sampleCodec frame).toOption.getD state) sampleClient
    ∃ sent, state.snapshot = some sent ∧ sampleClient.apply sampleCodec sent = .ok state := by
  intro state
  obtain ⟨sent, read⟩ := isSome_iff_exists.mp (by decide +kernel : state.snapshot.isSome = true)
  obtain ⟨_, back⟩ := snapshot_read_back sampleCodec (some sampleKey) "stream" sampleBudget
    sampleClient sampleClient_new [sampleFrame 1, sampleFrame 1]
  exact ⟨sent, read, (back sent read).2⟩

end MarketCow.Sdk.SharedMarket
