import MarketCow.Polymarket.Websocket.Elsewhere

/-!
# Tokens with a book

A token that does not wait has an engine with a book, the clocks and the sequence
of the book that was published last, and its checksum. Reducing an event of such
a token keeps this, and a full book brings it about.
-/

namespace MarketCow.Websocket

open Library MarketCow.Core Polymarket
open SingleWriter (apply applyInner)

/-- A token with a published book. -/
structure Ready (externals : Externals) (adapter : Adapter) (token : String) : Prop where
  checksum : ∃ book tick, adapter.engineBook token = some book ∧ book.tickSize = some tick ∧
    adapter.depthChecksums[token]? = some (depthChecksum externals token book tick)
  epoch : ∃ epoch, adapter.epochs[token]? = some epoch
  sequence : ∃ sequence, adapter.sequences[token]? = some sequence
  received : ∃ received, adapter.bookReceived[token]? = some received
  source : ∃ source, adapter.bookSource[token]? = some source

theorem Ready.congr (same : SameAt token before after)
    (ready : Ready externals before token) : Ready externals after token where
  checksum := by
    rw [same.book, same.checksum]
    exact ready.checksum
  epoch := by
    rw [same.epoch]
    exact ready.epoch
  sequence := by
    rw [same.sequence]
    exact ready.sequence
  received := by
    rw [same.received]
    exact ready.received
  source := by
    rw [same.source]
    exact ready.source

/-! ## The engine of a token -/

section Engine

variable {externals : Externals} {frame : Frame} {token : String} {event : CanonicalEvent}
  {adapter after : Adapter}

/-- A failed application leaves the writer as it was. -/
theorem writer_of_error {writer next : SingleWriter Unit} {failure : Failure}
    (failed : apply platform memoryReducer writer now event = (.error failure, next)) :
    next = writer := by
  unfold apply applyInner at failed
  split at failed
  · exact (Prod.mk.inj failed).2.symm
  · split at failed
    · exact (Prod.mk.inj failed).2.symm
    · cases failed

theorem books_engineFor (now : DateTime) :
    (adapter.engineFor now token).current.books[token]? = adapter.engineBook token := by
  unfold Adapter.engineFor Adapter.engineBook
  cases adapter.engines[token]? with
  | none => exact getElem?_empty
  | some engine => rfl

@[simp] theorem engineBook_withEngine (engine : SingleWriter Unit) :
    (adapter.withEngine token engine).engineBook token = engine.current.books[token]? := by
  unfold Adapter.engineBook Adapter.withEngine
  rw [getElem?_insert_token, Option.bind_some]

theorem sameAt_withEngine (same : engine.current.books[token]? = adapter.engineBook token) :
    SameAt token adapter (adapter.withEngine token engine) :=
  ⟨.rfl, (engineBook_withEngine engine).trans same, rfl, rfl, rfl, rfl, rfl, rfl⟩

@[simp] theorem withEngine_withEngine (first second : SingleWriter Unit) :
    (adapter.withEngine token first).withEngine token second = adapter.withEngine token second := by
  unfold Adapter.withEngine
  refine congrArg (fun engines => ({ adapter with engines } : Adapter)) ?_
  refine TreeMap.ext_getElem? fun key => ?_
  rw [TreeMap.getElem?_insert, TreeMap.getElem?_insert, TreeMap.getElem?_insert]
  split <;> rfl

variable {result : Except AdapterError (Option ApplyOutcome)}

/-- What is left of a failed application. -/
theorem engineOutcome_of_error
    {failure : Failure} (ran : Adapter.engineOutcome (.error failure) adapter = (result, after)) :
    after = adapter ∧ ∀ outcome, result ≠ .ok (some outcome) := by
  rw [← (Prod.mk.inj ran).1, ← (Prod.mk.inj ran).2]
  cases failure with
  | panic message => exact ⟨rfl, by simp⟩
  | error cause => cases cause <;> exact ⟨rfl, by simp⟩

/-- Whatever comes of an event, only the engine of its token is another one; its
book is the one of the outcome, if there is one, and the same otherwise. -/
theorem reduceEvent_spec
    (ran : Adapter.reduceEvent externals frame token event adapter = (result, after)) :
    ∃ engine, after = adapter.withEngine token engine ∧
      ((∃ outcome cursor, result = .ok (some outcome) ∧ engine.current = outcome.projection ∧
          apply externals.platform memoryReducer (adapter.engineFor frame.now token)
            frame.now { event with cursor } = (.ok outcome, engine)) ∨
        (∀ outcome, result ≠ .ok (some outcome)) ∧
          engine.current.books[token]? = adapter.engineBook token) := by
  unfold Adapter.reduceEvent at ran
  rw [Effect.get_bind, Effect.modify_bind, Effect.bind_apply, Effect.lift_apply] at ran
  cases counted : checkedAdd (adapter.engineFor frame.now token).current.cursor 1
      "reducer overflow" with
  | error cause =>
    rw [counted] at ran
    cases ran
    exact ⟨_, rfl, .inr ⟨by simp, books_engineFor _⟩⟩
  | ok cursor =>
    rw [counted] at ran
    dsimp only at ran
    rw [Effect.modify_bind, withEngine_withEngine] at ran
    rcases applied : apply externals.platform memoryReducer
      (adapter.engineFor frame.now token) frame.now { event with cursor } with
      ⟨failure | outcome, engine⟩
    · rw [applied] at ran
      obtain ⟨rfl, ne⟩ := engineOutcome_of_error ran
      refine ⟨engine, rfl, .inr ⟨ne, ?_⟩⟩
      rw [writer_of_error applied]
      exact books_engineFor _
    · rw [applied] at ran
      cases ran
      obtain ⟨_, state, log, _, _, published, next⟩ := SingleWriter.apply_ok_iff.mp applied
      exact ⟨engine, rfl, .inl ⟨outcome, cursor, rfl, by rw [next], applied⟩⟩

end Engine

end MarketCow.Websocket
