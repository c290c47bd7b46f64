import MarketCow.Polymarket.Websocket.EventStep

/-!
# One frame

A frame that succeeds keeps a state consistent, and so does one that fails: it
changes no token but those that it names, and these are invalidated.
-/

namespace MarketCow.Websocket

open Library MarketCow.Core Polymarket List
open Adapter (applyEvent applyEvents isFullBook)

/-! ## The events of a frame -/

section Events

variable {externals : Externals} {frame : Frame} {adapter after : Adapter}
  {events : List CanonicalEvent} {result : Except AdapterError (Option Json)}
  {event : CanonicalEvent}

/-- An event of a token that is not subscribed to changes nothing. -/
theorem eq_of_unsubscribed (unsubscribed : event.kind.tokenId ∉ adapter.identities)
    (ran : applyEvent externals frame emitted event adapter = (result, after)) :
    after = adapter := by
  have unknown : adapter.identities[event.kind.tokenId]? = none :=
    Std.ExtTreeMap.getElem?_eq_none unsubscribed
  unfold applyEvent at ran
  rw [Effect.get_bind, Effect.bind_apply, unknown] at ran
  exact (Prod.mk.inj ran).2.symm

variable {tokens : String → Prop}

theorem within_applyEvent
    (covered : event.kind.tokenId ∈ adapter.identities → tokens event.kind.tokenId)
    (ran : applyEvent externals frame emitted event adapter = (result, after)) :
    Within tokens adapter after := by
  by_cases subscribed : event.kind.tokenId ∈ adapter.identities
  · refine (elsewhere_applyEvent ran).mono ?_
    rintro _ rfl
    exact covered subscribed
  · rw [eq_of_unsubscribed subscribed ran]
    exact Std.Refl.refl adapter

variable {output : List Json}

/-- The events of a frame change no other tokens than their own. -/
theorem within_applyEvents {result : Except AdapterError (List Json)}
    (covered : ∀ event ∈ events, event.kind.tokenId ∈ adapter.identities →
      tokens event.kind.tokenId)
    (ran : applyEvents externals frame output events adapter = (result, after)) :
    Within tokens adapter after := by
  induction events generalizing output adapter with
  | nil =>
    obtain ⟨_, rfl⟩ := Prod.mk.inj ran
    exact Std.Refl.refl adapter
  | cons event events ih =>
    unfold applyEvents at ran
    rw [Effect.bind_apply] at ran
    rcases taken : applyEvent externals frame output.length event adapter with
      ⟨cause | emitted, middle⟩
    · rw [taken] at ran
      cases ran
      exact within_applyEvent (covered event mem_cons_self) taken
    · rw [taken] at ran
      have first := within_applyEvent (covered event mem_cons_self) taken
      refine IsTrans.trans _ _ _ first (ih ?_ ran)
      intro other mem subscribed
      rw [first.identities] at subscribed
      exact covered other (mem_cons_of_mem event mem) subscribed

/-- Increments that succeed keep a state consistent. -/
theorem Consistent.applyEvents (consistent : Consistent externals adapter)
    (increments : ∀ event ∈ events, isFullBook event.kind = false)
    (ran : applyEvents externals frame output events adapter = (.ok results, after)) :
    Consistent externals after := by
  induction events generalizing output adapter with
  | nil =>
    cases ran
    exact consistent
  | cons event events ih =>
    obtain ⟨emitted, middle, taken, ran⟩ := Effect.bind_ok.mp ran
    exact ih (consistent.applyEvent (increments event mem_cons_self) taken)
      (fun other mem => increments other (mem_cons_of_mem event mem)) ran

/-- Nothing about a token goes out, and no confirmation of it is new. -/
structure Silent (token : String) (output : List Json) (before after : Adapter) : Prop where
  events : ∀ event ∈ output, (field event "token_id").asString? ≠ some token
  confirmations : ∀ confirmation ∈ after.confirmations, confirmation.tokenId = token →
    confirmation ∈ before.confirmations

/-- The output of a computation, none where it fails. -/
def outputOf {ε Item : Type} : Except ε (List Item) → List Item
  | .ok items => items
  | .error _ => []

/-- While a token waits, increments leave it alone and say nothing about it. -/
theorem silent_applyEvents
    {token : String} {result : Except AdapterError (List Json)} (waits : token ∈ adapter.waiting)
    (increments : ∀ event ∈ events, event.kind.tokenId = token →
      isFullBook event.kind = false)
    (quiet : ∀ event ∈ output, (field event "token_id").asString? ≠ some token)
    (ran : applyEvents externals frame output events adapter = (result, after)) :
    SameAt token adapter after ∧ Silent token (outputOf result) adapter after := by
  induction events generalizing output adapter with
  | nil =>
    obtain ⟨rfl, rfl⟩ := Prod.mk.inj ran
    exact ⟨.refl adapter, quiet, fun _ mem _ => mem⟩
  | cons event events ih =>
    unfold applyEvents at ran
    rw [Effect.bind_apply] at ran
    rcases taken : applyEvent externals frame output.length event adapter with
      ⟨cause | emitted, middle⟩
    · rw [taken] at ran
      cases ran
      obtain ⟨same, confirmations, _⟩ :=
        sameAt_of_waiting waits (increments event mem_cons_self) taken
      refine ⟨same, ?_, confirmations⟩
      intro _ mem
      cases mem
    · rw [taken] at ran
      obtain ⟨same, confirmations, names⟩ :=
        sameAt_of_waiting waits (increments event mem_cons_self) taken
      obtain ⟨rest, silent⟩ := ih (same.waiting.mpr waits)
        (fun other mem => increments other (mem_cons_of_mem event mem)) (by
          intro other mem
          rcases mem_append.mp mem with earlier | new
          · exact quiet other earlier
          · exact names other (by rw [Option.mem_toList.mp new])) ran
      refine ⟨same.trans rest, silent.events, ?_⟩
      intro confirmation mem named
      exact confirmations confirmation (silent.confirmations confirmation mem named) named

end Events

end MarketCow.Websocket
