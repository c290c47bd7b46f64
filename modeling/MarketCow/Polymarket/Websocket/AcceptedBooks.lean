import MarketCow.Polymarket.Websocket.IsolatedFrame

/-!
# Books that the reducer accepts

A full book whose last trade can be read and lies on its tick is published, or
the engine rejects it and its token is left alone.
-/

namespace MarketCow.Websocket

open Library MarketCow.Core Polymarket
open Effect (bind_apply bind_of_ok get_bind lift_apply modify_bind need_some_bind)
open Adapter (acceptedBook applyEvent moveClocks publishBook reduceEvent settleBook startFullBook)

section Books

variable {externals : Externals} {frame : Frame} {token market condition : String}
  {observed : DateTime} {emitted : Nat} {book : Book} {tick : Price} {lastTrade : Option Price}
  {stored : EventKind} {adapter after : Adapter}

theorem startFullBook_of_fits (externals : Externals) (token : String) (adapter : Adapter)
    (fits : frame.after + (emitted + 1) < 2 ^ 64) :
    ∃ epoch, startFullBook externals frame token emitted true adapter =
      (.ok (), { adapter with
        waiting := adapter.waiting.erase token
        epochs := adapter.epochs.insert token epoch
        sequences := adapter.sequences.insert token 0 }) := by
  unfold startFullBook Adapter.startEpoch
  rw [if_pos rfl, modify_bind, bind_apply, lift_apply, checkedAdd_ok_iff.mpr ⟨fits, rfl⟩]
  exact ⟨_, rfl⟩

theorem recordLastTrade_of_traded (token : String) (book : Book) (adapter : Adapter)
    (traded : readLastTrade externals frame.raw = .ok lastTrade)
    (onTick : lastTrade.all (fun price => (Decimal.rem price tick).isZero) = true) :
    ∃ lastTrades, Adapter.recordLastTrade externals frame token true tick book adapter =
      (.ok (), { adapter with lastTrades }) := by
  unfold Adapter.recordLastTrade
  rw [if_pos rfl, bind_apply, lift_apply, traded]
  dsimp only
  rw [onTick]
  exact ⟨_, rfl⟩

section

variable (kind : frame.kind = "book") (fits : frame.after + (emitted + 1) < 2 ^ 64)
include kind fits

/-- The book of a book frame that started its epoch is published. -/
theorem publishBook_of_started
    (started : adapter.epochs[token]? = some epoch) (counted : adapter.sequences[token]? = some 0) :
    ∃ event after, publishBook externals frame token market condition observed emitted book
      tick checksum stored adapter = (.ok event, after) := by
  have clocks : moveClocks frame token observed checksum adapter =
      { adapter with
        depthChecksums := adapter.depthChecksums.insert token checksum
        bookReceived := adapter.bookReceived.insert token frame.received
        bookSource := adapter.bookSource.insert token observed } := by
    unfold moveClocks
    rw [kind]
    rfl
  have replay : replayFields externals frame token stored = .ok [] := by
    unfold replayFields
    rw [kind, if_neg (by decide)]
  unfold publishBook
  rw [modify_bind, get_bind, clocks]
  rw [getElem?_insert_token, getElem?_insert_token, counted, need_some_bind,
    need_some_bind, need_some_bind, bind_apply, lift_apply,
    checkedAdd_ok_iff.mpr ⟨by decide, rfl⟩]
  dsimp only
  rw [modify_bind, started, need_some_bind, bind_apply, lift_apply,
    checkedAdd_ok_iff.mpr ⟨fits, rfl⟩]
  dsimp only
  rw [bind_apply, lift_apply, replay]
  exact ⟨_, _, rfl⟩

/-- A full book whose last trade is on its tick is published. -/
theorem settleBook_of_traded
    (ticked : book.tickSize = some tick)
    (traded : readLastTrade externals frame.raw = .ok lastTrade)
    (onTick : lastTrade.all (fun price => (Decimal.rem price tick).isZero) = true) :
    ∃ event after, settleBook externals frame token market condition observed emitted true
      book stored adapter = (.ok (some event), after) := by
  obtain ⟨epoch, started⟩ := startFullBook_of_fits externals token adapter fits
  unfold settleBook
  rw [bind_of_ok started, ticked, need_some_bind, modify_bind]
  obtain ⟨lastTrades, recorded⟩ := recordLastTrade_of_traded token book
    { adapter with
      waiting := adapter.waiting.erase token
      epochs := adapter.epochs.insert token epoch
      sequences := adapter.sequences.insert token 0
      ticks := adapter.ticks.insert token tick } traded onTick
  rw [bind_of_ok recorded, get_bind, if_neg]
  · obtain ⟨event, after, published⟩ : ∃ event after,
        publishBook externals frame token market condition observed emitted book tick
          (depthChecksum externals token book tick) stored
          { adapter with
            waiting := adapter.waiting.erase token
            epochs := adapter.epochs.insert token epoch
            sequences := adapter.sequences.insert token 0
            ticks := adapter.ticks.insert token tick
            lastTrades } = (.ok event, after) :=
      publishBook_of_started kind fits (getElem?_insert_token _ _) (getElem?_insert_token _ _)
    exact ⟨event, after, bind_of_ok published⟩
  · rw [kind]
    intro confirms
    exact absurd confirms.1 (by decide)

/-- A full book whose last trade is on its tick is published, or its token is left
alone. -/
theorem applyEvent_of_traded
    (reads : ReadsBook externals.parsers verified frame.raw event.kind token tick)
    (traded : readLastTrade externals frame.raw = .ok lastTrade)
    (onTick : lastTrade.all (fun price => (Decimal.rem price tick).isZero) = true)
    (ran : applyEvent externals frame emitted event adapter = (result, after)) :
    (∃ emission, result = .ok (some emission)) ∨
      SameAt token adapter after ∧ ∀ emission, result ≠ .ok (some emission) := by
  obtain ⟨bids, asks, version, fullBook⟩ := reads.full
  have named : event.kind.tokenId = token := by rw [fullBook]; rfl
  have full : Adapter.isFullBook event.kind = true := by rw [fullBook]; rfl
  unfold applyEvent at ran
  rw [named, full, get_bind] at ran
  cases known : adapter.identities[token]? with
  | none =>
    rw [known, Effect.need_none_bind] at ran
    cases ran
    exact .inr ⟨.refl _, by simp⟩
  | some identity =>
    obtain ⟨market, condition⟩ := identity
    rw [known, need_some_bind] at ran
    dsimp only at ran
    rw [bind_apply] at ran
    generalize ((field frame.raw "market").asString? == some condition) = matched at ran
    cases matched with
    | false =>
      cases ran
      exact .inr ⟨.refl _, by simp⟩
    | true =>
      rw [Bool.not_true, Bool.and_false, if_neg Bool.false_ne_true] at ran
      change (reduceEvent externals frame token event >>= _) adapter = _ at ran
      rw [bind_apply] at ran
      rcases reduce : reduceEvent externals frame token event adapter with
        ⟨reduced, middle⟩
      rw [reduce] at ran
      obtain ⟨engine, rfl, shape⟩ := reduceEvent_spec reduce
      rcases shape with ⟨outcome, cursor, rfl, current, applied⟩ | ⟨ne, same⟩
      · obtain ⟨_, state, log, evaluated, _, published, _⟩ := SingleWriter.apply_ok_iff.mp applied
        have projected : outcome.projection.books = state.books := by rw [published]
        change (Effect.lift (acceptedBook frame token event.sourceObservedAt outcome) >>=
          _) _ = _ at ran
        rw [bind_apply, lift_apply] at ran
        have moved : ({ event with cursor } : CanonicalEvent).kind =
          .fullBook token bids asks tick version := fullBook
        rcases books_of_fullBook moved evaluated with ⟨rejected, same⟩ | ⟨accepted, book, present, ticked⟩
        · have failed : ∃ cause, acceptedBook frame token event.sourceObservedAt outcome =
              .error cause := by
            unfold acceptedBook
            rw [rejected, if_neg Bool.false_ne_true]
            split
            · exact ⟨_, rfl⟩
            · exact ⟨_, rfl⟩
          obtain ⟨cause, failed⟩ := failed
          rw [failed] at ran
          cases ran
          refine .inr ⟨sameAt_withEngine ?_, by simp⟩
          rw [current, projected, same]
          exact books_engineFor _
        · have passed : acceptedBook frame token event.sourceObservedAt outcome =
              .ok book := by
            unfold acceptedBook
            rw [accepted, if_pos rfl, projected, present]
          rw [passed] at ran
          obtain ⟨emission, after, settled⟩ := settleBook_of_traded kind fits ticked traded onTick
          obtain ⟨rfl, _⟩ := Prod.mk.inj (ran.symm.trans settled)
          exact .inl ⟨emission, rfl⟩
      · cases reduced with
        | error cause =>
          cases ran
          exact .inr ⟨sameAt_withEngine same, by simp⟩
        | ok outcome =>
          cases outcome with
          | none =>
            cases ran
            exact .inr ⟨sameAt_withEngine same, by simp⟩
          | some outcome => exact absurd rfl (ne outcome)

end

end Books

end MarketCow.Websocket
