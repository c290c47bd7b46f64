import MarketCow.Discovery.Reopen

/-!
# Events in a transaction

What one event changes in the log and in the index, and what holds when the first
events of a batch are stored.
-/

namespace MarketCow.Discovery

open Library List Option
open BookHealth (fromBook)
open TreeMap (getElem?_insert_eq)

/-- The stored line of an event. -/
def lineRow (line : Bytes) : StoredRow where
  payload := line
  sha256 := sha256 line

section Stores

variable {externals : Externals} {bounded terminal native : Bool}
  {materializedBooks : TreeMap Nat Json} {session stored : Session} {event : Json} {line : Bytes}
  {market : String} {publicCursor eventCursor : Nat} {index : Index}

theorem column_ok_iff : column value = .ok result ↔ value < 2 ^ 63 ∧ result = value := by
  unfold column
  constructor
  · intro fits
    obtain ⟨_, small, same⟩ := bind_ok.mp fits
    exact ⟨of_decide_eq_true (ensure_ok.mp small), (ok.inj same).symm⟩
  · rintro ⟨small, rfl⟩
    exact bind_ok.mpr ⟨(), ensure_ok.mpr (decide_eq_true small), rfl⟩

/-- The row of a line in the log. -/
structure IsOffsetRow (offset : Nat) (line : Bytes) (row : OffsetRow) : Prop where
  byteOffset : row.byteOffset = offset
  byteLength : row.byteLength = line.length
  lineSha256 : row.lineSha256 = sha256 line

/-- The line of an event is stored under its archive position, in one of two tables. -/
structure Inserted
    (bounded : Bool) (eventCursor offset : Nat) (line : Bytes) (before after : Index) : Prop where
  small : eventCursor < 2 ^ 63
  fresh : bounded = true → before.recentEvents[eventCursor]? = none
  frame : after =
    { before with
      recentEvents := after.recentEvents
      eventOffsets := after.eventOffsets }
  recent : after.recentEvents =
    if bounded then before.recentEvents.insert eventCursor (lineRow line)
    else before.recentEvents
  offsets : ∃ row, IsOffsetRow offset line row ∧
    after.eventOffsets =
      if bounded then before.eventOffsets else before.eventOffsets.insert eventCursor row

theorem inserted_of_insertEvent
    (inserted : insertEvent bounded eventCursor market event line session = .ok index) :
    Inserted bounded eventCursor session.offset line session.index index := by
  unfold insertEvent at inserted
  cases bounded with
  | true =>
    rw [if_pos rfl] at inserted
    unfold insertRecentEvent at inserted
    obtain ⟨key, small, _, absent, done⟩ := bind₂_ok.mp inserted
    obtain ⟨bound, rfl⟩ := column_ok_iff.mp small
    cases done
    have missing := ensure_ok.mp absent
    rw [not_eq_true', contains_eq_isSome_getElem?,
      isSome_eq_false_iff, isNone_iff_eq_none] at missing
    exact ⟨bound, fun _ => missing, rfl, rfl,
      ⟨session.offset, line.length, "", "", none, sha256 line⟩, ⟨rfl, rfl, rfl⟩, rfl⟩
  | false =>
    rw [if_neg Bool.false_ne_true] at inserted
    unfold insertEventOffset at inserted
    obtain ⟨key, small, byteOffset, smallOffset, afterOffset⟩ := bind₂_ok.mp inserted
    obtain ⟨byteLength, smallLength, eventId, _, _, _, done⟩ := bind₃_ok.mp afterOffset
    obtain ⟨bound, rfl⟩ := column_ok_iff.mp small
    obtain ⟨_, sameOffset⟩ := column_ok_iff.mp smallOffset
    obtain ⟨_, sameLength⟩ := column_ok_iff.mp smallLength
    cases done
    exact ⟨bound, nofun, rfl, rfl, _, ⟨sameOffset, sameLength, rfl⟩, rfl⟩

/-- What an event is stored as besides its line. -/
inductive KindStored
    (externals : Externals) (terminal : Bool) (materializedBooks : TreeMap Nat Json)
    (market : String) (publicCursor eventCursor : Nat) (event : Json)
    (before : Session) : Session → Prop
  | lifecycle (isTerminal : terminal = true) :
      KindStored externals terminal materializedBooks market publicCursor eventCursor event before
        { before with
          index :=
            { before.index with
              marketLifecycle := before.index.marketLifecycle.insert market
                { toStoredRow :=
                    externals.row (field (field event "canonical_payload") "market")
                  cursor := eventCursor } } }
  | recovery (ordinary : terminal = false) (recovers : isTokenRecovery event = true) :
      KindStored externals terminal materializedBooks market publicCursor eventCursor event before
        before
  | book {token : String} {summary : BookHealth} (ordinary : terminal = false)
      (isBook : isTokenRecovery event = false)
      (named : (field event "token_id").asString? = some token)
      (healthy : fromBook externals market
        (storedBook materializedBooks publicCursor event) = .ok summary) :
      KindStored externals terminal materializedBooks market publicCursor eventCursor event before
        { before with
          index :=
            { before.index with
              books := upsertBook externals token market eventCursor
                (storedBook materializedBooks publicCursor event) before.index.books
              bookConfirmations := before.index.bookConfirmations.erase token }
          health := before.health.insert token summary }

theorem kindStored_of_storeEventKind
    (kind : storeEventKind externals terminal materializedBooks market publicCursor eventCursor
      event session = .ok stored) :
    KindStored externals terminal materializedBooks market publicCursor eventCursor event session
      stored := by
  unfold storeEventKind at kind
  cases terminal with
  | true =>
    rw [if_pos rfl] at kind
    cases kind
    exact .lifecycle rfl
  | false =>
    rw [if_neg Bool.false_ne_true] at kind
    cases recovers : isTokenRecovery event with
    | true =>
      rw [recovers, if_pos rfl] at kind
      cases kind
      exact .recovery rfl recovers
    | false =>
      rw [recovers, if_neg Bool.false_ne_true] at kind
      unfold storeBook at kind
      obtain ⟨token, named, _, _, summary, healthy, kind⟩ := bind₃_ok.mp kind
      cases kind
      exact .book rfl recovers (need_ok.mp named) healthy

/-- One stored event. -/
structure EventStored
    (externals : Externals) (bounded terminal native : Bool) (cursor : Nat)
    (materializedBooks : TreeMap Nat Json) (event : Json) (line : Bytes) (position : Nat)
    (before after : Session) : Prop where
  publicCursor : ∃ value, (field event "cursor").asU64? = some value ∧
    (native = true ∨ value = cursor + (position + 1))
  offset : after.offset = before.offset + line.length
  log : after.log = before.log
  parts : ∃ market publicCursor index stored, required event "market_id" = .ok market ∧
    (field event "cursor").asU64? = some publicCursor ∧
    Inserted bounded (cursor + (position + 1)) before.offset line before.index index ∧
    KindStored externals terminal materializedBooks market publicCursor
      (cursor + (position + 1)) event { before with index := index } stored ∧
    after.index = stored.index ∧ after.health = stored.health

theorem eventStored_of_storeEvent
    (taken : storeEvent externals bounded terminal native cursor materializedBooks event line
      position session = .ok stored) :
    EventStored externals bounded terminal native cursor materializedBooks event line position
      session stored := by
  unfold storeEvent at taken
  obtain ⟨market, named, publicCursor, found, eventCursor, added, taken⟩ := bind₃_ok.mp taken
  obtain ⟨_, domain, index, inserted, middle, kind, taken⟩ := bind₃_ok.mp taken
  cases taken
  obtain ⟨rfl, _⟩ := checkedAdd_eq_some_iff.mp (need_ok.mp added)
  have domains := ensure_ok.mp domain
  rw [or_eq_true, beq_iff_eq] at domains
  have kept := kindStored_of_storeEventKind kind
  have sameOffset : middle.offset = session.offset := by
    cases kept <;> rfl
  have sameLog : middle.log = session.log := by
    cases kept <;> rfl
  refine ⟨⟨publicCursor, need_ok.mp found, domains⟩, ?_, sameLog, market, publicCursor,
    index, middle, named, need_ok.mp found, inserted_of_insertEvent inserted, kept, rfl, rfl⟩
  rw [← sameOffset]

end Stores

/-! ## The first events of a batch -/

/-- What the callers of a commit guarantee about its input. -/
structure CommitSound (externals : Externals) (writer : Writer) (input : CommitInput) : Prop where
  batch : ∃ after, BatchSound externals input.terminal after input.events input.lines
  cursor : input.cursor = writer.cursor
  bytes : (input.lines.map List.length).sum ≤ writer.maximumBatchBytes
  bound : input.terminal = false → ∀ event ∈ input.events, EventOwned writer.tokenMarkets event

/-- Where the line at a place of a batch starts in the log. -/
def lineOffset (writer : Writer) (input : CommitInput) (place : Nat) : Nat :=
  writer.files.log.length + ((input.lines.take place).map List.length).sum

/-- The session after the first events of a batch. -/
structure Progress
    (externals : Externals) (writer : Writer) (input : CommitInput) (count : Nat)
    (session : Session) : Prop where
  frame : session.index =
    { writer.index with
      recentEvents := session.index.recentEvents
      eventOffsets := session.index.eventOffsets
      books := session.index.books
      bookConfirmations := session.index.bookConfirmations
      marketLifecycle := session.index.marketLifecycle }
  log : session.log = if writer.historyLimit.isSome then writer.files.log
    else writer.files.log ++ (input.lines.take count).flatten
  offset : writer.historyLimit = none → session.offset = lineOffset writer input count
  bytes : writer.historyLimit.isSome = true →
    recentBytes session.index.recentEvents =
      recentBytes writer.index.recentEvents + ((input.lines.take count).map List.length).sum
  newRecent : writer.historyLimit.isSome = true → ∀ (place : Nat) line, place < count →
    input.lines[place]? = some line →
      session.index.recentEvents[writer.cursor + (place + 1)]? = some (lineRow line)
  oldRecent : ∀ cursor : Nat,
    (writer.historyLimit.isSome = true → writer.cursor < cursor → writer.cursor + count < cursor) →
      session.index.recentEvents[cursor]? = writer.index.recentEvents[cursor]?
  newOffsets : writer.historyLimit = none → ∀ (place : Nat) line, place < count →
    input.lines[place]? = some line →
      ∃ row, session.index.eventOffsets[writer.cursor + (place + 1)]? = some row ∧
        IsOffsetRow (lineOffset writer input place) line row
  oldOffsets : ∀ cursor : Nat,
    (writer.historyLimit = none → writer.cursor < cursor → writer.cursor + count < cursor) →
      session.index.eventOffsets[cursor]? = writer.index.eventOffsets[cursor]?
  small : count = 0 ∨ writer.cursor + count < 2 ^ 63
  cursors : ∀ (place : Nat) event, place < count → input.events[place]? = some event →
    ∃ value, (field event "cursor").asU64? = some value
  lifecycle : ∀ (market : String) row, session.index.marketLifecycle[market]? = some row →
    ∃ model, row.toStoredRow = externals.row model ∧ isTerminalState model = true
  book : ∀ (token : String) row, session.index.books[token]? = some row →
    (∃ book, row.toStoredRow = externals.row book ∧
      (fromBook externals row.marketId book).toOption.isSome = true) ∧
      writer.tokenMarkets[token]? = some row.marketId
  health : ∀ token : String,
    session.health[token]? = session.index.books[token]?.bind (healthOf externals)

theorem isTerminalState_of_lifecycleValid (valid : lifecycleValid model = true) :
    isTerminalState model = true := by
  unfold lifecycleValid at valid
  unfold isTerminalState
  simp only [or_eq_true, and_eq_true] at valid ⊢
  rcases valid with ⟨closed, _⟩ | ⟨resolved, _⟩
  · exact .inl closed
  · exact .inr resolved

section Step

variable {externals : Externals} {writer : Writer} {input : CommitInput} {session after : Session}

/-- Nothing is stored yet. -/
theorem Progress.start (sound : WriterSound externals writer) :
    Progress externals writer input 0 (startSession writer) := by
  refine ⟨rfl, ?_, ?_, ?_, ?_, fun _ _ => rfl, ?_, fun _ _ => rfl, .inl rfl, ?_, ?_, ?_,
    sound.health⟩
  · cases limit : writer.historyLimit with
    | none =>
      rw [take_zero]
      exact (append_nil _).symm
    | some _ => rfl
  · intro unbounded
    unfold startSession lineOffset
    rw [unbounded, take_zero]
    rfl
  · intro _
    rw [take_zero]
    rfl
  · intro _ place _ never
    exact absurd never (Nat.not_lt_zero place)
  · intro _ place _ never
    exact absurd never (Nat.not_lt_zero place)
  · intro place _ never
    exact absurd never (Nat.not_lt_zero place)
  · exact sound.files.index.lifecycle
  · intro token row there
    exact ⟨sound.files.index.book token row there, sound.bound token row there⟩

theorem healthOf_row (stored : row.toStoredRow = externals.row book) (owner : row.marketId = market)
    (healthy : fromBook externals market book = .ok summary) :
    healthOf externals row = some summary := by
  unfold healthOf
  rw [stored, fromSlice_row, owner]
  change (fromBook externals market book).toOption = _
  rw [healthy]
  rfl

/-- The books, their health and the lifecycle rows stay sound when an event is stored. -/
theorem Progress.kind
    {terminal : Bool} {market : String} {event : Json} {count : Nat} {before stored : Session}
    (progress : Progress externals writer input count session)
    (kind : KindStored externals terminal materializedBooks market publicCursor eventCursor event
      before stored)
    (books : before.index.books = session.index.books)
    (lifecycle : before.index.marketLifecycle = session.index.marketLifecycle)
    (sameHealth : before.health = session.health)
    (closes : terminal = true →
      lifecycleValid (field (field event "canonical_payload") "market") = true)
    (bound : terminal = false → ∀ token, required event "token_id" = .ok token →
      writer.tokenMarkets[token]? = some market) :
    (∀ (other : String) row, stored.index.marketLifecycle[other]? = some row →
      ∃ model, row.toStoredRow = externals.row model ∧ isTerminalState model = true) ∧
    (∀ (token : String) row, stored.index.books[token]? = some row →
      (∃ book, row.toStoredRow = externals.row book ∧
        (fromBook externals row.marketId book).toOption.isSome = true) ∧
        writer.tokenMarkets[token]? = some row.marketId) ∧
    ∀ token : String,
      stored.health[token]? = stored.index.books[token]?.bind (healthOf externals) := by
  cases kind with
  | lifecycle isTerminal =>
    refine ⟨?_, ?_, ?_⟩
    · intro other row there
      rw [getElem?_insert_eq, lifecycle] at there
      split at there
      · cases there
        exact ⟨_, rfl, isTerminalState_of_lifecycleValid (closes isTerminal)⟩
      · exact progress.lifecycle other row there
    · dsimp only
      rw [books]
      exact progress.book
    · dsimp only
      rw [books, sameHealth]
      exact progress.health
  | recovery ordinary recovers =>
    refine ⟨?_, ?_, ?_⟩
    · rw [lifecycle]
      exact progress.lifecycle
    · rw [books]
      exact progress.book
    · rw [books, sameHealth]
      exact progress.health
  | @book token summary ordinary isBook named healthy =>
    have requiredToken : required event "token_id" = .ok token := by
      unfold required
      apply need_ok.mpr
      unfold field at named
      cases found : event.get? "token_id" with
      | none =>
        rw [found] at named
        cases named
      | some value =>
        rw [found] at named
        exact named
    have owned := bound ordinary token requiredToken
    have owner : ((session.index.books[token]?.map BookRow.marketId).getD market) = market := by
      cases there : session.index.books[token]? with
      | none => rfl
      | some row =>
        have same := (progress.book token row there).2
        rw [owned] at same
        exact (some.inj same).symm
    refine ⟨?_, ?_, ?_⟩
    · dsimp only
      rw [lifecycle]
      exact progress.lifecycle
    · intro other row there
      rw [books] at there
      unfold upsertBook at there
      rw [getElem?_insert_eq, owner] at there
      split at there
      · rename_i same
        subst same
        cases there
        refine ⟨⟨_, rfl, ?_⟩, owned⟩
        rw [healthy]
        rfl
      · exact progress.book other row there
    · intro other
      rw [books, sameHealth]
      unfold upsertBook
      rw [getElem?_insert_eq, getElem?_insert_eq, owner]
      split
      · exact (healthOf_row rfl rfl healthy).symm
      · exact progress.health other

theorem lineOffset_succ (there : input.lines[place]? = some line) :
    lineOffset writer input (place + 1) = lineOffset writer input place + line.length := by
  unfold lineOffset
  rw [take_add_one, there, map_append, sum_append]
  simp only [toList_some, map_cons, map_nil, sum_cons, sum_nil]
  omega

/-- One more event. -/
theorem Progress.step {native : Bool} {count : Nat} {event : Json} {line : Bytes}
    (inputSound : CommitSound externals writer input)
    (progress : Progress externals writer input count session)
    (event_there : input.events[count]? = some event) (line_there : input.lines[count]? = some line)
    (taken : appendEvent externals writer.historyLimit.isSome input.terminal native input.cursor
      input.materializedBooks session ((event, line), count) = .ok after) :
    Progress externals writer input (count + 1) after := by
  unfold appendEvent at taken
  dsimp only at taken
  cases outcome : storeEvent externals writer.historyLimit.isSome input.terminal native input.cursor
      input.materializedBooks event line count
      { session with
        log := if writer.historyLimit.isSome then session.log else session.log ++ line } with
  | error cause =>
    rw [outcome] at taken
    cases taken
  | ok stored =>
    rw [outcome] at taken
    obtain rfl : stored = after := ok.inj taken
    have facts := eventStored_of_storeEvent outcome
    obtain ⟨market, publicCursor, index, middle, marketNamed, publicFound, inserted, kind,
      sameIndex, sameHealth⟩ := facts.parts
    rw [inputSound.cursor] at inserted kind
    obtain ⟨batchAfter, batch⟩ := inputSound.batch
    have eventSound := batch.event count event event_there
    have insertBooks := congrArg Index.books inserted.frame
    have insertLifecycle := congrArg Index.marketLifecycle inserted.frame
    obtain ⟨lifecycle, book, health⟩ := progress.kind kind insertBooks insertLifecycle rfl
      (fun isTerminal => (eventSound.lifecycle isTerminal).2) (by
        intro ordinary token named
        obtain ⟨other, owner, otherNamed, ownerNamed, owned⟩ :=
          inputSound.bound ordinary event (mem_of_getElem? event_there)
        obtain rfl := ok.inj (named.symm.trans otherNamed)
        obtain rfl := ok.inj (marketNamed.symm.trans ownerNamed)
        exact owned)
    have kindRecent : middle.index.recentEvents = index.recentEvents := by cases kind <;> rfl
    have kindOffsets : middle.index.eventOffsets = index.eventOffsets := by cases kind <;> rfl
    have kindFrame : middle.index =
        { index with
          books := middle.index.books
          bookConfirmations := middle.index.bookConfirmations
          marketLifecycle := middle.index.marketLifecycle } := by
      cases kind <;> rfl
    obtain ⟨row, isRow, offsets⟩ := inserted.offsets
    have recent := inserted.recent
    have small := inserted.small
    refine ⟨?_, ?_, ?_, ?_, ?_, ?_, ?_, ?_, .inr small, ?_, ?_, ?_, ?_⟩
    · rw [sameIndex, kindFrame, inserted.frame, progress.frame]
    · rw [facts.log]
      rw [progress.log]
      split
      · rfl
      · rw [take_add_one, line_there, append_assoc, toList_some, flatten_append, flatten_singleton]
    · intro unbounded
      rw [facts.offset, progress.offset unbounded, lineOffset_succ line_there]
    · intro isBounded
      have fresh := inserted.fresh isBounded
      have sum : TreeMap.sum (fun row => row.payload.length)
          (session.index.recentEvents.insert (writer.cursor + (count + 1)) (lineRow line)) =
          (lineRow line).payload.length + TreeMap.sum (fun row => row.payload.length)
            (session.index.recentEvents.erase (writer.cursor + (count + 1))) :=
        TreeMap.sum_insert _
      rw [TreeMap.erase_of_getElem?_eq_none fresh] at sum
      have before := progress.bytes isBounded
      have length : (lineRow line).payload.length = line.length := rfl
      unfold recentBytes at before ⊢
      rw [sameIndex, kindRecent, recent, if_pos isBounded, sum, before, take_add_one,
        line_there, map_append, sum_append, length]
      simp only [toList_some, map_cons, map_nil, sum_cons, sum_nil]
      omega
    · intro isBounded place other inside there
      rw [sameIndex, kindRecent, recent, isBounded, if_pos rfl, getElem?_insert_eq]
      by_cases last : place = count
      · subst last
        obtain rfl := some.inj (line_there.symm.trans there)
        rw [if_pos rfl]
      · rw [if_neg (by omega)]
        exact progress.newRecent isBounded place other (by omega) there
    · intro cursor outside
      rw [sameIndex, kindRecent, recent]
      by_cases isBounded : writer.historyLimit.isSome = true
      · have apart := outside isBounded
        rw [if_pos isBounded, getElem?_insert_eq, if_neg (by omega)]
        exact progress.oldRecent cursor fun _ beyond => by
          have far := apart beyond
          omega
      · rw [if_neg isBounded]
        exact progress.oldRecent cursor fun never => absurd never isBounded
    · intro unbounded place other inside there
      have notBounded : ¬writer.historyLimit.isSome = true := by
        rw [unbounded]
        exact Bool.false_ne_true
      rw [sameIndex, kindOffsets, offsets, if_neg notBounded, getElem?_insert_eq]
      by_cases last : place = count
      · subst last
        obtain rfl := some.inj (line_there.symm.trans there)
        rw [if_pos rfl]
        refine ⟨row, rfl, ?_, isRow.byteLength, isRow.lineSha256⟩
        rw [isRow.byteOffset, progress.offset unbounded]
      · rw [if_neg (by omega)]
        exact progress.newOffsets unbounded place other (by omega) there
    · intro cursor outside
      rw [sameIndex, kindOffsets, offsets]
      by_cases isBounded : writer.historyLimit.isSome = true
      · rw [if_pos isBounded]
        refine progress.oldOffsets cursor fun unbounded => ?_
        rw [unbounded] at isBounded
        cases isBounded
      · have unbounded := not_isSome_iff_eq_none.mp isBounded
        have apart := outside unbounded
        rw [if_neg isBounded, getElem?_insert_eq, if_neg (by omega)]
        exact progress.oldOffsets cursor fun _ beyond => by
          have far := apart beyond
          omega
    · intro place other inside there
      by_cases last : place = count
      · subst last
        obtain rfl := some.inj (event_there.symm.trans there)
        exact ⟨publicCursor, publicFound⟩
      · exact progress.cursors place other (by omega) there
    · rw [sameIndex]
      exact lifecycle
    · rw [sameIndex]
      exact book
    · rw [sameIndex, sameHealth]
      exact health

/-- All events of a batch. -/
theorem Progress.whole
    (inputSound : CommitSound externals writer input) (sound : WriterSound externals writer)
    (taken : appendEvents externals writer.historyLimit.isSome input.terminal native input.cursor
      input.materializedBooks input.events input.lines (startSession writer) = .ok after) :
    Progress externals writer input input.events.length after := by
  obtain ⟨batchAfter, batch⟩ := inputSound.batch
  have sameLength : input.lines.length = input.events.length := by rw [batch.lines_eq, length_map]
  have fromPlace : ∀ (pairs : List (Json × Bytes)) (count : Nat) (state : Session),
      (input.events.zip input.lines).drop count = pairs →
      Progress externals writer input count state →
      (pairs.zipIdx count).foldlM (appendEvent externals writer.historyLimit.isSome input.terminal
        native input.cursor input.materializedBooks) state = .ok after →
      Progress externals writer input (count + pairs.length) after := by
    intro pairs
    induction pairs with
    | nil =>
      intro count state _ progress folded
      obtain rfl : state = after := ok.inj folded
      exact progress
    | cons pair pairs ih =>
      intro count state suffix progress folded
      rw [zipIdx_cons] at folded
      obtain ⟨middle, step, rest⟩ := foldlM_cons_ok.mp folded
      have here : (input.events.zip input.lines)[count]? = some pair := by
        have first := congrArg (fun list => list[0]?) suffix
        simpa using first
      have later : (input.events.zip input.lines).drop (count + 1) = pairs := by
        rw [← drop_drop, suffix]
        rfl
      obtain ⟨eventHere, lineHere⟩ := getElem?_zip_eq_some.mp here
      have next := ih (count + 1) middle later
        (progress.step inputSound eventHere lineHere step) rest
      rw [length_cons, ← Nat.add_assoc, Nat.add_right_comm]
      exact next
  have done := fromPlace _ 0 _ rfl (Progress.start sound) taken
  rw [drop_zero, length_zip, sameLength, Nat.min_self, Nat.zero_add] at done
  exact done

end Step

end MarketCow.Discovery
