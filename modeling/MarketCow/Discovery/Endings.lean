import MarketCow.Discovery.Committed

/-!
# How a commit ends

A commit is refused, or interrupted before its transaction is committed, or it
is stored; and a stored commit is announced in the manifest or not. The writer
is sound in each case.
-/

namespace MarketCow.Discovery

open Library List
open MarketGroupProof (nativeCursor)

section Endings

variable {externals : Externals} {writer : Writer} {input : CommitInput} {stop : Option Stop}

/-! ## An interrupted transaction -/

variable {entries : List ((Json × Bytes) × Nat)} {bounded terminal native : Bool} {cursor : Nat}

/-- The log when the events are stored, or when one of them is refused. -/
def keptLog : Except (String × Bytes) Session → Bytes
  | .ok session => session.log
  | .error failure => failure.2

/-- Lines are added to the log, also those before an event that is refused. -/
theorem keptLog_appendEvents {session : Session} :
    ∃ more, keptLog (entries.foldlM
        (appendEvent externals bounded terminal native cursor books) session) =
      session.log ++ more ∧ (bounded = true → more = []) := by
  induction entries generalizing session with
  | nil => exact ⟨[], (append_nil _).symm, fun _ => rfl⟩
  | cons entry entries ih =>
    obtain ⟨⟨event, line⟩, position⟩ := entry
    rw [foldlM_cons]
    unfold appendEvent
    dsimp only
    cases outcome : storeEvent externals bounded terminal native cursor books event line position
        { session with log := if bounded then session.log else session.log ++ line } with
    | error reason =>
      cases bounded with
      | true => exact ⟨[], (append_nil _).symm, fun _ => rfl⟩
      | false => exact ⟨line, rfl, nofun⟩
    | ok stored =>
      obtain ⟨more, kept, none⟩ := @ih stored
      have sameLog := (eventStored_of_storeEvent outcome).log
      cases bounded with
      | true =>
        rw [if_pos rfl] at sameLog
        exact ⟨more, by rw [← sameLog]; exact kept, none⟩
      | false =>
        rw [if_neg Bool.false_ne_true] at sameLog
        have sameLog : stored.log = session.log ++ line := sameLog
        exact ⟨line ++ more, by rw [← append_assoc, ← sameLog]; exact kept, nofun⟩

variable {recoveries : TreeMap String Json}

theorem log_of_transaction_error
    (failed : transaction externals writer input recoveries stop = .error (cause, log)) :
    ∃ more, log = writer.files.log ++ more ∧ (writer.historyLimit.isSome = true → more = []) := by
  unfold transaction at failed
  have whole : ∀ text : Bytes, ∃ more,
      (if writer.historyLimit.isSome = true then writer.files.log else writer.files.log ++ text) =
        writer.files.log ++ more ∧ (writer.historyLimit.isSome = true → more = []) := by
    intro text
    cases writer.historyLimit.isSome with
    | true => exact ⟨[], (append_nil _).symm, fun _ => rfl⟩
    | false => exact ⟨text, rfl, nofun⟩
  have stored : ∀ {result}, (appendEvents externals writer.historyLimit.isSome input.terminal
      (input.marketGroups.any nativeCursor) input.cursor input.materializedBooks
      input.events input.lines (startSession writer) >>= fun session =>
        (finishTransaction externals writer input recoveries session).mapError
          (fun cause => (cause, session.log)) >>= fun index =>
        if stop = some .committing then
          .error ("transaction", if writer.historyLimit.isSome = true then writer.files.log
            else writer.files.log ++ input.text)
        else .ok (session, index)) = .error result →
      ∃ more, result.2 = writer.files.log ++ more ∧
        (writer.historyLimit.isSome = true → more = []) := by
    intro result failed
    cases events : appendEvents externals writer.historyLimit.isSome input.terminal
        (input.marketGroups.any nativeCursor) input.cursor input.materializedBooks
        input.events input.lines (startSession writer) with
    | error reason =>
      rw [events] at failed
      obtain rfl := error.inj failed
      rw [show reason.2 = keptLog _ from (congrArg keptLog events).symm]
      exact keptLog_appendEvents
    | ok session =>
      rw [events] at failed
      change ((finishTransaction externals writer input recoveries session).mapError
        (fun cause => (cause, session.log)) >>= fun index =>
          if stop = some .committing then
            .error ("transaction", if writer.historyLimit.isSome = true then writer.files.log
              else writer.files.log ++ input.text)
          else .ok (session, index)) = .error result at failed
      cases finish : finishTransaction externals writer input recoveries session with
      | error reason =>
        rw [finish] at failed
        obtain rfl := error.inj failed
        rw [show session.log = keptLog _ from (congrArg keptLog events).symm]
        exact keptLog_appendEvents
      | ok index =>
        rw [finish] at failed
        change (if stop = some .committing then _ else _) = _ at failed
        split at failed
        · obtain rfl := error.inj failed
          exact whole input.text
        · cases failed
  cases stop with
  | none => exact stored failed
  | some place =>
    cases place with
    | lock =>
      obtain ⟨_, rfl⟩ := Prod.mk.inj (error.inj failed)
      exact ⟨[], (append_nil _).symm, fun _ => rfl⟩
    | writing kept =>
      obtain ⟨_, rfl⟩ := Prod.mk.inj (error.inj failed)
      exact whole _
    | budget | committing | manifest scratch | renamed => exact stored failed

theorem parts_of_transaction
    (done : transaction externals writer input recoveries stop = .ok (session, index)) :
    appendEvents externals writer.historyLimit.isSome input.terminal
        (input.marketGroups.any nativeCursor) input.cursor input.materializedBooks
        input.events input.lines (startSession writer) = .ok session ∧
      finishTransaction externals writer input recoveries session = .ok index := by
  unfold transaction at done
  have stored : ∀ whole : Bytes, (appendEvents externals writer.historyLimit.isSome input.terminal
      (input.marketGroups.any nativeCursor) input.cursor input.materializedBooks
      input.events input.lines (startSession writer) >>= fun session =>
        (finishTransaction externals writer input recoveries session).mapError
          (fun cause => (cause, session.log)) >>= fun index =>
        if stop = some .committing then .error ("transaction", whole)
        else .ok (session, index)) = .ok (session, index) →
      appendEvents externals writer.historyLimit.isSome input.terminal
          (input.marketGroups.any nativeCursor) input.cursor
          input.materializedBooks input.events input.lines (startSession writer) = .ok session ∧
        finishTransaction externals writer input recoveries session = .ok index := by
    intro whole done
    obtain ⟨other, events, found, finish, done⟩ := bind₂_ok.mp done
    split at done
    · cases done
    · obtain ⟨rfl, rfl⟩ := Prod.mk.inj (ok.inj done)
      refine ⟨events, ?_⟩
      cases result : finishTransaction externals writer input recoveries other with
      | error reason =>
        rw [result] at finish
        cases finish
      | ok value =>
        rw [result] at finish
        obtain rfl : value = found := ok.inj finish
        rfl
  cases stop with
  | none => exact stored _ done
  | some place =>
    cases place with
    | lock | writing kept => cases done
    | budget | committing | manifest scratch | renamed => exact stored _ done

/-! ## The endings -/

/-- The manifest after a stored commit: it is the announcement of the index, with
the writer usable again or the directory not flushed; or it is the old one, next to
a scratch file or not. -/
inductive Announced (stop : Option Stop) (stored : Writer) : Outcome → Prop
  | announced (free : stored.files.pending = false) :
      Announced stop stored
        (.ok (),
          { stored with
            files := { stored.files with manifest := some stored.index.metadata.manifest }
            poisoned := false })
  | unflushed (cause : String) :
      Announced stop stored
        (.error cause,
          { stored with
            files := { stored.files with manifest := some stored.index.metadata.manifest } })
  | unannounced (cause : String) (scratch : Bool) :
      Announced stop stored
        (.error cause, { stored with files := { stored.files with pending := scratch } })

theorem announced_of_writeIndexManifest (stop : Option Stop) (stored : Writer) :
    Announced stop stored
      (match writeIndexManifest stop stored with
       | (.error cause, stopped) => (.error cause, stopped)
       | (.ok (), announced) => (.ok (), { announced with poisoned := false })) := by
  unfold writeIndexManifest
  cases scratch : stored.files.pending with
  | true =>
    rw [if_pos rfl]
    have same : stored = { stored with files := { stored.files with pending := true } } := by
      rw [← scratch]
    have ending : Announced stop stored (.error "scratch manifest exists",
        { stored with files := { stored.files with pending := true } }) :=
      .unannounced "scratch manifest exists" true
    rw [← same] at ending
    exact ending
  | false =>
    rw [if_neg Bool.false_ne_true]
    cases stop with
    | none => exact .announced scratch
    | some place =>
      cases place with
      | lock | writing kept | budget | committing => exact .announced scratch
      | manifest scratch => exact .unannounced _ _
      | renamed => exact .unflushed _

/-- How a commit ends. -/
inductive CommitEnding
    (externals : Externals) (input : CommitInput) (stop : Option Stop)
    (writer : Writer) : Outcome → Prop
  | refused (cause : String)
      (checked : checkCommit externals writer input stop = .error cause) :
      CommitEnding externals input stop writer (.error cause, writer)
  | interrupted (cause : String) (more : Bytes)
      (bounded : writer.historyLimit.isSome = true → more = []) :
      CommitEnding externals input stop writer
        (.error cause,
          { writer with
            poisoned := true
            files := { writer.files with log := writer.files.log ++ more } })
  | stored {session : Session} {index : Index} {recoveries : TreeMap String Json}
      {market : String} {first : Json} {result : Outcome}
      (checked : checkCommit externals writer input stop = .ok recoveries)
      (progress : Progress externals { writer with poisoned := true } input input.events.length
        session)
      (finished : Finished externals { writer with poisoned := true } input recoveries session
        index)
      (head : input.events.head? = some first)
      (named : required first "market_id" = .ok market)
      (announced : Announced stop
        (committedWriter { writer with poisoned := true } session index recoveries
          (if input.terminal then writer.terminalMarkets.insert market
            else writer.terminalMarkets)) result) :
      CommitEnding externals input stop writer result

theorem WriterSound.poisoned (sound : WriterSound externals writer) (flag : Bool) :
    WriterSound externals { writer with poisoned := flag } :=
  ⟨sound.files, sound.positive, sound.limit, sound.recoveries, sound.models, sound.health,
    sound.bound, sound.names, sound.tail⟩

theorem CommitSound.poisoned (inputSound : CommitSound externals writer input) (flag : Bool) :
    CommitSound externals { writer with poisoned := flag } input :=
  ⟨inputSound.batch, inputSound.cursor, inputSound.bytes, inputSound.bound⟩

theorem nextRecoveries_of_checkCommit
    (checked : checkCommit externals writer input stop = .ok recoveries) :
    nextRecoveries input.terminal input.events writer.recoveries = .ok recoveries := by
  unfold checkCommit at checked
  iterate 4 obtain ⟨_, _, checked⟩ := bind_ok.mp checked
  exact checked

/-- Every commit ends in one of these ways. -/
theorem commitEnding_of_commitEncoded
    (stop : Option Stop) (inputSound : CommitSound externals writer input)
    (sound : WriterSound externals writer) :
    CommitEnding externals input stop writer (commitEncoded externals input stop writer) := by
  unfold commitEncoded
  cases checked : checkCommit externals writer input stop with
  | error cause => exact .refused cause checked
  | ok recoveries =>
    dsimp only
    cases done : transaction externals { writer with poisoned := true } input recoveries stop with
    | error failure =>
      obtain ⟨cause, log⟩ := failure
      obtain ⟨more, rfl, bounded⟩ := log_of_transaction_error done
      exact .interrupted cause more bounded
    | ok result =>
      obtain ⟨session, index⟩ := result
      obtain ⟨events, finish⟩ := parts_of_transaction done
      have progress := Progress.whole (inputSound.poisoned true) (sound.poisoned true) events
      have finished := finished_of_finishTransaction finish
      obtain ⟨after, batch⟩ := inputSound.batch
      obtain ⟨first, head⟩ : ∃ first, input.events.head? = some first :=
        isSome_iff_exists.mp (by simp [isSome_head?, batch.some_events])
      have firstThere : input.events[0]? = some first := by
        rw [← head?_eq_getElem?]
        exact head
      obtain ⟨market, named⟩ := (batch.event 0 first firstThere).marketId
      have memory : commitMemory { writer with poisoned := true } input recoveries session
          index = .ok (committedWriter { writer with poisoned := true } session index recoveries
            (if input.terminal then writer.terminalMarkets.insert market
              else writer.terminalMarkets)) := by
        unfold commitMemory
        refine bind_ok.mpr ⟨first, need_ok.mpr head, ?_⟩
        cases terminal : input.terminal with
        | false => rfl
        | true =>
          rw [if_pos rfl]
          exact bind_ok.mpr ⟨market, named, rfl⟩
      dsimp only
      rw [memory]
      exact .stored checked progress finished head named (announced_of_writeIndexManifest _ _)

end Endings

end MarketCow.Discovery
