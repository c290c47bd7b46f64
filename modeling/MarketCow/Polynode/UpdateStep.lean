import MarketCow.Polynode.AcceptedFrames

/-!
# What one update and one raw frame can do

Inversion of the parser: every way an update and a raw frame can end, with the
connection after it.
-/

namespace MarketCow.Polynode

open Library
open Effect (bind_apply ensure_bind_ok get_bind lift_apply modify_bind pure_apply)
open Json (asString? string)

namespace Connection

variable (connection : Connection) (token other : String) (book : TokenBook)

@[simp] theorem setBook_epoch : (connection.setBook token book).epoch = connection.epoch := rfl

@[simp] theorem fence_epoch : (connection.fence token).epoch = connection.epoch := rfl

@[simp] theorem setBook_subscribed :
    (connection.setBook token book).subscribed = connection.subscribed := rfl

@[simp] theorem fence_subscribed :
    (connection.fence token).subscribed = connection.subscribed := rfl

theorem setBook_tokens :
    (connection.setBook token book).tokens[other]? =
      if other = token then connection.tokens[token]?.map fun entry => (entry.1, book)
      else connection.tokens[other]? := by
  unfold setBook
  exact TreeMap.getElem?_adjust _ _ _ _

theorem fence_tokens :
    (connection.fence token).tokens[other]? =
      if other = token then connection.tokens[token]?.map fun entry => (entry.1, entry.2.invalidate)
      else connection.tokens[other]? := by
  unfold fence
  exact TreeMap.getElem?_adjust _ _ _ _

theorem invalidateAll_tokens :
    connection.invalidateAll.tokens[token]? =
      connection.tokens[token]?.map fun entry => (entry.1, entry.2.invalidate) :=
  TreeMap.getElem?_map

theorem fenceAll_tokens :
    connection.fenceAll.tokens[token]? =
      connection.tokens[token]?.map fun entry => (entry.1, entry.2.invalidate) :=
  TreeMap.getElem?_map

end Connection

/-! ## Updates -/

/-- The ways a depth update of a token of the connection can end. -/
inductive DepthStep
    (provider : Provider) (context : FrameContext) (update : Json) (connection : Connection)
    (token condition : String) (book : TokenBook) : Except String UpdateEffect → Connection → Prop
  | repeated :
      DepthStep provider context update connection token condition book (.ok .ignored) connection
  /-- The update names another row or condition than its token. -/
  | mismatched :
      DepthStep provider context update connection token condition book (.ok (.fenced token))
        (connection.fence token)
  | rejected
      {cause : String}
      {after : TokenBook}
      (rejects : book.applyDepth provider update = (.error cause, after)) :
      DepthStep provider context update connection token condition book (.ok (.fenced token))
        (connection.setBook token after)
  | accepted
      {kind : String}
      {after : TokenBook}
      {receipt : DepthReceipt}
      (typed : (update.get? "type").bind asString? = some kind)
      (applies : book.applyDepth provider update = (.ok (), after))
      (received : receiptOf provider context connection.epoch token condition update kind after =
        .ok receipt) :
      DepthStep provider context update connection token condition book (.ok (.accepted receipt))
        (connection.setBook token after)
  /-- The book has accepted the update, but its receipt cannot be written. -/
  | unreceipted
      {kind cause : String}
      {after : TokenBook}
      (typed : (update.get? "type").bind asString? = some kind)
      (bound : observedCondition update = some condition)
      (applies : book.applyDepth provider update = (.ok (), after))
      (unwritten : receiptOf provider context connection.epoch token condition update kind after =
        .error cause) :
      DepthStep provider context update connection token condition book (.error cause)
        (connection.setBook token after)

/-- The ways an update of a frame can end. -/
inductive UpdateStep
    (provider : Provider) (context : FrameContext) (update : Json)
    (connection : Connection) : Except String UpdateEffect → Connection → Prop
  | ignored : UpdateStep provider context update connection (.ok .ignored) connection
  | depth
      {token condition : String}
      {book : TokenBook}
      {result : Except String UpdateEffect}
      {after : Connection}
      (named : (update.get? "asset_id").bind asString? = some token)
      (there : connection.tokens[token]? = some (condition, book))
      (step : DepthStep provider context update connection token condition book result after) :
      UpdateStep provider context update connection result after
  | refused (cause : String) :
      UpdateStep provider context update connection (.error cause) connection
  | faulted (cause : String) :
      UpdateStep provider context update connection (.error cause) connection.invalidateAll

section Update

variable {provider : Provider} {context : FrameContext} {update : Json} {connection : Connection}

theorem depthStep_of_ingest
    (token condition : String) (book : TokenBook) (context : FrameContext) (connection : Connection)
    (typed : (update.get? "type").bind asString? = some kind) :
    DepthStep provider context update connection token condition book
      (ingestDepth provider context update kind token condition book connection).1
      (ingestDepth provider context update kind token condition book connection).2 := by
  unfold ingestDepth
  split
  · exact .mismatched
  split
  · exact .mismatched
  rename_i bound
  rw [not_not] at bound
  split
  · exact .repeated
  rcases applies : book.applyDepth provider update with ⟨cause | _, after⟩
  · exact .rejected applies
  · dsimp only
    rw [modify_bind, get_bind, bind_apply, lift_apply]
    rw [Connection.setBook_epoch]
    cases written : receiptOf provider context connection.epoch token condition update kind after with
    | ok receipt => exact .accepted typed applies written
    | error cause => exact .unreceipted typed bound applies written

/-- Every update ends in one of these ways. -/
theorem updateStep_of_ingest
    (provider : Provider) (context : FrameContext) (update : Json) (connection : Connection) :
    UpdateStep provider context update connection
      (ingestUpdate provider context update connection).1
      (ingestUpdate provider context update connection).2 := by
  unfold ingestUpdate
  cases typed : (update.get? "type").bind asString? with
  | none => exact .refused _
  | some kind =>
    rw [bind_apply]
    dsimp only [Effect.need, pure_apply]
    split
    · cases (update.get? "integrity").isNone with
      | true => exact .ignored
      | false => exact .refused _
    split
    · exact .faulted _
    split
    · exact .faulted _
    split
    · unfold ingestBare
      split
      · cases rows update "assets" with
        | error cause => exact .refused _
        | ok assets =>
          rw [bind_apply, lift_apply]
          dsimp only
          split
          · exact .ignored
          · exact .faulted _
      · exact .faulted _
    · cases named : (update.get? "asset_id").bind asString? with
      | none => exact .refused _
      | some token =>
        rw [bind_apply]
        dsimp only [Effect.need, pure_apply]
        rw [get_bind]
        cases there : connection.tokens[token]? with
        | none => exact .faulted _
        | some entry => exact .depth named there (depthStep_of_ingest _ _ _ _ _ typed)

end Update

/-! ## Raw frames -/

/-- A subscription acknowledgement, as opposed to an error report. -/
def isAcknowledgement (value : Json) : Bool :=
  ((value.get? "error").bind asString?).isNone &&
    (value.get? "type").bind asString? == some "subscribed"

/-- A resync notice that names a token, or all of them. -/
def namesResync (value : Json) (token : String) : Bool :=
  ((value.get? "error").bind asString?).isNone &&
    (value.get? "type").bind asString? == some "resyncing" &&
      match (value.get? "markets").bind Json.asArray? with
      | some markets => markets.contains (.string token)
      | none => true

/-- Fencing a token twice is fencing it once. -/
theorem resyncItems_tokens
    (taken : Effect.collect resyncToken items connection = (.ok names, after)) (token : String) :
    after.tokens[token]? =
      if items.contains (.string token) then
        connection.tokens[token]?.map fun entry => (entry.1, entry.2.invalidate)
      else connection.tokens[token]? := by
  induction items generalizing connection names with
  | nil =>
    cases taken
    rfl
  | cons item items ih =>
    obtain ⟨first, rest, middle, now, later, rfl⟩ := Effect.collect_cons_ok_iff.mp taken
    obtain ⟨other, text, now⟩ := Effect.need_bind_ok.mp now
    rw [get_bind] at now
    obtain ⟨_, now⟩ := ensure_bind_ok.mp now
    rw [modify_bind] at now
    cases now
    have named : (string token == item) = decide (token = first) := by
      cases item <;> cases text
      rw [Bool.eq_iff_iff, beq_iff_eq, decide_eq_true_iff, string.injEq]
    rw [ih later, Connection.fence_tokens, List.contains_cons, named]
    by_cases same : token = first
    · rw [if_pos same, decide_eq_true same, Bool.true_or, if_pos rfl, same, Option.map_map]
      exact ite_self _
    · rw [if_neg same, decide_eq_false same, Bool.false_or]

/-- The ways a raw frame can be taken. -/
inductive FrameStep
    (provider : Provider) (raw socketReceivedAt : String)
    (connection : Connection) : Ingested → Connection → Prop
  | acknowledged
      {value : Json}
      {ingested : Ingested}
      (read : provider.fromStr raw = some value)
      (acknowledgement : isAcknowledgement value = true)
      (bare : ingested.updates = [])
      (silent : ingested.outcome.verifiedDepth = []) :
      FrameStep provider raw socketReceivedAt connection ingested
        { connection.invalidateAll with subscribed := true }
  | resynced
      {value : Json}
      {ingested : Ingested}
      {after : Connection}
      (read : provider.fromStr raw = some value)
      (other : isAcknowledgement value = false)
      (reported : ((value.get? "error").bind asString?).isNone = true)
      (typed : (value.get? "type").bind asString? = some "resyncing")
      (resyncs : ingestResync value connection = (.ok ingested, after)) :
      FrameStep provider raw socketReceivedAt connection ingested after
  | controlled
      {value : Json}
      {ingested : Ingested}
      (read : provider.fromStr raw = some value)
      (other : isAcknowledgement value = false)
      (unnamed : ∀ token, namesResync value token = false)
      (bare : ingested.updates = [])
      (silent : ingested.outcome.verifiedDepth = []) :
      FrameStep provider raw socketReceivedAt connection ingested connection
  | data
      {value : Json}
      {kind : String}
      {ingested : Ingested}
      {after : Connection}
      (read : provider.fromStr raw = some value)
      (other : isAcknowledgement value = false)
      (unnamed : ∀ token, namesResync value token = false)
      (subscribed : connection.subscribed = true)
      (taken : ingestData provider raw socketReceivedAt value kind connection =
        (.ok ingested, after)) :
      FrameStep provider raw socketReceivedAt connection ingested after

section Frame

variable {provider : Provider} {raw socketReceivedAt : String} {connection after : Connection}
  {ingested : Ingested} {value : Json}

theorem frameStep_of_typed (read : provider.fromStr raw = some value)
    (reported : (value.get? "error").bind asString? = none)
    (typed : (value.get? "type").bind asString? = some kind)
    (taken : ingestTyped provider raw socketReceivedAt value kind connection =
      (.ok ingested, after)) :
    FrameStep provider raw socketReceivedAt connection ingested after := by
  have acknowledgement : isAcknowledgement value = (kind == "subscribed") := by
    unfold isAcknowledgement
    rw [reported, typed]
    simp
  have resync : kind ≠ "resyncing" → ∀ token, namesResync value token = false := by
    intro ne token
    unfold namesResync
    rw [reported, typed]
    simp [ne]
  unfold ingestTyped at taken
  split at taken
  · rename_i subscribed
    rw [subscribed] at acknowledgement
    unfold ingestAcknowledgement at taken
    rw [get_bind] at taken
    split at taken
    · cases taken
    · cases taken
      exact .acknowledged read acknowledgement rfl rfl
  rename_i ne
  rw [beq_eq_false_iff_ne.mpr ne] at acknowledgement
  rw [get_bind] at taken
  obtain ⟨subscribed, taken⟩ := ensure_bind_ok.mp taken
  split at taken
  · rename_i resyncing
    rw [resyncing] at typed
    exact .resynced read acknowledgement (by rw [reported]; rfl) typed taken
  rename_i other
  split at taken
  · cases taken
    exact .controlled read acknowledgement (resync other) rfl rfl
  split at taken
  · cases taken
    exact .controlled read acknowledgement (resync other) rfl rfl
  · exact .data read acknowledgement (resync other) subscribed taken

/-- A frame that is taken is taken in one of these ways. -/
theorem frameStep_of_ingest
    (taken : connection.ingestRecorded provider raw socketReceivedAt = (.ok ingested, after)) :
    FrameStep provider raw socketReceivedAt connection ingested after := by
  unfold Connection.ingestRecorded fencing at taken
  rcases inner : ingestInner provider raw socketReceivedAt connection with ⟨cause | _, last⟩ <;>
    rw [inner] at taken <;> cases taken
  unfold ingestInner at inner
  obtain ⟨_, inner⟩ := ensure_bind_ok.mp inner
  cases read : provider.fromStr raw with
  | none =>
    rw [read] at inner
    cases inner
  | some value =>
    rw [read] at inner
    unfold ingestValue at inner
    dsimp only at inner
    rw [get_bind] at inner
    cases reported : (value.get? "error").bind asString? with
    | some error =>
      rw [reported] at inner
      dsimp only at inner
      split at inner
      · cases inner
        refine .controlled read ?_ ?_ rfl rfl
        · unfold isAcknowledgement
          rw [reported]
          rfl
        · intro token
          unfold namesResync
          rw [reported]
          rfl
      · cases inner
    | none =>
      rw [reported] at inner
      cases typed : (value.get? "type").bind asString? with
      | none =>
        rw [typed] at inner
        cases inner
      | some kind =>
        rw [typed] at inner
        exact frameStep_of_typed read reported typed inner

/-- A failed frame leaves no token verified. -/
theorem unverified_of_ingest_error {cause token : String} {entry : String × TokenBook}
    (failed : connection.ingestRecorded provider raw socketReceivedAt = (.error cause, after))
    (there : after.tokens[token]? = some entry) :
    entry.2.verified = false ∧ entry.2.sequence = none := by
  unfold Connection.ingestRecorded fencing at failed
  rcases inner : ingestInner provider raw socketReceivedAt connection with ⟨_ | _, last⟩ <;>
    rw [inner] at failed <;> cases failed
  rw [Connection.invalidateAll_tokens, map_eq_some_iff] at there
  obtain ⟨earlier, _, rfl⟩ := there
  exact ⟨rfl, rfl⟩

end Frame

end MarketCow.Polynode
