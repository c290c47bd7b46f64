import MarketCow.Polynode.Receipts

/-!
# Updates stay with their token

Two runs of a connection side by side, which differ in the book of one token at
most. A depth update of that token keeps them so, with or without the other run
taking it, unless it has no integrity envelope or is an anchor whose receipt cannot be
written: such an update fails its frame, and with the frame every token.
-/

namespace MarketCow.Polynode

open Library List
open Effect (bind_apply bind_of_ok collect_append collect_cons get_bind lift_apply lift_bind_ok
  lift_ok_bind modify_bind
  pure_apply collect ensure need)
open Std.ExtTreeMap (keys_map map_fst_toList_eq_keys size_map)
open Json (asString?)

/-! ## Away from a token -/

/-- Two connections that differ in the book of one token at most. -/
structure AgreeOff (token : String) (left right : Connection) : Prop where
  epoch : left.epoch = right.epoch
  subscribed : left.subscribed = right.subscribed
  conditions : ∀ other : String,
    left.tokens[other]?.map Prod.fst = right.tokens[other]?.map Prod.fst
  books : ∀ other : String, other ≠ token → left.tokens[other]? = right.tokens[other]?

/-- An effect on another token. -/
def UpdateEffect.elsewhere (token : String) : UpdateEffect → Bool
  | .ignored => false
  | .fenced other => other != token
  | .accepted receipt => receipt.tokenId != token

/-- Two effects that are the same away from a token. -/
def SameOff (token : String) (left right : UpdateEffect) : Prop :=
  left = right ∨ left.elsewhere token = false ∧ right.elsewhere token = false

/-- What an outcome says of the other tokens. -/
def IngestOutcome.off (outcome : IngestOutcome) (token : String) : IngestOutcome :=
  { outcome with
    verifiedDepth := outcome.verifiedDepth.filter fun receipt => receipt.tokenId != token
    invalidatedTokens := outcome.invalidatedTokens.filter fun other => other != token }

namespace AgreeOff

variable {token other : String} {left middle right : Connection} {book : TokenBook}

theorem refl (connection : Connection) : AgreeOff token connection connection :=
  ⟨rfl, rfl, fun _ => rfl, fun _ _ => rfl⟩

theorem symm (agree : AgreeOff token left right) : AgreeOff token right left :=
  ⟨agree.epoch.symm, agree.subscribed.symm, fun other => (agree.conditions other).symm,
    fun other ne => (agree.books other ne).symm⟩

theorem trans (first : AgreeOff token left middle)
    (second : AgreeOff token middle right) : AgreeOff token left right :=
  ⟨first.epoch.trans second.epoch, first.subscribed.trans second.subscribed,
    fun other => (first.conditions other).trans (second.conditions other),
    fun other ne => (first.books other ne).trans (second.books other ne)⟩

section

variable (agree : AgreeOff token left right)
include agree

/-- The conditions of the tokens as one map. -/
theorem conditionMap :
    left.tokens.map (fun _ entry => entry.1) = right.tokens.map fun _ entry => entry.1 := by
  refine TreeMap.ext_getElem? fun other => ?_
  rw [TreeMap.getElem?_map, TreeMap.getElem?_map]
  exact agree.conditions other

theorem size : left.tokens.size = right.tokens.size := by
  have same := congrArg Std.ExtTreeMap.size agree.conditionMap
  rwa [size_map, size_map] at same

theorem contains (other : String) :
    left.tokens.contains other = right.tokens.contains other := by
  have same := congrArg (Std.ExtTreeMap.contains · other) agree.conditionMap
  rwa [Std.ExtTreeMap.contains_map, Std.ExtTreeMap.contains_map] at same

theorem keyList :
    left.tokens.keyList = right.tokens.keyList := by
  have same := congrArg Std.ExtTreeMap.keys agree.conditionMap
  rw [keys_map, keys_map] at same
  unfold TreeMap.keyList
  rw [map_fst_toList_eq_keys, map_fst_toList_eq_keys, same]

theorem fenceAll :
    AgreeOff token left.fenceAll right.fenceAll := by
  refine ⟨agree.epoch, agree.subscribed, fun other => ?_, fun other ne => ?_⟩
  · rw [Connection.fenceAll_tokens, Connection.fenceAll_tokens, Option.map_map, Option.map_map]
    exact agree.conditions other
  · rw [Connection.fenceAll_tokens, Connection.fenceAll_tokens, agree.books other ne]

theorem invalidateAll :
    AgreeOff token left.invalidateAll right.invalidateAll :=
  ⟨agree.epoch, rfl, agree.fenceAll.conditions, agree.fenceAll.books⟩

theorem setBook (other : String)
    (book : TokenBook) : AgreeOff token (left.setBook other book) (right.setBook other book) := by
  refine ⟨agree.epoch, agree.subscribed, fun another => ?_, fun another ne => ?_⟩
  · rw [Connection.setBook_tokens, Connection.setBook_tokens]
    split
    · rw [Option.map_map, Option.map_map]
      exact agree.conditions other
    · exact agree.conditions another
  · rw [Connection.setBook_tokens, Connection.setBook_tokens]
    split
    · rename_i same
      rw [← same, agree.books another ne]
    · exact agree.books another ne

theorem fence
    (other : String) : AgreeOff token (left.fence other) (right.fence other) := by
  refine ⟨agree.epoch, agree.subscribed, fun another => ?_, fun another ne => ?_⟩
  · rw [Connection.fence_tokens, Connection.fence_tokens]
    split
    · rw [Option.map_map, Option.map_map]
      exact agree.conditions other
    · exact agree.conditions another
  · rw [Connection.fence_tokens, Connection.fence_tokens]
    split
    · rename_i same
      rw [← same, agree.books another ne]
    · exact agree.books another ne

end

/-- Any book of the token itself. -/
theorem setOwn (connection : Connection) (book : TokenBook) :
    AgreeOff token connection (connection.setBook token book) := by
  refine ⟨rfl, rfl, fun other => ?_, fun other ne => ?_⟩
  · rw [Connection.setBook_tokens]
    split
    · rename_i same
      rw [Option.map_map, same]
      rfl
    · rfl
  · rw [Connection.setBook_tokens, if_neg ne]

theorem fenceOwn (connection : Connection) : AgreeOff token connection (connection.fence token) := by
  refine ⟨rfl, rfl, fun other => ?_, fun other ne => ?_⟩
  · rw [Connection.fence_tokens]
    split
    · rename_i same
      rw [Option.map_map, same]
      rfl
    · rfl
  · rw [Connection.fence_tokens, if_neg ne]

end AgreeOff

/-! ## Outcomes -/

section Outcomes

variable {token : String}

/-- Recording an effect, as seen from the other tokens. -/
theorem record_off (outcome : IngestOutcome) (processed : Processed) :
    (outcome.record processed).off token =
      if processed.effect.elsewhere token then (outcome.off token).record processed
      else outcome.off token := by
  unfold IngestOutcome.record IngestOutcome.off UpdateEffect.elsewhere
  cases processed.effect with
  | ignored => rfl
  | fenced other =>
    rw [filter_append, filter_singleton]
    by_cases ne : (other != token) = true
    · rw [if_pos ne, ne]
      rfl
    · rw [if_neg ne, Bool.eq_false_of_not_eq_true ne, cond_false, append_nil]
  | accepted receipt =>
    rw [filter_append, filter_singleton]
    by_cases ne : (receipt.tokenId != token) = true
    · rw [if_pos ne, ne]
      rfl
    · rw [if_neg ne, Bool.eq_false_of_not_eq_true ne, cond_false, append_nil]

theorem foldl_record_off
    (same : List.Forall₂ (fun left right : Processed => SameOff token left.effect right.effect)
      left right)
    (start : outcome.off token = other.off token) :
    (left.foldl IngestOutcome.record outcome).off token =
      (right.foldl IngestOutcome.record other).off token := by
  induction same generalizing outcome other with
  | nil => exact start
  | @cons first second _ _ sameHere _ ih =>
    refine ih ?_
    rw [record_off, record_off, start]
    rcases sameHere with same | ⟨leftHere, rightHere⟩
    · unfold IngestOutcome.record
      rw [same]
    · rw [leftHere, rightHere, if_neg Bool.false_ne_true, if_neg Bool.false_ne_true]

end Outcomes

/-! ## Anchors without a receipt -/

/-- An anchor its token accepts, with a price that is no `Decimal`. -/
def Undecimal (provider : Provider) (update : Json) : Prop :=
  isAnchor update = true ∧ ∃ envelope next price,
    readEnvelope update = .ok envelope ∧ anchorBook provider update envelope = .ok next ∧
      (price ∈ next.bids ∨ price ∈ next.asks) ∧ provider.decimalFromStr price = none

/-- A depth update without the integrity envelope, other than a notice of prices. -/
def Unenveloped (update : Json) : Prop :=
  (update.get? "integrity").isNone = true ∧
    ∃ kind, (update.get? "type").bind asString? = some kind ∧ isDepthKind kind = true ∧
      ¬(kind = "price_change" ∧
        ∃ assets, rows update "assets" = .ok assets ∧ assets.all isNotice = true)

/-- An update of a token of the connection that fails its frame: it has no envelope, or it
is such an anchor with the condition of the token. -/
def Disrupts (provider : Provider) (connection : Connection) (update : Json) : Prop :=
  ∃ token entry, (update.get? "asset_id").bind asString? = some token ∧
    connection.tokens[token]? = some entry ∧
      (Unenveloped update ∨ Undecimal provider update ∧ observedCondition update = some entry.1)

/-- None of the updates the parser gets to fails the frame. -/
def Calm (provider : Provider) (context : FrameContext) (updates : List Json)
    (connection : Connection) : Prop :=
  ∀ front update back, updates = front ++ update :: back → ∀ processed after,
    ingestUpdates provider context front connection = (.ok processed, after) →
      ¬Disrupts provider after update

section Steps

variable {provider : Provider} {context : FrameContext} {token : String} {update : Json}
  {left right connection after : Connection}

theorem Disrupts.of_agree (agree : AgreeOff token left right)
    (disrupts : Disrupts provider right update) : Disrupts provider left update := by
  obtain ⟨other, entry, named, there, fails⟩ := disrupts
  have same := agree.conditions other
  rw [there, map_some, map_eq_some_iff] at same
  obtain ⟨earlier, present, first⟩ := same
  exact ⟨other, earlier, named, present,
    fails.imp_right (And.imp_right fun bound => bound.trans (congrArg some first.symm))⟩

variable {book bookAfter : TokenBook}

theorem anchorBook_of_applyDepth (anchor : isAnchor update = true)
    (applies : book.applyDepth provider update = (.ok (), bookAfter)) :
    ∃ envelope, readEnvelope update = .ok envelope ∧
      anchorBook provider update envelope = .ok bookAfter := by
  unfold TokenBook.applyDepth at applies
  split at applies
  · rename_i inner
    cases applies
    unfold applyDepthInner at inner
    obtain ⟨envelope, read, inner⟩ := lift_bind_ok.mp inner
    rw [if_pos anchor] at inner
    obtain ⟨next, built, inner⟩ := lift_bind_ok.mp inner
    cases inner
    exact ⟨envelope, read, built⟩
  · cases applies

/-- A side that cannot be listed has a price that is no `Decimal`. -/
theorem sortedLevels_eq_error
    (failed : sortedLevels provider levels descending = .error cause) :
    ∃ price ∈ levels, provider.decimalFromStr price = none := by
  by_contra representable
  push Not at representable
  have valued : ∀ items : List (String × String), (∀ item ∈ items, item.1 ∈ levels) →
      ∃ values, items.mapM (valuedLevel provider) = .ok values := by
    intro items
    induction items with
    | nil => exact fun _ => ⟨[], rfl⟩
    | cons item items ih =>
      intro members
      obtain ⟨rest, others⟩ := ih fun other mem => members other (by simp [mem])
      obtain ⟨value, decimal⟩ :=
        Option.ne_none_iff_exists'.mp (representable item.1 (members item (by simp)))
      refine ⟨(value, { price := item.1, size := item.2 }) :: rest, ?_⟩
      rw [mapM_cons, others]
      unfold valuedLevel
      rw [decimal]
      rfl
  obtain ⟨values, visited⟩ := valued levels.toList fun item mem => by
    have found := mem_toList_iff_getElem?_eq_some.mp mem
    exact mem_iff_isSome_getElem?.mpr (by rw [found]; rfl)
  unfold sortedLevels at failed
  rw [visited] at failed
  cases failed

/-- Only a price that is no `Decimal` keeps the receipt of an accepted frame
from being written. -/
theorem undecimal_of_receiptOf
    (typed : (update.get? "type").bind asString? = some kind)
    (applies : book.applyDepth provider update = (.ok (), bookAfter))
    (unwritten : receiptOf provider context epoch token condition update kind bookAfter =
      .error cause) : Undecimal provider update := by
  have accepts := TokenBook.applyDepth_ok applies
  obtain ⟨sequence, _, sequenced⟩ := accepts.sequence
  obtain ⟨changes, levels, _⟩ := accepts.levels
  rw [frameLevels_of_kind typed] at levels
  unfold receiptOf at unwritten
  cases written : payloadOf provider update kind bookAfter with
  | ok payload =>
    rw [written, sequenced] at unwritten
    cases unwritten
  | error reason =>
    unfold payloadOf at written
    split at written
    · rename_i anchor
      obtain ⟨envelope, read, built⟩ := anchorBook_of_applyDepth anchor applies
      refine ⟨anchor, envelope, bookAfter, ?_⟩
      cases bidsSorted : sortedLevels provider bookAfter.bids true with
      | error _ =>
        obtain ⟨price, mem, undecimal⟩ := sortedLevels_eq_error bidsSorted
        exact ⟨price, read, built, .inl mem, undecimal⟩
      | ok bids =>
        cases asksSorted : sortedLevels provider bookAfter.asks false with
        | error _ =>
          obtain ⟨price, mem, undecimal⟩ := sortedLevels_eq_error asksSorted
          exact ⟨price, read, built, .inr mem, undecimal⟩
        | ok asks =>
          rw [bidsSorted, asksSorted] at written
          cases written
    · rename_i change
      rw [not_eq_true] at change
      obtain ⟨_, previous, _, named, _⟩ := accepts.continues change
      rw [named, levels] at written
      cases written

/-- A depth update of a token never fails and touches only its token, unless it
is an anchor without a receipt. -/
theorem DepthStep.own
    (step : DepthStep provider context update connection token condition book result after)
    (named : (update.get? "asset_id").bind asString? = some token)
    (there : connection.tokens[token]? = some (condition, book))
    (calm : ¬Disrupts provider connection update) :
    (∃ effect, result = .ok effect ∧ effect.elsewhere token = false) ∧
      AgreeOff token connection after := by
  cases step with
  | repeated => exact ⟨⟨_, rfl, rfl⟩, AgreeOff.refl _⟩
  | mismatched => exact ⟨⟨_, rfl, bne_self_eq_false _⟩, AgreeOff.fenceOwn _⟩
  | rejected rejects => exact ⟨⟨_, rfl, bne_self_eq_false _⟩, AgreeOff.setOwn _ _⟩
  | accepted typed applies received =>
    refine ⟨⟨_, rfl, ?_⟩, AgreeOff.setOwn _ _⟩
    unfold UpdateEffect.elsewhere
    dsimp only
    rw [receiptOf_tokenId received]
    exact bne_self_eq_false _
  | unreceipted typed bound applies unwritten =>
    exact absurd
      ⟨token, _, named, there, .inr ⟨undecimal_of_receiptOf typed applies unwritten, bound⟩⟩ calm

/-- A depth update of another token does the same in both runs. -/
theorem ingestDepth_agrees (agree : AgreeOff token left right) :
    Effect.Agree (AgreeOff token) (SameOff token)
      (ingestDepth provider context update kind other condition book left)
      (ingestDepth provider context update kind other condition book right) := by
  unfold ingestDepth
  split
  · exact .of_ok (.inl rfl) (agree.fence other)
  split
  · exact .of_ok (.inl rfl) (agree.fence other)
  split
  · exact .of_ok (.inl rfl) agree
  rcases book.applyDepth provider update with ⟨cause | _, bookAfter⟩
  · exact .of_ok (.inl rfl) (agree.setBook other bookAfter)
  · dsimp only
    rw [modify_bind, modify_bind, get_bind, get_bind,
      Connection.setBook_epoch, Connection.setBook_epoch, agree.epoch]
    cases receiptOf provider context right.epoch other condition update kind bookAfter with
    | error cause => exact .of_error cause (agree.setBook other bookAfter)
    | ok receipt => exact .of_ok (.inl rfl) (agree.setBook other bookAfter)

theorem ingestBare_agrees (agree : AgreeOff token left right) :
    Effect.Agree (AgreeOff token) (SameOff token)
      (ingestBare update kind left) (ingestBare update kind right) := by
  unfold ingestBare
  split
  · cases rows update "assets" with
    | error cause => exact .of_error cause agree
    | ok assets =>
      rw [bind_apply, bind_apply, lift_apply, lift_apply]
      dsimp only
      split
      · exact .of_ok (.inl rfl) agree
      · exact .of_error _ agree.invalidateAll
  · exact .of_error _ agree.invalidateAll

section

variable (agree : AgreeOff token left right)
include agree

/-- Any update keeps two runs together. -/
theorem ingestUpdate_agrees (calm : ¬Disrupts provider left update) :
    Effect.Agree (AgreeOff token) (SameOff token)
      (ingestUpdate provider context update left) (ingestUpdate provider context update right) := by
  unfold ingestUpdate
  cases typed : (update.get? "type").bind asString? with
  | none => exact .of_error _ agree
  | some kind =>
    rw [bind_apply, bind_apply]
    dsimp only [need, pure_apply]
    split
    · cases (update.get? "integrity").isNone with
      | true => exact .of_ok (.inl rfl) agree
      | false => exact .of_error _ agree
    split
    · exact .of_error _ agree.invalidateAll
    split
    · exact .of_error _ agree.invalidateAll
    split
    · exact ingestBare_agrees agree
    cases named : (update.get? "asset_id").bind asString? with
    | none => exact .of_error _ agree
    | some other =>
      rw [bind_apply, bind_apply]
      dsimp only [need, pure_apply]
      rw [get_bind, get_bind]
      by_cases same : other = token
      · subst same
        have conditions := agree.conditions other
        cases leftThere : left.tokens[other]? with
        | none =>
          rw [leftThere, Option.map_none, eq_comm, map_eq_none_iff] at conditions
          rw [conditions]
          exact .of_error _ agree.invalidateAll
        | some entry =>
          rw [leftThere, map_some, eq_comm, map_eq_some_iff] at conditions
          obtain ⟨⟨condition, book⟩, rightThere, bound⟩ := conditions
          rw [rightThere]
          have calmRight : ¬Disrupts provider right update :=
            fun disrupts => calm (disrupts.of_agree agree)
          obtain ⟨⟨first, firstOk, firstHere⟩, leftAfter⟩ :=
            (depthStep_of_ingest other entry.1 entry.2 context left typed).own named leftThere calm
          obtain ⟨⟨second, secondOk, secondHere⟩, rightAfter⟩ :=
            (depthStep_of_ingest other condition book context right typed).own named
              rightThere calmRight
          refine ⟨?_, (leftAfter.symm.trans agree).trans rightAfter⟩
          rw [firstOk, secondOk]
          exact .ok (.inr ⟨firstHere, secondHere⟩)
      · rw [agree.books other same]
        cases right.tokens[other]? with
        | none => exact .of_error _ agree.invalidateAll
        | some entry => exact ingestDepth_agrees agree

theorem processUpdate_agrees (calm : ¬Disrupts provider left update) :
    Effect.Agree (AgreeOff token)
      (fun left right : Processed => SameOff token left.effect right.effect)
      (processUpdate provider context update left)
      (processUpdate provider context update right) := by
  refine Effect.Agree.bind (ingestUpdate_agrees agree calm) ?_
  intro first second middle otherMiddle _ _ same related
  exact .of_ok same related

theorem ingestUpdates_agrees (calm : Calm provider context updates left) :
    Effect.Agree (AgreeOff token)
      (List.Forall₂ fun left right : Processed => SameOff token left.effect right.effect)
      (ingestUpdates provider context updates left)
      (ingestUpdates provider context updates right) := by
  refine Effect.Agree.collect agree ?_
  intro front update back split processed middle otherMiddle visited related
  exact processUpdate_agrees related (calm front update back split processed middle visited)

end

end Steps

/-! ## Frames -/

/-- A frame that is taken before its updates are looked at. -/
def isOuterKind (kind : String) : Bool :=
  kind == "subscribed" || kind == "resyncing" || kind == "pong" || kind == "snapshots_done" ||
    kind == "resync_in_progress"

/-- What the receipts of a raw frame share. -/
def frameContext (provider : Provider) (raw socketReceivedAt : String)
    (batchTimeMs : Option Nat) : FrameContext where
  batchTimeMs := batchTimeMs
  socketReceivedAt := socketReceivedAt
  rawFrameSha256 := Text.hexEncode (provider.sha256 raw.toUTF8.toList).toList

/-- The updates of a raw frame that a connection goes through. -/
inductive FrameUpdates
    (provider : Provider) (connection : Connection)
    (raw socketReceivedAt : String) : FrameContext → List Json → Prop
  | of_value
      {value : Json}
      {kind : String}
      {batchTimeMs : Option Nat}
      {updates : List Json}
      (bounded : raw.utf8ByteSize ≤ 2 * 1024 * 1024)
      (read : provider.fromStr raw = some value)
      (reported : (value.get? "error").bind asString? = none)
      (typed : (value.get? "type").bind asString? = some kind)
      (subscribed : connection.subscribed = true)
      (inner : isOuterKind kind = false)
      (listed : updatesOf value kind = .ok (batchTimeMs, updates)) :
      FrameUpdates provider connection raw socketReceivedAt
        (frameContext provider raw socketReceivedAt batchTimeMs) updates

/-- A raw frame without an update that fails it. -/
def FrameCalm
    (provider : Provider) (connection : Connection) (raw socketReceivedAt : String) : Prop :=
  ∀ context updates, FrameUpdates provider connection raw socketReceivedAt context updates →
    Calm provider context updates connection

/-- A run of such frames. -/
def RunCalm (provider : Provider) : Connection → List (String × String) → Prop
  | _, [] => True
  | connection, frame :: frames =>
    FrameCalm provider connection frame.1 frame.2 ∧
      RunCalm provider (connection.ingest provider frame.1 frame.2).2 frames

/-- Take a data frame with the given updates. -/
def Connection.ingestList
    (provider : Provider) (context : FrameContext)
    (updates : List Json) : Effect Connection String IngestOutcome := do
  let processed ← fencing (ingestUpdates provider context updates)
  pure (processed.foldl IngestOutcome.record IngestOutcome.empty)

/-- The outcomes of some raw frames. -/
def Connection.outcomes
    (provider : Provider) :
    Connection → List (String × String) → List (Except String IngestOutcome)
  | _, [] => []
  | connection, frame :: frames =>
    (connection.ingest provider frame.1 frame.2).1 ::
      outcomes provider (connection.ingest provider frame.1 frame.2).2 frames

section Frames

variable {provider : Provider} {context : FrameContext} {token raw socketReceivedAt : String}
  {left right connection : Connection}

theorem fencing_agrees {α β : Type} {values : α → β → Prop} {first : Effect Connection String α}
    {second : Effect Connection String β}
    (agree : Effect.Agree (AgreeOff token) values (first left) (second right)) :
    Effect.Agree (AgreeOff token) values (fencing first left) (fencing second right) := by
  unfold fencing
  generalize first left = leftEnd at agree
  generalize second right = rightEnd at agree
  obtain ⟨leftResult, leftAfter⟩ := leftEnd
  obtain ⟨rightResult, rightAfter⟩ := rightEnd
  obtain ⟨result, state⟩ := agree
  cases result with
  | ok same => exact .of_ok same state
  | error cause => exact .of_error cause state.invalidateAll

/-- A data frame is its updates, one after the other. -/
theorem ingest_of_frameUpdates
    (data : FrameUpdates provider connection raw socketReceivedAt context updates) :
    connection.ingest provider raw socketReceivedAt =
      Connection.ingestList provider context updates connection := by
  cases data with
  | @of_value value kind batchTimeMs updates bounded read reported typed subscribed inner listed =>
    unfold isOuterKind at inner
    simp only [Bool.or_eq_false_iff, beq_eq_false_iff_ne] at inner
    obtain ⟨⟨⟨⟨first, second⟩, third⟩, fourth⟩, fifth⟩ := inner
    have inside : ingestInner provider raw socketReceivedAt connection =
        ingestData provider raw socketReceivedAt value kind connection := by
      unfold ingestInner ensure
      rw [if_pos (decide_eq_true bounded), pure_bind, read]
      unfold ingestValue
      dsimp only
      rw [get_bind, reported, typed]
      unfold ingestTyped ensure
      dsimp only
      rw [if_neg first, get_bind, if_pos subscribed, pure_bind, if_neg second,
        if_neg (not_or.mpr ⟨third, fourth⟩), if_neg fifth]
    unfold Connection.ingest Connection.ingestRecorded Connection.ingestList
    rw [bind_apply, bind_apply]
    unfold fencing
    rw [inside]
    unfold ingestData
    rw [listed, bind_apply, lift_apply]
    dsimp only
    rw [bind_apply]
    unfold frameContext
    rcases ingestUpdates provider _ updates connection with ⟨_ | _, _⟩ <;> rfl

/-- Two results that say the same of the other tokens. -/
abbrev SameOutcome (token : String) (left right : Ingested) : Prop :=
  left.outcome.off token = right.outcome.off token

section

variable (agree : AgreeOff token left right)
include agree

theorem ingestAcknowledgement_agrees (value : Json) :
    Effect.Agree (AgreeOff token) (SameOutcome token)
      (ingestAcknowledgement value left) (ingestAcknowledgement value right) := by
  unfold ingestAcknowledgement
  rw [get_bind, get_bind, agree.size]
  split
  · exact .of_error _ agree.invalidateAll
  · refine .of_ok rfl ⟨agree.epoch, rfl, agree.fenceAll.conditions, agree.fenceAll.books⟩

theorem resyncToken_agrees (item : Json) :
    Effect.Agree (AgreeOff token) Eq (resyncToken item left) (resyncToken item right) := by
  unfold resyncToken
  cases item.asString? with
  | none => exact .of_error _ agree
  | some other =>
    rw [bind_apply, bind_apply]
    dsimp only [need, pure_apply]
    rw [get_bind, get_bind, agree.contains]
    cases right.tokens.contains other with
    | false => exact .of_error _ agree
    | true => exact .of_ok rfl (agree.fence other)

theorem ingestResync_agrees (value : Json) :
    Effect.Agree (AgreeOff token) (SameOutcome token)
      (ingestResync value left) (ingestResync value right) := by
  unfold ingestResync
  have names : Effect.Agree (AgreeOff token) Eq (resyncTokens value left)
      (resyncTokens value right) := by
    unfold resyncTokens
    cases (value.get? "markets").bind Json.asArray? with
    | some markets =>
      have each : Effect.Agree (AgreeOff token) (List.Forall₂ Eq)
          (collect resyncToken markets left) (collect resyncToken markets right) :=
        Effect.Agree.collect agree fun _ item _ _ _ _ _ _ related =>
          resyncToken_agrees related item
      rw [forall₂_eq_eq_eq] at each
      exact each
    | none =>
      dsimp only
      rw [get_bind, get_bind, modify_bind, modify_bind]
      exact .of_ok agree.keyList agree.fenceAll
  refine Effect.Agree.bind names ?_
  rintro listed _ middle otherMiddle _ _ rfl related
  exact .of_ok rfl related

end

variable {kind : String}

section

variable (agree : AgreeOff token left right)
include agree

theorem ingestData_agrees
    (calm : ∀ batchTimeMs updates, updatesOf value kind = .ok (batchTimeMs, updates) →
      Calm provider (frameContext provider raw socketReceivedAt batchTimeMs) updates left) :
    Effect.Agree (AgreeOff token) (SameOutcome token)
      (ingestData provider raw socketReceivedAt value kind left)
      (ingestData provider raw socketReceivedAt value kind right) := by
  unfold ingestData
  cases listed : updatesOf value kind with
  | error cause => exact .of_error cause agree
  | ok found =>
    obtain ⟨batchTimeMs, updates⟩ := found
    rw [bind_apply, bind_apply, lift_apply, lift_apply]
    refine Effect.Agree.bind (ingestUpdates_agrees agree (calm _ _ listed)) ?_
    intro first second middle otherMiddle _ _ same related
    exact .of_ok (foldl_record_off same rfl) related

theorem ingestTyped_agrees
    (calm : left.subscribed = true → isOuterKind kind = false → ∀ batchTimeMs updates,
      updatesOf value kind = .ok (batchTimeMs, updates) →
        Calm provider (frameContext provider raw socketReceivedAt batchTimeMs) updates left) :
    Effect.Agree (AgreeOff token) (SameOutcome token)
      (ingestTyped provider raw socketReceivedAt value kind left)
      (ingestTyped provider raw socketReceivedAt value kind right) := by
  unfold ingestTyped
  split
  · exact ingestAcknowledgement_agrees agree value
  rename_i first
  rw [get_bind, get_bind, agree.subscribed]
  cases subscribed : right.subscribed with
  | false => exact .of_error _ agree
  | true =>
    unfold ensure
    rw [if_pos rfl, pure_bind]
    split
    · exact ingestResync_agrees agree value
    split
    · exact .of_ok rfl agree
    split
    · exact .of_ok rfl agree
    rename_i second others last
    refine ingestData_agrees agree (calm (agree.subscribed.trans subscribed) ?_)
    rw [not_or] at others
    unfold isOuterKind
    simp only [Bool.or_eq_false_iff, beq_eq_false_iff_ne]
    exact ⟨⟨⟨⟨first, second⟩, others.1⟩, others.2⟩, last⟩

theorem ingestInner_agrees (calm : FrameCalm provider left raw socketReceivedAt) :
    Effect.Agree (AgreeOff token) (SameOutcome token)
      (ingestInner provider raw socketReceivedAt left)
      (ingestInner provider raw socketReceivedAt right) := by
  unfold ingestInner ensure
  split
  · rename_i bounded
    rw [decide_eq_true_iff] at bounded
    rw [pure_bind]
    cases read : provider.fromStr raw with
    | none => exact .of_error _ agree.invalidateAll
    | some value =>
      dsimp only
      unfold ingestValue
      rw [get_bind, get_bind, agree.subscribed]
      cases reported : (value.get? "error").bind asString? with
      | some error =>
        dsimp only
        split
        · exact .of_ok rfl agree
        · exact .of_error _ agree.invalidateAll
      | none =>
        cases typed : (value.get? "type").bind asString? with
        | none => exact .of_error _ agree.invalidateAll
        | some kind =>
          refine ingestTyped_agrees agree fun subscribed inner batchTimeMs updates listed => ?_
          exact calm _ _ (.of_value bounded read reported typed subscribed inner listed)
  · exact .of_error _ agree

/-- A raw frame keeps two runs together, and says the same of the other
tokens. -/
theorem ingest_agrees (calm : FrameCalm provider left raw socketReceivedAt) :
    Effect.Agree (AgreeOff token)
      (fun first second : IngestOutcome => first.off token = second.off token)
      (left.ingest provider raw socketReceivedAt) (right.ingest provider raw socketReceivedAt) := by
  refine Effect.Agree.bind (fencing_agrees (ingestInner_agrees agree calm)) ?_
  intro first second middle otherMiddle _ _ same related
  exact .of_ok same related

end

/-- Two results of a frame that say the same of the other tokens. -/
theorem map_off_of_agrees
    (agrees : Effect.ResultAgrees
      (fun first second : IngestOutcome => first.off token = second.off token) first second) :
    first.map (·.off token) = second.map (·.off token) := by
  cases agrees with
  | ok same => exact congrArg Except.ok same
  | error cause => rfl

/-- Whole runs stay together. -/
theorem outcomes_agree
    (agree : AgreeOff token left right) (calm : RunCalm provider left frames) :
    (Connection.outcomes provider left frames).map (Except.map (·.off token)) =
        (Connection.outcomes provider right frames).map (Except.map (·.off token)) ∧
      AgreeOff token (left.afterFrames provider frames) (right.afterFrames provider frames) := by
  induction frames generalizing left right with
  | nil => exact ⟨rfl, agree⟩
  | cons frame frames ih =>
    obtain ⟨here, later⟩ := calm
    have step := ingest_agrees agree here
    obtain ⟨same, related⟩ := ih step.state later
    refine ⟨?_, related⟩
    unfold Connection.outcomes
    rw [map_cons, map_cons, same, map_off_of_agrees step.result]

/-! ## A frame without one of its updates -/

/-- A depth update of a token. -/
structure IsDepthOf (token : String) (update : Json) : Prop where
  typed : ∃ kind, (update.get? "type").bind asString? = some kind ∧ isDepthKind kind = true
  named : (update.get? "asset_id").bind asString? = some token

variable {update : Json}

theorem ingestUpdate_own (context : FrameContext) (depth : IsDepthOf token update)
    (there : connection.tokens[token]? = some entry)
    (calm : ¬Disrupts provider connection update) :
    ∃ effect after, ingestUpdate provider context update connection = (.ok effect, after) ∧
      effect.elsewhere token = false ∧ AgreeOff token connection after := by
  obtain ⟨kind, typed, depthKind⟩ := depth.typed
  have trade : kind ≠ "last_trade_price" := by
    rintro rfl
    exact absurd depthKind (by decide)
  have control : ¬isControlKind kind = true := by
    intro control
    unfold isControlKind at control
    simp only [or_eq_true, beq_iff_eq] at control
    rcases control with (rfl | rfl) | rfl <;> exact absurd depthKind (by decide)
  cases bare : (update.get? "integrity").isNone with
  | true =>
    have notice : kind = "price_change" ∧
        ∃ assets, rows update "assets" = .ok assets ∧ assets.all isNotice = true := by
      by_contra other
      exact calm ⟨token, entry, depth.named, there, .inl ⟨bare, kind, typed, depthKind, other⟩⟩
    obtain ⟨rfl, assets, listed, silent⟩ := notice
    refine ⟨.ignored, connection, ?_, rfl, .refl _⟩
    unfold ingestUpdate need
    rw [typed, pure_bind, if_neg trade, if_neg control, depthKind, bare, if_neg (by decide),
      if_pos rfl]
    unfold ingestBare
    rw [if_pos rfl, listed, lift_ok_bind, if_pos silent]
    rfl
  | false =>
    have same : ingestUpdate provider context update connection =
        ingestDepth provider context update kind token entry.1 entry.2 connection := by
      unfold ingestUpdate need
      rw [typed, pure_bind, if_neg trade, if_neg control, depthKind, bare, depth.named,
        if_neg (by decide), if_neg Bool.false_ne_true, pure_bind, get_bind, there]
    have step : DepthStep provider context update connection token entry.1 entry.2 _ _ :=
      depthStep_of_ingest token entry.1 entry.2 context connection typed
    obtain ⟨⟨effect, succeeded, here⟩, agree⟩ := step.own depth.named there calm
    exact ⟨effect, _, same.trans (Prod.ext succeeded rfl), here, agree⟩

/-- Leaving a depth update of the token out of a frame changes nothing of the
other tokens. -/
theorem ingestList_agrees
    (calm : Calm provider context (front ++ update :: back) connection)
    (visited : ingestUpdates provider context front connection = (.ok processed, middle))
    (depth : IsDepthOf token update) (there : middle.tokens[token]? = some entry) :
    Effect.Agree (AgreeOff token)
      (fun first second : IngestOutcome => first.off token = second.off token)
      (Connection.ingestList provider context (front ++ update :: back) connection)
      (Connection.ingestList provider context (front ++ back) connection) := by
  obtain ⟨effect, after, taken, here, agree⟩ := ingestUpdate_own context depth there
    (calm front update back rfl processed middle visited)
  have now : processUpdate provider context update middle =
      (.ok { update, effect, after }, after) := by
    unfold processUpdate
    rw [bind_of_ok taken]
    rfl
  have rest : Calm provider context back after := by
    intro second other third split others last visitedMore
    refine calm (front ++ update :: second) other third ?_
      (processed ++ { update, effect, after } :: others) last ?_
    · rw [split, append_assoc, cons_append]
    · unfold ingestUpdates at visited visitedMore ⊢
      rw [collect_append, bind_of_ok visited, collect_cons, bind_assoc,
        bind_of_ok now, bind_assoc, bind_of_ok visitedMore]
      rfl
  have later := ingestUpdates_agrees agree.symm rest
  have updates : Effect.Agree (AgreeOff token)
      (fun first second : List Processed => ∀ outcome : IngestOutcome,
        (first.foldl IngestOutcome.record outcome).off token =
          (second.foldl IngestOutcome.record outcome).off token)
      (ingestUpdates provider context (front ++ update :: back) connection)
      (ingestUpdates provider context (front ++ back) connection) := by
    unfold ingestUpdates at visited later ⊢
    rw [collect_append, collect_append, bind_of_ok visited,
      bind_of_ok visited, collect_cons, bind_assoc, bind_of_ok now, bind_assoc]
    refine Effect.Agree.bind later ?_
    intro first second _ _ _ _ same related
    refine .of_ok ?_ related
    intro outcome
    rw [foldl_append, foldl_append, foldl_cons]
    refine foldl_record_off same ?_
    rw [record_off, here, if_neg Bool.false_ne_true]
  refine Effect.Agree.bind (fencing_agrees updates) ?_
  intro first second _ _ _ _ same related
  exact .of_ok (same .empty) related

end Frames

end MarketCow.Polynode
