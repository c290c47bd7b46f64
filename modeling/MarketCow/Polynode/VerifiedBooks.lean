import MarketCow.Library.Hash
import MarketCow.Polynode.UpdateStep
import Mathlib.Data.List.Chain

/-!
# Verified books

A ledger keeps, for one token, the frames accepted since its last accepted
anchor, and nothing once the token is fenced. A book is verified exactly while
there is a ledger, and then it is what the frames of the ledger say.
-/

namespace MarketCow.Polynode

open Library List Option
open Effect.Moves (bind collect of_ensure of_get of_lift of_modify of_need of_pure)

/-! ## Ledgers -/

/-- The frames accepted since the last accepted anchor, while nothing fenced
the token. -/
abbrev Ledger := Option (List Json)

def Ledger.accept (ledger : Ledger) (frame : Json) : Ledger :=
  if isAnchor frame then some [frame] else ledger.map (· ++ [frame])

/-- A book is what some frames say: an anchor and the updates after it, with
consecutive sequences, the last of which carries sequence and checksum of the
book. -/
structure Follows (provider : Provider) (frames : List Json) (book : TokenBook) : Prop where
  anchored : ∃ anchor updates, frames = anchor :: updates ∧ isAnchor anchor = true ∧
    ∀ update ∈ updates, isAnchor update = false
  contents : foldFrames Depth.empty frames = .ok book.depth
  consecutive : frames.IsChain fun earlier later =>
    ∃ sequence, frameSequence earlier = some sequence ∧ frameSequence later = some (sequence + 1)
  last : ∃ frame sequence, frames.getLast? = some frame ∧
    frameSequence frame = some sequence ∧ book.sequence = some sequence ∧
    frameChecksum frame = some (book.checksum provider)

/-- A book with a ledger: its accumulator is the sum over its contents, it is
verified while there is a ledger, and then it is what the ledger says. -/
structure BookSound (provider : Provider) (book : TokenBook) (ledger : Ledger) : Prop where
  accumulated : Accumulated provider book
  checksum : book.checksum provider = book.depth.checksum provider
  standing : book.verified = ledger.isSome
  follows : ∀ frames, ledger = some frames → Follows provider frames book

section Books

variable {provider : Provider} {book after : TokenBook} {ledger : Ledger} {frame : Json}

theorem foldFrames_concat
    (folded : foldFrames start frames = .ok middle) (levels : frameLevels frame = .ok changes) :
    foldFrames start (frames ++ [frame]) = .ok (middle.setAll changes) := by
  unfold foldFrames at folded ⊢
  refine foldlM_append_ok.mpr ⟨middle, folded, ?_⟩
  refine foldlM_cons_ok.mpr ⟨_, ?_, rfl⟩
  rw [levels]
  rfl

/-- An accepted anchor starts a ledger. -/
theorem follows_anchor (anchor : isAnchor frame = true)
    (accepts : Accepts provider frame book after) : Follows provider [frame] after := by
  obtain ⟨changes, levels, depth⟩ := accepts.levels
  obtain ⟨sequence, sequenced, at_⟩ := accepts.sequence
  rw [if_pos anchor] at depth
  refine ⟨⟨frame, [], rfl, anchor, by simp⟩, ?_, isChain_singleton _, ?_⟩
  · rw [depth, ← nil_append [frame]]
    exact foldFrames_concat rfl levels
  · exact ⟨frame, sequence, rfl, sequenced, at_, accepts.checksum⟩

/-- An accepted update goes on with a ledger. -/
theorem Follows.update
    {frames : List Json} (follows : Follows provider frames book) (update : isAnchor frame = false)
    (accepts : Accepts provider frame book after) : Follows provider (frames ++ [frame]) after := by
  obtain ⟨anchor, updates, rfl, anchored, others⟩ := follows.anchored
  obtain ⟨changes, levels, depth⟩ := accepts.levels
  obtain ⟨sequence, sequenced, at_⟩ := accepts.sequence
  obtain ⟨_, previous, before, _, next⟩ := accepts.continues update
  obtain ⟨final, number, ending, numbered, here, _⟩ := follows.last
  rw [if_neg (by simp [update])] at depth
  refine ⟨⟨anchor, updates ++ [frame], rfl, anchored, ?_⟩, ?_, ?_, ?_⟩
  · intro other mem
    rcases mem_append.mp mem with earlier | last
    · exact others other earlier
    · rw [mem_singleton.mp last]
      exact update
  · rw [depth]
    exact foldFrames_concat follows.contents levels
  · refine follows.consecutive.append (isChain_singleton frame) ?_
    intro earlier isLast later isFirst
    cases isFirst
    obtain rfl := some.inj (ending.symm.trans isLast)
    obtain rfl := some.inj (here.symm.trans before)
    exact ⟨number, numbered, next⟩
  · exact ⟨frame, sequence, getLast?_concat, sequenced, at_, accepts.checksum⟩

namespace BookSound

theorem empty : BookSound provider .empty none :=
  ⟨accumulated_empty, accumulated_empty.checksum, rfl, by rintro _ ⟨⟩⟩

/-- A fenced book has no ledger. -/
theorem fenced (accumulated : Accumulated provider book)
    (unverified : book.verified = false) : BookSound provider book none :=
  ⟨accumulated, accumulated.checksum, unverified, by rintro _ ⟨⟩⟩

theorem accept (sound : BookSound provider book ledger)
    (applies : book.applyDepth provider frame = (.ok (), after)) :
    BookSound provider after (ledger.accept frame) := by
  have accepts := TokenBook.applyDepth_ok applies
  have accumulated := TokenBook.applyDepth_keeps frame book sound.accumulated
  rw [applies] at accumulated
  unfold Ledger.accept
  cases anchor : isAnchor frame with
  | true =>
    rw [if_pos rfl]
    refine ⟨accumulated, Accumulated.checksum accumulated, accepts.verified, ?_⟩
    rintro frames ⟨⟩
    exact follows_anchor anchor accepts
  | false =>
    rw [if_neg Bool.false_ne_true]
    have verified := (accepts.continues anchor).1
    rw [sound.standing] at verified
    obtain ⟨frames, present⟩ := isSome_iff_exists.mp verified
    subst present
    refine ⟨accumulated, Accumulated.checksum accumulated, accepts.verified, ?_⟩
    rintro _ ⟨⟩
    exact (sound.follows frames rfl).update anchor accepts

theorem reject (sound : BookSound provider book ledger)
    (rejects : book.applyDepth provider frame = (.error cause, after)) :
    BookSound provider after none := by
  have accumulated := TokenBook.applyDepth_keeps frame book sound.accumulated
  rw [rejects] at accumulated
  exact fenced accumulated (TokenBook.applyDepth_eq_error rejects).1

end BookSound

/-! ## Runs of one book -/

/-- A book and its ledger after one more frame. -/
def depthStep
    (provider : Provider) (state : TokenBook × Ledger) (frame : Json) : TokenBook × Ledger :=
  match state.1.applyDepth provider frame with
  | (.ok (), after) => (after, state.2.accept frame)
  | (.error _, after) => (after, none)

def depthRun (provider : Provider) (frames : List Json) : TokenBook × Ledger :=
  frames.foldl (depthStep provider) (TokenBook.empty, none)

theorem depthStep_sound (sound : BookSound provider book ledger) :
    BookSound provider (depthStep provider (book, ledger) frame).1
      (depthStep provider (book, ledger) frame).2 := by
  unfold depthStep
  rcases applies : book.applyDepth provider frame with ⟨cause | _, after⟩
  · exact sound.reject applies
  · exact sound.accept applies

theorem depthRun_sound (frames : List Json) :
    BookSound provider (depthRun provider frames).1 (depthRun provider frames).2 := by
  induction frames using List.reverseRecOn with
  | nil => exact BookSound.empty
  | append_singleton frames frame ih =>
    unfold depthRun at ih ⊢
    rw [foldl_append]
    exact depthStep_sound ih

end Books

/-! ## Connections -/

/-- A ledger after one more update of a frame. -/
def recordLedger (token : String) (ledger : Ledger) (processed : Processed) : Ledger :=
  match processed.effect with
  | .ignored => ledger
  | .fenced other => if other = token then none else ledger
  | .accepted receipt =>
    if receipt.tokenId = token then ledger.accept processed.update else ledger

/-- An acknowledgement of a subscription, or a resync notice that names the
token. -/
def fencedByControl (provider : Provider) (raw token : String) : Bool :=
  match provider.fromStr raw with
  | some value => isAcknowledgement value || namesResync value token
  | none => false

/-- A connection and the ledger of one token after one more raw frame. -/
def ingestStep (provider : Provider) (token : String) (state : Connection × Ledger)
    (frame : String × String) : Connection × Ledger :=
  match state.1.ingestRecorded provider frame.1 frame.2 with
  | (.error _, after) => (after, none)
  | (.ok ingested, after) =>
    (after, if fencedByControl provider frame.1 token then none
      else ingested.updates.foldl (recordLedger token) state.2)

def ingestRun (provider : Provider) (token : String) (connection : Connection)
    (frames : List (String × String)) : Connection × Ledger :=
  frames.foldl (ingestStep provider token) (connection, none)

/-- The accumulator of every book is the sum over its contents. -/
def AllAccumulated (provider : Provider) (connection : Connection) : Prop :=
  ∀ (token : String) (entry : String × TokenBook), connection.tokens[token]? = some entry →
    Accumulated provider entry.2

/-- The book of a token is what a ledger says. -/
def TokenSound
    (provider : Provider) (token : String) (ledger : Ledger) (connection : Connection) : Prop :=
  ∀ entry : String × TokenBook, connection.tokens[token]? = some entry →
    BookSound provider entry.2 ledger

section Connections

variable {provider : Provider} {connection after : Connection} {token : String} {ledger : Ledger}

namespace AllAccumulated

section

variable (all : AllAccumulated provider connection)
include all

theorem setBook
    (accumulated : Accumulated provider book) :
    AllAccumulated provider (connection.setBook other book) := by
  intro token entry there
  rw [Connection.setBook_tokens] at there
  split at there
  · obtain ⟨earlier, _, rfl⟩ := map_eq_some_iff.mp there
    exact accumulated
  · exact all token entry there

theorem fence
    (other : String) : AllAccumulated provider (connection.fence other) := by
  intro token entry there
  rw [Connection.fence_tokens] at there
  split at there
  · obtain ⟨earlier, present, rfl⟩ := map_eq_some_iff.mp there
    exact (all other earlier present).invalidate
  · exact all token entry there

theorem fenceAll :
    AllAccumulated provider connection.fenceAll := by
  intro token entry there
  rw [Connection.fenceAll_tokens] at there
  obtain ⟨earlier, present, rfl⟩ := map_eq_some_iff.mp there
  exact (all token earlier present).invalidate

theorem invalidateAll :
    AllAccumulated provider connection.invalidateAll :=
  all.fenceAll

end

end AllAccumulated

theorem receiptOf_tokenId
    (received : receiptOf provider context epoch token condition update kind book = .ok receipt) :
    receipt.tokenId = token := by
  unfold receiptOf at received
  iterate 2 obtain ⟨_, _, received⟩ := bind_ok.mp received
  cases received
  rfl

theorem fault_keeps {α : Type} (cause : String) :
    (fault cause : Effect Connection String α).Moves (Effect.keeping (AllAccumulated provider)) :=
  fun _ all => all.invalidateAll

theorem ingestUpdate_keeps (context : FrameContext) (update : Json) :
    (ingestUpdate provider context update).Moves (Effect.keeping (AllAccumulated provider)) := by
  intro connection all
  have step := updateStep_of_ingest provider context update connection
  generalize (ingestUpdate provider context update connection).1 = result at step
  generalize (ingestUpdate provider context update connection).2 = after at step ⊢
  cases step with
  | ignored | refused => exact all
  | faulted => exact all.invalidateAll
  | @depth token condition book _ _ _ there step =>
    have kept := TokenBook.applyDepth_keeps update book (all token _ there)
    cases step with
    | repeated => exact all
    | mismatched => exact all.fence _
    | rejected applies | accepted _ applies | unreceipted _ _ applies =>
      rw [applies] at kept
      exact all.setBook kept

theorem ingestResync_keeps (value : Json) :
    (ingestResync value).Moves (Effect.keeping (AllAccumulated provider)) := by
  refine bind ?_ fun _ => of_pure _
  unfold resyncTokens
  cases (value.get? "markets").bind Json.asArray? with
  | some markets =>
    refine collect (fun item => ?_) markets
    refine bind (of_need _ _) fun token => ?_
    refine bind of_get fun _ => ?_
    refine bind (of_ensure _ _) fun _ => ?_
    exact bind (of_modify fun _ all => all.fence token) fun _ =>
      of_pure _
  | none =>
    refine bind of_get fun _ => ?_
    exact bind (of_modify fun _ all => all.fenceAll) fun _ =>
      of_pure _

theorem ingestTyped_keeps (raw socketReceivedAt : String) (value : Json) (kind : String) :
    (ingestTyped provider raw socketReceivedAt value kind).Moves
      (Effect.keeping (AllAccumulated provider)) := by
  unfold ingestTyped
  split
  · refine bind of_get fun _ => ?_
    split
    · exact fault_keeps _
    · exact bind (of_modify fun _ all => all.invalidateAll) fun _ =>
        of_pure _
  refine bind of_get fun _ => ?_
  refine bind (of_ensure _ _) fun _ => ?_
  split
  · exact ingestResync_keeps value
  split
  · exact of_pure _
  split
  · exact of_pure _
  refine bind (of_lift _) fun listed => ?_
  refine bind ?_ fun _ => of_pure _
  refine collect (fun update => ?_) listed.2
  refine bind (ingestUpdate_keeps _ update) fun _ => ?_
  exact bind of_get fun _ => of_pure _

theorem ingestInner_keeps (raw socketReceivedAt : String) :
    (ingestInner provider raw socketReceivedAt).Moves
      (Effect.keeping (AllAccumulated provider)) := by
  refine bind (of_ensure _ _) fun _ => ?_
  cases provider.fromStr raw with
  | none => exact fault_keeps _
  | some value =>
    refine bind of_get fun connection => ?_
    cases (value.get? "error").bind Json.asString? with
    | some error =>
      dsimp only
      split
      · exact of_pure _
      · exact fault_keeps _
    | none =>
      cases (value.get? "type").bind Json.asString? with
      | none => exact fault_keeps _
      | some kind => exact ingestTyped_keeps raw socketReceivedAt value kind

theorem ingestRecorded_keeps (raw socketReceivedAt : String) :
    (Connection.ingestRecorded provider raw socketReceivedAt).Moves
      (Effect.keeping (AllAccumulated provider)) := by
  intro connection all
  have kept := ingestInner_keeps raw socketReceivedAt connection all
  unfold Connection.ingestRecorded fencing
  rcases inner : ingestInner provider raw socketReceivedAt connection with ⟨_ | _, after⟩ <;>
    rw [inner] at kept
  · exact kept.invalidateAll
  · exact kept

theorem fencedByControl_of_read (read : provider.fromStr raw = some value) :
    fencedByControl provider raw token = (isAcknowledgement value || namesResync value token) := by
  unfold fencedByControl
  rw [read]

/-! ## What a token's ledger says -/

namespace TokenSound

theorem fenceAll (sound : TokenSound provider token ledger connection) :
    TokenSound provider token none connection.fenceAll := by
  intro entry there
  rw [Connection.fenceAll_tokens] at there
  obtain ⟨earlier, present, rfl⟩ := map_eq_some_iff.mp there
  exact BookSound.fenced (sound earlier present).accumulated.invalidate rfl

section

variable (sound : TokenSound provider token ledger connection)
include sound

theorem fence (other : String) :
    TokenSound provider token (if other = token then none else ledger)
      (connection.fence other) := by
  intro entry there
  rw [Connection.fence_tokens] at there
  split at there
  · rename_i same
    rw [if_pos same.symm]
    obtain ⟨earlier, present, rfl⟩ := map_eq_some_iff.mp there
    exact BookSound.fenced (sound earlier (same ▸ present)).accumulated.invalidate rfl
  · rename_i ne
    rw [if_neg (Ne.symm ne)]
    exact sound entry there

/-- Another book of a token, or of another one. -/
theorem setBook {book bookAfter : TokenBook} {next : Ledger}
    (there : connection.tokens[other]? = some (condition, book))
    (change : BookSound provider book ledger → BookSound provider bookAfter next) :
    TokenSound provider token (if other = token then next else ledger)
      (connection.setBook other bookAfter) := by
  intro entry present
  rw [Connection.setBook_tokens] at present
  split at present
  · rename_i same
    rw [if_pos same.symm]
    obtain ⟨earlier, _, rfl⟩ := map_eq_some_iff.mp present
    exact change (sound _ (same ▸ there))
  · rename_i ne
    rw [if_neg (Ne.symm ne)]
    exact sound entry present

/-- One update of a frame. -/
theorem processUpdate {update : Json}
    (taken : processUpdate provider context update connection = (.ok processed, after)) :
    TokenSound provider token (recordLedger token ledger processed) after := by
  obtain ⟨effect, middle, ingested, taken⟩ := Effect.bind_ok.mp taken
  rw [Effect.get_bind] at taken
  cases taken
  have step := updateStep_of_ingest provider context update connection
  rw [ingested] at step
  unfold recordLedger
  cases step with
  | ignored => exact sound
  | depth named there step =>
    cases step with
    | repeated => exact sound
    | mismatched => exact sound.fence _
    | rejected rejects => exact sound.setBook there fun before => before.reject rejects
    | accepted _ applies received =>
      have same := receiptOf_tokenId received
      dsimp only
      rw [same]
      exact sound.setBook there fun before => before.accept applies

/-- All updates of a frame. -/
theorem ingestUpdates
    (taken : ingestUpdates provider context updates connection = (.ok processed, after)) :
    TokenSound provider token (processed.foldl (recordLedger token) ledger) after := by
  induction updates generalizing connection ledger processed with
  | nil =>
    cases taken
    exact sound
  | cons update updates ih =>
    obtain ⟨first, rest, middle, now, later, rfl⟩ := Effect.collect_cons_ok_iff.mp taken
    have rested := ih (sound.processUpdate now) later
    exact rested

/-- The tokens of a resync notice. -/
theorem resyncItems (taken : Effect.collect resyncToken items connection = (.ok names, after)) :
    TokenSound provider token (if items.contains (.string token) then none else ledger) after := by
  intro entry there
  rw [resyncItems_tokens taken] at there
  split at there
  · rename_i named
    rw [if_pos named]
    obtain ⟨earlier, present, rfl⟩ := map_eq_some_iff.mp there
    exact BookSound.fenced (sound earlier present).accumulated.invalidate rfl
  · rename_i unnamed
    rw [if_neg unnamed]
    exact sound entry there

/-- One raw frame. -/
theorem frameStep (step : FrameStep provider raw socketReceivedAt connection ingested after) :
    TokenSound provider token
      (if fencedByControl provider raw token then none
        else ingested.updates.foldl (recordLedger token) ledger) after := by
  cases step with
  | acknowledged read acknowledgement _ _ =>
    rw [fencedByControl_of_read read, acknowledgement]
    exact sound.fenceAll
  | @resynced value ingested after read other reported typed resyncs =>
    rw [fencedByControl_of_read read, other, Bool.false_or]
    unfold ingestResync at resyncs
    obtain ⟨names, middle, named, resyncs⟩ := Effect.bind_ok.mp resyncs
    cases resyncs
    unfold resyncTokens at named
    unfold namesResync
    cases listed : (value.get? "markets").bind Json.asArray? with
    | some markets =>
      rw [listed] at named
      simpa [reported, typed, controlled] using sound.resyncItems named
    | none =>
      rw [listed] at named
      dsimp only at named
      rw [Effect.get_bind, Effect.modify_bind] at named
      cases named
      simpa [reported, typed] using sound.fenceAll
  | controlled read other unnamed bare _ =>
    rw [fencedByControl_of_read read, other, unnamed token, bare]
    exact sound
  | data read other unnamed _ taken =>
    rw [fencedByControl_of_read read, other, unnamed token]
    obtain ⟨⟨time, updates⟩, _, taken⟩ := Effect.lift_bind_ok.mp taken
    obtain ⟨processed, middle, listed, taken⟩ := Effect.bind_ok.mp taken
    cases taken
    exact sound.ingestUpdates listed

end

end TokenSound

/-! ## Runs of a connection -/

/-- A connection after some raw frames. -/
def Connection.afterFrames (provider : Provider) (connection : Connection)
    (frames : List (String × String)) : Connection :=
  frames.foldl (fun connection frame => (connection.ingest provider frame.1 frame.2).2) connection

theorem ingest_eq (raw socketReceivedAt : String) :
    connection.ingest provider raw socketReceivedAt =
      ((connection.ingestRecorded provider raw socketReceivedAt).1.map Ingested.outcome,
        (connection.ingestRecorded provider raw socketReceivedAt).2) := by
  unfold Connection.ingest
  rw [Effect.bind_apply]
  rcases connection.ingestRecorded provider raw socketReceivedAt with ⟨_ | _, _⟩ <;> rfl

theorem ingestStep_connection (state : Connection × Ledger) (frame : String × String) :
    (ingestStep provider token state frame).1 = (state.1.ingest provider frame.1 frame.2).2 := by
  rw [ingest_eq]
  unfold ingestStep
  rcases state.1.ingestRecorded provider frame.1 frame.2 with ⟨_ | _, _⟩ <;> rfl

theorem ingestRun_connection (token : String) (frames : List (String × String)) :
    (ingestRun provider token connection frames).1 = connection.afterFrames provider frames := by
  induction frames using List.reverseRecOn with
  | nil => rfl
  | append_singleton frames frame ih =>
    unfold ingestRun Connection.afterFrames at ih ⊢
    rw [foldl_append, foldl_append, foldl_cons, foldl_cons,
      foldl_nil, foldl_nil, ingestStep_connection, ih]

theorem allAccumulated_afterFrames
    (all : AllAccumulated provider connection) (frames : List (String × String)) :
    AllAccumulated provider (connection.afterFrames provider frames) := by
  induction frames using List.reverseRecOn with
  | nil => exact all
  | append_singleton frames frame ih =>
    unfold Connection.afterFrames at ih ⊢
    rw [foldl_append, foldl_cons, foldl_nil, ingest_eq]
    exact ingestRecorded_keeps frame.1 frame.2 _ ih

theorem ingestStep_sound
    (all : AllAccumulated provider state.1) (sound : TokenSound provider token state.2 state.1) :
    TokenSound provider token (ingestStep provider token state frame).2
      (ingestStep provider token state frame).1 := by
  unfold ingestStep
  rcases taken : state.1.ingestRecorded provider frame.1 frame.2 with ⟨cause | ingested, after⟩
  · have kept := ingestRecorded_keeps frame.1 frame.2 state.1 all
    rw [taken] at kept
    intro entry there
    exact BookSound.fenced (kept token entry there) (unverified_of_ingest_error taken there).1
  · exact sound.frameStep (frameStep_of_ingest taken)

theorem ingestRun_sound
    (all : AllAccumulated provider connection) (sound : TokenSound provider token none connection)
    (frames : List (String × String)) :
    TokenSound provider token (ingestRun provider token connection frames).2
      (ingestRun provider token connection frames).1 := by
  induction frames using List.reverseRecOn with
  | nil => exact sound
  | append_singleton frames frame ih =>
    have accumulated := allAccumulated_afterFrames all frames
    rw [← ingestRun_connection token] at accumulated
    unfold ingestRun at accumulated ih ⊢
    rw [foldl_append]
    exact ingestStep_sound accumulated ih

/-- A new connection has empty books. -/
theorem new_tokens (created : Connection.new epoch tokens = .ok connection)
    (there : connection.tokens[token]? = some entry) : entry.2 = .empty := by
  unfold Connection.new at created
  split at created
  · cases created
  split at created
  · cases created
  cases created
  rw [TreeMap.getElem?_map] at there
  obtain ⟨_, _, rfl⟩ := map_eq_some_iff.mp there
  rfl

/-! ## Fences -/

/-- An accepted anchor of a token. -/
def Processed.Anchors (processed : Processed) (token : String) : Prop :=
  ∃ receipt, processed.effect = .accepted receipt ∧ receipt.tokenId = token ∧
    isAnchor processed.update = true

/-- Without a ledger there is none until an anchor is accepted. -/
theorem recordLedger_none
    {updates : List Processed} (unanchored : ∀ processed ∈ updates, ¬processed.Anchors token) :
    updates.foldl (recordLedger token) none = none := by
  induction updates with
  | nil => rfl
  | cons processed updates ih =>
    have rest := ih fun other mem => unanchored other (by simp [mem])
    have here : recordLedger token none processed = none := by
      unfold recordLedger
      split
      · rfl
      · exact ite_self _
      · rename_i receipt accepted
        split
        · rename_i same
          unfold Ledger.accept
          rw [if_neg]
          · rfl
          · intro anchor
            exact unanchored processed (by simp) ⟨receipt, accepted, same, anchor⟩
        · rfl
    rw [foldl_cons, here, rest]

/-- What a frame says about the standing of a token after it. -/
structure FrameFences
    (provider : Provider) (connection : Connection) (raw socketReceivedAt token : String)
    (book : TokenBook) : Prop where
  /-- The frame fails. -/
  failed : ∀ cause, (connection.ingest provider raw socketReceivedAt).1 = .error cause →
    book.verified = false
  /-- The frame acknowledges a subscription, or is a resync notice for the token. -/
  controlled : fencedByControl provider raw token = true → book.verified = false
  /-- The frame has a rejected update of the token and no accepted anchor after it. -/
  rejected : ∀ ingested after front processed back,
    connection.ingestRecorded provider raw socketReceivedAt = (.ok ingested, after) →
    ingested.updates = front ++ processed :: back → processed.effect = .fenced token →
    (∀ later ∈ back, ¬later.Anchors token) → book.verified = false
  /-- A token that was not verified is verified through an accepted anchor. -/
  anchored : (∀ entry, connection.tokens[token]? = some entry → entry.2.verified = false) →
    book.verified = true → ∃ ingested after,
      connection.ingestRecorded provider raw socketReceivedAt = (.ok ingested, after) ∧
        ∃ processed ∈ ingested.updates, processed.Anchors token

theorem fences_of_ingest {raw socketReceivedAt : String} {entry : String × TokenBook}
    (all : AllAccumulated provider connection) (sound : TokenSound provider token ledger connection)
    (there : (connection.ingest provider raw socketReceivedAt).2.tokens[token]? = some entry) :
    FrameFences provider connection raw socketReceivedAt token entry.2 := by
  rw [ingest_eq] at there
  rcases taken : connection.ingestRecorded provider raw socketReceivedAt with
    ⟨cause | ingested, after⟩
  · rw [taken] at there
    have unverified := (unverified_of_ingest_error taken there).1
    refine ⟨fun _ _ => unverified, fun _ => unverified, ?_, ?_⟩
    · intro _ _ _ _ _ succeeded
      rw [taken] at succeeded
      cases succeeded
    · intro _ verified
      rw [unverified] at verified
      cases verified
  · rw [taken] at there
    have step := frameStep_of_ingest taken
    have after := sound.frameStep step entry there
    refine ⟨?_, ?_, ?_, ?_⟩
    · intro cause failed
      rw [ingest_eq, taken] at failed
      cases failed
    · intro fenced
      rw [if_pos fenced] at after
      exact after.standing
    · intro other _ front processed back succeeded split fenced unanchored
      rw [taken] at succeeded
      cases succeeded
      have ledgerAfter : ingested.updates.foldl (recordLedger token) ledger = none := by
        have here : recordLedger token (front.foldl (recordLedger token) ledger) processed =
            none := by
          unfold recordLedger
          rw [fenced]
          exact if_pos rfl
        rw [split, foldl_append, foldl_cons, here, recordLedger_none unanchored]
      rw [ledgerAfter, ite_self] at after
      exact after.standing
    · intro unverified verified
      refine ⟨ingested, _, taken, ?_⟩
      by_contra none
      push Not at none
      -- Without a ledger before the frame there is none after it.
      have bare : TokenSound provider token Option.none connection := by
        intro earlier present
        exact BookSound.fenced (all token earlier present) (unverified earlier present)
      have fenced := bare.frameStep step entry there
      rw [recordLedger_none none, ite_self] at fenced
      rw [fenced.standing] at verified
      cases verified

end Connections

/-- Every verified book is what its checksummed frames say, in every run of a
book and in every run of a connection, and the fences hold at every frame. -/
theorem verifiedBooks_of_run (provider : Provider) :
    (∀ frames : List Json,
      BookSound provider (depthRun provider frames).1 (depthRun provider frames).2 ∧
        ∀ frame cause after,
          (depthRun provider frames).1.applyDepth provider frame = (.error cause, after) →
            after.verified = false) ∧
      ∀ (epoch : String) (tokens : TreeMap String String) (connection : Connection),
        Connection.new epoch tokens = .ok connection →
        ∀ (frames : List (String × String)) (token : String),
          TokenSound provider token (ingestRun provider token connection frames).2
              (connection.afterFrames provider frames) ∧
            ∀ (raw socketReceivedAt : String) (entry : String × TokenBook),
              ((connection.afterFrames provider frames).ingest provider raw
                socketReceivedAt).2.tokens[token]? = some entry →
              FrameFences provider (connection.afterFrames provider frames) raw socketReceivedAt
                token entry.2 := by
  constructor
  · intro frames
    refine ⟨depthRun_sound frames, ?_⟩
    intro frame cause after rejects
    exact (TokenBook.applyDepth_eq_error rejects).1
  · intro epoch tokens connection created frames token
    have all : AllAccumulated provider connection := by
      intro other entry there
      rw [new_tokens created there]
      exact accumulated_empty
    have bare : TokenSound provider token none connection := by
      intro entry there
      rw [new_tokens created there]
      exact BookSound.empty
    have sound := ingestRun_sound all bare frames
    rw [ingestRun_connection] at sound
    refine ⟨sound, ?_⟩
    intro raw socketReceivedAt entry there
    exact fences_of_ingest (allAccumulated_afterFrames all frames) sound there

/-! ### An example -/

def sampleToken : String := "123456789012"

def sampleCondition : String :=
  "0xaaaaaaaaaaaaaaaaaaaaaaaaaaaaaaaaaaaaaaaaaaaaaaaaaaaaaaaaaaaaaaaa"

def sampleTokens : TreeMap String String :=
  (∅ : TreeMap String String).insert sampleToken sampleCondition

/-- The checksum of a book with one bid, ten at 0.5. -/
def anchorChecksum : String := "d6d8212502333162a4cf728af1c07bf358b2dac5b0aeb93e8a7f13a85ad560a2"

/-- The checksum of a book with one ask, four at 0.6. -/
def deltaChecksum : String := "5da9b53ffd0c2ae00b1fabbb9a2ac52c3a776ffc9fcd83d0f5f48d26b1b3b20c"

def sampleAcknowledgement : Json :=
  .object [("type", .string "subscribed"), ("markets", .integer 1),
    ("integrity", .object [("enabled", .bool true), ("protocol", .string "pn1")])]

/-- A depth frame of the sample token. -/
def sampleDepth (kind : String) (bids asks : List Json) (integrity : List (String × Json)) : Json :=
  .object [("type", .string kind), ("asset_id", .string sampleToken),
    ("market", .string sampleCondition), ("bids", .array bids), ("asks", .array asks),
    ("integrity", .object (("protocol", .string "pn1") :: integrity))]

def sampleRow (price size : String) : Json :=
  .object [("price", .string price), ("size", .string size)]

def sampleAnchor : Json :=
  sampleDepth "book_snapshot" [sampleRow "0.5" "10"] []
    [("anchor", .bool true), ("seq", .integer 1), ("checksum", .string anchorChecksum)]

/-- The bid goes and an ask comes. -/
def sampleDelta : Json :=
  sampleDepth "book_update" [sampleRow "0.5" "0"] [sampleRow "0.6" "4"]
    [("prev_seq", .integer 1), ("seq", .integer 2), ("checksum", .string deltaChecksum)]

def acknowledgementText : String :=
  "\x7b\"type\":\"subscribed\",\"markets\":1,\"integrity\":\x7b\"enabled\":true,\"protocol\":\"pn1\"\x7d\x7d"

/-- The text of a depth frame of the sample token. -/
def depthText (kind bids asks integrity : String) : String :=
  "\x7b\"type\":\"" ++ kind ++ "\",\"asset_id\":\"123456789012\",\"market\":\"" ++
    sampleCondition ++ "\",\"bids\":[" ++ bids ++ "],\"asks\":[" ++ asks ++
    "],\"integrity\":\x7b\"protocol\":\"pn1\"," ++ integrity ++ "\x7d\x7d"

def anchorText : String :=
  depthText "book_snapshot" "\x7b\"price\":\"0.5\",\"size\":\"10\"\x7d" ""
    ("\"anchor\":true,\"seq\":1,\"checksum\":\"" ++ anchorChecksum ++ "\"")

def deltaText : String :=
  depthText "book_update" "\x7b\"price\":\"0.5\",\"size\":\"0\"\x7d"
    "\x7b\"price\":\"0.6\",\"size\":\"4\"\x7d"
    ("\"prev_seq\":1,\"seq\":2,\"checksum\":\"" ++ deltaChecksum ++ "\"")

def sampleProvider : Provider where
  sha256 := Sha256.hash
  fromStr := fun text =>
    [(acknowledgementText, sampleAcknowledgement), (anchorText, sampleAnchor),
      (deltaText, sampleDelta)].lookup text
  decimalFromStr := fun text =>
    [("0.5", (1 : ℚ) / 2), ("10", 10), ("0", 0), ("0.6", 3 / 5), ("4", 4)].lookup text

def sampleFrames : List (String × String) :=
  [(acknowledgementText, "2026-10-09T00:00:00Z"), (anchorText, "2026-10-09T00:00:01Z"),
    (deltaText, "2026-10-09T00:00:02Z")]

def sampleConnection : Connection where
  epoch := "epoch-a"
  tokens := sampleTokens.map fun _ condition => (condition, TokenBook.empty)
  subscribed := false

/-- An acknowledged token with an anchor and the delta that continues it. -/
theorem verifiedBooks_sample :
    ∃ entry : String × TokenBook,
      (sampleConnection.afterFrames sampleProvider sampleFrames).tokens[sampleToken]? =
        some entry ∧ entry.2.verified = true ∧
        BookSound sampleProvider entry.2 (some [sampleAnchor, sampleDelta]) := by
  have created : Connection.new "epoch-a" sampleTokens = .ok sampleConnection := by
    unfold Connection.new
    rw [if_neg (by decide +kernel), if_neg (by decide +kernel)]
    rfl
  have verified : ((sampleConnection.afterFrames sampleProvider sampleFrames).tokens[sampleToken]?.map
      fun entry => entry.2.verified) = some true := by decide +kernel
  have ledger : (ingestRun sampleProvider sampleToken sampleConnection sampleFrames).2 =
      some [sampleAnchor, sampleDelta] := by decide +kernel
  obtain ⟨entry, present, verified⟩ := map_eq_some_iff.mp verified
  have sound := ((verifiedBooks_of_run sampleProvider).2 "epoch-a" sampleTokens sampleConnection
    created sampleFrames sampleToken).1
  rw [ledger] at sound
  exact ⟨entry, present, verified, sound entry present⟩

end MarketCow.Polynode
