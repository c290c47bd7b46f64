import MarketCow.Polynode.VerifiedBooks

/-!
# Receipts

A consumer that folds the receipts of one token holds the book the connection
holds, never meets a broken chain and never gets a frame of its chain again. It
knows of a token no more than its receipts and when the token was invalidated.
-/

namespace MarketCow.Polynode

open Library List
open MarketCow.Core (Decimal)

/-! ## Consumers -/

/-- A side as an anchor lists it. -/
def Levels.ofList (levels : List Level) : Levels :=
  TreeMap.collect (levels.map fun level => (level.price, level.size))

/-- What a consumer holds of a token. -/
structure Held where
  depth : Depth
  sequence : Nat

/-- Take one receipt: an anchor replaces both sides, a delta goes on from the
receipt before it. -/
def consume (held : Option Held) (receipt : DepthReceipt) : Except String Held :=
  match receipt.payload with
  | .anchor bids asks =>
    .ok
      { depth := { bids := Levels.ofList bids, asks := Levels.ofList asks }
        sequence := receipt.providerSeq }
  | .delta prevSeq changes =>
    match held with
    | none => .error "delta without an anchor"
    | some held =>
      if held.sequence = prevSeq then
        .ok { depth := held.depth.setAll changes, sequence := receipt.providerSeq }
      else .error "broken chain"

/-- Follow one update of a frame. -/
def follow
    (token : String) (held : Option Held) (processed : Processed) : Except String (Option Held) :=
  match processed.effect with
  | .ignored => .ok held
  | .fenced other => .ok (if other = token then none else held)
  | .accepted receipt =>
    if receipt.tokenId = token then (consume held receipt).map some else .ok held

/-- Follow one raw frame. -/
def followStep
    (provider : Provider) (token : String) (state : Connection × Except String (Option Held))
    (frame : String × String) : Connection × Except String (Option Held) :=
  match state.1.ingestRecorded provider frame.1 frame.2 with
  | (.error _, after) => (after, state.2.map fun _ => none)
  | (.ok ingested, after) =>
    (after, do
      let held ← state.2
      if fencedByControl provider frame.1 token then .ok none
      else ingested.updates.foldlM (follow token) held)

def followRun (provider : Provider) (token : String) (connection : Connection)
    (frames : List (String × String)) : Connection × Except String (Option Held) :=
  frames.foldl (followStep provider token) (connection, .ok none)

/-- The consumer holds the book of the connection, as long as it is verified. -/
def Mirrors (token : String) (held : Option Held) (connection : Connection) : Prop :=
  ∀ entry : String × TokenBook, connection.tokens[token]? = some entry →
    entry.2.verified = held.isSome ∧
      ∀ item, held = some item → item.depth = entry.2.depth ∧ entry.2.sequence = some item.sequence

/-! ## Payloads -/

theorem valuedLevels_entries {items : List (String × String)} {values : List (Decimal × Level)}
    (visited : items.mapM (valuedLevel provider) = .ok values) :
    (values.map Prod.snd).map (fun level => (level.price, level.size)) = items := by
  induction items generalizing values with
  | nil =>
    cases visited
    rfl
  | cons item items ih =>
    rw [mapM_cons] at visited
    obtain ⟨first, taken, rest, others, visited⟩ := bind₂_ok.mp visited
    cases visited
    rw [map_cons, map_cons, ih others]
    unfold valuedLevel at taken
    split at taken
    · cases taken
      rfl
    · cases taken

/-- The listed levels are the levels. -/
theorem sortedLevels_ok {levels : Levels} {descending : Bool}
    (sorted : sortedLevels provider levels descending = .ok list) :
    Levels.ofList list = levels := by
  unfold sortedLevels at sorted
  obtain ⟨values, valued, sorted⟩ := bind_ok.mp sorted
  cases sorted
  refine TreeMap.collect_of_perm ?_
  rw [← valuedLevels_entries valued]
  exact ((mergeSort_perm values _).map _).map _

section Consumer

variable {provider : Provider} {connection after : Connection} {token : String}
  {held : Option Held}

/-- What a receipt says about the book it was written for. -/
structure Receives
    (provider : Provider) (update : Json) (receipt : DepthReceipt) (token : String)
    (book : TokenBook) : Prop where
  tokenId : receipt.tokenId = token
  sequence : book.sequence = some receipt.providerSeq
  checksum : receipt.providerChecksum = book.checksum provider
  payload : ∃ kind, (update.get? "type").bind Json.asString? = some kind ∧
    payloadOf provider update kind book = .ok receipt.payload

variable {update : Json}

theorem receives_of_receiptOf (typed : (update.get? "type").bind Json.asString? = some kind)
    (received : receiptOf provider context epoch token condition update kind book = .ok receipt) :
    Receives provider update receipt token book := by
  unfold receiptOf at received
  obtain ⟨payload, written, providerSeq, sequence, received⟩ := bind₂_ok.mp received
  cases received
  exact ⟨rfl, elim_error_ok sequence, rfl, kind, typed, written⟩

/-- A receipt of an accepted frame leads a consumer to the book after it. -/
theorem consume_of_accepts (accepts : Accepts provider update book bookAfter)
    (receives : Receives provider update receipt token bookAfter)
    (standing : book.verified = held.isSome)
    (holds : ∀ item, held = some item → item.depth = book.depth ∧
      book.sequence = some item.sequence) :
    consume held receipt = .ok { depth := bookAfter.depth, sequence := receipt.providerSeq } := by
  obtain ⟨kind, typed, payload⟩ := receives.payload
  obtain ⟨changes, levels, depth⟩ := accepts.levels
  unfold consume
  unfold payloadOf at payload
  split at payload
  · rename_i anchor
    obtain ⟨bids, bidsSorted, asks, asksSorted, payload⟩ := bind₂_ok.mp payload
    rw [← ok.inj payload]
    dsimp only
    rw [sortedLevels_ok bidsSorted, sortedLevels_ok asksSorted]
    rfl
  · rename_i update
    rw [not_eq_true] at update
    obtain ⟨prevSeq, previously, changed, listed, payload⟩ := bind₂_ok.mp payload
    obtain ⟨verified, previous, before, named, _⟩ := accepts.continues update
    rw [standing] at verified
    obtain ⟨item, present⟩ := isSome_iff_exists.mp verified
    obtain ⟨sameDepth, sameSequence⟩ := holds item present
    rw [frameLevels_of_kind typed, listed] at levels
    cases levels
    have continues : item.sequence = prevSeq := by
      have first := some.inj (before.symm.trans sameSequence)
      have second := some.inj (named.symm.trans (elim_error_ok previously))
      exact first.symm.trans second
    rw [← ok.inj payload, present]
    dsimp only
    rw [if_pos continues, depth, update, sameDepth]
    rfl

namespace Mirrors

theorem fenced
    (unverified : ∀ entry, after.tokens[token]? = some entry → entry.2.verified = false) :
    Mirrors token none after :=
  fun entry there => ⟨unverified entry there, by rintro _ ⟨⟩⟩

section

variable (mirrors : Mirrors token held connection)
include mirrors

theorem fence (other : String) :
    Mirrors token (if other = token then none else held) (connection.fence other) := by
  intro entry there
  rw [Connection.fence_tokens] at there
  split at there
  · rename_i same
    rw [if_pos same.symm]
    obtain ⟨earlier, _, rfl⟩ := map_eq_some_iff.mp there
    exact ⟨rfl, by rintro _ ⟨⟩⟩
  · rename_i ne
    rw [if_neg (Ne.symm ne)]
    exact mirrors entry there

theorem setOther (ne : other ≠ token) : Mirrors token held (connection.setBook other book) := by
  intro entry there
  rw [Connection.setBook_tokens, if_neg (Ne.symm ne)] at there
  exact mirrors entry there

/-- One update of a frame: the consumer follows it. -/
theorem processUpdate
    (taken : processUpdate provider context update connection = (.ok processed, after)) :
    ∃ next, follow token held processed = .ok next ∧ Mirrors token next after ∧
      processed.after = after ∧
      ∀ receipt, processed.effect = .accepted receipt → receipt.tokenId = token →
        ∃ item entry, next = some item ∧ after.tokens[token]? = some entry ∧
          item.depth = entry.2.depth ∧ receipt.providerChecksum = entry.2.checksum provider := by
  obtain ⟨effect, middle, ingested, taken⟩ := Effect.bind_ok.mp taken
  rw [Effect.get_bind] at taken
  cases taken
  have step := updateStep_of_ingest provider context update connection
  rw [ingested] at step
  unfold follow
  cases step with
  | ignored => exact ⟨held, rfl, mirrors, rfl, by rintro _ ⟨⟩⟩
  | @depth other condition book _ _ named there step =>
    cases step with
    | repeated => exact ⟨held, rfl, mirrors, rfl, by rintro _ ⟨⟩⟩
    | mismatched => exact ⟨_, rfl, mirrors.fence _, rfl, by rintro _ ⟨⟩⟩
    | @rejected cause bookAfter rejects =>
      refine ⟨_, rfl, ?_, rfl, by rintro _ ⟨⟩⟩
      split
      · rename_i same
        subst same
        apply fenced
        intro entry present
        have found := (Connection.setBook_tokens connection other other bookAfter).symm.trans present
        rw [if_pos rfl, there] at found
        cases found
        exact (TokenBook.applyDepth_eq_error rejects).1
      · rename_i ne
        exact mirrors.setOther ne
    | @accepted kind bookAfter receipt typed applies received =>
      have receives := receives_of_receiptOf typed received
      have accepts := TokenBook.applyDepth_ok applies
      dsimp only
      by_cases same : receipt.tokenId = token
      · have here : other = token := receives.tokenId.symm.trans same
        subst here
        obtain ⟨standing, holds⟩ := mirrors _ there
        have consumed := consume_of_accepts accepts receives standing holds
        have present : (connection.setBook other bookAfter).tokens[other]? =
            some (condition, bookAfter) := by
          rw [Connection.setBook_tokens, if_pos rfl, there]
          rfl
        rw [if_pos same, consumed]
        refine ⟨_, rfl, ?_, rfl, ?_⟩
        · intro entry found
          cases present.symm.trans found
          refine ⟨accepts.verified, ?_⟩
          rintro _ ⟨⟩
          exact ⟨rfl, receives.sequence⟩
        · rintro _ ⟨⟩ _
          exact ⟨_, _, rfl, present, rfl, receives.checksum⟩
      · rw [if_neg same]
        have ne : other ≠ token := fun here => same (receives.tokenId.trans here)
        refine ⟨held, rfl, mirrors.setOther ne, rfl, ?_⟩
        rintro _ ⟨⟩ here
        exact absurd here same

/-- All updates of a frame. -/
theorem ingestUpdates
    (taken : ingestUpdates provider context updates connection = (.ok processed, after)) :
    ∃ next, processed.foldlM (follow token) held = .ok next ∧ Mirrors token next after ∧
      ∀ front last receipt, processed = front ++ [last] → last.effect = .accepted receipt →
        receipt.tokenId = token →
        ∃ item entry, next = some item ∧ after.tokens[token]? = some entry ∧
          item.depth = entry.2.depth ∧ receipt.providerChecksum = entry.2.checksum provider := by
  induction updates generalizing connection held processed with
  | nil =>
    cases taken
    exact ⟨held, rfl, mirrors, by rintro (_ | _) _ _ ⟨⟩⟩
  | cons update updates ih =>
    obtain ⟨first, rest, middle, now, later, rfl⟩ := Effect.collect_cons_ok_iff.mp taken
    obtain ⟨next, followed, mirrorsMiddle, _, received⟩ := mirrors.processUpdate now
    obtain ⟨final, others, mirrorsAfter, last⟩ := ih mirrorsMiddle later
    refine ⟨final, foldlM_cons_ok.mpr ⟨next, followed, others⟩, mirrorsAfter, ?_⟩
    rintro (_ | ⟨_, front⟩) ending receipt split accepted same
    · cases split
      cases others
      cases updates with
      | nil =>
        cases later
        exact received receipt accepted same
      | cons update updates =>
        obtain ⟨_, _, _, _, _, never⟩ := Effect.collect_cons_ok_iff.mp later
        cases never
    · cases split
      exact last front ending receipt rfl accepted same

/-- One raw frame that is taken. -/
theorem frameStep (sound : TokenSound provider token ledger connection)
    (step : FrameStep provider raw socketReceivedAt connection ingested after) :
    ∃ next, (if fencedByControl provider raw token then .ok none
        else ingested.updates.foldlM (follow token) held) = .ok next ∧
      Mirrors token next after := by
  have soundAfter := sound.frameStep step
  cases fenced : fencedByControl provider raw token with
  | true =>
    refine ⟨none, rfl, Mirrors.fenced fun entry there => ?_⟩
    rw [if_pos fenced] at soundAfter
    exact (soundAfter entry there).standing
  | false =>
    rw [if_neg Bool.false_ne_true]
    cases step with
    | acknowledged read acknowledgement _ _ =>
      rw [fencedByControl_of_read read, acknowledgement] at fenced
      cases fenced
    | @resynced value ingested after read other reported typed resyncs =>
      rw [fencedByControl_of_read read, other, Bool.false_or] at fenced
      unfold namesResync at fenced
      rw [reported, typed] at fenced
      unfold ingestResync at resyncs
      obtain ⟨names, middle, named, resyncs⟩ := Effect.bind_ok.mp resyncs
      cases resyncs
      refine ⟨held, rfl, ?_⟩
      unfold Polynode.resyncTokens at named
      cases listed : (value.get? "markets").bind Json.asArray? with
      | none =>
        rw [listed] at fenced
        cases fenced
      | some markets =>
        rw [listed] at fenced named
        intro entry there
        rw [resyncItems_tokens named, if_neg] at there
        · exact mirrors entry there
        · rw [not_eq_true]
          exact fenced
    | controlled read other unnamed bare _ =>
      rw [bare]
      exact ⟨held, rfl, mirrors⟩
    | data read other unnamed _ taken =>
      obtain ⟨⟨time, updates⟩, _, taken⟩ := Effect.lift_bind_ok.mp taken
      obtain ⟨processed, middle, listed, taken⟩ := Effect.bind_ok.mp taken
      cases taken
      obtain ⟨next, followed, mirrorsAfter, _⟩ := mirrors.ingestUpdates listed
      exact ⟨next, followed, mirrorsAfter⟩

end

end Mirrors

/-! ## Runs -/

theorem followStep_connection
    (state : Connection × Except String (Option Held)) (frame : String × String) :
    (followStep provider token state frame).1 = (state.1.ingest provider frame.1 frame.2).2 := by
  rw [ingest_eq]
  unfold followStep
  rcases state.1.ingestRecorded provider frame.1 frame.2 with ⟨_ | _, _⟩ <;> rfl

theorem followRun_connection (token : String) (frames : List (String × String)) :
    (followRun provider token connection frames).1 = connection.afterFrames provider frames := by
  induction frames using List.reverseRecOn with
  | nil => rfl
  | append_singleton frames frame ih =>
    unfold followRun Connection.afterFrames at ih ⊢
    rw [foldl_append, foldl_append, foldl_cons, foldl_cons,
      foldl_nil, foldl_nil, followStep_connection, ih]

theorem followStep_mirrors
    (mirrors : Mirrors token held state.1) (sound : TokenSound provider token ledger state.1)
    (followed : state.2 = .ok held) :
    ∃ next, (followStep provider token state frame).2 = .ok next ∧
      Mirrors token next (followStep provider token state frame).1 := by
  unfold followStep
  rcases taken : state.1.ingestRecorded provider frame.1 frame.2 with ⟨cause | ingested, after⟩
  · refine ⟨none, by rw [followed]; rfl, ?_⟩
    exact Mirrors.fenced fun entry there => (unverified_of_ingest_error taken there).1
  · obtain ⟨next, stepped, mirrorsAfter⟩ := mirrors.frameStep sound (frameStep_of_ingest taken)
    refine ⟨next, ?_, mirrorsAfter⟩
    rw [followed]
    exact stepped

/-- A consumer follows every run and holds the books of the connection. -/
theorem followRun_mirrors
    (all : AllAccumulated provider connection) (sound : TokenSound provider token none connection)
    (mirrors : Mirrors token none connection) (frames : List (String × String)) :
    ∃ held, (followRun provider token connection frames).2 = .ok held ∧
      Mirrors token held (connection.afterFrames provider frames) := by
  induction frames using List.reverseRecOn with
  | nil => exact ⟨none, rfl, mirrors⟩
  | append_singleton frames frame ih =>
    obtain ⟨held, followed, mirrorsBefore⟩ := ih
    have soundBefore := ingestRun_sound all sound frames
    rw [ingestRun_connection, ← followRun_connection token] at soundBefore
    rw [← followRun_connection token] at mirrorsBefore ⊢
    unfold followRun at followed soundBefore mirrorsBefore ⊢
    rw [foldl_append]
    exact followStep_mirrors mirrorsBefore soundBefore followed

end Consumer

end MarketCow.Polynode
