import MarketCow.Discovery.Validation

/-!
# Validated batches

A batch that was validated once and is shared with the writer afterwards: its
events, their lines, and the market groups that its events are bound to.
-/

namespace MarketCow.Discovery

open Library

/-- The binding of a run of events to a group of a market. The archive positions
are those of the writer, the event cursors those of the market. -/
structure MarketGroupProof where
  marketId : String
  streamEpoch : String
  marketCursor : Nat
  firstGlobalCursor : Nat
  lastGlobalCursor : Nat
  groupSha256 : String
  firstEventCursor : Nat
  nativeCursor : Bool
  deriving DecidableEq

structure SourceBatch where
  events : List Json
  lines : List Bytes
  terminal : Bool
  after : Nat
  marketGroups : List MarketGroupProof

namespace SourceBatch

def encodedBytes (batch : SourceBatch) : Nat :=
  (batch.lines.map List.length).sum

def Sound (externals : Externals) (batch : SourceBatch) : Prop :=
  BatchSound externals batch.terminal batch.after batch.events batch.lines

end SourceBatch

def ValidatedSourceBatch (externals : Externals) : Type :=
  { batch : SourceBatch // batch.Sound externals }

section Groups

variable (externals : Externals)

/-- A commitment to the identities of the events. -/
def marketGroupHash
    (marketId streamEpoch : String) (marketCursor : Nat)
    (events : List Json) : Except String String := do
  ensure (!marketId.isEmpty && !streamEpoch.isEmpty && decide (0 < marketCursor))
    "market group identity"
  let eventIds ← events.mapM fun event => required event "event_id"
  ensure (!eventIds.isEmpty) "empty market group"
  .ok (externals.canonicalHash (.object
    [("event_ids", .array (eventIds.map .string)), ("market_cursor", .integer marketCursor),
     ("market_id", .string marketId),
     ("schema_version", .string "marketcow.polymarket.market-group.v2"),
     ("stream_epoch", .string streamEpoch)]))

end Groups

/-- A successful traversal has one result for each item, in order. -/
theorem getElem?_of_mapM_ok
    {Item Result : Type} {visit : Item → Except String Result} {entries : List Item}
    {results : List Result} (visited : entries.mapM visit = .ok results) :
    results.length = entries.length ∧
      ∀ (place : Nat) (entry : Item) (result : Result), entries[place]? = some entry →
        results[place]? = some result → visit entry = .ok result := by
  induction entries generalizing results with
  | nil =>
    cases visited
    exact ⟨rfl, fun _ _ _ never => nomatch never⟩
  | cons entry entries ih =>
    rw [List.mapM_cons] at visited
    obtain ⟨first, taken, rest, others, visited⟩ := bind₂_ok.mp visited
    cases visited
    obtain ⟨sameLength, each⟩ := ih others
    refine ⟨by rw [List.length_cons, List.length_cons, sameLength], ?_⟩
    intro place other result there found
    cases place with
    | zero =>
      cases there
      cases found
      exact taken
    | succ place => exact each place other result there found

end MarketCow.Discovery
