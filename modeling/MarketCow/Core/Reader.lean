import MarketCow.Core.CatalogStep
import MarketCow.Core.Replay

/-!
# Readers of the published records

A reader holds the levels of some tokens. It takes in the records in cursor order
and knows nothing else of the writer.
-/

namespace MarketCow.Core

open Library List

/-! ## Reading a record -/

/-- The levels of each side. -/
abbrev Depth := Side → BookSide

def Depth.set (depth : Depth) (change : SideLevels) : Depth :=
  fun side => if change.side = side then (depth side).setLevels change.levels else depth side

abbrev Reader := TreeMap String Depth

namespace Reader

def change (reader : Reader) (tokenId : String) (changes : List SideLevels) : Reader :=
  reader.adjust tokenId fun depth => changes.foldl Depth.set depth

/-- Take in a record: an applied full book replaces both sides, and applied
changes set their levels. -/
def read (reader : Reader) (record : PersistedEvent) : Reader :=
  if record.applied then
    match record.event.kind with
    | .fullBook tokenId bids asks _ _ =>
      reader.insert tokenId fun
        | .bid => .ofLevels bids
        | .ask => .ofLevels asks
    | .delta tokenId side levels => reader.change tokenId [⟨side, levels⟩]
    | .atomicDelta tokenId changes _ _ => reader.change tokenId changes
    | _ => reader
  else reader

/-- The reader has the levels of every published book. -/
def Follows (reader : Reader) (state : CanonicalState) : Prop :=
  ∀ (tokenId : String) book, state.books[tokenId]? = some book → reader[tokenId]? = some book.sideOf

end Reader

/-! ## What a record says of a book -/

theorem Book.sideOf_applyBatch (book : Book) (changes : List SideLevels) (observedAt : DateTime) :
    (book.applyBatch changes observedAt).sideOf = changes.foldl Depth.set book.sideOf := by
  induction changes generalizing book with
  | nil => rfl
  | cons change changes ih =>
    rw [foldl_cons, applyBatch_cons, ih]
    exact congrArg (changes.foldl Depth.set) (funext fun side => sideOf_apply _ _ side _ _)

variable {event : CanonicalEvent}

/-- The completed changes of a frame leave the levels that its quote does. -/
theorem Book.sideOf_atomicBook_completed
    (versioned : event.normalizerVersion = normalizerV2) (book : Book)
    (changes : List SideLevels) (bestBid bestAsk : Option Price) :
    (atomicBook book event (book.replayCompleteAtomicChanges changes bestBid bestAsk) bestBid
        bestAsk).sideOf =
      (book.replayCompleteAtomicChanges changes bestBid bestAsk).foldl Depth.set book.sideOf := by
  rw [← sideOf_applyBatch _ _ event.sourceObservedAt]
  unfold atomicBook
  split
  · rename_i quoted
    have pruned : ∀ side price, outsideOf side bestBid bestAsk price = true →
        none = ((book.applyBatch (book.replayCompleteAtomicChanges changes bestBid bestAsk)
          event.sourceObservedAt).sideOf side)[price]? := by
      intro side price outside
      rw [@getElem?_applyBatch side _ (book.sideOf side) ∅ (by simp [overlay]),
        ← writes_eq_writesFrom, overlay_completed quoted, if_pos outside]
    rw [versioned]
    funext side
    apply TreeMap.ext_getElem?
    intro price
    cases side with
    | bid => exact (getElem?_pruneBids _ _ _).trans (ite_eq_right_iff.mpr (pruned .bid price))
    | ask => exact (getElem?_pruneAsks _ _ _).trans (ite_eq_right_iff.mpr (pruned .ask price))
  · rfl

variable {enforce : Bool} {state next : CanonicalState}

/-- A fresh delta is stored with its changes completed. -/
theorem exists_completed (fresh : sourceRejected enforce state event = false)
    (current : incrementalSupersededByBook state event = false)
    (versioned : event.normalizerVersion = normalizerV2)
    (present : state.books[tokenId]? = some book)
    (kind : (rewriteEvent enforce state event).kind =
      .atomicDelta tokenId changes bestBid bestAsk) :
    ∃ received, changes = book.replayCompleteAtomicChanges received bestBid bestAsk := by
  obtain ⟨replaced, rewritten⟩ := exists_rewriteEvent_eq_withChanges enforce state event
  have named : event.kind.withChanges replaced = .atomicDelta tokenId changes bestBid bestAsk :=
    (congrArg CanonicalEvent.kind rewritten).symm.trans kind
  cases read : event.kind with
  | atomicDelta other received bid ask =>
    rw [read] at named
    cases named
    rw [rewriteEvent_of_fresh fresh current] at kind
    have completed := completeAtomicChanges_atomicDelta fresh current read present
    rw [if_pos versioned] at completed
    cases completed.symm.trans kind
    exact ⟨received, rfl⟩
  | _ =>
    rw [read] at named
    cases named

/-! ## Following a writer -/

namespace Reader.Follows

variable {reader : Reader}

section

variable (follows : reader.Follows state)
include follows

theorem withBook {depths : Reader} {book : Book}
    (stored : ∀ other : String,
      depths[other]? = if tokenId = other then some book.sideOf else reader[other]?) :
    depths.Follows (state.withBook tokenId book) := by
  intro other found there
  simp only [CanonicalState.withBook, TreeMap.getElem?_insert, compare_eq_iff_eq] at there
  rw [stored]
  split at there
  · rename_i here
    cases there
    exact if_pos here
  · rename_i ne
    rw [if_neg ne]
    exact follows other found there

theorem change {before book : Book}
    (present : state.books[tokenId]? = some before) (changes : List SideLevels)
    (same : book.sideOf = changes.foldl Depth.set before.sideOf) :
    (reader.change tokenId changes).Follows (state.withBook tokenId book) := by
  refine follows.withBook fun other => ?_
  rw [Reader.change, TreeMap.getElem?_adjust, follows tokenId before present, same]
  simp only [eq_comm (a := other)]
  rfl

/-- A change of other fields than the levels needs no record. -/
theorem quiet {before book : Book}
    (present : state.books[tokenId]? = some before) (same : book.sideOf = before.sideOf) :
    reader.Follows (state.withBook tokenId book) := by
  refine follows.withBook fun other => ?_
  split
  · rename_i here
    rw [← here, follows tokenId before present, same]
  · rfl

end

variable {persisted : PersistedEvent}

/-- What is stored of an overtaken event changes no level. -/
theorem overtaken
    (follows : reader.Follows state) (overtaken : incrementalSupersededByBook state event = true)
    (kind : persisted.event.kind = event.kind.withChanges []) :
    (reader.read persisted).Follows state := by
  unfold Reader.read
  rw [kind]
  split
  · cases read : event.kind with
    | atomicDelta tokenId changes bestBid bestAsk =>
      intro other book there
      refine (TreeMap.getElem?_adjust _ _ _ _).trans ?_
      rw [← follows other book there]
      split
      · rename_i here
        rw [here]
        exact Option.map_id'
      · rfl
    | bestBidAsk => exact follows
    | _ =>
      rw [incrementalSupersededByBook_eq_false state (by rw [read]; rfl) (by rw [read]; rfl)]
        at overtaken
      cases overtaken
  · exact follows

/-- A reader that follows a state follows the state after the next record. -/
theorem step {platform : Platform} (follows : reader.Follows state)
    (phases : Phases platform enforce state event next persisted)
    (versioned : event.normalizerVersion = normalizerV2) :
    (reader.read persisted).Follows next := by
  have following : reader.Follows (admittedState state event) := by
    obtain ⟨health, shape, _, _⟩ := admittedState_eq state event
    rw [shape]
    exact follows
  have applied := phases.applied_eq
  have stored := phases.stored
  have effect := phases.decided
  unfold Reader.Follows
  rw [phases.afterDecision.books]
  generalize phases.decision = decision at effect applied
  generalize admittedState state event = base at following effect stored
  cases effect with
  | superseded fresh overtaken =>
    refine following.overtaken overtaken ?_
    rw [stored, rewriteEvent_of_superseded fresh overtaken]
    rfl
  | sourceRejected =>
    unfold Reader.read
    rw [applied]
    exact following
  | decided fresh current kindEffect =>
    rw [← stored] at kindEffect
    unfold Reader.read
    rw [applied]
    cases kindEffect with
    | catalogRejected | resolutionRejected | tokenRejected => exact following
    | newMarket kind =>
      rw [kind]
      exact following
    | catalogInstalled kind =>
      rw [kind]
      intro tokenId book there
      rw [Decision.accept, CanonicalState.getElem?_books_installCatalog] at there
      split at there
      · exact following tokenId book there
      · cases there
    | resolved kind =>
      rw [kind]
      intro tokenId book there
      obtain ⟨_, _, shape⟩ := resolveMarket_eq platform persisted.event _ _ _ base _ _
      rw [Decision.accept, shape, getElem?_erase_outcomes] at there
      split at there
      · cases there
      · exact following tokenId book there
    | @fullBook tokenId _ _ _ _ kind =>
      rw [kind]
      refine following.withBook fun other => TreeMap.getElem?_insert.trans ?_
      rw [if_congr compare_eq_iff_eq rfl rfl]
      rfl
    | bookChanged _ _ present changed =>
      cases changed with
      | delta kind =>
        rw [kind]
        exact following.change present _ (funext fun other => Book.sideOf_apply _ _ other _ _)
      | atomicDelta kind =>
        rw [kind]
        rw [stored] at kind
        obtain ⟨received, rfl⟩ := exists_completed fresh current versioned present kind
        refine following.change present _ (Book.sideOf_atomicBook_completed ?_ _ _ _ _)
        obtain ⟨_, rewritten⟩ := exists_rewriteEvent_eq_withChanges enforce base event
        rw [stored, rewritten]
        exact versioned
      | bestBidAsk kind | lastTradePrice kind | tickSizeChange kind =>
        rw [kind]
        exact following.quiet present rfl

end Reader.Follows

/-- A reader that has the levels of every published book has them still after the
records of a run, if the events are of the second normalizer. -/
theorem reader_follows_writer (platform : Platform) (enforce : Bool) (labels : List EvaluatedEvent)
    (start state : CanonicalState) (reader : Reader) (follows : reader.Follows start)
    (run : EvaluationRun platform enforce start labels state)
    (versioned : ∀ label ∈ labels, label.event.normalizerVersion = normalizerV2) :
    ((labels.map EvaluatedEvent.persisted).foldl Reader.read reader).Follows state := by
  induction run with
  | nil => exact follows
  | @snoc front middle label last before taken ih =>
    obtain ⟨_, evaluated⟩ := taken
    obtain ⟨phases⟩ := phases_of_evaluateEvent evaluated
    rw [map_append, foldl_append]
    exact (ih fun other member => versioned other (by simp [member])).step phases
      (versioned label (by simp))

/-- The steps of the sample events. -/
def sampleRead : List EvaluatedEvent × CanonicalState :=
  (evaluateAll samplePlatform true (CanonicalState.bootstrap "scope") sampleReplayEvents).get
    (by decide +kernel)

theorem reader_follows_sample :
    ((sampleRead.1.map EvaluatedEvent.persisted).foldl Reader.read ∅).Follows sampleRead.2 := by
  refine reader_follows_writer samplePlatform true sampleRead.1 (.bootstrap "scope")
    sampleRead.2 ∅ (by simp [Reader.Follows, CanonicalState.bootstrap])
    (evaluateAll_run ?_ (some_get _).symm) (by decide +kernel)
  intro event member
  simp only [sampleReplayEvents, mem_cons, not_mem_nil, or_false] at member
  rcases member with rfl | rfl | rfl <;> exact sampleEvent_valid _ _ _

end MarketCow.Core
