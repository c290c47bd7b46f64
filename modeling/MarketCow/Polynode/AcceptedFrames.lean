import MarketCow.Polynode.Connection

/-!
# What an accepted depth frame does

The contents of a book as the fold of the levels its frames name. An accepted
anchor starts from nothing, an accepted update goes on from the book before it;
either way the accumulator stays the sum over the contents.
-/

namespace MarketCow.Polynode

open Library
open Effect (bind_apply bind_ok ensure_bind_ok get_bind lift_apply lift_bind_ok keeping)
open MarketCow.Core (Side)
open Effect.Moves (bind forEach of_ensure of_fail of_get of_lift of_modify of_need)

/-! ## Contents -/

/-- The contents of a book. -/
@[ext] structure Depth where
  bids : Levels
  asks : Levels

/-- Set one level, or remove it at size zero. -/
def Levels.set (levels : Levels) (price size : String) : Levels :=
  if size = "0" then levels.erase price else levels.insert price size

namespace Depth

def empty : Depth := { bids := ∅, asks := ∅ }

def set (depth : Depth) (change : ChangedLevel) : Depth :=
  match change.side with
  | .bid => { depth with bids := depth.bids.set change.price change.size }
  | .ask => { depth with asks := depth.asks.set change.price change.size }

def setAll (depth : Depth) (changes : List ChangedLevel) : Depth :=
  changes.foldl set depth

@[simp] theorem setAll_nil (depth : Depth) : depth.setAll [] = depth := rfl

@[simp] theorem setAll_cons (depth : Depth) (change : ChangedLevel) (changes : List ChangedLevel) :
    depth.setAll (change :: changes) = (depth.set change).setAll changes := rfl

theorem setAll_append (depth : Depth) (first second : List ChangedLevel) :
    depth.setAll (first ++ second) = (depth.setAll first).setAll second :=
  List.foldl_append

end Depth

/-- The levels a depth frame names. -/
def frameLevels (frame : Json) : Except String (List ChangedLevel) :=
  match (frame.get? "type").bind Json.asString? with
  | some kind => changedLevels frame kind
  | none => .error "PN1 depth type"

/-- The contents that some frames lead to, one after the other. -/
def foldFrames (start : Depth) (frames : List Json) : Except String Depth :=
  frames.foldlM (fun depth frame => (frameLevels frame).map depth.setAll) start

def TokenBook.depth (book : TokenBook) : Depth :=
  { bids := book.bids, asks := book.asks }

/-! ## The accumulator -/

section Accumulator

variable (provider : Provider)

def sideDigest (side : Side) (levels : Levels) : Digest :=
  TreeMap.accumulate xorInto zeroDigest (levelHash provider side) levels

/-- The sum of the hashes of all levels. -/
def Depth.digest (depth : Depth) : Digest :=
  xorInto (sideDigest provider .bid depth.bids) (sideDigest provider .ask depth.asks)

/-- The checksum as a function of the contents. -/
def Depth.checksum (depth : Depth) : String :=
  Text.hexEncode (provider.sha256
    ("pn1:book\x00".toUTF8.toList ++ (toString depth.bids.size).toUTF8.toList ++ [0] ++
      (toString depth.asks.size).toUTF8.toList ++ [0] ++ (depth.digest provider).toList)).toList

/-- The accumulator is the sum over the contents. -/
def Accumulated (book : TokenBook) : Prop :=
  book.accumulator = book.depth.digest provider

end Accumulator

variable {provider : Provider} {book after : TokenBook} {side : Side}

theorem Accumulated.checksum (accumulated : Accumulated provider book) :
    book.checksum provider = book.depth.checksum provider := by
  unfold TokenBook.checksum Depth.checksum
  rw [accumulated]
  rfl

theorem accumulated_empty : Accumulated provider TokenBook.empty := by
  unfold Accumulated Depth.digest sideDigest TokenBook.depth TokenBook.empty
  rw [TreeMap.accumulate_empty, TreeMap.accumulate_empty]
  ext position bound
  simp [xorInto, zeroDigest]

theorem Accumulated.invalidate
    (accumulated : Accumulated provider book) : Accumulated provider book.invalidate :=
  accumulated

variable (levels : Levels)

theorem removeLevel_levels (accumulator : Digest) (price : String) :
    (removeLevel provider levels side accumulator price).1 = levels.erase price := by
  unfold removeLevel
  cases present : levels[price]? with
  | some previous => rfl
  | none => exact (TreeMap.erase_of_absent present).symm

/-- Removing a level keeps the accumulator the sum over its side and a rest. -/
theorem removeLevel_accumulator (rest : Digest) (price : String) :
    (removeLevel provider levels side (xorInto (sideDigest provider side levels) rest) price).2 =
      xorInto (sideDigest provider side (levels.erase price)) rest := by
  unfold removeLevel
  cases present : levels[price]? with
  | some previous =>
    have split : sideDigest provider side levels =
        xorInto (levelHash provider side price previous)
          (sideDigest provider side (levels.erase price)) :=
      TreeMap.accumulate_erase present
    dsimp only
    rw [split, xorInto_assoc (levelHash provider side price previous), xorInto_cancel]
  | none => rw [TreeMap.erase_of_absent present]

/-- Putting a level sets it, and keeps the accumulator the sum over its side
and a rest. -/
theorem put_ok
    {levels levelsAfter : Levels}
    (puts : put provider levels side accumulator rawPrice rawSize =
      .ok (levelsAfter, accumulatorAfter)) :
    ∃ price size, decimal rawPrice = .ok price ∧ decimal rawSize = .ok size ∧
      levelsAfter = levels.set price size ∧
      ∀ rest, accumulator = xorInto (sideDigest provider side levels) rest →
        accumulatorAfter = xorInto (sideDigest provider side levelsAfter) rest := by
  unfold put at puts
  obtain ⟨price, canonicalPrice, puts⟩ := bind_ok.mp puts
  obtain ⟨size, canonicalSize, puts⟩ := bind_ok.mp puts
  refine ⟨price, size, canonicalPrice, canonicalSize, ?_⟩
  dsimp only at puts
  rw [removeLevel_levels] at puts
  unfold Levels.set
  split at puts
  · rename_i zero
    rw [if_pos zero]
    cases puts
    refine ⟨rfl, ?_⟩
    rintro rest rfl
    exact removeLevel_accumulator levels rest price
  · rename_i nonzero
    rw [if_neg nonzero]
    cases puts
    refine ⟨TreeMap.insert_erase levels price size, ?_⟩
    rintro rest rfl
    have sum : sideDigest provider side (levels.insert price size) =
        xorInto (levelHash provider side price size)
          (sideDigest provider side (levels.erase price)) :=
      TreeMap.accumulate_insert
    rw [TreeMap.insert_erase, sum, removeLevel_accumulator, xorInto_comm, xorInto_assoc]

/-! ## Rows -/

/-- A stretch of a frame that set some levels and kept sequence, standing and
accumulator. -/
structure Sets
    (provider : Provider) (changes : List ChangedLevel) (book after : TokenBook) : Prop where
  depth : after.depth = book.depth.setAll changes
  sequence : after.sequence = book.sequence
  verified : after.verified = book.verified
  accumulated : Accumulated provider book → Accumulated provider after

namespace Sets

theorem nil : Sets provider [] book book := ⟨rfl, rfl, rfl, id⟩

theorem append
    (earlier : Sets provider first book middle) (later : Sets provider second middle after) :
    Sets provider (first ++ second) book after where
  depth := by rw [Depth.setAll_append, ← earlier.depth, later.depth]
  sequence := later.sequence.trans earlier.sequence
  verified := later.verified.trans earlier.verified
  accumulated := later.accumulated ∘ earlier.accumulated

end Sets

/-- A side of the book is put back with the accumulator over it. -/
theorem sets_withLevels {price size : String}
    (sum : ∀ rest, book.accumulator = xorInto (sideDigest provider side (book.levels side)) rest →
      accumulator = xorInto (sideDigest provider side ((book.levels side).set price size)) rest) :
    Sets provider [{ side, price, size }] book
      (book.withLevels side ((book.levels side).set price size) accumulator) := by
  cases side with
  | bid => exact ⟨rfl, rfl, rfl, sum _⟩
  | ask =>
    refine ⟨rfl, rfl, rfl, ?_⟩
    intro accumulated
    have whole := sum (sideDigest provider .bid book.bids)
    rw [xorInto_comm] at whole
    refine (whole accumulated).trans ?_
    exact xorInto_comm _ _

theorem putLevel_ok (puts : putLevel provider side rawPrice rawSize book = (.ok (), after)) :
    ∃ price size, decimal rawPrice = .ok price ∧ decimal rawSize = .ok size ∧
      Sets provider [{ side, price, size }] book after := by
  unfold putLevel at puts
  rw [get_bind] at puts
  obtain ⟨⟨levels, accumulator⟩, taken, puts⟩ := lift_bind_ok.mp puts
  obtain ⟨price, size, canonicalPrice, canonicalSize, rfl, sum⟩ := put_ok taken
  cases puts
  exact ⟨price, size, canonicalPrice, canonicalSize, sets_withLevels sum⟩

variable {anchor : Bool}

theorem applyRow_ok
    (applies : applyRow provider side anchor row book = (.ok (), after)) :
    ∃ change, changedLevel side row = .ok change ∧ Sets provider [change] book after := by
  unfold applyRow at applies
  obtain ⟨rawPrice, price, applies⟩ := lift_bind_ok.mp applies
  obtain ⟨rawSize, size, applies⟩ := lift_bind_ok.mp applies
  obtain ⟨_, _, applies⟩ := lift_bind_ok.mp applies
  rw [get_bind] at applies
  obtain ⟨_, puts⟩ := ensure_bind_ok.mp applies
  obtain ⟨canonicalPrice, canonicalSize, priceText, sizeText, sets⟩ := putLevel_ok puts
  refine ⟨_, ?_, sets⟩
  unfold changedLevel
  rw [price, size]
  exact bind_ok.mpr ⟨_, rfl, bind_ok.mpr ⟨_, priceText,
    bind_ok.mpr ⟨_, rfl, bind_ok.mpr ⟨_, sizeText, rfl⟩⟩⟩⟩

theorem applyRows_ok
    (applies : applyRows provider side anchor items book = (.ok (), after)) :
    ∃ changes, items.mapM (changedLevel side) = .ok changes ∧ Sets provider changes book after := by
  unfold applyRows at applies
  induction items generalizing book with
  | nil =>
    cases applies
    exact ⟨[], rfl, Sets.nil⟩
  | cons row items ih =>
    obtain ⟨_, middle, first, rest⟩ := bind_ok.mp applies
    obtain ⟨change, named, sets⟩ := applyRow_ok first
    obtain ⟨changes, others, later⟩ := ih rest
    refine ⟨change :: changes, ?_, sets.append later⟩
    rw [List.mapM_cons, named]
    exact bind_ok.mpr ⟨change, rfl, bind_ok.mpr ⟨changes, others, rfl⟩⟩

variable {frame : Json} {kind : String}

theorem applySides_ok
    (other : kind ≠ "price_change")
    (applies : applySides provider anchor frame book = (.ok (), after)) :
    ∃ changes, changedLevels frame kind = .ok changes ∧ Sets provider changes book after := by
  unfold applySides at applies
  obtain ⟨bids, bidRows, applies⟩ := lift_bind_ok.mp applies
  obtain ⟨_, middle, bidsApplied, applies⟩ := bind_ok.mp applies
  obtain ⟨asks, askRows, asksApplied⟩ := lift_bind_ok.mp applies
  obtain ⟨bidChanges, bidsNamed, bidSets⟩ := applyRows_ok bidsApplied
  obtain ⟨askChanges, asksNamed, askSets⟩ := applyRows_ok asksApplied
  refine ⟨bidChanges ++ askChanges, ?_, bidSets.append askSets⟩
  unfold changedLevels
  rw [if_neg other, bidRows, askRows]
  exact bind_ok.mpr ⟨bids, rfl, bind_ok.mpr ⟨_, bidsNamed,
    bind_ok.mpr ⟨asks, rfl, bind_ok.mpr ⟨_, asksNamed, rfl⟩⟩⟩⟩

/-- The row of a price change, whatever its absence is called. -/
theorem priceChangeRow_ok (read : priceChangeRow frame cause = .ok row) (other : String) :
    priceChangeRow frame other = .ok row := by
  unfold priceChangeRow at read ⊢
  obtain ⟨assets, present, read⟩ := bind_ok.mp read
  refine bind_ok.mpr ⟨assets, present, ?_⟩
  split at read
  · exact read
  · cases read

theorem applyPriceChange_ok (applies : applyPriceChange provider frame book = (.ok (), after)) :
    ∃ changes, changedLevels frame "price_change" = .ok changes ∧
      Sets provider changes book after := by
  unfold applyPriceChange at applies
  obtain ⟨row, only, applies⟩ := lift_bind_ok.mp applies
  obtain ⟨rawPrice, price, applies⟩ := lift_bind_ok.mp applies
  obtain ⟨rawSize, size, applies⟩ := lift_bind_ok.mp applies
  obtain ⟨side, named, puts⟩ := lift_bind_ok.mp applies
  obtain ⟨canonicalPrice, canonicalSize, priceText, sizeText, sets⟩ := putLevel_ok puts
  refine ⟨_, ?_, sets⟩
  unfold changedLevels
  rw [if_pos rfl, priceChangeRow_ok only]
  refine bind_ok.mpr ⟨row, rfl, bind_ok.mpr ⟨side, named, ?_⟩⟩
  refine bind_ok.mpr ⟨{ side, price := canonicalPrice, size := canonicalSize }, ?_, rfl⟩
  unfold changedLevel
  rw [price, size]
  exact bind_ok.mpr ⟨_, rfl, bind_ok.mpr ⟨_, priceText,
    bind_ok.mpr ⟨_, rfl, bind_ok.mpr ⟨_, sizeText, rfl⟩⟩⟩⟩

/-! ## Frames -/

/-- What an accepted frame says about the book after it. -/
structure Accepts
    (provider : Provider) (frame : Json) (book after : TokenBook) : Prop where
  levels : ∃ changes, frameLevels frame = .ok changes ∧
    after.depth = (if isAnchor frame then Depth.empty else book.depth).setAll changes
  continues : isAnchor frame = false →
    book.verified = true ∧ ∃ previous, book.sequence = some previous ∧
      (integrityField frame "prev_seq").bind Json.asU64? = some previous ∧
        frameSequence frame = some (previous + 1)
  sequence : ∃ sequence, frameSequence frame = some sequence ∧ after.sequence = some sequence
  checksum : frameChecksum frame = some (after.checksum provider)
  verified : after.verified = true

theorem elim_error_ok {ε α : Type} {value : Option α} {cause : ε} {result : α}
    (read : value.elim (.error cause) .ok = (.ok result : Except ε α)) :
    value = some result := by
  cases value with
  | none => cases read
  | some found => exact congrArg some (ok.inj read)

variable {envelope : Envelope}

theorem readEnvelope_ok (read : readEnvelope frame = .ok envelope) :
    frameSequence frame = some envelope.sequence ∧ frameChecksum frame = some envelope.expected ∧
      (frame.get? "type").bind Json.asString? = some envelope.kind ∧
      frame.get? "integrity" = some envelope.integrity := by
  unfold readEnvelope at read
  obtain ⟨integrity, present, read⟩ := bind_ok.mp read
  split at read
  · cases read
  obtain ⟨sequence, sequenced, read⟩ := bind_ok.mp read
  obtain ⟨expected, checksum, read⟩ := bind_ok.mp read
  split at read
  · cases read
  obtain ⟨kind, typed, read⟩ := bind_ok.mp read
  cases read
  have integrityPresent := elim_error_ok present
  unfold frameSequence frameChecksum integrityField
  rw [integrityPresent]
  exact ⟨elim_error_ok sequenced, elim_error_ok checksum, elim_error_ok typed, rfl⟩

theorem frameLevels_of_kind (typed : (frame.get? "type").bind Json.asString? = some kind) :
    frameLevels frame = changedLevels frame kind := by
  unfold frameLevels
  rw [typed]

theorem anchorBook_ok (typed : (frame.get? "type").bind Json.asString? = some envelope.kind)
    (built : anchorBook provider frame envelope = .ok next) :
    (∃ changes, frameLevels frame = .ok changes ∧ next.depth = Depth.empty.setAll changes) ∧
      next.sequence = some envelope.sequence ∧ next.verified = true ∧
      next.checksum provider = envelope.expected ∧ Accumulated provider next := by
  unfold anchorBook at built
  split at built
  · cases built
  rename_i snapshot
  rw [not_not] at snapshot
  split at built
  · cases built
  rename_i bare applied
  split at built
  · cases built
  split at built
  · cases built
  rename_i matching
  rw [not_not] at matching
  cases built
  have other : envelope.kind ≠ "price_change" := by
    rw [snapshot]
    decide
  obtain ⟨changes, named, sets⟩ := applySides_ok other applied
  refine ⟨⟨changes, (frameLevels_of_kind typed).trans named, sets.depth⟩, rfl, rfl, matching, ?_⟩
  exact sets.accumulated accumulated_empty

theorem applyChange_ok (typed : (frame.get? "type").bind Json.asString? = some kind)
    (applies : applyChange provider frame kind book = (.ok (), after)) :
    ∃ changes, frameLevels frame = .ok changes ∧ Sets provider changes book after := by
  rw [frameLevels_of_kind typed]
  unfold applyChange at applies
  split at applies
  · rename_i update
    exact applySides_ok (by rw [update]; decide) applies
  split at applies
  · rename_i _ change
    rw [change]
    exact applyPriceChange_ok applies
  · cases applies

/-- An accepted frame does what it says. -/
theorem accepts_of_applyDepthInner
    (applies : applyDepthInner provider frame book = (.ok (), after)) :
    Accepts provider frame book after := by
  unfold applyDepthInner at applies
  obtain ⟨envelope, read, applies⟩ := lift_bind_ok.mp applies
  obtain ⟨sequenced, expected, typed, integrity⟩ := readEnvelope_ok read
  split at applies
  · rename_i anchor
    obtain ⟨next, built, applies⟩ := lift_bind_ok.mp applies
    cases applies
    obtain ⟨levels, sequence, verified, checksum, _⟩ := anchorBook_ok typed built
    refine ⟨?_, ?_, ⟨_, sequenced, sequence⟩, expected.trans (congrArg some checksum.symm),
      verified⟩
    · rw [if_pos anchor]
      exact levels
    · intro update
      rw [update] at anchor
      cases anchor
  · rename_i update
    rw [get_bind] at applies
    obtain ⟨verified, applies⟩ := ensure_bind_ok.mp applies
    obtain ⟨previous, named, applies⟩ := Effect.need_bind_ok.mp applies
    obtain ⟨gapless, applies⟩ := ensure_bind_ok.mp applies
    obtain ⟨_, middle, changed, applies⟩ := bind_ok.mp applies
    rw [get_bind] at applies
    obtain ⟨_, applies⟩ := ensure_bind_ok.mp applies
    obtain ⟨matching, applies⟩ := ensure_bind_ok.mp applies
    cases applies
    rw [and_eq_true, beq_iff_eq, beq_iff_eq] at gapless
    rw [beq_iff_eq] at matching
    obtain ⟨changes, levels, sets⟩ := applyChange_ok typed changed
    refine ⟨⟨changes, levels, ?_⟩, ?_, ⟨_, sequenced, rfl⟩, ?_, sets.verified.trans verified⟩
    · rw [if_neg update]
      exact sets.depth
    · intro _
      refine ⟨verified, previous, gapless.1, ?_, sequenced.trans (congrArg some gapless.2.symm)⟩
      unfold integrityField
      rw [integrity]
      exact named
    · exact expected.trans (congrArg some matching.symm)

/-! ## The accumulator of half-applied frames -/

theorem putLevel_keeps (price size : String) :
    (putLevel provider side price size).Moves (keeping (Accumulated provider)) := by
  intro book accumulated
  cases puts : putLevel provider side price size book with
  | mk result after =>
    cases result with
    | ok _ =>
      obtain ⟨_, _, _, _, sets⟩ := putLevel_ok puts
      exact sets.accumulated accumulated
    | error cause =>
      -- Both decimals are read before the first write.
      unfold putLevel at puts
      rw [get_bind, bind_apply, lift_apply] at puts
      cases taken : put provider (book.levels side) side book.accumulator price size with
      | error _ =>
        rw [taken] at puts
        cases puts
        exact accumulated
      | ok pair =>
        rw [taken] at puts
        cases puts

theorem applyRows_keeps (anchor : Bool) (items : List Json) :
    (applyRows provider side anchor items).Moves (keeping (Accumulated provider)) := by
  refine forEach (fun row => ?_) items
  refine bind (of_lift _) fun price => ?_
  refine bind (of_lift _) fun size => ?_
  refine bind (of_lift _) fun canonicalPrice => ?_
  refine bind of_get fun book => ?_
  exact bind (of_ensure _ _) fun _ => putLevel_keeps price size

theorem applyChange_keeps (frame : Json) (kind : String) :
    (applyChange provider frame kind).Moves (keeping (Accumulated provider)) := by
  unfold applyChange
  split
  · refine bind (of_lift _) fun bids => ?_
    refine bind (applyRows_keeps false bids) fun _ => ?_
    exact bind (of_lift _) fun asks => applyRows_keeps false asks
  split
  · refine bind (of_lift _) fun row => ?_
    refine bind (of_lift _) fun price => ?_
    refine bind (of_lift _) fun size => ?_
    exact bind (of_lift _) fun side => putLevel_keeps price size
  · exact of_fail _

theorem applyDepthInner_keeps (frame : Json) :
    (applyDepthInner provider frame).Moves (keeping (Accumulated provider)) := by
  intro book accumulated
  unfold applyDepthInner
  cases read : readEnvelope frame with
  | error cause => exact accumulated
  | ok envelope =>
    obtain ⟨_, _, typed, _⟩ := readEnvelope_ok read
    rw [bind_apply, lift_apply]
    dsimp only
    split
    · cases built : anchorBook provider frame envelope with
      | error cause => exact accumulated
      | ok next =>
        obtain ⟨_, _, _, _, sum⟩ := anchorBook_ok typed built
        exact sum
    · revert book
      change Effect.Moves (keeping (Accumulated provider)) _
      refine bind of_get fun _ => ?_
      refine bind (of_ensure _ _) fun _ => ?_
      refine bind (of_need _ _) fun _ => ?_
      refine bind (of_ensure _ _) fun _ => ?_
      refine bind (applyChange_keeps frame envelope.kind) fun _ => ?_
      refine bind of_get fun _ => ?_
      refine bind (of_ensure _ _) fun _ => ?_
      refine bind (of_ensure _ _) fun _ => ?_
      exact of_modify fun _ => id

namespace TokenBook

theorem applyDepth_keeps (frame : Json) :
    (applyDepth provider frame).Moves (keeping (Accumulated provider)) := by
  intro book accumulated
  have kept := applyDepthInner_keeps frame book accumulated
  unfold applyDepth
  split
  · rename_i applies
    rw [applies] at kept
    exact kept
  · rename_i applies
    rw [applies] at kept
    exact kept.invalidate

theorem applyDepth_ok (applies : book.applyDepth provider frame = (.ok (), after)) :
    Accepts provider frame book after := by
  unfold applyDepth at applies
  split at applies
  · rename_i accepted
    cases applies
    exact accepts_of_applyDepthInner accepted
  · cases applies

/-- A rejected frame fences the token. -/
theorem applyDepth_eq_error (rejects : applyDepth provider frame book = (.error cause, after)) :
    after.verified = false ∧ after.sequence = none := by
  unfold applyDepth at rejects
  split at rejects
  · cases rejects
  · cases rejects
    exact ⟨rfl, rfl⟩

end TokenBook

end MarketCow.Polynode
