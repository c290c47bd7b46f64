import MarketCow.Library.Fallible
import MarketCow.Realtime.Event

/-!
# The sequenced replay

Public sequence and bounded replay window of one stream. The window is a
function of everything published so far: its last `replayCapacity` events.
-/

namespace MarketCow.Realtime

open Library List
open TreeSet (ofElements)

/-- Errors of the replay. -/
inductive RealtimeError
  | invalidConfig
  | streamChanged
  | cursorAhead (currentSequence : Nat)
  | gapUnrecoverable (earliestSequence : Nat)
  | sequenceOverflow
  | duplicateCommit
  | sequenceMismatch (expected actual : Nat)
  | invalidReplaySnapshot
  deriving DecidableEq

structure StreamEvent where
  streamId : String
  sequence : Nat
  event : NormalizedProviderEvent
  deriving DecidableEq

/-- `u64` addition that reports an overflow. -/
def checkedAdd (left right : Nat) : Option Nat :=
  if left + right < 2 ^ 64 then some (left + right) else none

theorem checkedAdd_eq_some_iff {left right sum : Nat} :
    checkedAdd left right = some sum ↔ left + right < 2 ^ 64 ∧ sum = left + right := by
  unfold checkedAdd
  split
  · rename_i bounded
    rw [Option.some.injEq, eq_comm]
    exact ⟨fun equal => ⟨bounded, equal⟩, And.right⟩
  · rename_i unbounded
    constructor
    · intro never
      cases never
    · exact fun both => absurd both.1 unbounded

theorem checkedAdd_eq_none_iff : checkedAdd left right = none ↔ 2 ^ 64 ≤ left + right := by
  unfold checkedAdd
  split
  · rename_i bounded
    exact ⟨(fun never => nomatch never), fun large => absurd bounded (not_lt.mpr large)⟩
  · rename_i unbounded
    exact ⟨fun _ => not_lt.mp unbounded, fun _ => rfl⟩

structure SequencedReplay where
  streamId : String
  replayCapacity : Nat
  sequence : Nat
  recentEventIds : TreeSet String
  recentEventOrder : List String
  replay : List StreamEvent

namespace SequencedReplay

def new (streamId : String) (replayCapacity : Nat) : Except RealtimeError SequencedReplay :=
  if streamId.isEmpty || replayCapacity == 0 then .error .invalidConfig
  else .ok
    { streamId
      replayCapacity
      sequence := 0
      recentEventIds := ∅
      recentEventOrder := []
      replay := [] }

/-- Drop the oldest events, with their ids, while the window is too long. -/
def evict
    (replayCapacity : Nat) :
    List StreamEvent → List String → TreeSet String →
      List StreamEvent × List String × TreeSet String
  | [], order, ids => ([], order, ids)
  | oldest :: rest, order, ids =>
    if (oldest :: rest).length > replayCapacity then
      match order with
      | [] => evict replayCapacity rest [] ids
      | eventId :: order => evict replayCapacity rest order (ids.erase eventId)
    else (oldest :: rest, order, ids)

/-- Publish an event that is already persisted. -/
def commitPersisted (state : SequencedReplay) (event : NormalizedProviderEvent) (sequence : Nat) :
    Except RealtimeError (StreamEvent × SequencedReplay) :=
  if state.recentEventIds.contains event.eventId then .error .duplicateCommit
  else
    match checkedAdd state.sequence 1 with
    | none => .error .sequenceOverflow
    | some expected =>
      if sequence ≠ expected then .error (.sequenceMismatch expected sequence)
      else
        let stream : StreamEvent := { streamId := state.streamId, sequence, event }
        let window := evict state.replayCapacity (state.replay ++ [stream])
          (state.recentEventOrder ++ [event.eventId])
          (state.recentEventIds.insert event.eventId)
        .ok (stream,
          { state with
            sequence
            replay := window.1
            recentEventOrder := window.2.1
            recentEventIds := window.2.2 })

/-- Two neighbouring events of a restored window do not fit together. -/
def brokenPair (streamId : String) (first second : StreamEvent) : Bool :=
  checkedAdd first.sequence 1 != some second.sequence ||
    first.streamId != streamId ||
    second.streamId != streamId

/-- The window a checkpoint stores. -/
def restoreTail (streamId : String) (replayCapacity sequence : Nat) (events : List StreamEvent) :
    Except RealtimeError SequencedReplay :=
  let eventIds := events.map fun event => event.event.eventId
  let recentEventIds := ofElements eventIds
  if decide (events.length > replayCapacity) ||
      (match events.getLast? with
        | none => sequence != 0
        | some event => event.sequence != sequence) ||
      (events.zip events.tail).any (fun pair => brokenPair streamId pair.1 pair.2) ||
      (match events.head? with
        | none => false
        | some event => event.streamId != streamId || event.sequence == 0) then
    .error .invalidReplaySnapshot
  else if recentEventIds.size ≠ events.length then .error .invalidReplaySnapshot
  else .ok
    { streamId
      replayCapacity
      sequence
      recentEventOrder := eventIds
      recentEventIds
      replay := events }

/-! ## The window of a published history -/

/-- Ids of some published events, oldest first. -/
def eventIds (events : List StreamEvent) : List String :=
  events.map fun event => event.event.eventId

/-- The state that has published exactly these events. -/
def ofPublished (streamId : String) (replayCapacity : Nat) (published : List StreamEvent) :
    SequencedReplay where
  streamId
  replayCapacity
  sequence := published.length
  recentEventIds := ofElements (eventIds (published.rtake replayCapacity))
  recentEventOrder := eventIds (published.rtake replayCapacity)
  replay := published.rtake replayCapacity

/-- The events of one stream numbered 1, 2, 3, … with different ids. -/
structure Contiguous (streamId : String) (published : List StreamEvent) : Prop where
  numbered : published.map (fun event => (event.streamId, event.sequence)) =
    (List.range published.length).map fun position => (streamId, position + 1)
  distinct : (eventIds published).Nodup

variable {streamId : String} {capacity : Nat}

/-- A new replay has published nothing. -/
theorem new_eq_ofPublished (named : streamId.isEmpty = false) (positive : 0 < capacity) :
    new streamId capacity = .ok (ofPublished streamId capacity []) := by
  have nonzero : (capacity == 0) = false := by
    rw [beq_eq_false_iff_ne]
    exact Nat.ne_of_gt positive
  unfold new ofPublished
  rw [named, nonzero, rtake_nil]
  rfl

@[simp] theorem eventIds_append (first second : List StreamEvent) :
    eventIds (first ++ second) = eventIds first ++ eventIds second :=
  map_append

@[simp] theorem length_eventIds (events : List StreamEvent) :
    (eventIds events).length = events.length :=
  length_map _

variable {published : List StreamEvent}

/-- Ids of the window are ids of the history. -/
theorem mem_eventIds_rtake (mem : eventId ∈ eventIds (published.rtake capacity)) :
    eventId ∈ eventIds published :=
  ((drop_sublist _ published).map _).subset mem

theorem nodup_rtake (distinct : (eventIds published).Nodup) (capacity : Nat) :
    (eventIds (published.rtake capacity)).Nodup :=
  distinct.sublist ((drop_sublist _ published).map _)

/-- Eviction leaves the newest events that fit. -/
theorem evict_eq (capacity : Nat) (events : List StreamEvent) (distinct : (eventIds events).Nodup) :
    evict capacity events (eventIds events) (ofElements (eventIds events)) =
      (events.rtake capacity, eventIds (events.rtake capacity),
        ofElements (eventIds (events.rtake capacity))) := by
  induction events with
  | nil => simp [evict, eventIds]
  | cons oldest rest ih =>
    have fresh : oldest.event.eventId ∉ eventIds rest := (nodup_cons.mp distinct).1
    have restDistinct : (eventIds rest).Nodup := (nodup_cons.mp distinct).2
    by_cases long : (oldest :: rest).length > capacity
    · have evicted :
          evict capacity (oldest :: rest) (eventIds (oldest :: rest))
              (ofElements (eventIds (oldest :: rest))) =
            evict capacity rest (eventIds rest) (ofElements (eventIds rest)) := by
        change (if (oldest :: rest).length > capacity then
            evict capacity rest (eventIds rest)
              ((ofElements (oldest.event.eventId :: eventIds rest)).erase
                oldest.event.eventId)
          else _) = _
        rw [if_pos long, TreeSet.erase_ofElements_cons fresh]
      have shorter : (oldest :: rest).rtake capacity = rest.rtake capacity := by
        have positive : (oldest :: rest).length - capacity = (rest.length - capacity) + 1 := by
          rw [length_cons] at long ⊢
          omega
        rw [List.rtake, positive, drop_succ_cons, List.rtake]
      rw [evicted, shorter, ih restDistinct]
    · have whole : (oldest :: rest).rtake capacity = oldest :: rest := by
        rw [List.rtake, Nat.sub_eq_zero_of_le (not_lt.mp long), drop_zero]
      rw [whole]
      unfold evict
      rw [if_neg long]

/-- The newest events after one more are those of the window and the new one. -/
theorem rtake_snoc (positive : 0 < capacity) (published : List StreamEvent) (event : StreamEvent) :
    (published.rtake capacity ++ [event]).rtake capacity =
      (published ++ [event]).rtake capacity := by
  obtain ⟨smaller, rfl⟩ := Nat.exists_eq_add_one.mpr positive
  rw [rtake_concat_succ, rtake_concat_succ]
  congr 1
  unfold List.rtake
  rw [drop_drop, length_drop]
  congr 1
  omega

/-- Committing an event with a new id under the next sequence publishes it. -/
theorem commitPersisted_ofPublished {event : NormalizedProviderEvent}
    (positive : 0 < capacity) (bounded : published.length + 1 < 2 ^ 64)
    (distinct : (eventIds published).Nodup) (fresh : event.eventId ∉ eventIds published) :
    commitPersisted (ofPublished streamId capacity published) event (published.length + 1) =
      .ok (⟨streamId, published.length + 1, event⟩,
        ofPublished streamId capacity
          (published ++ [⟨streamId, published.length + 1, event⟩])) := by
  have windowFresh : event.eventId ∉ eventIds (published.rtake capacity) :=
    fun mem => fresh (mem_eventIds_rtake mem)
  have notRecent :
      (ofPublished streamId capacity published).recentEventIds.contains event.eventId = false := by
    rw [← not_eq_true, Std.ExtTreeSet.contains_iff_mem]
    exact fun mem => windowFresh (TreeSet.mem_ofElements.mp mem)
  have next : checkedAdd (ofPublished streamId capacity published).sequence 1 =
      some (published.length + 1) :=
    checkedAdd_eq_some_iff.mpr ⟨bounded, rfl⟩
  have distinctWindow :
      (eventIds (published.rtake capacity ++ [⟨streamId, published.length + 1, event⟩])).Nodup := by
    rw [eventIds_append, nodup_append]
    refine ⟨nodup_rtake distinct capacity, nodup_singleton _, ?_⟩
    intro first mem second single same
    have named : second = event.eventId := mem_singleton.mp single
    rw [same, named] at mem
    exact windowFresh mem
  unfold commitPersisted
  rw [notRecent, if_neg Bool.false_ne_true, next]
  dsimp only [ofPublished]
  rw [if_neg (not_not.mpr rfl)]
  have evicted := evict_eq capacity _ distinctWindow
  rw [rtake_snoc positive, eventIds_append] at evicted
  have inserted :
      ofElements (eventIds (published.rtake capacity) ++
          eventIds [⟨streamId, published.length + 1, event⟩]) =
        (ofElements (eventIds (published.rtake capacity))).insert event.eventId :=
    TreeSet.ofElements_snoc _ _
  rw [inserted] at evicted
  rw [show [event.eventId] = eventIds [⟨streamId, published.length + 1, event⟩] from rfl,
    evicted, length_append, length_singleton]

namespace Contiguous

variable {streamId : String} {published : List StreamEvent}

section

variable (contiguous : Contiguous streamId published)
include contiguous

theorem getElem
    (inside : position < published.length) :
    published[position].streamId = streamId ∧ published[position].sequence = position + 1 := by
  have same := congrArg (fun numbers => numbers[position]?) contiguous.numbered
  simp only [getElem?_map, getElem?_eq_getElem inside, map_some,
    getElem?_range inside, Option.some.injEq, Prod.mk.injEq] at same
  exact same

/-- Position of an event of the window in the history. -/
theorem getElem_rtake
    (inside : position < (published.rtake capacity).length) :
    (published.rtake capacity)[position].streamId = streamId ∧
      (published.rtake capacity)[position].sequence =
        published.length - capacity + position + 1 := by
  have bound : published.length - capacity + position < published.length := by
    rw [List.rtake, length_drop] at inside
    omega
  have moved : (published.rtake capacity)[position] =
      published[published.length - capacity + position] :=
    getElem_drop
  rw [moved]
  exact contiguous.getElem bound

/-- The sequences are 1, 2, 3 and so on. -/
theorem sequences :
    published.map StreamEvent.sequence = List.range' 1 published.length := by
  have numbers := congrArg (List.map Prod.snd) contiguous.numbered
  rw [map_map, map_map] at numbers
  rw [range'_eq_map_range]
  refine numbers.trans (map_congr_left fun position _ => ?_)
  exact Nat.add_comm position 1

theorem increasing :
    published.Pairwise fun first second => first.sequence < second.sequence := by
  have ordered : (published.map StreamEvent.sequence).Pairwise (· < ·) := by
    rw [contiguous.sequences]
    exact pairwise_lt_range'
  exact pairwise_map.mp ordered

end

end Contiguous

theorem length_rtake (published : List StreamEvent) (capacity : Nat) :
    (published.rtake capacity).length = min capacity published.length := by
  rw [List.rtake, length_drop]
  omega

/-- The window a checkpoint stores is restored as it was. -/
theorem restoreTail_rtake (positive : 0 < capacity) (bounded : published.length < 2 ^ 64)
    (contiguous : Contiguous streamId published) :
    restoreTail streamId capacity published.length (published.rtake capacity) =
      .ok (ofPublished streamId capacity published) := by
  have fits : decide ((published.rtake capacity).length > capacity) = false := by
    rw [decide_eq_false_iff_not, length_rtake]
    omega
  have lastMatches : (match (published.rtake capacity).getLast? with
      | none => published.length != 0
      | some event => event.sequence != published.length) = false := by
    cases last : (published.rtake capacity).getLast? with
    | none =>
      have empty := congrArg List.length (getLast?_eq_none_iff.mp last)
      rw [length_rtake, length_nil] at empty
      have none : published.length = 0 := by omega
      rw [none]
      rfl
    | some event =>
      rw [getLast?_eq_getElem?] at last
      obtain ⟨inside, rfl⟩ := List.getElem?_eq_some_iff.mp last
      have numbered := (contiguous.getElem_rtake inside).2
      rw [length_rtake] at inside
      simp only [numbered, bne_eq_false_iff_eq]
      rw [length_rtake]
      omega
  have pairsFit : ((published.rtake capacity).zip (published.rtake capacity).tail).any
      (fun pair => brokenPair streamId pair.1 pair.2) = false := by
    rw [any_eq_false]
    intro pair mem
    obtain ⟨position, inside, rfl⟩ := mem_iff_getElem.mp mem
    have tailLength : (published.rtake capacity).tail.length =
        (published.rtake capacity).length - 1 := length_tail
    have bound : position + 1 < (published.rtake capacity).length := by
      rw [length_zip] at inside
      omega
    have first := contiguous.getElem_rtake (Nat.lt_of_succ_lt bound)
    have second := contiguous.getElem_rtake bound
    rw [getElem_zip, getElem_tail]
    unfold brokenPair
    have noOverflow : checkedAdd (published.length - capacity + position + 1) 1 =
        some (published.length - capacity + (position + 1) + 1) := by
      rw [checkedAdd_eq_some_iff]
      rw [length_rtake] at bound
      omega
    rw [first.1, first.2, second.1, second.2, noOverflow]
    simp
  have headFits : (match (published.rtake capacity).head? with
      | none => false
      | some event => event.streamId != streamId || event.sequence == 0) = false := by
    cases first : (published.rtake capacity).head? with
    | none => rfl
    | some event =>
      rw [head?_eq_getElem?] at first
      obtain ⟨inside, rfl⟩ := List.getElem?_eq_some_iff.mp first
      have numbered := contiguous.getElem_rtake inside
      simp [numbered.1, numbered.2]
  have distinct := nodup_rtake contiguous.distinct capacity
  have sized : (ofElements (eventIds (published.rtake capacity))).size =
      (published.rtake capacity).length := by
    rw [TreeSet.size_ofElements distinct, length_eventIds]
  unfold restoreTail
  rw [fits, lastMatches, pairsFit, headFits]
  exact if_neg (not_not.mpr sized)

end SequencedReplay
end MarketCow.Realtime
