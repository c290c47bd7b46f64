import MarketCow.Discovery.Commits

/-!
# The bounded history

Eviction deletes a first part of the stored events, no more than it has to. What
remains ends with the last event and has no gap.
-/

namespace MarketCow.Discovery

open Library List

/-! ## Eviction -/

/-- The sizes of some rows. -/
def payloadBytes (rows : List (Nat × StoredRow)) : Nat :=
  (rows.map fun entry => entry.2.payload.length).sum

theorem recentBytes_eq (events : TreeMap Nat StoredRow) :
    recentBytes events = payloadBytes events.toList := by
  unfold recentBytes payloadBytes TreeMap.sum TreeMap.valueList
  rw [map_map]
  rfl

theorem payloadBytes_append (first second : List (Nat × StoredRow)) :
    payloadBytes (first ++ second) = payloadBytes first + payloadBytes second := by
  unfold payloadBytes
  rw [map_append, sum_append]

theorem payloadBytes_cons (entry : Nat × StoredRow) (rows : List (Nat × StoredRow)) :
    payloadBytes (entry :: rows) = entry.2.payload.length + payloadBytes rows := rfl

/-- Eviction splits the rows in those that go and those that stay. -/
structure Evicted
    (limit : Nat) (rows : List (Nat × StoredRow)) (bytes remaining : Nat) (pruned : Option Nat)
    (gone kept : List (Nat × StoredRow)) : Prop where
  split : rows = gone ++ kept
  rest : remaining = bytes - payloadBytes gone
  end_gone : pruned = gone.getLast?.map Prod.fst
  within : remaining ≤ limit
  least : ∀ before last, gone = before ++ [last] → limit < bytes - payloadBytes before

theorem exists_evicted (evicted : evict limit rows bytes = .ok result) :
    ∃ gone kept, Evicted limit rows bytes result.1 result.2 gone kept := by
  induction rows generalizing bytes result with
  | nil =>
    unfold evict at evicted
    by_cases fits : bytes ≤ limit
    · rw [if_pos fits] at evicted
      cases evicted
      exact ⟨[], [], rfl, rfl, rfl, fits, fun before last never => by simp at never⟩
    · rw [if_neg fits] at evicted
      cases evicted
  | cons row rows ih =>
    unfold evict at evicted
    by_cases fits : bytes ≤ limit
    · rw [if_pos fits] at evicted
      cases evicted
      exact ⟨[], row :: rows, rfl, rfl, rfl, fits, fun before last never => by simp at never⟩
    · rw [if_neg fits] at evicted
      obtain ⟨oldest, stored⟩ := row
      obtain ⟨result, evictedLater, done⟩ := bind_ok.mp evicted
      obtain ⟨remaining, pruned⟩ := result
      cases done
      obtain ⟨gone, kept, later⟩ := ih evictedLater
      have bytesLater := later.rest
      have least := later.least
      have prunedLater := later.end_gone
      dsimp only at bytesLater least prunedLater
      refine ⟨(oldest, stored) :: gone, kept, ?_, ?_, ?_, later.within, ?_⟩
      · rw [later.split, cons_append]
      · rw [payloadBytes_cons, bytesLater]
        dsimp only
        omega
      · rw [prunedLater, getLast?_cons]
        cases gone.getLast? with
        | none | some last => rfl
      · intro before last same
        cases before with
        | nil =>
          unfold payloadBytes
          simp only [map_nil, sum_nil]
          omega
        | cons first before =>
          rw [cons_append, List.cons.injEq] at same
          obtain ⟨rfl, sameRest⟩ := same
          have bound := least before last sameRest
          rw [payloadBytes_cons]
          dsimp only
          omega

/-! ## The stored events -/

/-- The stored events are those after a floor, up to the last. -/
structure Recent (floor last bytes : Nat) (events : TreeMap Nat StoredRow) : Prop where
  start : floor ≤ last
  rows : ∀ cursor : Nat, (∃ row, events[cursor]? = some row) ↔ floor < cursor ∧ cursor ≤ last
  hash : ∀ (cursor : Nat) row, events[cursor]? = some row → sha256 row.payload = row.sha256
  total : recentBytes events = bytes

theorem pairwise_lt_toList (events : TreeMap Nat StoredRow) :
    events.toList.Pairwise fun first second => first.1 < second.1 := by
  refine Std.ExtTreeMap.ordered_keys_toList.imp ?_
  intro first second ordered
  exact Nat.compare_eq_lt.mp ordered

theorem getElem?_filterAbove (events : TreeMap Nat StoredRow) (floor cursor : Nat) :
    (events.filter fun key _ => decide (floor < key))[cursor]? =
      if floor < cursor then events[cursor]? else none := by
  rw [getElem?_filterKeys]
  simp only [decide_eq_true_eq]

variable {events : TreeMap Nat StoredRow}

/-- The rows after the last that goes are those that stay. -/
theorem toList_filterAbove (split : events.toList = before ++ [last] ++ kept) :
    (events.filter fun key _ => decide (last.1 < key)).toList = kept := by
  have ordered := pairwise_lt_toList events
  rw [Std.ExtTreeMap.toList_filter, split]
  rw [split, pairwise_append] at ordered
  obtain ⟨goneOrdered, _, across⟩ := ordered
  rw [pairwise_append] at goneOrdered
  rw [filter_append, filter_eq_nil_iff.mpr, filter_eq_self.mpr, nil_append]
  · intro entry mem
    exact decide_eq_true (across last (mem_append_right _ (mem_singleton.mpr rfl)) entry mem)
  · intro entry mem
    rw [decide_eq_true_eq]
    rcases mem_append.mp mem with early | same
    · have earlier := goneOrdered.2.2 entry early last (mem_singleton.mpr rfl)
      omega
    · rw [mem_singleton.mp same]
      omega

/-- What is left after an eviction. -/
theorem Recent.filterAbove (recent : Recent floor last bytes events)
    (evicted : Evicted limit events.toList bytes remaining (some pruned) gone kept) :
    Recent pruned last remaining (events.filter fun key _ => decide (pruned < key)) ∧
      floor < pruned := by
  obtain ⟨entry, isLast, same⟩ := map_eq_some_iff.mp evicted.end_gone.symm
  obtain ⟨before, shape⟩ := getLast?_eq_some_iff.mp isLast
  have split : events.toList = before ++ [entry] ++ kept := by rw [evicted.split, shape]
  have there : events[entry.1]? = some entry.2 := by
    apply mem_toList_iff_getElem?_eq_some.mp
    rw [split]
    simp
  have inside := (recent.rows entry.1).mp ⟨entry.2, there⟩
  subst same
  refine ⟨⟨inside.2, ?_, ?_, ?_⟩, inside.1⟩
  · intro cursor
    rw [getElem?_filterAbove]
    split
    · rename_i above
      rw [recent.rows cursor]
      omega
    · rename_i below
      constructor
      · rintro ⟨_, never⟩
        cases never
      · rintro ⟨above, _⟩
        exact absurd above below
  · intro cursor row present
    rw [getElem?_filterAbove] at present
    split at present
    · exact recent.hash cursor row present
    · cases present
  · have total := recent.total
    rw [recentBytes_eq, evicted.split, payloadBytes_append] at total
    rw [recentBytes_eq, toList_filterAbove split, evicted.rest]
    omega

/-! ## The budget of the history -/

/-- What keeping the budget changes. -/
def HistoryFrame (next : HistoryMetadata) (before after : Index) : Prop :=
  after =
    { before with
      recentEvents := after.recentEvents
      marketStreams := after.marketStreams
      marketGroups := after.marketGroups
      marketNativeGroups := after.marketNativeGroups
      metadata := { before.metadata with history := some next } }

theorem boundHistory_spec {limit added last : Nat} {before after : Index}
    (bounded : boundHistory history limit added before = .ok after)
    (recent : Recent history.historyFloorCursor last (history.recentEventBytes + added)
      before.recentEvents) :
    ∃ next, HistoryFrame next before after ∧
      next.boundedHistoryBytes = history.boundedHistoryBytes ∧
      Recent next.historyFloorCursor last next.recentEventBytes after.recentEvents ∧
      history.historyFloorCursor ≤ next.historyFloorCursor := by
  unfold boundHistory at bounded
  obtain ⟨⟨remaining, pruned⟩, evicted, done⟩ := bind_ok.mp bounded
  obtain ⟨gone, kept, facts⟩ := exists_evicted evicted
  dsimp only at facts done
  cases pruned with
  | none =>
    cases done
    have nothing : gone = [] := by
      have noLast := map_eq_none_iff.mp facts.end_gone.symm
      exact getLast?_eq_none_iff.mp noLast
    have same := facts.rest
    rw [nothing] at same
    refine ⟨{ history with recentEventBytes := remaining }, rfl, rfl,
      ⟨recent.start, recent.rows, recent.hash, ?_⟩, le_rfl⟩
    rw [recent.total, same]
    rfl
  | some prunedThrough =>
    cases done
    obtain ⟨rest, above⟩ := recent.filterAbove facts
    exact ⟨_, rfl, rfl, rest, above.le⟩

end MarketCow.Discovery
