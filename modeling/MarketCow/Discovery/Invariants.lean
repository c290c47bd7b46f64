import MarketCow.Discovery.Endings

/-!
# Every operation keeps the invariants

The callers of a commit meet its assumptions, and appending, binding, moving the
history and retiring leave a sound writer, which is clean unless it is poisoned.
-/

namespace MarketCow.Discovery

open Library List

/-- A writer between operations. -/
structure Writer.Held (externals : Externals) (writer : Writer) : Prop where
  sound : WriterSound externals writer
  clean : writer.poisoned = false → writer.Clean

/-- An outcome that leaves such a writer. -/
def Outcome.Held (externals : Externals) (outcome : Outcome) : Prop :=
  outcome.2.Held externals

section Attempt

variable {externals : Externals} {writer : Writer}

/-- An attempt that fails leaves the writer as it is. -/
theorem Outcome.held_attempt
    {α : Type} {computation : Except String α} {next : α → Outcome} (held : writer.Held externals)
    (later : ∀ value, computation = .ok value → Outcome.Held externals (next value)) :
    Outcome.Held externals (writer.attempt computation next) := by
  unfold Writer.attempt
  cases result : computation with
  | error cause => exact held
  | ok value => exact later value result

theorem Writer.Held.poison (held : writer.Held externals) :
    Writer.Held externals { writer with poisoned := true } :=
  ⟨held.sound.poisoned true, nofun⟩

end Attempt

/-! ## Commits -/

section Commits

variable {externals : Externals} {writer : Writer} {input : CommitInput} {stop : Option Stop}

/-- The files but for the log, the manifest and its scratch file. -/
theorem WriterSound.withFiles
    (sound : WriterSound externals writer) (manifest : Option Manifest) (pending flag : Bool) :
    WriterSound externals
      { writer with
        files := { writer.files with manifest := manifest, pending := pending }
        poisoned := flag } :=
  ⟨⟨sound.files.index, sound.files.events⟩, sound.positive, sound.limit, sound.recoveries,
    sound.models, sound.health, sound.bound, sound.names, sound.tail⟩

/-- More bytes in the log do not matter to the writer. -/
theorem WriterSound.appendLog (sound : WriterSound externals writer) (more : Bytes) (flag : Bool) :
    WriterSound externals
      { writer with
        poisoned := flag
        files := { writer.files with log := writer.files.log ++ more } } := by
  refine ⟨⟨sound.files.index, ?_⟩, sound.positive, sound.limit, sound.recoveries,
    sound.models, sound.health, sound.bound, sound.names, sound.tail⟩
  have events := sound.files.events
  unfold EventsSound at events ⊢
  cases mode : writer.files.index.metadata.history with
  | none =>
    rw [mode] at events
    exact LogSound.append events more
  | some history =>
    rw [mode] at events
    exact events

/-- A stored writer is held once it is announced, and while it is poisoned. -/
theorem held_of_announced (sound : WriterSound externals stored)
    (logEnd : stored.historyLimit = none →
      stored.files.log.length = stored.index.metadata.eventLogSize)
    (poisoned : stored.poisoned = true)
    (announced : Announced stop stored result) :
    Outcome.Held externals result := by
  cases announced with
  | announced free => exact ⟨sound.withFiles _ _ false, fun _ => ⟨rfl, logEnd, free⟩⟩
  | unflushed cause | unannounced cause scratch =>
    refine ⟨sound.withFiles _ _ stored.poisoned, ?_⟩
    intro usable
    exact absurd (poisoned.symm.trans usable) Bool.true_eq_false.mp

/-- A commit leaves a sound writer, however it ends. -/
theorem held_commitEncoded
    (inputSound : CommitSound externals writer input) (held : writer.Held externals) :
    Outcome.Held externals (commitEncoded externals input stop writer) := by
  generalize ended : commitEncoded externals input stop writer = result
  have ending := commitEnding_of_commitEncoded stop inputSound held.sound
  rw [ended] at ending
  cases ending with
  | refused cause checked => exact held
  | interrupted cause more bounded => exact ⟨held.sound.appendLog more true, nofun⟩
  | stored checked progress finished head named announced =>
    have soundInput := inputSound.poisoned true
    have sound := sound_committedWriter soundInput (held.sound.poisoned true) progress
      (nextRecoveries_of_checkCommit checked) finished
    obtain ⟨_, _, logEnd⟩ := eventsSound_of_finished soundInput (held.sound.poisoned true)
      progress finished none false
    exact held_of_announced (sound _) logEnd rfl announced

/-! ## Appending -/

theorem held_appendSourceEvents
    (events : List Json) (terminal : Bool) (held : writer.Held externals) :
    Outcome.Held externals (appendSourceEvents externals stop events terminal writer) := by
  refine Outcome.held_attempt held ?_
  intro lines checked
  obtain ⟨_, _, validated⟩ := bind_ok.mp checked
  obtain ⟨batch, bytes⟩ := batchSound_of_validate validated
  refine held_commitEncoded ⟨⟨_, batch⟩, rfl, bytes, ?_⟩ held
  intro ordinary
  subst ordinary
  exact eventOwned_of_validate validated

theorem eventOwned_of_checkUniverse (checked : checkUniverse tokenMarkets false event = .ok value) :
    EventOwned tokenMarkets event := by
  unfold checkUniverse at checked
  obtain ⟨market, marketNamed, checked⟩ := bind_ok.mp checked
  rw [if_neg Bool.false_ne_true] at checked
  obtain ⟨token, tokenNamed, checked⟩ := bind_ok.mp checked
  exact ⟨token, market, tokenNamed, marketNamed, beq_iff_eq.mp (ensure_ok.mp checked)⟩

variable {batch : SourceBatch} {books : TreeMap Nat Json}

section

variable (sound : batch.Sound externals)
include sound

theorem held_appendValidatedWithBooksAt {physicalAfter : Nat} {groups : List MarketGroupProof}
    (cursor : physicalAfter = writer.cursor) (held : writer.Held externals) :
    Outcome.Held externals
      (appendValidatedWithBooksAt externals stop batch books physicalAfter groups writer) := by
  refine Outcome.held_attempt held ?_
  intro value checked
  obtain ⟨_, _, _, bytes, results, visited, _⟩ := bind₃_ok.mp checked
  refine held_commitEncoded ⟨⟨_, sound⟩, cursor, of_decide_eq_true (ensure_ok.mp bytes), ?_⟩ held
  intro ordinary event mem
  dsimp only at ordinary mem
  rw [ordinary] at visited
  obtain ⟨sameLength, each⟩ := getElem?_of_mapM_ok visited
  obtain ⟨place, there⟩ := getElem?_of_mem mem
  obtain ⟨inside, _⟩ := List.getElem?_eq_some_iff.mp there
  exact eventOwned_of_checkUniverse (each place event _ there (getElem?_eq_getElem (by omega)))

theorem held_appendValidatedWithBooks (held : writer.Held externals) :
    Outcome.Held externals (appendValidatedWithBooks externals stop batch books writer) := by
  refine Outcome.held_attempt held ?_
  intro value checked
  obtain ⟨_, _, boundary⟩ := bind_ok.mp checked
  exact held_appendValidatedWithBooksAt sound (beq_iff_eq.mp (ensure_ok.mp boundary)).symm held

theorem held_appendNativeMarketGroupWithBooks (held : writer.Held externals) :
    Outcome.Held externals
      (appendNativeMarketGroupWithBooks externals stop batch books writer) := by
  refine Outcome.held_attempt held ?_
  intro proof _
  exact held_appendValidatedWithBooksAt sound rfl held

end

end Commits

/-! ## Merged batches -/

section Merged

variable {externals : Externals} {writer : Writer} {stop : Option Stop} {terminal : Bool}

/-- Two batches of which the second continues the first. -/
theorem BatchSound.append
    {after : Nat} (first : BatchSound externals terminal after firstEvents firstLines)
    (second : BatchSound externals terminal (after + firstEvents.length) secondEvents secondLines) :
    BatchSound externals terminal after (firstEvents ++ secondEvents)
      (firstLines ++ secondLines) := by
  refine ⟨?_, ?_, ?_⟩
  · intro nothing
    exact first.some_events (append_eq_nil_iff.mp nothing).1
  · rw [first.lines_eq, second.lines_eq, map_append]
  · intro index event there
    by_cases early : index < firstEvents.length
    · rw [getElem?_append_left early] at there
      exact first.event index event there
    · rw [getElem?_append_right (by omega)] at there
      have sound := second.event _ event there
      refine ⟨?_, sound.marketId, sound.identity, sound.lifecycle, sound.recovery⟩
      rw [sound.cursor]
      unfold checkedAdd
      rw [show after + firstEvents.length + (index - firstEvents.length + 1) =
        after + (index + 1) by omega]

/-- The last event of a batch has the cursor after it. -/
theorem BatchSound.lastCursor {after : Nat} {events : List Json} {last : Json} {cursor : Nat}
    (batch : BatchSound externals terminal after events lines)
    (isLast : events.getLast? = some last) (read : (field last "cursor").asU64? = some cursor) :
    cursor = after + events.length := by
  rw [getLast?_eq_getElem?] at isLast
  have sound := batch.event _ last isLast
  have positive := length_pos_of_ne_nil batch.some_events
  have sum := (checkedAdd_eq_some_iff.mp (sound.cursor.symm.trans read)).1
  omega

/-- The batches of a group make one batch within the budget. -/
theorem batchSound_of_mergeBatch
    {entries : List (SourceBatch × TreeMap Nat Json)} {start finish : GroupMerge}
    (some_entries : entries ≠ []) (sound : ∀ entry ∈ entries, SourceBatch.Sound externals entry.1)
    (merged : entries.foldlM (mergeBatch limit terminal) start = .ok finish) :
    BatchSound externals terminal start.after (entries.flatMap fun entry => entry.1.events)
        (entries.flatMap fun entry => entry.1.lines) ∧
      finish.bytes =
        start.bytes + ((entries.flatMap fun entry => entry.1.lines).map List.length).sum ∧
      finish.bytes ≤ limit := by
  induction entries generalizing start with
  | nil => exact absurd rfl some_entries
  | cons entry entries ih =>
    obtain ⟨batch, books⟩ := entry
    obtain ⟨middle, step, rest⟩ := foldlM_cons_ok.mp merged
    unfold mergeBatch at step
    obtain ⟨_, compatible, _, fits, last, isLast, step⟩ := bind₃_ok.mp step
    obtain ⟨after, read, _, _, step⟩ := bind₂_ok.mp step
    cases step
    have facts := ensure_ok.mp compatible
    rw [and_eq_true, beq_iff_eq, beq_iff_eq] at facts
    obtain ⟨sameAfter, sameTerminal⟩ := facts
    have bounds := ensure_ok.mp fits
    rw [and_eq_true] at bounds
    have batchSound := sound (batch, books) mem_cons_self
    unfold SourceBatch.Sound at batchSound
    have reached := batchSound.lastCursor (need_ok.mp isLast) (need_ok.mp read)
    rw [sameAfter, sameTerminal] at batchSound
    rw [sameAfter] at reached
    cases entries with
    | nil =>
      cases rest
      simp only [flatMap_cons, flatMap_nil, append_nil]
      exact ⟨batchSound, rfl, of_decide_eq_true bounds.1⟩
    | cons second entries =>
      obtain ⟨others, bytes, within⟩ := ih (cons_ne_nil _ _)
        (fun other mem => sound other (mem_cons_of_mem _ mem)) rest
      dsimp only at others bytes
      rw [reached] at others
      have whole : ((batch, books) :: second :: entries).flatMap (fun entry => entry.1.lines) =
          batch.lines ++ (second :: entries).flatMap fun entry => entry.1.lines := rfl
      refine ⟨batchSound.append others, ?_, within⟩
      rw [bytes, whole, map_append, sum_append]
      unfold SourceBatch.encodedBytes
      omega

theorem held_appendValidatedGroupWithBooks
    (batches : List (ValidatedSourceBatch externals × TreeMap Nat Json))
    (held : writer.Held externals) :
    Outcome.Held externals (appendValidatedGroupWithBooks externals stop batches writer) := by
  have sound : ∀ entry ∈ batches.map fun entry => (entry.1.val, entry.2),
      SourceBatch.Sound externals entry.1 := by
    intro entry mem
    obtain ⟨batch, _, rfl⟩ := mem_map.mp mem
    exact batch.1.property
  unfold appendValidatedGroupWithBooks
  generalize (batches.map fun entry => (entry.1.val, entry.2)) = plain at sound
  cases plain with
  | nil => exact held
  | cons entry rest =>
    obtain ⟨first, books⟩ := entry
    have firstSound := sound (first, books) mem_cons_self
    dsimp only
    split
    · split
      · exact held_appendNativeMarketGroupWithBooks firstSound held
      · exact held
    · refine Outcome.held_attempt held ?_
      intro merge merged
      obtain ⟨batch, _⟩ := batchSound_of_mergeBatch (cons_ne_nil _ _) sound merged
      refine held_appendValidatedWithBooks ?_ held
      unfold SourceBatch.Sound mergedBatch
      rw [flatMap_map, flatMap_map]
      exact batch

end Merged

/-! ## Binding -/

section Binding

variable {externals : Externals} {writer : Writer}

theorem getElem?_extend (tokenMarkets bindings : TreeMap String String) (token : String) :
    (extend tokenMarkets bindings)[token]? = bindings[token]?.or tokenMarkets[token]? := by
  have folded : ∀ (entries : List (String × String)) (start : TreeMap String String),
      (entries.Pairwise fun first second => first.1 ≠ second.1) →
      (entries.foldl (fun map entry => map.insert entry.1 entry.2) start)[token]? =
        ((entries.find? fun entry => entry.1 == token).map Prod.snd).or start[token]? := by
    intro entries
    induction entries with
    | nil => exact fun _ _ => rfl
    | cons entry entries ih =>
      intro start distinct
      obtain ⟨apart, distinct⟩ := pairwise_cons.mp distinct
      rw [foldl_cons, ih _ distinct, find?_cons, TreeMap.getElem?_insert_eq]
      by_cases same : entry.1 = token
      · have absent : entries.find? (fun other => other.1 == token) = none := by
          apply find?_eq_none.mpr
          intro other mem equal
          exact apart other mem (same.trans (beq_iff_eq.mp equal).symm)
        rw [absent, if_pos same, beq_iff_eq.mpr same]
        rfl
      · rw [if_neg same, beq_eq_false_iff_ne.mpr same]
  unfold extend
  rw [folded _ _ (TreeMap.pairwise_fst_toList bindings)]
  congr 1
  cases there : bindings[token]? with
  | none =>
    rw [map_eq_none_iff, find?_eq_none]
    rintro ⟨other, market⟩ mem same
    have sameToken : other = token := beq_iff_eq.mp same
    rw [mem_toList_iff_getElem?_eq_some, sameToken, there] at mem
    cases mem
  | some market =>
    have mem := mem_toList_iff_getElem?_eq_some.mpr there
    cases search : bindings.toList.find? fun entry => entry.1 == token with
    | none => exact absurd (beq_self_eq_true token) (find?_eq_none.mp search _ mem)
    | some entry =>
      obtain ⟨other, value⟩ := entry
      have found := mem_toList_iff_getElem?_eq_some.mp (mem_of_find?_eq_some search)
      have same := find?_some search
      have sameToken : other = token := beq_iff_eq.mp same
      rw [sameToken, there] at found
      cases found
      rfl

theorem held_bindCatalogTokens (bindings : TreeMap String String) (held : writer.Held externals) :
    Outcome.Held externals (bindCatalogTokens bindings writer) := by
  refine Outcome.held_attempt held ?_
  intro value checked
  obtain ⟨_, _, results, visited, _⟩ := bind₂_ok.mp checked
  obtain ⟨sameLength, each⟩ := getElem?_of_mapM_ok visited
  have binding : ∀ (token : String) market, bindings[token]? = some market →
      (token ≠ "" ∧ market ≠ "") ∧
        ∀ previous, writer.tokenMarkets[token]? = some previous → previous = market := by
    intro token market there
    have mem := mem_toList_iff_getElem?_eq_some.mpr there
    obtain ⟨place, found⟩ := getElem?_of_mem mem
    obtain ⟨inside, _⟩ := List.getElem?_eq_some_iff.mp found
    have ok := each place _ _ found (getElem?_eq_getElem (by omega))
    unfold checkBinding at ok
    obtain ⟨_, nonempty, ok⟩ := bind_ok.mp ok
    have names := ensure_ok.mp nonempty
    have kept := ensure_ok.mp ok
    rw [and_eq_true, isEmpty_eq_false_iff, isEmpty_eq_false_iff] at names
    rw [Option.all_eq_true] at kept
    refine ⟨names, ?_⟩
    intro previous before
    exact beq_iff_eq.mp (kept previous before)
  have kept : ∀ (token : String) market, writer.tokenMarkets[token]? = some market →
      (extend writer.tokenMarkets bindings)[token]? = some market := by
    intro token market there
    rw [getElem?_extend]
    cases new : bindings[token]? with
    | none => exact there
    | some other =>
      rw [(binding token other new).2 market there]
      rfl
  have sound := held.sound
  refine ⟨⟨sound.files, sound.positive, sound.limit, sound.recoveries, sound.models, sound.health,
    ?_, ?_, sound.tail⟩, ?_⟩
  · intro token row there
    exact kept token row.marketId (sound.bound token row there)
  · intro token market there
    rw [getElem?_extend] at there
    cases new : bindings[token]? with
    | none =>
      rw [new] at there
      exact sound.names token market there
    | some other =>
      rw [new] at there
      obtain rfl := some.inj there
      exact (binding token other new).1
  · intro usable
    have clean := held.clean usable
    exact ⟨clean.usable, clean.logEnd, clean.noScratch⟩

end Binding

end MarketCow.Discovery
