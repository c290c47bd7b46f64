import MarketCow.BtcLive.Streams

/-!
# Every trade once

A subscriber that does not lag has, in each stream, the trades from the first
one of its snapshot on, without a gap and without a repetition.
-/

namespace MarketCow.BtcLive

open Library List
open Live (Codec)
open Sdk (Trade PriceFrame Payload)

variable {setting : Setting}

/-! ## Steps -/

variable {system : System}

theorem AllUpToDate.subscribes (sound : Sound system) (fresh : Function.Injective setting.uuid)
    (all : AllUpToDate setting system) (subscribes : Subscribes setting system subscribers) :
    AllUpToDate setting { system with subscribers } := by
  have kept {frames : List PriceFrame} (upToDate : UpToDate setting system frames) :
      UpToDate setting { system with subscribers } frames :=
    ⟨upToDate.sequences, upToDate.last, upToDate.segments, upToDate.unborn, upToDate.current⟩
  intro subscriber mem keepsUp
  cases subscribes with
  | same => exact kept (all subscriber mem keepsUp)
  | subscribed now frame sent =>
    rcases mem_append.mp mem with old | new
    · exact kept (all subscriber old keepsUp)
    · rw [mem_singleton.mp new]
      exact kept (upToDate_of_subscribed sound fresh sent)
  | received index other later found took =>
    rcases mem_or_eq_of_mem_set mem with old | rfl
    · exact kept (all subscriber old keepsUp)
    · obtain ⟨sameLag, sameFrames⟩ := Subscriber.frames_receive took
      rw [sameFrames]
      rw [sameLag] at keepsUp
      exact kept (all other (mem_of_getElem? found) keepsUp)
  | left index => exact kept (all subscriber (mem_of_mem_eraseIdx mem) keepsUp)

/-- After a publication that went out every subscriber is up to date again. -/
theorem AllUpToDate.publish {after : State} {payload : Option Payload}
    (fresh : Function.Injective setting.uuid) (all : AllUpToDate setting system)
    (publishes : Publishes setting system after payload)
    (goesOut : system.owner.serial < maxSerial ∧
      ∃ frame, published setting after payload now = .ok frame)
    (task : Task) :
    AllUpToDate setting { (system.publish setting after payload now).2 with task } := by
  obtain ⟨owner, runs⟩ := publish_owner setting system after payload now
  by_cases nobody : system.subscribers = []
  · intro subscriber mem
    have empty : (system.publish setting after payload now).2.subscribers = [] := by
      unfold System.publish
      rw [nobody]
      rfl
    rw [empty] at mem
    cases mem
  · obtain ⟨below, frame, sent⟩ := goesOut
    have subscribers : (system.publish setting after payload now).2.subscribers =
        system.subscribers.map (Subscriber.deliver frame) := by
      unfold System.publish
      rw [isEmpty_eq_false_iff.mpr nobody, sent]
      rfl
    intro subscriber mem keepsUp
    rw [subscribers] at mem
    obtain ⟨before, wasThere, rfl⟩ := mem_map.mp mem
    obtain ⟨keptUp, frames⟩ := Subscriber.frames_deliver keepsUp
    rw [frames]
    exact (all before wasThere keptUp).publish fresh publishes below sent owner runs

theorem AllUpToDate.perform (sound : Sound system) (fresh : Function.Injective setting.uuid)
    (all : AllUpToDate setting system) (acted : act setting system label = some action)
    (served : Served setting system label) :
    AllUpToDate setting (perform setting system action) := by
  have acts := acts_of_act acted
  cases action with
  | quiet task =>
    intro subscriber mem keepsUp
    have upToDate := all subscriber mem keepsUp
    exact ⟨upToDate.sequences, upToDate.last, upToDate.segments, upToDate.unborn, upToDate.current⟩
  | invalidate reason now task =>
    exact all.publish fresh (publishes_of_acts sound acts rfl)
      ⟨served.serial, served.published acted rfl⟩ task
  | commit after payload now lastId =>
    obtain ⟨task, same, _⟩ := perform_commit setting system after payload now lastId
    rw [same]
    exact all.publish fresh (publishes_of_acts sound acts rfl)
      ⟨served.serial, served.published acted rfl⟩ task

/-! ## Runs -/

theorem steps_deterministic : Run.Deterministic (Steps setting) :=
  fun _ _ _ _ taken again => some.inj (taken.symm.trans again)

theorem allUpToDate_of_run (fresh : Function.Injective setting.uuid)
    (run : Run (Steps setting) .initial labels system)
    (everyServed : Run.EachStep (Steps setting)
      (fun _ before label => Served setting before label) .initial labels) :
    AllUpToDate setting system := by
  induction run with
  | nil =>
    intro subscriber never
    cases never
  | @snoc labels middle label finish before taken ih =>
    obtain ⟨earlier, served⟩ := (Run.eachStep_snoc_iff steps_deterministic before).mp everyServed
    have sound := sound_of_run before
    have all := ih earlier
    rcases steps_cases taken with ⟨action, acted, rfl⟩ | ⟨_, subscribers, subscribes, rfl⟩
    · exact all.perform sound fresh acted served
    · exact all.subscribes sound fresh subscribes

/-! ## The trades of a stream -/

/-- The end of consecutive trades is what they have from its first trade on. -/
theorem Consecutive.suffix_eq_filter (consecutive : Consecutive run) (ending : trades <:+ run)
    (begins : trades.head?.map Trade.tradeId = some first) :
    trades = run.filter fun trade => decide (first ≤ trade.tradeId) := by
  have increasing {part : List Trade} (chain : Consecutive part) :
      part.Pairwise fun before after => before.tradeId < after.tradeId := by
    have weaker : part.IsChain fun before after => before.tradeId < after.tradeId :=
      List.IsChain.imp (fun _ _ next => by omega) chain
    have : Trans (fun before after : Trade => before.tradeId < after.tradeId)
        (fun before after : Trade => before.tradeId < after.tradeId)
        (fun before after : Trade => before.tradeId < after.tradeId) := ⟨Nat.lt_trans⟩
    exact isChain_iff_pairwise.mp weaker
  obtain ⟨front, rfl⟩ := ending
  cases trades with
  | nil => cases begins
  | cons head rest =>
    cases begins
    have ordered := increasing consecutive
    obtain ⟨_, restOrdered, across⟩ := pairwise_append.mp ordered
    have noneOfFront : front.filter (fun trade => decide (head.tradeId ≤ trade.tradeId)) = [] := by
      apply filter_eq_nil_iff.mpr
      intro trade mem
      have before := across trade mem head mem_cons_self
      simpa using before
    have allOfRest : (head :: rest).filter (fun trade => decide (head.tradeId ≤ trade.tradeId)) =
        head :: rest := by
      apply filter_eq_self.mpr
      intro trade mem
      rcases mem_cons.mp mem with rfl | later
      · simp
      · have after := (pairwise_cons.mp restOrdered).1 trade later
        simpa using after.le
    rw [filter_append, noneOfFront, allOfRest, nil_append]

/-- What a subscriber has received, against the runs of the owner: the serials
follow one another, and in each stream the snapshot and the deltas, with what is
still in the channel, are the trades of the run from the first one of the
snapshot on. -/
structure Exact (setting : Setting) (system : System) (subscriber : Subscriber) : Prop where
  sequences : subscriber.received.IsChain
    fun before after => after.streamSequence = before.streamSequence + 1
  trades : ∀ number, carriers (setting.uuid number) subscriber.received = [] ∨
    ∃ head deltas snapshot first,
      carriers (setting.uuid number) subscriber.received = head :: deltas ∧
        head.payload = some (.snapshot snapshot) ∧ snapshot.firstTradeId = some first ∧
          (∀ delta ∈ deltas, IsDelta delta) ∧
            snapshot.trades ++ deltas.flatMap carried ++
                tradesOf (setting.uuid number) subscriber.pending =
              (system.runs number).filter fun trade => decide (first ≤ trade.tradeId)

theorem UpToDate.exact
    (sound : Sound system) (upToDate : UpToDate setting system subscriber.frames) :
    Exact setting system subscriber := by
  constructor
  · exact (isChain_append.mp upToDate.sequences).1
  · intro number
    have segment := upToDate.segments number
    unfold Subscriber.frames at segment
    rw [carriers_append] at segment
    cases received : carriers (setting.uuid number) subscriber.received with
    | nil => exact .inl rfl
    | cons head deltas =>
      right
      rw [received] at segment
      have whole := segment.resolve_left (cons_ne_nil _ _)
      obtain ⟨_, _, snapshot, parts, isSnapshot, first, something, isDelta⟩ := whole.parts
      obtain ⟨rfl, rfl⟩ := List.cons.inj parts
      have brought : carried head = snapshot.trades := by
        unfold carried
        rw [isSnapshot]
      have ending := whole.ending
      rw [cons_append, flatMap_cons, flatMap_append, brought, ← append_assoc] at ending
      obtain ⟨initial, rest, isTrades⟩ := exists_cons_of_ne_nil something
      have begins : (snapshot.trades ++ deltas.flatMap carried ++
          (carriers (setting.uuid number) subscriber.pending).flatMap carried).head?.map
            Trade.tradeId = some initial.tradeId := by
        rw [isTrades]
        rfl
      refine ⟨head, deltas, snapshot, initial.tradeId, rfl, isSnapshot, ?_, ?_, ?_⟩
      · rw [first, isTrades]
        rfl
      · intro delta mem
        exact isDelta delta (mem_append_left _ mem)
      · exact (sound.runs number).suffix_eq_filter ending begins

/-- In every run the owner is live only after an overlap, its trades are
consecutive and an end of the run of its stream; and each subscriber that does
not lag has received each trade once, where every step is served. -/
theorem live_stream_exact
    (fresh : Function.Injective setting.uuid) {labels : List Label} {system : System}
    (run : Run (Steps setting) .initial labels system) :
    (system.owner.phase = .live → Overlapped setting labels) ∧
      Consecutive system.owner.trades ∧
        (∀ number, Consecutive (system.runs number)) ∧
          (system.owner.phase = .live →
            system.owner.trades <:+ system.runs system.owner.typedGeneration) ∧
            (Run.EachStep (Steps setting) (fun _ before label => Served setting before label)
                .initial labels →
              ∀ subscriber ∈ system.subscribers, subscriber.lagged = false →
                Exact setting system subscriber) := by
  have sound := sound_of_run run
  refine ⟨(proven_of_run run).live, sound.consecutive, sound.runs,
    fun live => (sound.live live).2, ?_⟩
  intro everyServed subscriber member keepsUp
  exact (allUpToDate_of_run fresh run everyServed subscriber member keepsUp).exact sound

/-! ## A run with a late trade -/

/-- The decimals of the sample. -/
def sampleCodec : Codec where
  parse := fun text => if text = "1" then some 1 else none
  parseExact := fun text => if text = "1" then some 1 else none
  text := fun _ => "1"
  rfc3339 := fun _ => none

def sampleSetting : Setting where
  codec := sampleCodec
  refusal := fun _ => "Invalid decimal: unknown character"
  checkedMul := fun left right => some (left * right)
  checkedAdd := fun left right => some (left + right)
  uuid := fun number => String.ofList (List.replicate (number + 1) '0')
  producerInstanceId := "producer"
  encodedLen := fun _ => 256

theorem sampleSetting_fresh : Function.Injective sampleSetting.uuid := by
  intro left right same
  have sameLength := congrArg List.length (String.ofList_injective same)
  rw [length_replicate, length_replicate] at sameLength
  exact Nat.succ.inj sameLength

def sampleRow (id : Nat) : RestTrade where
  id
  price := "1"
  qty := "1"
  time := 1000
  isBuyerMaker := false

def sampleShown (id : Nat) : WsTrade where
  e := "trade"
  eventTimeMs := 1000
  s := "BTCUSDT"
  t := id
  p := "1"
  q := "1"
  tradeTimeMs := 1000
  m := false

/-- A subscriber comes before the join, and a trade after it arrives at a
reading of the clock. -/
def joiningLabels (now : Option Int) : List Label :=
  [.start (some 0), .subscribe (some 0), .recent [sampleRow 6, sampleRow 7] none,
    .frame (.ok (sampleShown 7)) none (some 0), .frame (.ok (sampleShown 8)) none now]

/-- The subscriber receives what was published. -/
def receivingLabels : List Label :=
  joiningLabels (some 0) ++ [Label.receive 0, Label.receive 0]

/-- The clock can be read and a serial is left. The frames of the sample fit. -/
def served (system : System) (label : Label) : Bool :=
  label.clockReads && decide (system.owner.serial < maxSerial)

theorem served_of_sample (allowed : served system label = true) :
    Served sampleSetting system label := by
  obtain ⟨clock, serial⟩ := Bool.and_eq_true_iff.mp allowed
  refine ⟨clock, of_decide_eq_true serial, ?_⟩
  intro action after payload now frame acted publication typed
  exact (by decide : 256 ≤ maxFrameBytes)

theorem live_stream_exact_join :
    ∃ system,
      Run (Steps sampleSetting) .initial receivingLabels system ∧
        system.owner.phase = .live ∧
          Overlapped sampleSetting receivingLabels ∧
            ∃ subscriber ∈ system.subscribers, Exact sampleSetting system subscriber := by
  have played : (receivingLabels.foldlM
      (fun system label =>
        if served system label = true then step sampleSetting system label else none)
      .initial).map (fun system =>
        (system.owner.phase, system.subscribers.map Subscriber.lagged)) =
      some (.live, [false]) := by
    decide +kernel
  obtain ⟨system, reached, shape⟩ := map_eq_some_iff.mp played
  have sending := Run.restrict_of_foldlM reached
  have live := congrArg Prod.fst shape
  obtain ⟨subscriber, rest, listed, keepsUp, _⟩ := map_eq_cons_iff.mp (congrArg Prod.snd shape)
  obtain ⟨overlapped, _, _, _, exactly⟩ := live_stream_exact sampleSetting_fresh sending.unrestrict
  have member : subscriber ∈ system.subscribers := by
    rw [listed]
    exact mem_cons_self
  have everyServed := Run.eachStep_of_restrict steps_deterministic sending
  refine ⟨system, sending.unrestrict, live, overlapped live, subscriber, member, ?_⟩
  refine exactly ?_ subscriber member keepsUp
  intro earlier label later before split reached
  exact served_of_sample (everyServed earlier label later before split reached)

end MarketCow.BtcLive
