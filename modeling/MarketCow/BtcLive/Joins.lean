import MarketCow.BtcLive.Attempts

/-!
# The overlap before the owner is live

What the owner may do is said once. Its trades are consecutive in every state
it reaches, and it is live only after the last of the recent trades was seen
again on the socket of the same attempt.
-/

namespace MarketCow.BtcLive

open Library List Option Function
open Sdk (Trade PriceFrame Payload)

variable {setting : Setting}

/-! ## What the owner may do -/

/-- A label that ends an attempt or starts one. -/
def Label.restarts : Label → Bool
  | .start _ => true
  | .settle _ _ => true
  | _ => false

/-- A frame that shows the last one of some trades again. -/
structure Overlaps
    (setting : Setting) (row : Except String WsTrade) (receivedAtNs : Option Int)
    (trades : List Trade) : Prop where
  shown : ∃ point last, readFrame setting row receivedAtNs = .ok point ∧
    trades.getLast? = some last ∧ sameTrade setting.codec point last = true

inductive Acts (setting : Setting) (system : System) : Label → Action → Prop
  | started
      (now : Option Int)
      (waits : system.task = .waiting) :
      Acts setting system (.start now) (.invalidate "source_reconnecting" now .connecting)
  | answered
      (rows : List RestTrade)
      (receivedAtNs : Option Int)
      (trades : List Trade)
      (restLast : Nat)
      (connects : system.task = .connecting)
      (answer : recentTrades setting receivedAtNs rows = .ok (trades, restLast)) :
      Acts setting system (.recent rows receivedAtNs) (.quiet (.joining trades restLast))
  | stopped
      (label : Label)
      (cause : Failure)
      (within : label.restarts = false) :
      Acts setting system label (.quiet (.failed cause))
  | unchanged
      (label : Label)
      (within : label.restarts = false) :
      Acts setting system label (.quiet system.task)
  | snapshot
      (row : Except String WsTrade)
      (receivedAtNs now : Option Int)
      (trades : List Trade)
      (restLast : Nat)
      (after : State)
      (joins : system.task = .joining trades restLast)
      (overlap : Overlaps setting row receivedAtNs trades)
      (committed : SnapshotCommitted system.owner trades after) :
      Acts setting system (.frame row receivedAtNs now) (.commit after none now restLast)
  | trade
      (row : Except String WsTrade)
      (receivedAtNs now : Option Int)
      (lastId : Nat)
      (point : Trade)
      (after : State)
      (follows : system.task = .joined lastId)
      (next : point.tradeId = lastId + 1)
      (committed : TradeCommitted system.owner point after) :
      Acts setting system (.frame row receivedAtNs now)
        (.commit after (some (.trade (some point))) now point.tradeId)
  | settled
      (reader : Option String)
      (now : Option Int)
      (cause : Failure)
      (failed : system.task = .failed cause) :
      Acts setting system (.settle reader now)
        (.invalidate (finishReader cause reader).reason now .waiting)

variable {trades : List Trade} {point : Trade} {payload : Option Payload}

/-- A join commits the trades it waits with, at an overlap. -/
theorem of_join {owner after : State} {restLast lastId : Nat}
    (joined : join setting owner trades restLast point = .ok (.commit after payload lastId)) :
    payload = none ∧ lastId = restLast ∧ SnapshotCommitted owner trades after ∧
      ∃ last, trades.getLast? = some last ∧ sameTrade setting.codec point last = true := by
  unfold join at joined
  split at joined
  · cases joined
  · split at joined
    · obtain ⟨seen, joined⟩ := ensure_bind_ok.mp joined
      obtain ⟨_, committed, joined⟩ := bind_ok.mp joined
      cases joined
      obtain ⟨last, isLast, same⟩ := (any_eq_true _ _).mp seen
      exact ⟨rfl, rfl, snapshotCommitted_of_commitSnapshot committed, last, isLast, same⟩
    · cases joined

/-- A follower commits the trade after the last one. -/
theorem of_follow {owner after : State} {last lastId : Nat}
    (followed : follow setting owner last point = .ok (.commit after payload lastId)) :
    payload = some (.trade (some point)) ∧ lastId = point.tradeId ∧ point.tradeId = last + 1 ∧
      TradeCommitted owner point after := by
  unfold follow at followed
  split at followed
  · obtain ⟨_, _, followed⟩ := need_bind_ok.mp followed
    obtain ⟨_, followed⟩ := ensure_bind_ok.mp followed
    cases followed
  · obtain ⟨expected, counted, followed⟩ := need_bind_ok.mp followed
    obtain ⟨isExpected, followed⟩ := ensure_bind_ok.mp followed
    obtain ⟨_, committed, followed⟩ := bind_ok.mp followed
    cases followed
    refine ⟨rfl, rfl, ?_, tradeCommitted_of_commitTrade committed⟩
    rw [beq_iff_eq.mp isExpected]
    exact Sdk.eq_succ_of_checkedSucc counted

variable {system : System}

theorem acts_of_take {row : Except String WsTrade} :
    Acts setting system (.frame row receivedAtNs now)
      (take setting system row receivedAtNs now) := by
  unfold take
  split
  · exact .stopped _ _ rfl
  · exact .unchanged _ rfl
  · next after payload lastId consumed =>
      obtain ⟨point, read, consumed⟩ := bind_ok.mp consumed
      unfold consume at consumed
      split at consumed
      · next trades restLast joins =>
          obtain ⟨rfl, rfl, committed, last, isLast, same⟩ := of_join consumed
          exact .snapshot row receivedAtNs now trades _ after joins
            ⟨point, last, read, isLast, same⟩ committed
      · next last follows =>
          obtain ⟨rfl, rfl, next, committed⟩ := of_follow consumed
          exact .trade row receivedAtNs now last point after follows next committed
      · cases consumed

variable {label : Label} {action : Action}

/-- The owner does nothing else. -/
theorem acts_of_act (acted : act setting system label = some action) :
    Acts setting system label action := by
  cases label with
  | start now =>
    obtain ⟨waits, same⟩ := ite_none_right_eq_some.mp acted
    cases same
    exact .started now waits
  | recent rows receivedAtNs =>
    obtain ⟨connects, answered⟩ := ite_none_right_eq_some.mp acted
    split at answered
    · next trades restLast answer =>
        cases answered
        exact .answered rows receivedAtNs trades restLast connects answer
    · cases answered
      exact .stopped _ _ rfl
  | frame row receivedAtNs now =>
    obtain ⟨_, same⟩ := ite_none_right_eq_some.mp acted
    cases same
    exact acts_of_take
  | heartbeat =>
    obtain ⟨_, same⟩ := ite_none_right_eq_some.mp acted
    cases same
    exact .unchanged _ rfl
  | stop cause =>
    obtain ⟨_, same⟩ := ite_none_right_eq_some.mp acted
    cases same
    exact .stopped _ _ rfl
  | settle reader now =>
    dsimp only [act] at acted
    split at acted
    · next cause failed =>
        cases acted
        exact .settled reader now cause failed
    · cases acted
  | subscribe now | receive index | leave index => cases acted

/-! ## What a step may do -/

/-- The subscribers after a step of one of them. -/
inductive Subscribes (setting : Setting) (system : System) : List Subscriber → Prop
  | same : Subscribes setting system system.subscribers
  | subscribed
      (now : Option Int)
      (frame : PriceFrame)
      (sent : published setting system.owner none now = .ok frame) :
      Subscribes setting system (system.subscribers ++ [Subscriber.new frame])
  | received
      (index : Nat)
      (subscriber later : Subscriber)
      (found : system.subscribers[index]? = some subscriber)
      (took : subscriber.receive = some later) :
      Subscribes setting system (system.subscribers.set index later)
  | left
      (index : Nat) :
      Subscribes setting system (system.subscribers.eraseIdx index)

/-- A step is one of the owner or one of a subscriber. -/
theorem steps_cases {before after : System} (taken : Steps setting before label after) :
    (∃ action, act setting before label = some action ∧ after = perform setting before action) ∨
      (label.restarts = false ∧
        ∃ subscribers, Subscribes setting before subscribers ∧
          after = { before with subscribers }) := by
  have owner (acted : (act setting before label).map (perform setting before) = some after) :
      ∃ action, act setting before label = some action ∧ after = perform setting before action := by
    obtain ⟨action, isAction, same⟩ := map_eq_some_iff.mp acted
    exact ⟨action, isAction, same.symm⟩
  unfold Steps at taken
  cases label with
  | subscribe now =>
    right
    refine ⟨rfl, ?_⟩
    dsimp only [step] at taken
    split at taken
    · next frame sent =>
        cases taken
        exact ⟨_, .subscribed now frame sent, rfl⟩
    · cases taken
      exact ⟨_, .same, rfl⟩
  | receive index =>
    right
    refine ⟨rfl, ?_⟩
    obtain ⟨subscriber, found, taken⟩ := bind_eq_some_iff.mp taken
    obtain ⟨later, took, taken⟩ := bind_eq_some_iff.mp taken
    cases taken
    exact ⟨_, .received index subscriber later found took, rfl⟩
  | leave index =>
    right
    refine ⟨rfl, ?_⟩
    obtain ⟨_, same⟩ := ite_none_right_eq_some.mp taken
    cases same
    exact ⟨_, .left index, rfl⟩
  | start now | recent rows receivedAtNs | frame row receivedAtNs now => exact .inl (owner taken)
  | heartbeat | stop cause | settle reader now => exact .inl (owner taken)

/-- A publication changes the owner and the history, whether it goes out or not. -/
theorem publish_owner
    (setting : Setting) (system : System) (after : State) (payload : Option Payload)
    (now : Option Int) :
    (system.publish setting after payload now).2.owner = after ∧
      (system.publish setting after payload now).2.runs = record system.runs after payload := by
  unfold System.publish
  split
  · exact ⟨rfl, rfl⟩
  · split <;> exact ⟨rfl, rfl⟩

theorem perform_commit
    (setting : Setting) (system : System) (after : State) (payload : Option Payload)
    (now : Option Int) (lastId : Nat) :
    ∃ task, perform setting system (.commit after payload now lastId) =
        { (system.publish setting after payload now).2 with task } ∧
      (task = .joined lastId ∨ ∃ cause, task = .failed cause) := by
  unfold perform
  dsimp only
  split
  · next sent succeeded =>
      rw [succeeded]
      exact ⟨_, rfl, .inl rfl⟩
  · next cause sent failed =>
      rw [failed]
      exact ⟨_, rfl, .inr ⟨cause, rfl⟩⟩

/-! ## Consecutive trades -/

/-- The state agrees with where the attempts are. -/
def Task.Fits (owner : State) : Task → Prop
  | .waiting => owner.phase = .unavailable
  | .connecting => owner.phase = .unavailable
  | .joining trades restLast =>
    owner.phase = .unavailable ∧ Consecutive trades ∧
      trades.getLast?.map Trade.tradeId = some restLast
  | .joined lastId => owner.phase = .live ∧ owner.lastId = some lastId
  | .failed _ => True

/-- The owner between two steps. -/
structure Sound (system : System) : Prop where
  consecutive : Consecutive system.owner.trades
  lastId : system.owner.lastId = system.owner.trades.getLast?.map Trade.tradeId
  older : system.owner.typedGeneration ≤ system.owner.epoch
  unavailable : system.owner.phase = .unavailable →
    system.owner.trades = [] ∧ system.owner.typedGeneration < system.owner.epoch
  live : system.owner.phase = .live →
    system.owner.trades ≠ [] ∧ system.owner.trades <:+ system.runs system.owner.typedGeneration
  runs : ∀ number, Consecutive (system.runs number)
  unborn : ∀ number, system.owner.typedGeneration < number → system.runs number = []
  fits : system.task.Fits system.owner

theorem sound_initial : Sound .initial where
  consecutive := List.IsChain.nil
  lastId := rfl
  older := Nat.zero_le _
  unavailable := fun _ => ⟨rfl, Nat.zero_lt_one⟩
  live := fun never => by cases never
  runs := fun _ => List.IsChain.nil
  unborn := fun _ _ => rfl
  fits := rfl

/-- One more trade, after the last one. -/
theorem Consecutive.append (consecutive : Consecutive trades)
    (next : ∀ last, trades.getLast? = some last → point.tradeId = last.tradeId + 1) :
    Consecutive (trades ++ [point]) := by
  apply isChain_append.mpr
  refine ⟨consecutive, List.IsChain.singleton point, ?_⟩
  intro last isLast first isFirst
  cases isFirst
  exact next last isLast

theorem Consecutive.suffix (consecutive : Consecutive whole) (ending : trades <:+ whole) :
    Consecutive trades :=
  List.IsChain.suffix consecutive ending

/-- The last trade of a nonempty end is the last one of the whole. -/
theorem getLast_suffix (ending : trades <:+ whole) (some : trades ≠ []) :
    whole.getLast? = trades.getLast? := by
  obtain ⟨front, rfl⟩ := ending
  rw [getLast?_append, getLast?_eq_some_getLast some]
  rfl

/-- Another end of the task that fits. -/
theorem Sound.quiet (sound : Sound system) (fits : task.Fits system.owner) :
    Sound { system with task } :=
  { sound with fits := fits }

theorem Sound.subscribers (sound : Sound system) (subscribers : List Subscriber) :
    Sound { system with subscribers } where
  consecutive := sound.consecutive
  lastId := sound.lastId
  older := sound.older
  unavailable := sound.unavailable
  live := sound.live
  runs := sound.runs
  unborn := sound.unborn
  fits := sound.fits

theorem Sound.invalidate {system after : System} {reason : String}
    (sound : Sound system) (owner : after.owner = system.owner.invalidate reason)
    (runs : after.runs = record system.runs (system.owner.invalidate reason) payload)
    (fits : after.task = .connecting ∨ after.task = .waiting) :
    Sound after := by
  have sameRuns : after.runs = system.runs := runs
  constructor
  · rw [owner]
    exact List.IsChain.nil
  · rw [owner]
    rfl
  · rw [owner]
    exact Nat.le_succ_of_le sound.older
  · intro _
    rw [owner]
    exact ⟨rfl, Nat.lt_succ_of_le sound.older⟩
  · rw [owner]
    intro never
    cases never
  · rw [sameRuns]
    exact sound.runs
  · rw [sameRuns, owner]
    exact sound.unborn
  · rcases fits with connecting | waiting
    · rw [connecting, owner]
      rfl
    · rw [waiting, owner]
      rfl

theorem record_snapshot (committed : SnapshotCommitted owner trades state) :
    record runs state none = Function.update runs owner.epoch trades := by
  unfold record
  rw [committed.phase, committed.generation, committed.trades]

theorem record_trade (committed : TradeCommitted owner point state) :
    record runs state (some (.trade (some point))) =
      Function.update runs owner.typedGeneration (runs owner.typedGeneration ++ [point]) := by
  unfold record
  rw [committed.phase, committed.generation]

theorem Sound.snapshot {system after : System} {state : State}
    (sound : Sound system) (joins : system.task = .joining trades restLast)
    (committed : SnapshotCommitted system.owner trades state) (owner : after.owner = state)
    (runs : after.runs = record system.runs state none)
    (fits : after.task = .joined restLast ∨ ∃ cause, after.task = .failed cause) :
    Sound after := by
  have waits := sound.fits
  rw [joins] at waits
  obtain ⟨unavailable, consecutive, named⟩ := waits
  have younger := (sound.unavailable unavailable).2
  rw [record_snapshot committed] at runs
  constructor
  · rw [owner, committed.trades]
    exact consecutive
  · rw [owner, committed.lastId, committed.trades]
  · rw [owner, committed.generation, committed.epoch]
  · rw [owner, committed.phase]
    intro never
    cases never
  · intro _
    rw [owner, committed.trades, committed.generation, runs, update_self]
    refine ⟨?_, suffix_rfl⟩
    intro empty
    rw [empty] at named
    cases named
  · intro number
    rw [runs]
    by_cases same : number = system.owner.epoch
    · rw [same, update_self]
      exact consecutive
    · rw [update_of_ne same]
      exact sound.runs number
  · intro number later
    rw [owner, committed.generation] at later
    rw [runs, update_of_ne (Nat.ne_of_gt later)]
    exact sound.unborn number (Nat.lt_trans younger later)
  · rcases fits with joined | ⟨cause, failed⟩
    · rw [joined, owner]
      refine ⟨committed.phase, ?_⟩
      rw [committed.lastId, named]
    · rw [failed]
      trivial

theorem Sound.trade {system after : System} {state : State} {point : Trade} {last : Nat}
    (sound : Sound system) (follows : system.task = .joined last) (next : point.tradeId = last + 1)
    (committed : TradeCommitted system.owner point state) (owner : after.owner = state)
    (runs : after.runs = record system.runs state (some (.trade (some point))))
    (fits : after.task = .joined point.tradeId ∨ ∃ cause, after.task = .failed cause) :
    Sound after := by
  obtain ⟨live, ending⟩ := sound.live committed.wasLive
  have isLast : ∀ before, system.owner.trades.getLast? = some before →
      point.tradeId = before.tradeId + 1 := by
    intro before isBefore
    have named := sound.fits
    rw [follows] at named
    have same := named.2
    rw [sound.lastId, isBefore] at same
    rw [next, ← some.inj same]
  have extended : Consecutive (system.owner.trades ++ [point]) := sound.consecutive.append isLast
  have kept : newest maxTrades (system.owner.trades ++ [point]) ≠ [] :=
    newest_ne_nil (by simp) (by decide)
  have keptEnds := newest_suffix maxTrades (system.owner.trades ++ [point])
  rw [record_trade committed] at runs
  constructor
  · rw [owner, committed.trades]
    exact extended.suffix keptEnds
  · rw [owner, committed.lastId, committed.trades, ← getLast_suffix keptEnds kept]
    simp
  · rw [owner, committed.generation, committed.epoch]
    exact sound.older
  · rw [owner, committed.phase]
    intro never
    cases never
  · intro _
    rw [owner, committed.trades, committed.generation, runs, update_self]
    refine ⟨kept, keptEnds.trans ?_⟩
    obtain ⟨front, whole⟩ := ending
    exact ⟨front, by rw [← append_assoc, whole]⟩
  · intro number
    rw [runs]
    by_cases same : number = system.owner.typedGeneration
    · rw [same, update_self]
      apply (sound.runs _).append
      rw [getLast_suffix ending live]
      exact isLast
    · rw [update_of_ne same]
      exact sound.runs number
  · intro number later
    rw [owner, committed.generation] at later
    rw [runs, update_of_ne (Nat.ne_of_gt later)]
    exact sound.unborn number later
  · rcases fits with joined | ⟨cause, failed⟩
    · rw [joined, owner]
      exact ⟨committed.phase, committed.lastId⟩
    · rw [failed]
      trivial

/-- What the owner does keeps its trades consecutive. -/
theorem Sound.perform (sound : Sound system) (acts : Acts setting system label action) :
    Sound (perform setting system action) := by
  cases acts with
  | started now waits =>
    obtain ⟨owner, runs⟩ := publish_owner setting system
      (system.owner.invalidate "source_reconnecting") none now
    exact sound.invalidate owner runs (.inl rfl)
  | answered rows receivedAtNs trades restLast connects answer =>
    obtain ⟨consecutive, named, _⟩ := of_recentTrades answer
    have unavailable := sound.fits
    rw [connects] at unavailable
    exact sound.quiet ⟨unavailable, consecutive, named⟩
  | stopped label cause _ => exact sound.quiet trivial
  | unchanged label _ => exact sound
  | snapshot row receivedAtNs now trades restLast after joins overlap committed =>
    obtain ⟨task, same, fits⟩ := perform_commit setting system after none now restLast
    obtain ⟨owner, runs⟩ := publish_owner setting system after none now
    rw [same]
    exact sound.snapshot joins committed owner runs fits
  | trade row receivedAtNs now lastId point after follows next committed =>
    obtain ⟨task, same, fits⟩ := perform_commit setting system after
      (some (.trade (some point))) now point.tradeId
    obtain ⟨owner, runs⟩ := publish_owner setting system after (some (.trade (some point))) now
    rw [same]
    exact sound.trade follows next committed owner runs fits
  | settled reader now cause failed =>
    obtain ⟨owner, runs⟩ := publish_owner setting system
      (system.owner.invalidate (finishReader cause reader).reason) none now
    exact sound.invalidate owner runs (.inr rfl)

theorem Sound.step {before after : System} {label : Label}
    (sound : Sound before) (taken : Steps setting before label after) :
    Sound after := by
  rcases steps_cases taken with ⟨action, acted, rfl⟩ | ⟨_, subscribers, _, rfl⟩
  · exact sound.perform (acts_of_act acted)
  · exact sound.subscribers subscribers

variable {labels : List Label}

theorem sound_of_run (run : Run (Steps setting) .initial labels system) :
    Sound system :=
  run.preserves (fun _ _ _ sound taken => sound.step taken) sound_initial

/-! ## The overlap -/

/-- The recent trades of the last attempt arrived, and no attempt ended or
started since. -/
def Answered (setting : Setting) (labels : List Label) (trades : List Trade) : Prop :=
  ∃ earlier rows receivedAtNs restLast later,
    labels = earlier ++ .recent rows receivedAtNs :: later ∧
      recentTrades setting receivedAtNs rows = .ok (trades, restLast) ∧
        ∀ label ∈ later, label.restarts = false

/-- In the last attempt the recent trades arrived, and then a frame with the
last one of them. -/
def Overlapped (setting : Setting) (labels : List Label) : Prop :=
  ∃ earlier row receivedAtNs now later trades,
    labels = earlier ++ .frame row receivedAtNs now :: later ∧
      Answered setting earlier trades ∧
        Overlaps setting row receivedAtNs trades ∧ ∀ label ∈ later, label.restarts = false

theorem Answered.snoc
    {labels : List Label} {trades : List Trade} (answered : Answered setting labels trades)
    {label : Label} (within : label.restarts = false) :
    Answered setting (labels ++ [label]) trades := by
  obtain ⟨earlier, rows, receivedAtNs, restLast, later, rfl, answer, quiet⟩ := answered
  refine ⟨earlier, rows, receivedAtNs, restLast, later ++ [label], by simp, answer, ?_⟩
  intro other mem
  rcases mem_append.mp mem with old | new
  · exact quiet other old
  · rw [mem_singleton.mp new]
    exact within

theorem Overlapped.snoc
    {labels : List Label} (overlapped : Overlapped setting labels) {label : Label}
    (within : label.restarts = false) :
    Overlapped setting (labels ++ [label]) := by
  obtain ⟨earlier, row, receivedAtNs, now, later, trades, rfl, answered, overlap, quiet⟩ :=
    overlapped
  refine ⟨earlier, row, receivedAtNs, now, later ++ [label], trades, by simp, answered, overlap, ?_⟩
  intro other mem
  rcases mem_append.mp mem with old | new
  · exact quiet other old
  · rw [mem_singleton.mp new]
    exact within

/-- The trades an attempt waits with have arrived in it, and the owner of a
live state has seen them overlap. -/
structure Proven (setting : Setting) (labels : List Label) (system : System) : Prop where
  joining : ∀ trades restLast, system.task = .joining trades restLast →
    Answered setting labels trades
  live : system.owner.phase = .live → Overlapped setting labels

theorem Proven.perform
    (proven : Proven setting labels system) (acts : Acts setting system label action) :
    Proven setting (labels ++ [label]) (perform setting system action) := by
  have invalidated (reason : String) (now : Option Int) (task : Task)
      (fits : task = .connecting ∨ task = .waiting) :
      Proven setting (labels ++ [label])
        (BtcLive.perform setting system (.invalidate reason now task)) := by
    constructor
    · rintro trades restLast rfl
      rcases fits with never | never <;> cases never
    · intro never
      obtain ⟨unavailable, _⟩ :=
        publish_owner setting system (system.owner.invalidate reason) none now
      rw [BtcLive.perform, unavailable] at never
      cases never
  cases acts with
  | started now waits => exact invalidated _ now _ (.inl rfl)
  | answered rows receivedAtNs trades restLast connects answer =>
    constructor
    · rintro _ _ same
      cases same
      exact ⟨labels, rows, receivedAtNs, _, [], rfl, answer, by simp⟩
    · intro live
      exact (proven.live live).snoc rfl
  | stopped label cause within =>
    constructor
    · intro _ _ never
      cases never
    · intro live
      exact (proven.live live).snoc within
  | unchanged label within =>
    constructor
    · intro trades restLast joins
      exact (proven.joining trades restLast joins).snoc within
    · intro live
      exact (proven.live live).snoc within
  | snapshot row receivedAtNs now trades restLast after joins overlap committed =>
    obtain ⟨task, same, fits⟩ := perform_commit setting system after none now restLast
    rw [same]
    constructor
    · rintro _ _ rfl
      rcases fits with never | ⟨_, never⟩ <;> cases never
    · intro _
      have answered := proven.joining trades restLast joins
      exact ⟨labels, row, receivedAtNs, now, [], trades, rfl, answered, overlap, by simp⟩
  | trade row receivedAtNs now lastId point after follows next committed =>
    obtain ⟨task, same, fits⟩ := perform_commit setting system after
      (some (.trade (some point))) now point.tradeId
    rw [same]
    constructor
    · rintro _ _ rfl
      rcases fits with never | ⟨_, never⟩ <;> cases never
    · intro _
      exact (proven.live committed.wasLive).snoc rfl
  | settled reader now cause failed => exact invalidated _ now _ (.inr rfl)

theorem proven_of_run (run : Run (Steps setting) .initial labels system) :
    Proven setting labels system := by
  induction run with
  | nil =>
    constructor
    · intro _ _ never
      cases never
    · intro never
      cases never
  | snoc _ taken ih =>
    rcases steps_cases taken with ⟨action, acted, rfl⟩ | ⟨within, subscribers, _, rfl⟩
    · exact ih.perform (acts_of_act acted)
    · constructor
      · intro trades restLast joins
        exact (ih.joining trades restLast joins).snoc within
      · intro live
        exact (ih.live live).snoc within

end MarketCow.BtcLive
