import MarketCow.Btc.SingleSessions

/-!
# What callers get

In a timely run a request has one session, its calls obtain that one, and none of
them is refused for capacity while it is there.
-/

namespace MarketCow.Btc

open Library
open Library.Fallible (bind_eq_error_iff)
open Live (need)

/-! ## Refusals -/

section Refusals

variable {surroundings : Surroundings} {message : String}

theorem not_capacity_of_validateRange (failed : validateRange range = .error message) :
    message ∉ capacityMessages := by
  rcases bind_eq_error_iff.mp failed with invalid | ⟨_, _, failed⟩
  · rw [eq_of_ensure_eq_error invalid]
    decide
  · rcases bind_eq_error_iff.mp failed with large | ⟨_, _, never⟩
    · unfold rowNumber at large
      split at large
      · cases large
      · rw [← error.inj large]
        decide
    · cases never

theorem not_capacity_of_checkRequestId
    (failed : checkRequestId surroundings.isUuid requestId = .error message) :
    message ∉ capacityMessages := by
  rw [eq_of_ensure_eq_error failed]
  decide

theorem not_capacity_of_checkObservations {request : ObservationPageRequest}
    (failed : checkObservations surroundings request = .error message) :
    message ∉ capacityMessages := by
  rcases bind_eq_error_iff.mp failed with unnamed | ⟨_, _, invalid⟩
  · exact not_capacity_of_checkRequestId unnamed
  · rcases bind_eq_error_iff.mp invalid with unknown | ⟨_, _, failed⟩
    · intro capacity
      have start : message.toList.head? = some 'u' := by
        unfold sourceOfNumber need at unknown
        cases found : List.lookup request.range.source
            [(0, Sdk.Source.unspecified), (1, .binanceSpotTrade), (2, .chainlinkBtcUsd),
              (3, .chainlinkBtcUsdTwap60)] with
        | none =>
          rw [found] at unknown
          rw [← error.inj unknown, String.toList_append]
          rfl
        | some source =>
          rw [found] at unknown
          cases unknown
      unfold capacityMessages at capacity
      simp only [List.mem_cons, List.not_mem_nil, or_false] at capacity
      rcases capacity with rfl | rfl | rfl | rfl <;> cases start
    · rw [eq_of_ensure_eq_error failed]
      decide

end Refusals

/-! ## Creators -/

section Creating

variable {surroundings : Surroundings} {now : Nat} {owner : Option String} {service : Service}

/-- What a creator finds at its first lock. -/
theorem create_cases (request : CreateRequest) :
    (∃ message, (service.create surroundings now owner request).2 = .refused message ∧
      (message ∈ capacityMessages →
        service.serves now owner request.requestId request.range = false)) ∨
    (∃ session, (service.create surroundings now owner request).2 = .found session 0 ∧
      session ∈ (service.create surroundings now owner request).1.sessions.rows ∧
      session.answers owner request.requestId request.range = true ∧
      session.range = request.range) ∨
    (service.create surroundings now owner request).2 = .absent request ∧
      service.serves now owner request.requestId request.range = false := by
  have alone : List.find? (Session.answers owner request.requestId request.range)
      (service.retain now).sessions.rows = none →
      service.serves now owner request.requestId request.range = false := by
    intro none
    refine serves_eq_false_iff.mpr ?_
    intro session mem alive
    exact Bool.eq_false_iff.mpr (List.find?_eq_none.mp none session (mem_retain mem alive))
  unfold Service.create
  split
  · rename_i message failed
    refine .inl ⟨message, rfl, fun capacity => absurd capacity ?_⟩
    rcases bind_eq_error_iff.mp failed with invalid | ⟨_, _, unnamed⟩
    · exact not_capacity_of_validateRange invalid
    · exact not_capacity_of_checkRequestId unnamed
  · split
    · rename_i message failed
      refine .inl ⟨message, rfl, ?_⟩
      intro capacity
      unfold Service.reusable at failed
      split at failed
      · rcases bind_eq_error_iff.mp failed with mismatch | ⟨_, _, never⟩
        · rw [eq_of_ensure_eq_error mismatch] at capacity
          exact absurd capacity (by decide)
        · cases never
      · rename_i none
        exact alone none
    · rename_i session reused
      obtain ⟨mem, answers, ranged⟩ := of_reusable_eq_some reused
      exact .inr (.inl ⟨session, rfl, mem, answers, ranged⟩)
    · rename_i reused
      refine .inr (.inr ⟨rfl, ?_⟩)
      unfold Service.reusable at reused
      split at reused
      · obtain ⟨_, _, never⟩ := bind_ok.mp reused
        cases never
      · rename_i none
        exact alone none

variable {system : System} {label : ServiceLabel} {call : Nat} {request : CreateRequest}

/-- The call of a step is at its phase afterwards. -/
theorem calls_settle (moved : Service × Phase) :
    (system.settle call owner moved).calls call = some ⟨owner, moved.2⟩ := by
  unfold System.settle
  exact Function.update_self _ _ _

/-- How far a creator gets in a step. -/
inductive CreatorGets
    (service : Service) (free : Bool) (owner : Option String)
    (request : CreateRequest) : Phase → Prop
  | found (session : Session) (index : Nat) :
      session ∈ service.sessions.rows →
      session.answers owner request.requestId request.range = true →
      session.range = request.range →
      CreatorGets service free owner request (.found session index)
  | returned (session : Session) (value : HistoryPage) :
      free = true →
      session ∈ service.sessions.rows →
      session.answers owner request.requestId request.range = true →
      session.range = request.range →
      CreatorGets service free owner request (.returned session value)
  | refused (message : String) :
      (message ∈ capacityMessages → free = true) →
      CreatorGets service free owner request (.refused message)
  | goesOn (phase : Phase) :
      free = true →
      phase.creating = some request →
      CreatorGets service free owner request phase

/-- A creator finds a session, or goes on when none serves the range. -/
theorem creator_start (absent : system.calls call = none) :
    CreatorGets (system.step surroundings (.start call owner (.create request))).service
      (!system.service.serves system.now owner request.requestId request.range) owner request
      (system.service.create surroundings system.now owner request).2 := by
  have after : (system.step surroundings (.start call owner (.create request))).service =
      (system.service.create surroundings system.now owner request).1 := by
    unfold System.step
    dsimp only
    rw [absent]
    rfl
  rw [after]
  rcases @create_cases surroundings system.now owner system.service request with
    ⟨message, same, capacity⟩ | ⟨session, same, mem, answers, ranged⟩ | ⟨same, free⟩
  · rw [same]
    refine .refused message ?_
    intro listed
    rw [capacity listed]
    rfl
  · rw [same]
    exact .found session 0 mem answers ranged
  · rw [same, free]
    exact .goesOn _ rfl rfl

/-- A creator whose request has no session builds one, step by step. -/
theorem creator_advance {id : String} {late : Option Nat} {phase : Phase}
    (sound : Sound system) (single : Single system) (made : system.calls call = some ⟨owner, phase⟩)
    (creating : phase.creating = some request) :
    CreatorGets (system.advance surroundings call id late owner phase).1 true owner request
      (system.advance surroundings call id late owner phase).2 := by
  cases phase with
  | absent known =>
    cases creating
    unfold System.advance Service.lock
    dsimp only
    split
    · exact .refused _ fun _ => rfl
    · exact .goesOn _ rfl rfl
  | building known =>
    cases creating
    unfold System.advance Service.admitSession
    dsimp only
    split
    · exact .refused _ fun _ => rfl
    · exact .goesOn _ rfl rfl
  | admitted known =>
    cases creating
    unfold System.advance Service.freeze
    dsimp only
    split
    · exact .refused _ fun _ => rfl
    · exact .goesOn _ rfl rfl
  | frozen known session =>
    cases creating
    unfold System.advance Service.first
    dsimp only
    split
    · exact .refused _ fun _ => rfl
    · exact .goesOn _ rfl rfl
  | paged known session value =>
    cases creating
    obtain ⟨requested, ranged⟩ := single.formed call _ made
    have owned : session.owner = owner := sound.owned call _ made
    unfold System.advance Service.insert
    dsimp only
    split
    · exact .returned session value rfl (Table.mem_put.mpr (.inl rfl))
        (answers_iff.mpr ⟨owned, requested, fun _ => ranged⟩) ranged
    · exact .refused _ fun _ => rfl
  | found session index | counting known | joining known tradeOwners => cases creating
  | joined session place building | refused message | returned session value => cases creating
  | returnedObservations session value | released receipt => cases creating
  | releasedObservations receipt => cases creating

/-- A timely creator is not at work for a request that has a session. -/
theorem creator_step
    (sound : Sound system) (single : Single system) (timely : system.timely label = true)
    (creator : system.creator label = some (call, owner, request)) :
    ∃ phase, (system.step surroundings label).calls call = some ⟨owner, phase⟩ ∧
      CreatorGets (system.step surroundings label).service
        (!system.service.serves system.now owner request.requestId request.range) owner request
        phase := by
  cases label with
  | tick elapsed | trades batch | observations batch => cases creator
  | start other customer asked =>
    cases asked with
    | create known =>
      unfold System.creator at creator
      dsimp only at creator
      split at creator
      · rename_i absent
        obtain ⟨rfl, rest⟩ := Prod.mk.inj (some.inj creator)
        cases rest
        refine ⟨_, ?_, creator_start absent⟩
        unfold System.step
        dsimp only
        rw [absent]
        exact calls_settle _
      · cases creator
    | read known | release known | observe known | releaseObservations known => cases creator
  | resume other id late =>
    unfold System.creator at creator
    obtain ⟨⟨customer, phase⟩, made, creator⟩ := bind_eq_some_iff.mp creator
    obtain ⟨known, creating, same⟩ := map_eq_some_iff.mp creator
    obtain ⟨rfl, rest⟩ := Prod.mk.inj same
    obtain ⟨rfl, rfl⟩ := Prod.mk.inj rest
    have free : system.service.serves system.now customer known.requestId known.range = false := by
      by_cases builds : phase.builds = true
      · exact single.absent other _ known made builds creating
      · cases phase with
        | absent request =>
          cases creating
          unfold System.timely at timely
          dsimp only at timely
          rw [made] at timely
          exact (not_eq_true' _).mp timely
        | building request | admitted request | frozen request session => exact absurd rfl builds
        | paged request session value => exact absurd rfl builds
        | found session index | counting request | joining request tradeOwners => cases creating
        | joined session place building | refused message | returned session value => cases creating
        | returnedObservations session value | released receipt => cases creating
        | releasedObservations receipt => cases creating
    have gets := @creator_advance surroundings _ _ _ _ id late _ sound single made creating
    rw [free]
    refine ⟨(system.advance surroundings other id late customer phase).2, ?_, ?_⟩
    · unfold System.step
      dsimp only
      rw [made]
      exact calls_settle _
    · unfold System.step
      dsimp only
      rw [made]
      exact gets

end Creating

/-! ## Calls for observations -/

section Observing

variable {surroundings : Surroundings} {system : System} {label : ServiceLabel} {call : Nat}
  {owner : Option String} {request : ObservationPageRequest}

/-- How far the first call for observations gets in a step. -/
inductive ObserverGets
    (service : Service) (free : Bool) (owner : Option String)
    (request : ObservationPageRequest) : Phase → Prop
  | joined (session : ObservationSession) (place : Nat) (building : Bool) :
      session ∈ service.observations.rows →
      session.answers owner request.requestId request.range = true →
      session.range = request.range →
      ObserverGets service free owner request (.joined session place building)
  | refused (message : String) :
      (message ∈ capacityMessages → free = true) →
      ObserverGets service free owner request (.refused message)
  | goesOn (phase : Phase) :
      phase.observing = some request →
      ObserverGets service free owner request phase

theorem observer_start (timely : system.timely (.start call owner (.observe request)) = true)
    (absent : system.calls call = none) (first : request.pageToken = none) (service : Service) :
    ObserverGets service
      (!system.service.servesObservations system.now owner request.requestId request.range) owner
      request (system.service.observe surroundings system.now owner call request).2 := by
  unfold System.timely at timely
  dsimp only at timely
  rw [absent, first] at timely
  unfold Service.observe
  rw [first]
  dsimp only
  split
  · rename_i message failed
    refine .refused _ ?_
    intro capacity
    cases held : system.service.build with
    | none =>
      rw [held] at capacity
      exact absurd capacity (not_capacity_of_checkObservations failed)
    | some other =>
      rw [held] at timely
      exact timely
  · unfold Service.lock
    split
    · rename_i other held
      refine .refused _ fun _ => ?_
      rw [held] at timely
      exact timely
    · exact .goesOn _ rfl

theorem observer_join
    {id : String} {store : ObservationStore} {tradeOwners : List String} {service : Service}
    {now : Nat} (distinct : service.DistinctObservations) :
    ObserverGets (service.join now owner id store request tradeOwners).1
      (!service.servesObservations now owner request.requestId request.range) owner request
      (service.join now owner id store request tradeOwners).2 := by
  have shrinks := shrinks_retainObservations now service
  have retained : (service.retainObservations now).DistinctObservations :=
    fun one mem other there => distinct one (shrinks.observations.subset mem) other
      (shrinks.observations.subset there)
  unfold Service.join
  dsimp only
  split
  · rename_i message failed
    refine .refused _ ?_
    intro capacity
    unfold Service.openObservations at failed
    split at failed
    · rcases bind_eq_error_iff.mp failed with mismatch | ⟨_, _, never⟩
      · rw [eq_of_ensure_eq_error mismatch] at capacity
        exact absurd capacity (by decide)
      · cases never
    · rename_i none
      rw [servesObservations_eq_false_iff.mpr]
      · rfl
      · intro session mem alive
        exact Bool.eq_false_iff.mpr
          (List.find?_eq_none.mp none session (mem_retainObservations mem alive))
  · rename_i opened session opens
    obtain ⟨_, _, mem, answers, ranged⟩ := opensObservations retained opens
    exact .joined session _ true mem answers ranged

/-- A caller that opens or joins observations gets them, or goes on. -/
theorem observer_step (single : Single system) (timely : system.timely label = true)
    (observer : system.observer label = some (call, owner, request)) :
    ∃ phase, (system.step surroundings label).calls call = some ⟨owner, phase⟩ ∧
      ObserverGets (system.step surroundings label).service
        (!system.service.servesObservations system.now owner request.requestId request.range)
        owner request phase := by
  cases label with
  | tick elapsed | trades batch | observations batch => cases observer
  | start other customer asked =>
    cases asked with
    | observe known =>
      unfold System.observer at observer
      dsimp only at observer
      split at observer
      · rename_i first
        obtain ⟨rfl, rest⟩ := Prod.mk.inj (some.inj observer)
        obtain ⟨rfl, rfl⟩ := Prod.mk.inj rest
        refine ⟨(system.service.observe surroundings system.now customer other known).2, ?_,
          observer_start timely first.1 first.2 _⟩
        unfold System.step
        dsimp only
        rw [first.1]
        exact calls_settle _
      · cases observer
    | create known | read known | release known | releaseObservations known => cases observer
  | resume other id late =>
    unfold System.observer at observer
    obtain ⟨⟨customer, phase⟩, made, observer⟩ := bind_eq_some_iff.mp observer
    obtain ⟨known, observing, same⟩ := map_eq_some_iff.mp observer
    obtain ⟨rfl, rest⟩ := Prod.mk.inj same
    cases rest
    refine ⟨(system.advance surroundings other id late customer phase).2, ?_, ?_⟩
    · unfold System.step
      dsimp only
      rw [made]
      exact calls_settle _
    · unfold System.step
      dsimp only
      rw [made]
      cases phase with
      | counting request =>
        cases observing
        unfold System.advance Service.count
        dsimp only
        split <;> exact .goesOn _ rfl
      | joining request tradeOwners =>
        cases observing
        exact observer_join single.observations
      | absent request | building request | admitted request => cases observing
      | frozen request session | paged request session value => cases observing
      | found session index | joined session place building | refused message => cases observing
      | returned session value | returnedObservations session value => cases observing
      | released receipt | releasedObservations receipt => cases observing

end Observing

/-! ## Runs -/

/-- One timely step leaves one session for each request. -/
theorem oneEach_step
    (sound : Sound system) (single : Single system) (timely : system.timely label = true) :
    OneEach system label (system.step surroundings label) := by
  have after := @single_step surroundings _ _ sound single timely
  refine ⟨after.distinct, after.observations, ?_, ?_, ?_, ?_, ?_⟩
  · intro call owner request creator serves
    obtain ⟨phase, there, gets⟩ := @creator_step surroundings _ _ _ _ _ sound single timely creator
    rw [serves] at gets
    refine ⟨phase, there, ?_⟩
    cases gets with
    | found session index _ _ _ => exact .inl ⟨session, index, rfl⟩
    | returned session value free _ _ _ => cases free
    | refused message _ => exact .inr ⟨message, rfl⟩
    | goesOn phase free _ => cases free
  · intro call owner request session phase creator there obtained
    obtain ⟨_, known, gets⟩ := @creator_step surroundings _ _ _ _ _ sound single timely creator
    rw [there] at known
    obtain rfl := (Call.mk.inj (some.inj known)).2
    rcases obtained with ⟨index, rfl⟩ | ⟨value, rfl⟩
    · cases gets with
      | found _ _ mem answers ranged => exact ⟨mem, answers, ranged⟩
      | goesOn _ _ creating => cases creating
    · cases gets with
      | returned _ _ _ mem answers ranged => exact ⟨mem, answers, ranged⟩
      | goesOn _ _ creating => cases creating
  · intro call owner request session place building observer there
    obtain ⟨_, known, gets⟩ := @observer_step surroundings _ _ _ _ _ single timely observer
    rw [there] at known
    obtain rfl := (Call.mk.inj (some.inj known)).2
    cases gets with
    | joined _ _ _ mem answers ranged => exact ⟨mem, answers, ranged⟩
    | goesOn _ observing => cases observing
  · intro call owner request message creator there capacity
    obtain ⟨_, known, gets⟩ := @creator_step surroundings _ _ _ _ _ sound single timely creator
    rw [there] at known
    obtain rfl := (Call.mk.inj (some.inj known)).2
    cases gets with
    | refused _ free => exact (not_eq_true' _).mp (free capacity)
    | goesOn _ _ creating => cases creating
  · intro call owner request message observer there capacity
    obtain ⟨_, known, gets⟩ := @observer_step surroundings _ _ _ _ _ single timely observer
    rw [there] at known
    obtain rfl := (Call.mk.inj (some.inj known)).2
    cases gets with
    | refused _ free => exact (not_eq_true' _).mp (free capacity)
    | goesOn _ observing => cases observing

section Sample

/-- Every text names a request. -/
def sampleSurroundings : Surroundings :=
  ⟨sampleCodec, historyPageLength, observationPageLength, fun _ => true⟩

/-- Asks for one trade. -/
def sampleCreate : CreateRequest := ⟨sampleRange 1 1, none, none, none⟩

/-- A call goes on five times under an id, which brings it from its first lock to its
answer. -/
def build (call : Nat) (id : String) : List ServiceLabel := List.replicate 5 (.resume call id none)

/-- Both calls look for a session before one of them makes one. -/
def overlapping : List ServiceLabel :=
  [.start 0 none (.create sampleCreate), .start 1 none (.create sampleCreate)] ++
    build 0 "a" ++ build 1 "b"

/-- The second call comes when the first one has its answer. -/
def following : List ServiceLabel := .start 0 none (.create sampleCreate) :: build 0 "a"

/-- A service over one trade. -/
def sampleSystem : System := .opened (sampleStore [sampleTrade 1 100]) ObservationStore.empty

end Sample

end MarketCow.Btc
