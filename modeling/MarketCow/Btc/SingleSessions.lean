import MarketCow.Btc.ServiceSessions

/-!
# Timely runs

While a call builds for a request, the request has no session and no other call can
make one. So a timely run never makes a second session for a request.
-/

namespace MarketCow.Btc

open Library Function
open Live (ensure_ok)
open Btc.System (advance settle timelyRun)
open Table (mem_put)

/-! ## Sessions of a request -/

section Answering

variable {owner requestId : Option String}

theorem answers_iff {range : Range} {session : Session} :
    session.answers owner requestId range = true ↔
      session.owner = owner ∧ session.requestId = requestId ∧
        (requestId = none → session.range = range) := by
  unfold Session.answers
  cases requestId with
  | none | some id => simp

theorem observations_answers_iff {range : ObservationRange} {session : ObservationSession} :
    session.answers owner requestId range = true ↔
      session.owner = owner ∧ session.requestId = requestId ∧
        (requestId = none → session.range = range) := by
  unfold ObservationSession.answers
  cases requestId with
  | none | some id => simp

variable {service : Service} {now : Nat}

theorem serves_eq_false_iff :
    service.serves now owner requestId range = false ↔
      ∀ session ∈ service.sessions.rows, session.alive now = true →
        session.answers owner requestId range = false := by
  unfold Service.serves
  rw [List.any_eq_false]
  refine forall₂_congr fun session _ => ?_
  rw [not_eq_true, Bool.and_eq_false_imp]

theorem servesObservations_eq_false_iff :
    service.servesObservations now owner requestId range = false ↔
      ∀ session ∈ service.observations.rows, session.alive now = true →
        session.answers owner requestId range = false := by
  unfold Service.servesObservations
  rw [List.any_eq_false]
  refine forall₂_congr fun session _ => ?_
  rw [not_eq_true, Bool.and_eq_false_imp]

/-- A request does not get a session by time, or by fewer sessions. -/
theorem serves_mono {later : Service} (absent : service.serves now owner requestId range = false)
    (fewer : ∀ session ∈ later.sessions.rows, session ∈ service.sessions.rows)
    (grows : now ≤ time) :
    later.serves time owner requestId range = false := by
  refine serves_eq_false_iff.mpr ?_
  intro session mem alive
  refine serves_eq_false_iff.mp absent session (fewer session mem) ?_
  have young := of_decide_eq_true alive
  exact decide_eq_true (by omega)

end Answering

/-! ## The invariant -/

/-- A session that a call builds is for its request. -/
def Call.Formed (call : Call) : Prop :=
  match call.phase with
  | .frozen request session | .paged request session _ =>
    session.requestId = request.requestId ∧ session.range = request.range
  | _ => True

/-- No two sessions are for one request. -/
def Service.Distinct (service : Service) : Prop :=
  ∀ one ∈ service.sessions.rows, ∀ other ∈ service.sessions.rows,
    other.answers one.owner one.requestId one.range = true → one = other

/-- No two observation sessions answer one request. -/
def Service.DistinctObservations (service : Service) : Prop :=
  ∀ one ∈ service.observations.rows, ∀ other ∈ service.observations.rows,
    other.answers one.owner one.requestId one.range = true → one = other

/-- No two sessions answer one request, and a build has none that answers its own. -/
structure Single (system : System) : Prop where
  distinct : system.service.Distinct
  observations : system.service.DistinctObservations
  formed : ∀ call made, system.calls call = some made → made.Formed
  absent : ∀ call made request, system.calls call = some made → made.phase.builds = true →
    made.phase.creating = some request →
    system.service.serves system.now made.owner request.requestId request.range = false

/-- A move that makes no session of trades. -/
structure Steadies
    (now : Nat) (owner : Option String) (before : Service) (moved : Service × Phase) : Prop where
  sessions : ∀ session ∈ moved.1.sessions.rows, session ∈ before.sessions.rows
  observations : moved.1.DistinctObservations
  formed : (Call.mk owner moved.2).Formed
  absent : ∀ request, moved.2.builds = true → moved.2.creating = some request →
    before.serves now owner request.requestId request.range = false

section Moving

variable {call now : Nat} {owner : Option String} {before after service : Service} {phase : Phase}
  {system : System}

/-- A step that steadies the service keeps the sessions single. -/
theorem single_settle {moved : Service × Phase}
    (single : Single system) (steadies : Steadies system.now owner system.service moved) :
    Single (system.settle call owner moved) := by
  refine ⟨?_, steadies.observations, ?_, ?_⟩
  · intro one mem other there
    exact single.distinct one (steadies.sessions one mem) other (steadies.sessions other there)
  · intro other made there
    unfold settle at there
    dsimp only at there
    by_cases same : other = call
    · subst same
      rw [update_self] at there
      rw [← some.inj there]
      exact steadies.formed
    · rw [update_of_ne same] at there
      exact single.formed other made there
  · intro other made request there builds creating
    unfold settle at there
    dsimp only at there
    refine serves_mono ?_ steadies.sessions le_rfl
    by_cases same : other = call
    · subst same
      rw [update_self] at there
      cases there
      exact steadies.absent request builds creating
    · rw [update_of_ne same] at there
      exact single.absent other made request there builds creating

/-- A move that leaves the lock alone and makes no session. -/
theorem steadies_of_shrinks
    (distinct : before.DistinctObservations) (shrinks : Shrinks before after)
    (formed : (Call.mk owner phase).Formed)
    (absent : ∀ request, phase.builds = true → phase.creating = some request →
      before.serves now owner request.requestId request.range = false) :
    Steadies now owner before (after, phase) where
  sessions := fun _ mem => shrinks.sessions.subset mem
  observations := by
    intro one mem other there
    exact distinct one (shrinks.observations.subset mem) other
      (shrinks.observations.subset there)
  formed := formed
  absent := absent

end Moving

/-! ## Moves of a call -/

section Moves

variable {surroundings : Surroundings} {call now : Nat} {owner : Option String} {service : Service}
  {system : System}

/-- A call that starts builds nothing for trades. -/
theorem start_phase (request : Request) {phase : Phase}
    (started : (service.start surroundings now call owner request).2 = phase) :
    (Call.mk owner phase).Formed ∧ (phase.builds = true → phase.creating = none) := by
  subst started
  cases request with
  | create request =>
    unfold Service.start Service.create
    dsimp only
    split
    · exact ⟨trivial, nofun⟩
    · split <;> exact ⟨trivial, nofun⟩
  | read request =>
    unfold Service.start Service.read
    dsimp only
    split
    · exact ⟨trivial, nofun⟩
    · split <;> exact ⟨trivial, nofun⟩
  | release request =>
    unfold Service.start Service.release
    dsimp only
    split
    · exact ⟨trivial, nofun⟩
    · split <;> exact ⟨trivial, nofun⟩
  | observe request =>
    unfold Service.start Service.observe
    dsimp only
    split
    · split
      · exact ⟨trivial, nofun⟩
      · unfold Service.lock
        split
        · exact ⟨trivial, nofun⟩
        · exact ⟨trivial, fun _ => rfl⟩
    · split
      · exact ⟨trivial, nofun⟩
      · split <;> exact ⟨trivial, nofun⟩
  | releaseObservations request =>
    unfold Service.start Service.releaseObservations
    dsimp only
    split
    · exact ⟨trivial, nofun⟩
    · split <;> exact ⟨trivial, nofun⟩

theorem steadies_start
    (sound : Sound system) (single : Single system) (absent : system.calls call = none)
    (owner : Option String) (request : Request) :
    Steadies system.now owner system.service
      (system.service.start surroundings system.now call owner request) := by
  have idle : system.service.build ≠ some call := by
    intro holds
    obtain ⟨made, there, _⟩ := (sound.holder call).mp holds
    rw [absent] at there
    cases there
  have shrinks := (@moves_start surroundings _ _ sound absent owner
    request).others.resolve_right idle
  obtain ⟨formed, quiet⟩ := @start_phase _ _ _ owner _ request _
    (rfl : (system.service.start surroundings system.now call owner request).2 = _)
  refine steadies_of_shrinks single.observations shrinks formed ?_
  intro creating builds named
  cases (quiet builds).symm.trans named

variable {id : String}

theorem range_of_freeze
    (froze : freeze id now late archiveHealth databaseHealth range store = .ok session) :
    session.range = range :=
  (frozen_of_freeze froze).2

variable {store : ObservationStore}

theorem formed_of_freezeObservations
    (froze : freezeObservations id now owner requestId range store = .ok session) :
    session.owner = owner ∧ session.requestId = requestId ∧ session.range = range := by
  iterate 5 obtain ⟨_, _, froze⟩ := bind_ok.mp froze
  cases froze
  exact ⟨rfl, rfl, rfl⟩

/-- What opening a session of observations gives. -/
structure OpensObservations
    (service : Service) (owner : Option String) (request : ObservationPageRequest)
    (opened : Service) (session : ObservationSession) : Prop where
  sessions : opened.sessions = service.sessions
  distinct : opened.DistinctObservations
  member : session ∈ opened.observations.rows
  answers : session.answers owner request.requestId request.range = true
  range : session.range = request.range

theorem opensObservations
    {request : ObservationPageRequest} {tradeOwners : List String} {opened : Service}
    {session : ObservationSession} (distinct : service.DistinctObservations)
    (opens : service.openObservations now owner id store request tradeOwners =
      .ok (opened, session)) :
    OpensObservations service owner request opened session := by
  unfold Service.openObservations at opens
  split at opens
  · rename_i known found
    obtain ⟨_, ranged, opens⟩ := bind_ok.mp opens
    obtain ⟨rfl, rfl⟩ := Prod.mk.inj (ok.inj opens)
    exact ⟨rfl, distinct, List.mem_of_find?_eq_some found, List.find?_some found,
      of_decide_eq_true (ensure_ok.mp ranged)⟩
  · rename_i none
    iterate 2 obtain ⟨_, _, opens⟩ := bind_ok.mp opens
    obtain ⟨frozen, froze, opens⟩ := bind_ok.mp opens
    obtain ⟨rfl, rfl⟩ := Prod.mk.inj (ok.inj opens)
    obtain ⟨owned, requested, ranged⟩ := formed_of_freezeObservations froze
    have answers : frozen.answers owner request.requestId request.range = true :=
      observations_answers_iff.mpr ⟨owned, requested, fun _ => ranged⟩
    have others : ∀ other ∈ service.observations.rows,
        ¬ other.answers owner request.requestId request.range = true :=
      List.find?_eq_none.mp none
    refine ⟨rfl, ?_, mem_put.mpr (.inl rfl), answers, ranged⟩
    intro one mem other there same
    rcases mem_put.mp mem with rfl | ⟨inside, _⟩
    · rcases mem_put.mp there with rfl | ⟨within, _⟩
      · rfl
      · rw [owned, requested, ranged] at same
        exact absurd same (others other within)
    · rcases mem_put.mp there with rfl | ⟨within, _⟩
      · obtain ⟨sameOwner, sameId, sameRange⟩ := observations_answers_iff.mp same
        refine absurd (observations_answers_iff.mpr ⟨?_, ?_, ?_⟩) (others one inside)
        · exact sameOwner.symm.trans owned
        · exact sameId.symm.trans requested
        · intro unnamed
          rw [← ranged]
          exact (sameRange (sameId.symm.trans (requested.trans unnamed))).symm
      · exact distinct one inside other within same

/-- A timely call goes on without making a session of trades, unless it inserts one. -/
theorem steadies_advance (sound : Sound system) (single : Single system)
    (timely : system.timely (.resume call id late) = true)
    (made : system.calls call = some ⟨owner, phase⟩)
    (unpaged : ∀ request session value, phase ≠ .paged request session value) :
    Steadies system.now owner system.service
      (system.advance surroundings call id late owner phase) := by
  have distinct := single.observations
  have formed := single.formed call _ made
  have absent := fun request => single.absent call ⟨owner, phase⟩ request made
  have lock : system.service.build = some call ↔ phase.builds = true := by
    rw [sound.holder call, made]
    simp
  have answered : ∀ after : Service, Shrinks system.service after → ∀ answer : Phase,
      (Call.mk owner answer).Formed → (answer.builds = true → answer.creating = none) →
        Steadies system.now owner system.service (after, answer) := by
    intro after shrinks answer formed quiet
    refine steadies_of_shrinks distinct shrinks formed ?_
    intro creating builds named
    rw [quiet builds] at named
    cases named
  have refused : ∀ after : Service, ∀ message : String, Shrinks system.service after →
      Steadies system.now owner system.service (after, .refused message) :=
    fun after message shrinks => answered after shrinks _ trivial nofun
  have refl := Shrinks.refl system.service
  have unlocked : Shrinks system.service system.service.unlock := ⟨refl.sessions, refl.observations⟩
  cases phase with
  | absent request =>
    have free : system.service.serves system.now owner request.requestId request.range = false := by
      unfold System.timely at timely
      dsimp only at timely
      rw [made] at timely
      exact (not_eq_true' _).mp timely
    unfold advance Service.lock
    dsimp only
    split
    · exact refused _ _ refl
    · refine steadies_of_shrinks distinct ⟨.refl _, .refl _⟩ trivial ?_
      intro creating _ named
      cases named
      exact free
  | building request =>
    have shrinks : Shrinks system.service
        ((system.service.retain system.now).retainObservations system.now) :=
      (shrinks_retain _ _).trans (shrinks_retainObservations _ _)
    unfold advance Service.admitSession
    dsimp only
    split
    · exact refused _ _ ⟨shrinks.sessions, shrinks.observations⟩
    · refine steadies_of_shrinks distinct shrinks trivial ?_
      intro creating _ named
      exact absent creating rfl named
  | admitted request =>
    unfold advance Service.freeze
    dsimp only
    split
    · exact refused _ _ unlocked
    · rename_i session froze
      have ranged := range_of_freeze froze
      refine steadies_of_shrinks distinct refl ⟨rfl, ranged⟩ ?_
      intro creating _ named
      exact absent creating rfl named
  | frozen request session =>
    unfold advance Service.first
    dsimp only
    split
    · exact refused _ _ unlocked
    · refine steadies_of_shrinks distinct refl formed ?_
      intro creating _ named
      exact absent creating rfl named
  | paged request session value => exact absurd rfl (unpaged request session value)
  | found session index =>
    unfold advance Service.readPage
    dsimp only
    split
    · exact refused _ _ refl
    · exact answered _ refl _ trivial nofun
  | counting request =>
    unfold advance Service.count
    dsimp only
    split
    · exact answered _ (shrinks_retain _ _) _ trivial (fun _ => rfl)
    · exact answered _ refl _ trivial (fun _ => rfl)
  | joining request tradeOwners =>
    have shrinks := shrinks_retainObservations system.now system.service
    unfold advance Service.join
    dsimp only
    split
    · exact refused _ _ ⟨shrinks.sessions, shrinks.observations⟩
    · rename_i opened session opens
      have retained : (system.service.retainObservations system.now).DistinctObservations :=
        fun one mem other there => distinct one (shrinks.observations.subset mem) other
          (shrinks.observations.subset there)
      obtain ⟨sessions, distinct, _⟩ := opensObservations retained opens
      refine ⟨?_, distinct, trivial, ?_⟩
      · intro other mem
        rw [show opened.sessions = system.service.sessions from sessions] at mem
        exact mem
      · intro creating _ named
        cases named
  | joined session place building =>
    unfold advance Service.readObservations
    dsimp only
    split
    · cases building with
      | true => exact refused _ _ unlocked
      | false => exact refused _ _ refl
    · cases building with
      | true => exact answered _ unlocked _ trivial nofun
      | false => exact answered _ refl _ trivial nofun
  | refused message => exact refused _ _ refl
  | returned session value => exact answered _ refl _ trivial nofun
  | returnedObservations session value | released receipt => exact answered _ refl _ trivial nofun
  | releasedObservations receipt => exact answered _ refl _ trivial nofun

variable {request : CreateRequest}

/-- The session that is inserted is the only one of its request. -/
theorem distinct_of_put {session : Session} (distinct : service.Distinct)
    (absent : service.serves now owner request.requestId request.range = false)
    (owned : session.owner = owner) (requested : session.requestId = request.requestId)
    (ranged : session.range = request.range) :
    ∀ one ∈ ((service.retain now).sessions.put session).rows,
      ∀ other ∈ ((service.retain now).sessions.put session).rows,
        other.answers one.owner one.requestId one.range = true → one = other := by
  have others : ∀ other ∈ (service.retain now).sessions.rows,
      ¬ other.answers owner request.requestId request.range = true := by
    intro other mem answers
    obtain ⟨there, alive⟩ := Table.mem_keep.mp mem
    rw [serves_eq_false_iff.mp absent other there alive] at answers
    cases answers
  intro one mem other there same
  rcases mem_put.mp mem with rfl | ⟨inside, _⟩
  · rcases mem_put.mp there with rfl | ⟨within, _⟩
    · rfl
    · rw [owned, requested, ranged] at same
      exact absurd same (others other within)
  · rcases mem_put.mp there with rfl | ⟨within, _⟩
    · obtain ⟨sameOwner, sameId, sameRange⟩ := answers_iff.mp same
      refine absurd (answers_iff.mpr ⟨?_, ?_, ?_⟩) (others one inside)
      · exact sameOwner.symm.trans owned
      · exact sameId.symm.trans requested
      · intro unnamed
        rw [← ranged]
        exact (sameRange (sameId.symm.trans (requested.trans unnamed))).symm
    · exact distinct one (Table.keep_sublist.subset inside) other
        (Table.keep_sublist.subset within) same

/-- Inserting a session ends the call, so that no call builds. -/
theorem single_insert (sound : Sound system) (single : Single system)
    (made : system.calls call = some ⟨owner, .paged request session value⟩) :
    Single (system.settle call owner (system.service.insert system.now session value)) := by
  have absent := single.absent call _ request made rfl rfl
  obtain ⟨requested, ranged⟩ := single.formed call _ made
  have owned : session.owner = owner := sound.owned call _ made
  have holds := (sound.holder call).mpr ⟨_, made, rfl⟩
  have alone : ∀ other held, other ≠ call → system.calls other = some held →
      held.phase.builds = false := by
    intro other held ne there
    by_contra builds
    rw [Bool.not_eq_false] at builds
    have same := (sound.holder other).mpr ⟨held, there, builds⟩
    rw [holds] at same
    exact ne (some.inj same).symm
  by_cases free : (system.service.retain system.now).sessions.rows.length < 4
  · unfold Service.insert
    rw [if_pos free]
    refine ⟨distinct_of_put single.distinct absent owned requested ranged, single.observations,
      ?_, ?_⟩
    · intro other held there
      unfold settle at there
      dsimp only at there
      by_cases same : other = call
      · subst same
        rw [update_self] at there
        rw [← some.inj there]
        trivial
      · rw [update_of_ne same] at there
        exact single.formed other held there
    · intro other held creating there builds _
      unfold settle at there
      dsimp only at there
      by_cases same : other = call
      · subst same
        rw [update_self] at there
        cases there
        cases builds
      · rw [update_of_ne same] at there
        rw [alone other held same there] at builds
        cases builds
  · unfold Service.insert
    dsimp only
    rw [if_neg free]
    have shrinks := shrinks_retain system.now system.service
    refine single_settle single (steadies_of_shrinks single.observations
      ⟨shrinks.sessions, shrinks.observations⟩ trivial ?_)
    intro creating builds
    cases builds

end Moves

/-! ## Runs -/

section Runs

variable {surroundings : Surroundings} {system : System} {label : ServiceLabel}

/-- One timely step keeps the sessions single. -/
theorem single_step
    (sound : Sound system) (single : Single system) (timely : system.timely label = true) :
    Single (system.step surroundings label) := by
  cases label with
  | tick elapsed =>
    refine ⟨single.distinct, single.observations, single.formed, ?_⟩
    intro call made request there builds creating
    exact serves_mono (single.absent call made request there builds creating)
      (fun _ mem => mem) (Nat.le_add_right _ _)
  | trades batch | observations batch =>
    exact ⟨single.distinct, single.observations, single.formed, single.absent⟩
  | start call owner request =>
    unfold System.step
    dsimp only
    split
    · exact single
    · rename_i absent
      exact single_settle single (steadies_start sound single absent owner request)
  | resume call id late =>
    unfold System.step
    dsimp only
    split
    · exact single
    · rename_i owner phase made
      by_cases paged : ∃ request session value, phase = .paged request session value
      · obtain ⟨request, session, value, rfl⟩ := paged
        exact single_insert sound single made
      · refine single_settle single (steadies_advance sound single timely made ?_)
        intro request session value same
        exact paged ⟨request, session, value, same⟩

theorem timelyRun_append :
    system.timelyRun surroundings (front ++ [label]) = true ↔
      system.timelyRun surroundings front = true ∧
        (system.run surroundings front).timely label = true := by
  induction front generalizing system with
  | nil =>
    rw [List.nil_append]
    unfold timelyRun timelyRun System.run
    rw [Bool.and_true, List.foldl_nil]
    exact (and_iff_right rfl).symm
  | cons head rest ih =>
    rw [List.cons_append]
    unfold timelyRun System.run
    rw [and_eq_true, and_eq_true, ih, List.foldl_cons, and_assoc]
    exact .rfl

/-- Induction over the steps, the last one first. -/
theorem single_run
    (store : Store) (observationStore : ObservationStore) (labels : List ServiceLabel)
    (timely : (System.opened store observationStore).timelyRun surroundings labels = true) :
    Single ((System.opened store observationStore).run surroundings labels) := by
  induction labels using List.reverseRecOn with
  | nil =>
    refine ⟨?_, ?_, ?_, ?_⟩
    · intro one never
      cases never
    · intro one never
      cases never
    · intro call made never
      cases never
    · intro call made request never
      cases never
  | append_singleton front label ih =>
    obtain ⟨early, last⟩ := timelyRun_append.mp timely
    have before := ih early
    unfold System.run at before last ⊢
    rw [List.foldl_append]
    exact single_step (sound_run store observationStore front) before last

end Runs

end MarketCow.Btc
