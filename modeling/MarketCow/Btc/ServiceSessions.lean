import MarketCow.Btc.ServiceInvariants

/-!
# One session for a request

A call that creates a session of trades looks for one to use again before it takes
the lock on building, and does not look again. When no call takes the lock while its
request has a session, and no call for observations finds the lock taken while its
request has one, every request has one session, which its calls obtain.
-/

namespace MarketCow.Btc

open Library
open Live (ensure_ok)
open Btc.System (advance)

/-! ## Requests and their sessions -/

/-- A request of an owner has a live session. -/
def Service.serves
    (service : Service) (now : Nat) (owner requestId : Option String) (range : Range) : Bool :=
  service.sessions.rows.any fun session =>
    session.alive now && session.answers owner requestId range

/-- A live session answers the observation request. -/
def Service.servesObservations (service : Service) (now : Nat) (owner requestId : Option String)
    (range : ObservationRange) : Bool :=
  service.observations.rows.any fun session =>
    session.alive now && session.answers owner requestId range

/-- The request of a call that creates a session. -/
def Phase.creating : Phase → Option CreateRequest
  | .absent request | .building request | .admitted request | .frozen request _
  | .paged request _ _ => some request
  | _ => none

/-- The observation request of a call that builds. -/
def Phase.observing : Phase → Option ObservationPageRequest
  | .counting request | .joining request _ => some request
  | _ => none

/-- The call that a step moves towards a session, with its owner and its request. -/
def System.creator (system : System) : ServiceLabel → Option (Nat × Option String × CreateRequest)
  | .start call owner (.create request) =>
    if system.calls call = none then some (call, owner, request) else none
  | .resume call _ _ => (system.calls call).bind fun made =>
    made.phase.creating.map fun request => (call, made.owner, request)
  | _ => none

/-- The call that a step counts or joins observations for. -/
def System.observer (system : System) :
    ServiceLabel → Option (Nat × Option String × ObservationPageRequest)
  | .start call owner (.observe request) =>
    if system.calls call = none ∧ request.pageToken = none then some (call, owner, request)
    else none
  | .resume call _ _ => (system.calls call).bind fun made =>
    made.phase.observing.map fun request => (call, made.owner, request)
  | _ => none

/-- No call goes for the lock on building while its request has a session, unless it
is a call for observations that finds the lock free. -/
def System.timely (system : System) : ServiceLabel → Bool
  | .resume call _ _ =>
    match system.calls call with
    | some ⟨owner, .absent request⟩ =>
      !system.service.serves system.now owner request.requestId request.range
    | _ => true
  | .start call owner (.observe request) =>
    request.pageToken.isSome || (system.calls call).isSome || system.service.build.isNone ||
      !system.service.servesObservations system.now owner request.requestId request.range
  | _ => true

/-- Every step of a run is timely. -/
def System.timelyRun (surroundings : Surroundings) (system : System) : List ServiceLabel → Bool
  | [] => true
  | label :: rest =>
    system.timely label && timelyRun surroundings (system.step surroundings label) rest

/-! ## What a step owes its callers -/

/-- The refusals for want of room. -/
def capacityMessages : List String :=
  ["history_capacity", "session_capacity", "session_customer_capacity", "session_public_capacity"]

/-- The bounds hold, and sessions are for their owners only. -/
structure Guarded (before : System) (label : ServiceLabel) (after : System) : Prop where
  bounded : Bounded after.service
  owned : ∀ call made, after.calls call = some made → made.Owned
  kept : ∀ session ∈ before.service.sessions.rows, session.alive before.now = true →
    (∀ row ∈ after.service.sessions.rows, row.id ≠ session.id) →
    ∃ call request, label = .start call session.owner (.release request) ∧
      request.sessionId = session.id
  keptObservations : ∀ session ∈ before.service.observations.rows, session.alive before.now = true →
    (∀ row ∈ after.service.observations.rows, row.id ≠ session.id) →
    ∃ call request, label = .start call session.owner (.releaseObservations request) ∧
      request.sessionId = session.id

/-- A request has one session, and its calls obtain it or have no session to obtain. -/
structure OneEach (before : System) (label : ServiceLabel) (after : System) : Prop where
  distinct : ∀ one ∈ after.service.sessions.rows, ∀ other ∈ after.service.sessions.rows,
    other.answers one.owner one.requestId one.range = true → one = other
  distinctObservations : ∀ one ∈ after.service.observations.rows,
    ∀ other ∈ after.service.observations.rows,
    other.answers one.owner one.requestId one.range = true → one = other
  reuses : ∀ call owner request, before.creator label = some (call, owner, request) →
    before.service.serves before.now owner request.requestId request.range = true →
    ∃ phase, after.calls call = some ⟨owner, phase⟩ ∧
      ((∃ session index, phase = .found session index) ∨ ∃ message, phase = .refused message)
  obtains : ∀ call owner request session phase, before.creator label = some (call, owner, request) →
    after.calls call = some ⟨owner, phase⟩ →
    ((∃ index, phase = .found session index) ∨ ∃ value, phase = .returned session value) →
    session ∈ after.service.sessions.rows ∧
      session.answers owner request.requestId request.range = true ∧
      session.range = request.range
  obtainsObservations : ∀ call owner request session place building,
    before.observer label = some (call, owner, request) →
    after.calls call = some ⟨owner, .joined session place building⟩ →
    session ∈ after.service.observations.rows ∧
      session.answers owner request.requestId request.range = true ∧
      session.range = request.range
  served : ∀ call owner request message, before.creator label = some (call, owner, request) →
    after.calls call = some ⟨owner, .refused message⟩ →
    message ∈ capacityMessages →
    before.service.serves before.now owner request.requestId request.range = false
  servedObservations : ∀ call owner request message,
    before.observer label = some (call, owner, request) →
    after.calls call = some ⟨owner, .refused message⟩ →
    message ∈ capacityMessages →
    before.service.servesObservations before.now owner request.requestId request.range = false

/-! ## The sessions of a step -/

section Guarding

variable {surroundings : Surroundings} {call : Nat} {owner : Option String} {service : Service}
  {now : Nat}

/-- A live session stays in the maps, unless its owner releases it. -/
structure Keeps
    (now : Nat) (before after : Service) (trade : Session → Prop)
    (observation : ObservationSession → Prop) : Prop where
  sessions : ∀ session ∈ before.sessions.rows, session.alive now = true →
    (∀ row ∈ after.sessions.rows, row.id ≠ session.id) → trade session
  observations : ∀ session ∈ before.observations.rows, session.alive now = true →
    (∀ row ∈ after.observations.rows, row.id ≠ session.id) → observation session

variable {trade : Session → Prop} {observation : ObservationSession → Prop} {before after : Service}

/-- Live sessions stay when expired ones are forgotten. -/
theorem keeps_of_mem
    (sessions : ∀ session ∈ before.sessions.rows, session.alive now = true →
      ∃ row ∈ after.sessions.rows, row.id = session.id)
    (observations : ∀ session ∈ before.observations.rows, session.alive now = true →
      ∃ row ∈ after.observations.rows, row.id = session.id) :
    Keeps now before after trade observation where
  sessions session mem alive gone := by
    obtain ⟨row, there, same⟩ := sessions session mem alive
    exact absurd same (gone row there)
  observations session mem alive gone := by
    obtain ⟨row, there, same⟩ := observations session mem alive
    exact absurd same (gone row there)

theorem mem_retain (mem : session ∈ service.sessions.rows) (alive : session.alive now = true) :
    session ∈ (service.retain now).sessions.rows :=
  Table.mem_keep.mpr ⟨mem, alive⟩

theorem mem_retainObservations
    (mem : session ∈ service.observations.rows) (alive : session.alive now = true) :
    session ∈ (service.retainObservations now).observations.rows :=
  Table.mem_keep.mpr ⟨mem, alive⟩

/-- Forgetting expired sessions of either map keeps the live ones. -/
theorem keeps_of_retained
    (sessions : after.sessions = service.sessions ∨ after.sessions = (service.retain now).sessions)
    (observations : after.observations = service.observations ∨
      after.observations = (service.retainObservations now).observations) :
    Keeps now service after trade observation := by
  refine keeps_of_mem ?_ ?_
  · intro session mem alive
    rcases sessions with same | same
    · exact ⟨session, same ▸ mem, rfl⟩
    · exact ⟨session, same ▸ mem_retain mem alive, rfl⟩
  · intro session mem alive
    rcases observations with same | same
    · exact ⟨session, same ▸ mem, rfl⟩
    · exact ⟨session, same ▸ mem_retainObservations mem alive, rfl⟩

/-- A session that is written takes the place of none but its own. -/
theorem exists_of_put {α : Type} {key : α → String} {table : Table key} {row session : α}
    (mem : session ∈ table.rows) :
    ∃ found ∈ (table.put row).rows, key found = key session := by
  by_cases same : key session = key row
  · exact ⟨row, Table.mem_put.mpr (.inl rfl), same.symm⟩
  · exact ⟨session, Table.mem_put.mpr (.inr ⟨mem, same⟩), rfl⟩

theorem keeps_start (request : Request) :
    Keeps now service (service.start surroundings now call owner request).1
      (fun session => session.owner = owner ∧
        ∃ released, request = .release released ∧ released.sessionId = session.id)
      (fun session => session.owner = owner ∧
        ∃ released, request = .releaseObservations released ∧ released.sessionId = session.id) := by
  cases request with
  | create request =>
    unfold Service.start Service.create
    dsimp only
    split
    · exact keeps_of_retained (.inl rfl) (.inl rfl)
    · split <;> exact keeps_of_retained (.inr rfl) (.inl rfl)
  | read request =>
    unfold Service.start Service.read
    dsimp only
    split
    · exact keeps_of_retained (.inl rfl) (.inl rfl)
    · split <;> exact keeps_of_retained (.inr rfl) (.inl rfl)
  | observe request =>
    unfold Service.start Service.observe
    dsimp only
    split
    · split
      · exact keeps_of_retained (.inl rfl) (.inl rfl)
      · unfold Service.lock
        split <;> exact keeps_of_retained (.inl rfl) (.inl rfl)
    · split
      · exact keeps_of_retained (.inl rfl) (.inl rfl)
      · split <;> exact keeps_of_retained (.inl rfl) (.inr rfl)
  | release request =>
    unfold Service.start Service.release
    dsimp only
    split
    · exact keeps_of_retained (.inl rfl) (.inl rfl)
    · split
      · exact keeps_of_retained (.inr rfl) (.inl rfl)
      · rename_i allowed
        refine ⟨?_, fun session mem _ gone => absurd rfl (gone session mem)⟩
        intro session mem alive gone
        have there := mem_retain mem alive
        have same : session.id = request.sessionId := by
          by_contra ne
          exact absurd rfl (gone session (Table.mem_keep.mpr ⟨there, decide_eq_true ne⟩))
        have found := Table.find_eq_some_iff.mpr ⟨there, same⟩
        unfold Service.checkRelease at allowed
        rw [found] at allowed
        obtain ⟨_, owned, _⟩ := bind_ok.mp allowed
        exact ⟨of_decide_eq_true (ensure_ok.mp owned), request, rfl, same.symm⟩
  | releaseObservations request =>
    unfold Service.start Service.releaseObservations
    dsimp only
    split
    · exact keeps_of_retained (.inl rfl) (.inl rfl)
    · split
      · exact keeps_of_retained (.inl rfl) (.inr rfl)
      · rename_i allowed
        refine ⟨fun session mem _ gone => absurd rfl (gone session mem), ?_⟩
        intro session mem alive gone
        have there := mem_retainObservations mem alive
        have same : session.id = request.sessionId := by
          by_contra ne
          exact absurd rfl (gone session (Table.mem_keep.mpr ⟨there, decide_eq_true ne⟩))
        have found := Table.find_eq_some_iff.mpr ⟨there, same⟩
        unfold Service.checkReleaseObservations at allowed
        rw [found] at allowed
        obtain ⟨_, owned, _⟩ := bind_ok.mp allowed
        exact ⟨of_decide_eq_true (ensure_ok.mp owned), request, rfl, same.symm⟩

theorem keeps_advance {system : System} (id : String) (late : Option Nat) (phase : Phase) :
    Keeps system.now system.service
      (system.advance surroundings call id late owner phase).1 (fun _ => False) fun _ => False := by
  cases phase with
  | absent request =>
    unfold advance Service.lock
    dsimp only
    split <;> exact keeps_of_retained (.inl rfl) (.inl rfl)
  | building request =>
    unfold advance Service.admitSession
    dsimp only
    split <;> exact keeps_of_retained (.inr rfl) (.inr rfl)
  | admitted request =>
    unfold advance Service.freeze
    dsimp only
    split <;> exact keeps_of_retained (.inl rfl) (.inl rfl)
  | frozen request session =>
    unfold advance Service.first
    dsimp only
    split <;> exact keeps_of_retained (.inl rfl) (.inl rfl)
  | paged request session value =>
    unfold advance Service.insert
    dsimp only
    split
    · refine keeps_of_mem ?_ (fun other mem _ => ⟨other, mem, rfl⟩)
      intro other mem alive
      exact exists_of_put (mem_retain mem alive)
    · exact keeps_of_retained (.inr rfl) (.inl rfl)
  | found session index =>
    unfold advance Service.readPage
    dsimp only
    split <;> exact keeps_of_retained (.inl rfl) (.inl rfl)
  | counting request =>
    unfold advance Service.count
    dsimp only
    split
    · exact keeps_of_retained (.inr rfl) (.inl rfl)
    · exact keeps_of_retained (.inl rfl) (.inl rfl)
  | joining request tradeOwners =>
    unfold advance Service.join
    dsimp only
    split
    · exact keeps_of_retained (.inl rfl) (.inr rfl)
    · rename_i opened session opens
      unfold Service.openObservations at opens
      split at opens
      · obtain ⟨_, _, opens⟩ := bind_ok.mp opens
        obtain ⟨rfl, _⟩ := Prod.mk.inj (ok.inj opens)
        exact keeps_of_retained (.inl rfl) (.inr rfl)
      · obtain ⟨_, _, _, _, frozen, _, opens⟩ := bind₃_ok.mp opens
        obtain ⟨rfl, _⟩ := Prod.mk.inj (ok.inj opens)
        refine keeps_of_mem (fun other mem _ => ⟨other, mem, rfl⟩) ?_
        intro other mem alive
        exact exists_of_put (mem_retainObservations mem alive)
  | joined session place building =>
    unfold advance Service.readObservations
    dsimp only
    split <;> split <;> exact keeps_of_retained (.inl rfl) (.inl rfl)
  | refused message | returned session value => exact keeps_of_retained (.inl rfl) (.inl rfl)
  | returnedObservations session value => exact keeps_of_retained (.inl rfl) (.inl rfl)
  | released receipt | releasedObservations receipt => exact keeps_of_retained (.inl rfl) (.inl rfl)

/-- A live session goes only when its owner releases it. -/
theorem guarded_step (sound : Sound system) (label : ServiceLabel) :
    Guarded system label (system.step surroundings label) := by
  have after := @sound_step surroundings _ sound label
  have kept : Keeps system.now system.service (system.step surroundings label).service
      (fun session => ∃ call request, label = .start call session.owner (.release request) ∧
        request.sessionId = session.id)
      (fun session => ∃ call request,
        label = .start call session.owner (.releaseObservations request) ∧
          request.sessionId = session.id) := by
    cases label with
    | tick elapsed | trades batch => exact keeps_of_retained (.inl rfl) (.inl rfl)
    | observations batch => exact keeps_of_retained (.inl rfl) (.inl rfl)
    | start call owner request =>
      unfold System.step
      dsimp only
      split
      · exact keeps_of_retained (.inl rfl) (.inl rfl)
      · obtain ⟨sessions, observations⟩ := @keeps_start surroundings call owner
          system.service system.now request
        refine ⟨?_, ?_⟩
        · intro session mem alive gone
          obtain ⟨rfl, released, rfl, same⟩ := sessions session mem alive gone
          exact ⟨call, released, rfl, same⟩
        · intro session mem alive gone
          obtain ⟨rfl, released, rfl, same⟩ := observations session mem alive gone
          exact ⟨call, released, rfl, same⟩
    | resume call id late =>
      unfold System.step
      dsimp only
      split
      · exact keeps_of_retained (.inl rfl) (.inl rfl)
      · rename_i owner phase made
        obtain ⟨sessions, observations⟩ := @keeps_advance surroundings call owner
          system id late phase
        exact ⟨fun session mem alive gone => (sessions session mem alive gone).elim,
          fun session mem alive gone => (observations session mem alive gone).elim⟩
  exact ⟨after.bounded, after.owned, kept.sessions, kept.observations⟩

end Guarding

end MarketCow.Btc
