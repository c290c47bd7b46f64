import MarketCow.Btc.ObservationSegments

/-!
# The service of frozen ranges

Calls that run side by side share two maps of sessions and one lock on building.
A call goes on from one lock to the next, or to its next read of the database, and
any other call may take its turn between.
-/

namespace MarketCow.Btc

open Library
open Live (Codec ensure need)

/-! ## Requests -/

/-- Freeze a range, with the health of the archive and the database as the caller saw it. -/
structure CreateRequest where
  range : Range
  archiveHealth : Option Health
  databaseHealth : Option Health
  requestId : Option String
  deriving DecidableEq

/-- Read a page of a session. -/
structure PageRequest where
  range : Range
  pageToken : Option PageToken
  requestId : Option String
  deriving DecidableEq

/-- Give a session back. -/
structure ReleaseRequest where
  sessionId : String
  range : Range
  requestId : Option String
  deriving DecidableEq

/-- What a release answers: whether there was a session. -/
structure ReleaseReceipt where
  schemaVersion : String
  sessionId : String
  range : Range
  requestId : Option String
  released : Bool
  deriving DecidableEq

/-- Give an observation session back. -/
structure ObservationReleaseRequest where
  sessionId : String
  range : ObservationRange
  requestId : Option String
  deriving DecidableEq

/-- What the release of an observation session answers. -/
structure ObservationReleaseReceipt where
  schemaVersion : String
  sessionId : String
  range : ObservationRange
  requestId : Option String
  released : Bool
  deriving DecidableEq

/-- What a client asks of the service. -/
inductive Request
  | create (request : CreateRequest)
  | read (request : PageRequest)
  | release (request : ReleaseRequest)
  | observe (request : ObservationPageRequest)
  | releaseObservations (request : ObservationReleaseRequest)
  deriving DecidableEq

/-! ## Calls -/

/-- How far a call is: what it waits for next, or its answer. -/
inductive Phase
  | absent (request : CreateRequest)
  | building (request : CreateRequest)
  | admitted (request : CreateRequest)
  | frozen (request : CreateRequest) (session : Session)
  | paged (request : CreateRequest) (session : Session) (page : HistoryPage)
  | found (session : Session) (index : Nat)
  | counting (request : ObservationPageRequest)
  | joining (request : ObservationPageRequest) (tradeOwners : List String)
  | joined (session : ObservationSession) (place : Nat) (building : Bool)
  | refused (message : String)
  | returned (session : Session) (page : HistoryPage)
  | returnedObservations (session : ObservationSession) (page : ObservationPage)
  | released (receipt : ReleaseReceipt)
  | releasedObservations (receipt : ObservationReleaseReceipt)
  deriving DecidableEq

/-- A call with its owner, and how far it has come. -/
structure Call where
  owner : Option String
  phase : Phase
  deriving DecidableEq

/-- The maps of sessions, and the call that builds. -/
structure Service where
  sessions : Table Session.id
  build : Option Nat
  observations : Table ObservationSession.id

/-- What the service is to know of the world: the number formats of the store, the
lengths on the wire and which texts are request ids. -/
structure Surroundings where
  codec : Codec
  pageLength : HistoryPage → Nat
  observationPageLength : ObservationPage → Nat
  isUuid : String → Bool

/-! ## Maps -/

/-- The session has not outlived its time. -/
def Session.alive (now : Nat) (session : Session) : Bool :=
  decide (now - session.created < timeToLive)

/-- The observation session has not outlived its time. -/
def ObservationSession.alive (now : Nat) (session : ObservationSession) : Bool :=
  decide (now - session.created < timeToLive)

/-- The session of an owner for a request: by the id of the request, or by the range
when it has none. -/
def Session.answers (owner requestId : Option String) (range : Range) (session : Session) : Bool :=
  decide (session.owner = owner) && match requestId with
    | some id => decide (session.requestId = some id)
    | none => session.requestId.isNone && decide (session.range = range)

/-- The session is the one a repeated request means: the same owner and the same request, or the
same range when no request is named. -/
def ObservationSession.answers (owner requestId : Option String) (range : ObservationRange)
    (session : ObservationSession) : Bool :=
  decide (session.owner = owner) && match requestId with
    | some id => decide (session.requestId = some id)
    | none => session.requestId.isNone && decide (session.range = range)

/-- Customers share two sessions, one for each of them. -/
def admitPublic (owners : List (Option String)) (owner : Option String) : Except String Unit :=
  match owner with
  | none => .ok ()
  | some name => do
    let count ← owners.reduceOption.foldlM (fun count existing => do
      ensure (decide (existing ≠ name)) "session_customer_capacity"
      .ok (count + 1)) 0
    ensure (decide (count < 2)) "session_public_capacity"

/-- A request that is named is named by a UUID. -/
def checkRequestId (isUuid : String → Bool) (requestId : Option String) : Except String Unit :=
  ensure (requestId.all isUuid) "invalid_request_id"

section Service

variable (surroundings : Surroundings) (now : Nat) (owner : Option String)

/-! ## Creating a session of trades -/

/-- A session to use again, or none with room for another. -/
def Service.reusable (service : Service) (request : CreateRequest) :
    Except String (Option Session) :=
  match service.sessions.rows.find? (Session.answers owner request.requestId request.range) with
  | some session => do
    ensure (decide (session.range = request.range)) "session_request_mismatch"
    .ok (some session)
  | none => do
    ensure (decide (service.sessions.rows.length < 4)) "session_capacity"
    .ok none

/-- Forget the sessions whose time is over. -/
def Service.retain (service : Service) : Service :=
  { service with sessions := service.sessions.keep (Session.alive now) }

/-- Drop the observation sessions whose time is over. -/
def Service.retainObservations (service : Service) : Service :=
  { service with observations := service.observations.keep (ObservationSession.alive now) }

/-- Let the next build in. -/
def Service.unlock (service : Service) : Service := { service with build := none }

/-- Check the request and look for a session that already answers it. -/
def Service.create (service : Service) (request : CreateRequest) : Service × Phase :=
  match (do validateRange request.range; checkRequestId surroundings.isUuid request.requestId) with
  | .error message => (service, .refused message)
  | .ok _ =>
    match (service.retain now).reusable owner request with
    | .error message => (service.retain now, .refused message)
    | .ok (some session) => (service.retain now, .found session 0)
    | .ok none => (service.retain now, .absent request)

/-- Take the lock on building, or give up. -/
def Service.lock (service : Service) (call : Nat) (next : Phase) : Service × Phase :=
  match service.build with
  | some _ => (service, .refused "history_capacity")
  | none => ({ service with build := some call }, next)

/-- The owners of all sessions. -/
def Service.owners (service : Service) : List (Option String) :=
  service.sessions.rows.map Session.owner ++ service.observations.rows.map ObservationSession.owner

/-- Under the lock, the owner's share of the public sessions is checked. -/
def Service.admitSession (service : Service) (request : CreateRequest) : Service × Phase :=
  let retained := (service.retain now).retainObservations now
  match admitPublic retained.owners owner with
  | .error message => (retained.unlock, .refused message)
  | .ok _ => (retained, .admitted request)

/-- Scan the store for the pages of the range. A refusal gives the lock back. -/
def Service.freeze (service : Service) (id : String) (late : Option Nat) (store : Store)
    (request : CreateRequest) : Service × Phase :=
  match Btc.freeze id now late request.archiveHealth request.databaseHealth request.range store with
  | .error message => (service.unlock, .refused message)
  | .ok session =>
    (service, .frozen request { session with owner, requestId := request.requestId })

variable (service : Service)

/-- Read page zero before the session is kept. -/
def Service.first (store : Store) (request : CreateRequest) (session : Session) : Service × Phase :=
  match page surroundings.pageLength now session 0 store with
  | .error message => (service.unlock, .refused message)
  | .ok value => (service, .paged request session value)

/-- Keep the session when fewer than four are alive, and give the lock back. -/
def Service.insert (service : Service) (session : Session) (value : HistoryPage) :
    Service × Phase :=
  let retained := service.retain now
  if retained.sessions.rows.length < 4 then
    ({ retained.unlock with sessions := retained.sessions.put session }, .returned session value)
  else (retained.unlock, .refused "session_capacity")

/-! ## Reading and releasing trades -/

/-- The session of a token. -/
def Service.named (service : Service) (request : PageRequest) : Except String (Session × Nat) := do
  let token ← need request.pageToken "missing page token"
  let session ← need (service.sessions.find token.sessionId) "session_expired_or_unknown"
  ensure (decide (session.owner = owner)) "session_owner_mismatch"
  ensure (decide (session.range = request.range)) "session_range_mismatch"
  ensure (decide (session.requestId = request.requestId)) "session_request_mismatch"
  .ok (session, token.place)

/-- Find the session and the index that the token of a page names. -/
def Service.read (service : Service) (request : PageRequest) : Service × Phase :=
  match (do validateRange request.range; need request.pageToken "missing page token") with
  | .error message => (service, .refused message)
  | .ok _ =>
    match (service.retain now).named owner request with
    | .error message => (service.retain now, .refused message)
    | .ok (session, index) => (service.retain now, .found session index)

/-- Read a page of a session that was found. -/
def Service.readPage (store : Store) (session : Session) (index : Nat) : Service × Phase :=
  match page surroundings.pageLength now session index store with
  | .error message => (service, .refused message)
  | .ok value => (service, .returned session value)

/-- A session may be released by its owner, for its own request. -/
def Service.checkRelease (service : Service) (request : ReleaseRequest) : Except String Unit :=
  match service.sessions.find request.sessionId with
  | none => .ok ()
  | some session => do
    ensure (decide (session.owner = owner)) "session_owner_mismatch"
    ensure (decide (session.range = request.range)) "session_range_mismatch"
    ensure (decide (session.requestId = request.requestId)) "session_request_mismatch"

/-- Drop a session that is the owner's and has this range and request. -/
def Service.release (service : Service) (request : ReleaseRequest) : Service × Phase :=
  match (do
    validateRange request.range
    ensure (surroundings.isUuid request.sessionId) "release session identity") with
  | .error message => (service, .refused message)
  | .ok _ =>
    let retained := service.retain now
    match retained.checkRelease owner request with
    | .error message => (retained, .refused message)
    | .ok _ =>
      ({ retained with sessions := retained.sessions.remove request.sessionId },
        .released
          { schemaVersion := "marketcow.btc-history-release.v3"
            sessionId := request.sessionId
            range := request.range
            requestId := request.requestId
            released := (retained.sessions.find request.sessionId).isSome })

/-! ## Observations -/

/-- The request is named rightly and has a valid range. -/
def checkObservations (request : ObservationPageRequest) : Except String Unit := do
  checkRequestId surroundings.isUuid request.requestId
  request.range.validate

/-- The session that a token of observations names. -/
def Service.resume (service : Service) (request : ObservationPageRequest) (token : PageToken) :
    Except String (ObservationSession × Nat) := do
  let session ← need (service.observations.find token.sessionId) "session_expired_or_unknown"
  let place ← session.resume owner request.requestId request.range token
  .ok (session, place)

/-- The first page of observations takes the lock on building, the other pages go by
their tokens. -/
def Service.observe (service : Service) (call : Nat) (request : ObservationPageRequest) :
    Service × Phase :=
  match request.pageToken with
  | none =>
    match checkObservations surroundings request with
    | .error message =>
      (service, .refused (if service.build.isSome then "history_capacity" else message))
    | .ok _ => service.lock call (.counting request)
  | some token =>
    match checkObservations surroundings request with
    | .error message => (service, .refused message)
    | .ok _ =>
      match (service.retainObservations now).resume owner request token with
      | .error message => (service.retainObservations now, .refused message)
      | .ok (session, place) => (service.retainObservations now, .joined session place false)

/-- Note the customers that have sessions of trades. -/
def Service.count (service : Service) (request : ObservationPageRequest) : Service × Phase :=
  if owner.isSome then
    (service.retain now, .joining request (((service.retain now).sessions.rows.map
      Session.owner).reduceOption))
  else (service, .joining request [])

/-- A session to use again, or room for another. -/
def Service.openObservations
    (id : String) (store : ObservationStore) (request : ObservationPageRequest)
    (tradeOwners : List String) : Except String (Service × ObservationSession) :=
  match service.observations.rows.find?
      (ObservationSession.answers owner request.requestId request.range) with
  | some session => do
    ensure (decide (session.range = request.range)) "session_range_mismatch"
    .ok (service, session)
  | none => do
    admitPublic (tradeOwners.map some ++
      service.observations.rows.map ObservationSession.owner) owner
    ensure (decide (service.observations.rows.length < 4)) "session_capacity"
    let session ← freezeObservations id now owner request.requestId request.range store
    .ok ({ service with observations := service.observations.put session }, session)

/-- Open a session for the observations, or join the one that answers the request. -/
def Service.join (id : String) (store : ObservationStore) (request : ObservationPageRequest)
    (tradeOwners : List String) : Service × Phase :=
  let retained := service.retainObservations now
  match retained.openObservations now owner id store request tradeOwners with
  | .error message => (retained.unlock, .refused message)
  | .ok (opened, session) => (opened, .joined session (session.first - 1) true)

/-- Read the observations after a place; a build gives its lock back. -/
def Service.readObservations (store : ObservationStore) (session : ObservationSession) (place : Nat)
    (building : Bool) : Service × Phase :=
  let unlocked := if building then service.unlock else service
  match observationPage surroundings.observationPageLength session place store with
  | .error message => (unlocked, .refused message)
  | .ok value => (unlocked, .returnedObservations session value)

/-- An observation session is released by its owner, with its range and request. -/
def Service.checkReleaseObservations (service : Service) (request : ObservationReleaseRequest) :
    Except String Unit :=
  match service.observations.find request.sessionId with
  | none => .ok ()
  | some session => do
    ensure (decide (session.owner = owner)) "session_owner_mismatch"
    ensure (decide (session.range = request.range)) "session_range_mismatch"
    ensure (decide (session.requestId = request.requestId)) "session_request_mismatch"

/-- Drop an observation session, and say whether there was one. -/
def Service.releaseObservations (service : Service) (request : ObservationReleaseRequest) :
    Service × Phase :=
  match (do
    ensure (surroundings.isUuid request.sessionId) "release session identity"
    checkRequestId surroundings.isUuid request.requestId) with
  | .error message => (service, .refused message)
  | .ok _ =>
    let retained := service.retainObservations now
    match retained.checkReleaseObservations owner request with
    | .error message => (retained, .refused message)
    | .ok _ =>
      ({ retained with observations := retained.observations.remove request.sessionId },
        .releasedObservations
          { schemaVersion := "marketcow.btc-observation-history-release.v3"
            sessionId := request.sessionId
            range := request.range
            requestId := request.requestId
            released := (retained.observations.find request.sessionId).isSome })

end Service

/-! ## Calls side by side -/

/-- The service, the clock, the databases, and the calls that were made. -/
structure System where
  service : Service
  now : Nat
  store : Store
  observationStore : ObservationStore
  calls : Nat → Option Call

/-- Time passes, a batch is written, a call comes or goes on. What a call draws on its
way, a new id and a deadline, is part of its step. -/
inductive ServiceLabel
  | tick (elapsed : Nat)
  | trades (batch : Batch)
  | observations (batch : ObservationBatch)
  | start (call : Nat) (owner : Option String) (request : Request)
  | resume (call : Nat) (id : String) (late : Option Nat)

section Steps

variable (surroundings : Surroundings)

/-- A call comes to its first lock. -/
def Service.start
    (now call : Nat) (owner : Option String) (service : Service) : Request → Service × Phase
  | .create request => service.create surroundings now owner request
  | .read request => service.read now owner request
  | .release request => service.release surroundings now owner request
  | .observe request => service.observe surroundings now owner call request
  | .releaseObservations request => service.releaseObservations surroundings now owner request

/-- A call goes on; an answered one stays as it is. -/
def System.advance
    (system : System) (call : Nat) (id : String) (late : Option Nat)
    (owner : Option String) : Phase → Service × Phase
  | .absent request => system.service.lock call (.building request)
  | .building request => system.service.admitSession system.now owner request
  | .admitted request => system.service.freeze system.now owner id late system.store request
  | .frozen request session =>
    system.service.first surroundings system.now system.store request session
  | .paged _ session value => system.service.insert system.now session value
  | .found session index =>
    system.service.readPage surroundings system.now system.store session index
  | .counting request => system.service.count system.now owner request
  | .joining request tradeOwners =>
    system.service.join system.now owner id system.observationStore request tradeOwners
  | .joined session place building =>
    system.service.readObservations surroundings system.observationStore session place building
  | answered => (system.service, answered)

/-- The system after a call has moved. -/
def System.settle
    (system : System) (call : Nat) (owner : Option String) (moved : Service × Phase) : System :=
  { system with
    service := moved.1
    calls := Function.update system.calls call (some ⟨owner, moved.2⟩) }

/-- A step of the clock, the stores or a call. A call that is in use is not started again. -/
def System.step (system : System) : ServiceLabel → System
  | .tick elapsed => { system with now := system.now + elapsed }
  | .trades batch => { system with store := system.store.write surroundings.codec batch }
  | .observations batch =>
    { system with observationStore := system.observationStore.write surroundings.codec batch }
  | .start call owner request =>
    match system.calls call with
    | some _ => system
    | none => system.settle call owner
        (system.service.start surroundings system.now call owner request)
  | .resume call id late =>
    match system.calls call with
    | none => system
    | some ⟨owner, phase⟩ =>
      system.settle call owner (system.advance surroundings call id late owner phase)

/-- No sessions, and no build. -/
def Service.empty : Service := ⟨Table.empty, none, Table.empty⟩

/-- A new service on its databases. -/
def System.opened (store : Store) (observationStore : ObservationStore) : System where
  service := Service.empty
  now := 0
  store
  observationStore
  calls _ := none

/-- What the steps leave. -/
def System.run (system : System) (labels : List ServiceLabel) : System :=
  labels.foldl (System.step surroundings) system

end Steps

end MarketCow.Btc
