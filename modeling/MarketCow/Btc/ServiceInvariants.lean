import MarketCow.Btc.HistoryService

/-!
# What always holds of the service

Whatever the order of the calls, the call that builds is the only one that may add a
session, and what it checked still holds when it adds one. So the maps stay within
their bounds, customers have their share, and a call only has sessions of its owner.
-/

namespace MarketCow.Btc

open Library Function
open Live (ensure ensure_ok)
open Call (mk)

/-! ## Customers -/

/-- The customers that have a session. -/
def Service.customers (service : Service) : List String := service.owners.reduceOption

/-- The customers may get one more. -/
def Admissible (owner : Option String) (customers : List String) : Prop :=
  ∀ name, owner = some name → name ∉ customers ∧ customers.length < 2

theorem count_ok_iff {names : List String} {name : String} {count result : Nat} :
    names.foldlM (fun count existing => do
        ensure (decide (existing ≠ name)) "session_customer_capacity"
        .ok (count + 1)) count = (.ok result : Except String Nat) ↔
      name ∉ names ∧ result = count + names.length := by
  induction names generalizing count with
  | nil =>
    simp only [List.foldlM_nil, List.not_mem_nil, not_false_eq_true, true_and, List.length_nil,
      Nat.add_zero]
    exact ⟨fun same => (ok.inj same).symm, fun same => congrArg Except.ok same.symm⟩
  | cons existing names ih =>
    rw [List.foldlM_cons, bind_ok]
    simp only [bind_ok, ensure_ok, decide_eq_true_eq, List.mem_cons, List.length_cons, not_or]
    constructor
    · rintro ⟨next, ⟨_, ne, same⟩, rest⟩
      cases same
      obtain ⟨absent, rfl⟩ := ih.mp rest
      refine ⟨⟨Ne.symm ne, absent⟩, ?_⟩
      omega
    · rintro ⟨⟨ne, absent⟩, rfl⟩
      refine ⟨count + 1, ⟨(), Ne.symm ne, rfl⟩, ih.mpr ⟨absent, ?_⟩⟩
      omega

/-- The check counts the owner and the other owners. -/
theorem admitPublic_ok_iff {owners : List (Option String)} {owner : Option String} :
    admitPublic owners owner = .ok () ↔ Admissible owner owners.reduceOption := by
  unfold admitPublic Admissible
  cases owner with
  | none => exact iff_of_true rfl (fun _ never => nomatch never)
  | some name =>
    rw [bind_ok]
    simp only [count_ok_iff, ensure_ok, decide_eq_true_eq, Option.some.injEq, Nat.zero_add]
    constructor
    · rintro ⟨_, ⟨absent, rfl⟩, few⟩ other rfl
      exact ⟨absent, few⟩
    · intro holds
      obtain ⟨absent, few⟩ := holds name rfl
      exact ⟨_, ⟨absent, rfl⟩, few⟩

/-! ## Services with fewer sessions -/

/-- Sessions were dropped, and none were added. -/
structure Shrinks (before after : Service) : Prop where
  sessions : after.sessions.rows.Sublist before.sessions.rows
  observations : after.observations.rows.Sublist before.observations.rows

/-- The maps are within their bounds. -/
structure Bounded (service : Service) : Prop where
  sessions : service.sessions.rows.length ≤ 4
  observations : service.observations.rows.length ≤ 4
  customers : service.customers.Nodup
  total : service.customers.length ≤ 2

section Shrinking

variable {before middle after : Service} {owner : Option String}

theorem Shrinks.refl (service : Service) : Shrinks service service := ⟨.refl _, .refl _⟩

theorem Shrinks.trans (first : Shrinks before middle) (second : Shrinks middle after) :
    Shrinks before after :=
  ⟨second.sessions.trans first.sessions, second.observations.trans first.observations⟩

theorem Shrinks.customers (shrinks : Shrinks before after) :
    after.customers.Sublist before.customers :=
  ((shrinks.sessions.map _).append (shrinks.observations.map _)).filterMap _

theorem Shrinks.bounded (shrinks : Shrinks before after) (bounded : Bounded before) :
    Bounded after where
  sessions := shrinks.sessions.length_le.trans bounded.sessions
  observations := shrinks.observations.length_le.trans bounded.observations
  customers := bounded.customers.sublist shrinks.customers
  total := shrinks.customers.length_le.trans bounded.total

theorem Admissible.mono (admissible : Admissible owner second) (sublist : first.Sublist second) :
    Admissible owner first := by
  intro name named
  obtain ⟨absent, few⟩ := admissible name named
  exact ⟨fun mem => absent (sublist.subset mem), sublist.length_le.trans_lt few⟩

theorem shrinks_retain (now : Nat) (service : Service) : Shrinks service (service.retain now) :=
  ⟨Table.keep_sublist, .refl _⟩

theorem shrinks_retainObservations (now : Nat) (service : Service) :
    Shrinks service (service.retainObservations now) :=
  ⟨.refl _, Table.keep_sublist⟩

/-- A customer who may get a session gets one within the bounds. -/
theorem customers_of_put {customers others : List String}
    (admissible : Admissible owner others) (distinct : others.Nodup) (few : others.length ≤ 2)
    (perm : customers.Perm (owner.toList ++ others)) :
    customers.Nodup ∧ customers.length ≤ 2 := by
  rw [perm.nodup_iff, perm.length_eq]
  cases owner with
  | none => exact ⟨distinct, few⟩
  | some name =>
    obtain ⟨absent, less⟩ := admissible name rfl
    exact ⟨List.nodup_cons.mpr ⟨absent, distinct⟩, less⟩

end Shrinking

/-! ## Calls -/

/-- A call that holds the lock on building. -/
def Phase.builds : Phase → Bool
  | .building _ | .admitted _ | .frozen _ _ | .paged _ _ _ | .counting _ | .joining _ _ => true
  | .joined _ _ held => held
  | _ => false

/-- The sessions that a call has are of its owner. -/
def Call.Owned (call : Call) : Prop :=
  match call.phase with
  | .frozen _ session | .paged _ session _ | .found session _ | .returned session _ =>
    session.owner = call.owner
  | .joined session _ _ | .returnedObservations session _ => session.owner = call.owner
  | _ => True

/-- What a building call found out about the customers still holds. -/
def Call.Room (service : Service) (call : Call) : Prop :=
  match call.phase with
  | .admitted _ | .frozen _ _ | .paged _ _ _ => Admissible call.owner service.customers
  | .joining _ tradeOwners => call.owner.isSome →
      (service.sessions.rows.map Session.owner).reduceOption.Sublist tradeOwners
  | _ => True

/-- The lock has one holder, calls own the sessions they hold, and there is room for what they
build. -/
structure Sound (system : System) : Prop where
  holder : ∀ call, system.service.build = some call ↔
    ∃ made, system.calls call = some made ∧ made.phase.builds = true
  owned : ∀ call made, system.calls call = some made → made.Owned
  room : ∀ call made, system.calls call = some made → made.Room system.service
  bounded : Bounded system.service

/-- What one move of a call does. -/
structure Moves
    (call : Nat) (owner : Option String) (before : Service) (moved : Service × Phase) : Prop where
  others : Shrinks before moved.1 ∨ before.build = some call
  build : moved.1.build = if moved.2.builds then some call else
    if before.build = some call then none else before.build
  free : moved.2.builds = true → before.build = none ∨ before.build = some call
  owned : (mk owner moved.2).Owned
  room : (mk owner moved.2).Room moved.1
  bounded : Bounded moved.1

section Moving

variable {call : Nat} {owner : Option String} {before after : Service} {phase : Phase} {made : Call}

theorem room_of_not_builds (idle : made.phase.builds = false) (service : Service) :
    made.Room service := by
  obtain ⟨owner, phase⟩ := made
  cases phase with
  | admitted request | frozen request session | paged request session value => cases idle
  | joining request tradeOwners => cases idle
  | _ => trivial

/-- Dropping sessions leaves room. -/
theorem Call.Room.mono (room : made.Room before) (shrinks : Shrinks before after) :
    made.Room after := by
  obtain ⟨owner, phase⟩ := made
  cases phase with
  | admitted request | frozen request session => exact Admissible.mono room shrinks.customers
  | paged request session value => exact Admissible.mono room shrinks.customers
  | joining request tradeOwners =>
    intro named
    exact ((shrinks.sessions.map _).filterMap _).trans (room named)
  | _ => trivial

/-- A call that does not build goes on without the lock. -/
theorem moves_of_idle
    (idle : before.build ≠ some call) (bounded : Bounded before) (shrinks : Shrinks before after)
    (same : after.build = before.build) (still : phase.builds = false)
    (owned : (mk owner phase).Owned) :
    Moves call owner before (after, phase) where
  others := .inl shrinks
  build := by rw [still, if_neg Bool.false_ne_true, if_neg idle, same]
  free builds := by
    rw [still] at builds
    cases builds
  owned := owned
  room := room_of_not_builds still after
  bounded := shrinks.bounded bounded

/-- A building call gives the lock back. -/
theorem moves_of_unlocked
    (holds : before.build = some call) (bounded : Bounded after) (unlocked : after.build = none)
    (still : phase.builds = false) (owned : (mk owner phase).Owned) :
    Moves call owner before (after, phase) where
  others := .inr holds
  build := by rw [still, if_neg Bool.false_ne_true, if_pos holds, unlocked]
  free builds := by
    rw [still] at builds
    cases builds
  owned := owned
  room := room_of_not_builds still after
  bounded := bounded

/-- A building call goes on with the lock. -/
theorem moves_of_holding
    (holds : before.build = some call) (bounded : Bounded after) (same : after.build = before.build)
    (builds : phase.builds = true) (owned : (mk owner phase).Owned)
    (room : (mk owner phase).Room after) :
    Moves call owner before (after, phase) where
  others := .inr holds
  build := by rw [builds, if_pos rfl, same, holds]
  free _ := .inr holds
  owned := owned
  room := room
  bounded := bounded

theorem moves_lock
    (idle : before.build ≠ some call) (bounded : Bounded before) (builds : phase.builds = true)
    (owned : (mk owner phase).Owned) (room : ∀ service, (mk owner phase).Room service) :
    Moves call owner before (before.lock call phase) := by
  unfold Service.lock
  cases held : before.build with
  | some other => exact moves_of_idle idle bounded (Shrinks.refl before) rfl rfl trivial
  | none =>
    refine ⟨.inl ⟨.refl _, .refl _⟩, ?_, fun _ => .inl held, owned,
      room _, bounded.sessions, bounded.observations, bounded.customers, bounded.total⟩
    rw [builds, if_pos rfl]

/-- A sound system stays sound when a call moves. -/
theorem sound_settle (sound : Sound system) (moves : Moves call owner system.service moved) :
    Sound (system.settle call owner moved) := by
  have others : ∀ other made, other ≠ call → system.calls other = some made →
      made.Room moved.1 := by
    intro other made ne there
    rcases moves.others with shrinks | holds
    · exact (sound.room other made there).mono shrinks
    · refine room_of_not_builds ?_ _
      by_contra builds
      rw [Bool.not_eq_false] at builds
      have same := (sound.holder other).mpr ⟨made, there, builds⟩
      rw [holds] at same
      exact ne (some.inj same).symm
  refine ⟨?_, ?_, ?_, moves.bounded⟩
  · intro other
    unfold System.settle
    dsimp only
    rw [moves.build]
    by_cases same : other = call
    · subst same
      simp only [update_self, Option.some.injEq, exists_eq_left']
      by_cases builds : moved.2.builds = true
      · rw [if_pos builds]
        exact iff_of_true rfl builds
      · rw [if_neg builds]
        refine iff_of_false ?_ builds
        split
        · nofun
        · assumption
    · rw [update_of_ne same, ← sound.holder other]
      by_cases builds : moved.2.builds = true
      · rw [if_pos builds]
        refine iff_of_false (fun equal => same (some.inj equal).symm) ?_
        rcases moves.free builds with free | holds
        · rw [free]
          nofun
        · rw [holds]
          exact fun equal => same (some.inj equal).symm
      · rw [if_neg builds]
        split
        · rename_i holds
          rw [holds]
          exact iff_of_false nofun (fun equal => same (some.inj equal).symm)
        · exact .rfl
  · intro other made there
    by_cases same : other = call
    · subst same
      unfold System.settle at there
      dsimp only at there
      rw [update_self] at there
      rw [← some.inj there]
      exact moves.owned
    · unfold System.settle at there
      dsimp only at there
      rw [update_of_ne same] at there
      exact sound.owned other made there
  · intro other made there
    by_cases same : other = call
    · subst same
      unfold System.settle at there
      dsimp only at there
      rw [update_self] at there
      rw [← some.inj there]
      exact moves.room
    · unfold System.settle at there
      dsimp only at there
      rw [update_of_ne same] at there
      exact others other made same there

end Moving

/-! ## Creating and reading sessions of trades -/

section Trades

variable {surroundings : Surroundings} {now call : Nat} {owner : Option String} {service : Service}
  {session : Session}

theorem owner_of_answers (answers : session.answers owner requestId range = true) :
    session.owner = owner :=
  of_decide_eq_true (Bool.and_eq_true_iff.mp answers).1

/-- A session that is used again is in the map, and answers the request. -/
theorem of_reusable_eq_some (reused : service.reusable owner request = .ok (some session)) :
    session ∈ service.sessions.rows ∧ session.answers owner request.requestId request.range = true ∧
      session.range = request.range := by
  unfold Service.reusable at reused
  split at reused
  · rename_i known found
    obtain ⟨_, ranged, reused⟩ := bind_ok.mp reused
    obtain rfl := some.inj (ok.inj reused)
    exact ⟨List.mem_of_find?_eq_some found, List.find?_some found,
      of_decide_eq_true (ensure_ok.mp ranged)⟩
  · obtain ⟨_, _, never⟩ := bind_ok.mp reused
    cases never

/-- A creation drops only sessions whose time is over. -/
theorem moves_create
    (idle : service.build ≠ some call) (bounded : Bounded service) (request : CreateRequest) :
    Moves call owner service (service.create surroundings now owner request) := by
  unfold Service.create
  split
  · exact moves_of_idle idle bounded (Shrinks.refl service) rfl rfl trivial
  · split
    · exact moves_of_idle idle bounded (shrinks_retain now service) rfl rfl trivial
    · rename_i session reused
      exact moves_of_idle idle bounded (shrinks_retain now service) rfl rfl
        (owner_of_answers (of_reusable_eq_some reused).2.1)
    · exact moves_of_idle idle bounded (shrinks_retain now service) rfl rfl trivial

section

variable (holds : service.build = some call)
include holds

section

variable (bounded : Bounded service)
include bounded

theorem moves_admit (request : CreateRequest) :
    Moves call owner service (service.admitSession now owner request) := by
  have shrinks : Shrinks service ((service.retain now).retainObservations now) :=
    (shrinks_retain now service).trans (shrinks_retainObservations now _)
  have fewer := shrinks.bounded bounded
  unfold Service.admitSession
  dsimp only
  split
  · exact moves_of_unlocked holds
      ⟨fewer.sessions, fewer.observations, fewer.customers, fewer.total⟩ rfl rfl trivial
  · rename_i admitted
    exact moves_of_holding holds fewer rfl rfl trivial (admitPublic_ok_iff.mp admitted)

theorem moves_freeze
    (request : CreateRequest) (room : Admissible owner service.customers) (id : String)
    (late : Option Nat) (store : Store) :
    Moves call owner service (service.freeze now owner id late store request) := by
  unfold Service.freeze
  split
  · exact moves_of_unlocked holds
      ⟨bounded.sessions, bounded.observations, bounded.customers, bounded.total⟩ rfl rfl trivial
  · exact moves_of_holding holds bounded rfl rfl rfl room

theorem moves_first (owned : session.owner = owner) (request : CreateRequest)
    (room : Admissible owner service.customers) (store : Store) :
    Moves call owner service (service.first surroundings now store request session) := by
  unfold Service.first
  split
  · exact moves_of_unlocked holds
      ⟨bounded.sessions, bounded.observations, bounded.customers, bounded.total⟩ rfl rfl trivial
  · exact moves_of_holding holds bounded rfl rfl owned room

/-- A session is added within the bounds, and the lock given back. -/
theorem moves_insert (owned : session.owner = owner) (room : Admissible owner service.customers)
    (value : HistoryPage) :
    Moves call owner service (service.insert now session value) := by
  have shrinks := shrinks_retain now service
  have fewer := shrinks.bounded bounded
  have admissible := room.mono shrinks.customers
  unfold Service.insert
  dsimp only
  split
  · rename_i free
    have perm := @Table.put_perm _ _ _ _ (service.retain now).sessions session
    have removed : ((service.retain now).sessions.remove session.id).rows.Sublist
        (service.retain now).sessions.rows := Table.keep_sublist
    have others : Shrinks (service.retain now)
        { service.retain now with
          sessions := (service.retain now).sessions.remove session.id } :=
      ⟨removed, .refl _⟩
    have less := others.bounded fewer
    have customers := @customers_of_put _
      (Service.customers { (service.retain now).unlock with
        sessions := (service.retain now).sessions.put session }) _
      (admissible.mono others.customers) less.customers less.total ?_
    · refine moves_of_unlocked holds ⟨?_, fewer.observations, customers.1, customers.2⟩ rfl rfl
        owned
      rw [show List.length (Table.rows _) = _ from perm.length_eq, List.length_cons]
      have length := removed.length_le
      omega
    · unfold Service.customers Service.owners
      refine (((perm.map Session.owner).append_right _).filterMap _).trans ?_
      rw [List.map_cons, List.cons_append, owned]
      cases owner with
      | none | some name => exact .refl _
  · exact moves_of_unlocked holds
      ⟨fewer.sessions, fewer.observations, fewer.customers, fewer.total⟩ rfl rfl trivial

end

end

section

variable (idle : service.build ≠ some call)
include idle

theorem moves_read (bounded : Bounded service) (request : PageRequest) :
    Moves call owner service (service.read now owner request) := by
  unfold Service.read
  split
  · exact moves_of_idle idle bounded (Shrinks.refl service) rfl rfl trivial
  · split
    · exact moves_of_idle idle bounded (shrinks_retain now service) rfl rfl trivial
    · rename_i session index named
      obtain ⟨token, _, known, _, _, owned, named⟩ := bind₃_ok.mp named
      iterate 2 obtain ⟨_, _, named⟩ := bind_ok.mp named
      obtain ⟨rfl, _⟩ := Prod.mk.inj (ok.inj named)
      have same : known.owner = owner := of_decide_eq_true (ensure_ok.mp owned)
      exact moves_of_idle idle bounded (shrinks_retain now service) rfl rfl same

theorem moves_readPage
    (bounded : Bounded service) (owned : session.owner = owner) (store : Store) (index : Nat) :
    Moves call owner service (service.readPage surroundings now store session index) := by
  unfold Service.readPage
  split
  · exact moves_of_idle idle bounded (Shrinks.refl service) rfl rfl trivial
  · exact moves_of_idle idle bounded (Shrinks.refl service) rfl rfl owned

theorem moves_release (bounded : Bounded service) (request : ReleaseRequest) :
    Moves call owner service (service.release surroundings now owner request) := by
  unfold Service.release
  split
  · exact moves_of_idle idle bounded (Shrinks.refl service) rfl rfl trivial
  · dsimp only
    split
    · exact moves_of_idle idle bounded (shrinks_retain now service) rfl rfl trivial
    · refine moves_of_idle idle bounded ((shrinks_retain now service).trans ?_) rfl rfl trivial
      exact ⟨Table.keep_sublist, .refl _⟩

end

end Trades

/-! ## Observations -/

section Observations

variable {surroundings : Surroundings} {now call : Nat} {owner : Option String} {service : Service}
  {session : ObservationSession}

theorem owner_of_observations_answers (answers : session.answers owner requestId range = true) :
    session.owner = owner :=
  of_decide_eq_true (Bool.and_eq_true_iff.mp answers).1

theorem moves_observe (idle : service.build ≠ some call) (bounded : Bounded service)
    (request : ObservationPageRequest) :
    Moves call owner service (service.observe surroundings now owner call request) := by
  unfold Service.observe
  split
  · split
    · exact moves_of_idle idle bounded (Shrinks.refl service) rfl rfl trivial
    · exact moves_lock idle bounded rfl trivial (fun _ => trivial)
  · split
    · exact moves_of_idle idle bounded (Shrinks.refl service) rfl rfl trivial
    · split
      · exact moves_of_idle idle bounded (shrinks_retainObservations now service) rfl rfl trivial
      · rename_i session place resumed
        obtain ⟨known, _, named, checked, resumed⟩ := bind₂_ok.mp resumed
        obtain ⟨rfl, _⟩ := Prod.mk.inj (ok.inj resumed)
        iterate 2 obtain ⟨_, _, checked⟩ := bind_ok.mp checked
        obtain ⟨_, owned, checked⟩ := bind_ok.mp checked
        have same : known.owner = owner := of_decide_eq_true (ensure_ok.mp owned)
        exact moves_of_idle idle bounded (shrinks_retainObservations now service) rfl rfl same

theorem moves_count (holds : service.build = some call) (bounded : Bounded service)
    (request : ObservationPageRequest) :
    Moves call owner service (service.count now owner request) := by
  unfold Service.count
  split
  · exact moves_of_holding holds ((shrinks_retain now service).bounded bounded) rfl rfl trivial
      (fun _ => .refl _)
  · rename_i internal
    exact moves_of_holding holds bounded rfl rfl trivial (fun named => absurd named internal)

variable {tradeOwners : List String}

/-- A session that is opened is of the owner, and the maps stay within their bounds. -/
theorem of_openObservations_ok
    {id : String} {store : ObservationStore} {request : ObservationPageRequest} {opened : Service}
    (bounded : Bounded service)
    (room : owner.isSome →
      (service.sessions.rows.map Session.owner).reduceOption.Sublist tradeOwners)
    (opens : service.openObservations now owner id store request tradeOwners =
      .ok (opened, session)) :
    Bounded opened ∧ opened.build = service.build ∧ session.owner = owner := by
  unfold Service.openObservations at opens
  split at opens
  · rename_i known found
    obtain ⟨_, _, opens⟩ := bind_ok.mp opens
    obtain ⟨rfl, rfl⟩ := Prod.mk.inj (ok.inj opens)
    exact ⟨bounded, rfl, owner_of_observations_answers (List.find?_some found)⟩
  · obtain ⟨_, admitted, _, free, frozen, froze, opens⟩ := bind₃_ok.mp opens
    obtain ⟨rfl, rfl⟩ := Prod.mk.inj (ok.inj opens)
    have owned : frozen.owner = owner := by
      iterate 5 obtain ⟨_, _, froze⟩ := bind_ok.mp froze
      cases froze
      rfl
    have few := of_decide_eq_true (ensure_ok.mp free)
    have perm := @Table.put_perm _ _ _ _ service.observations frozen
    have removed : (service.observations.remove frozen.id).rows.Sublist
        service.observations.rows := Table.keep_sublist
    have others : Shrinks service
        { service with observations := service.observations.remove frozen.id } :=
      ⟨.refl _, removed⟩
    have less := others.bounded bounded
    have admissible : Admissible owner service.customers := by
      have known := admitPublic_ok_iff.mp admitted
      intro name named
      have listed := room (by rw [named]; rfl)
      refine known.mono ?_ name named
      unfold Service.customers Service.owners
      have whole : (tradeOwners.map some).reduceOption = tradeOwners := by
        simp [List.reduceOption, List.filterMap_map]
      rw [List.reduceOption_append, List.reduceOption_append, whole]
      exact listed.append_right _
    have customers := @customers_of_put _
      (Service.customers { service with observations := service.observations.put frozen }) _
      (admissible.mono others.customers) less.customers less.total ?_
    · refine ⟨⟨bounded.sessions, ?_, customers.1, customers.2⟩, rfl, owned⟩
      rw [show List.length (Table.rows _) = _ from perm.length_eq, List.length_cons]
      have length := removed.length_le
      omega
    · unfold Service.customers Service.owners
      refine (((perm.map ObservationSession.owner).append_left _).filterMap _).trans ?_
      rw [List.map_cons, owned]
      refine (List.perm_middle.filterMap _).trans ?_
      cases owner with
      | none | some name => exact .refl _

theorem moves_join (holds : service.build = some call) (bounded : Bounded service)
    (room : owner.isSome →
      (service.sessions.rows.map Session.owner).reduceOption.Sublist tradeOwners)
    (id : String)
    (store : ObservationStore)
    (request : ObservationPageRequest) :
    Moves call owner service (service.join now owner id store request tradeOwners) := by
  have fewer := (shrinks_retainObservations now service).bounded bounded
  unfold Service.join
  dsimp only
  split
  · exact moves_of_unlocked holds
      ⟨fewer.sessions, fewer.observations, fewer.customers, fewer.total⟩ rfl rfl trivial
  · rename_i opened session opens
    obtain ⟨within, same, owned⟩ := of_openObservations_ok fewer room opens
    exact moves_of_holding holds within same rfl owned trivial

theorem moves_readObservations
    (lock : service.build = some call ↔ building = true) (bounded : Bounded service)
    (owned : session.owner = owner) (store : ObservationStore) (place : Nat) :
    Moves call owner service
      (service.readObservations surroundings store session place building) := by
  unfold Service.readObservations
  cases building with
  | true =>
    have holds := lock.mpr rfl
    have within : Bounded service.unlock :=
      ⟨bounded.sessions, bounded.observations, bounded.customers, bounded.total⟩
    dsimp only
    split
    · exact moves_of_unlocked holds within rfl rfl trivial
    · exact moves_of_unlocked holds within rfl rfl owned
  | false =>
    have idle : service.build ≠ some call := fun holds => Bool.false_ne_true (lock.mp holds)
    dsimp only
    split
    · exact moves_of_idle idle bounded (Shrinks.refl service) rfl rfl trivial
    · exact moves_of_idle idle bounded (Shrinks.refl service) rfl rfl owned

theorem moves_releaseObservations (idle : service.build ≠ some call) (bounded : Bounded service)
    (request : ObservationReleaseRequest) :
    Moves call owner service (service.releaseObservations surroundings now owner request) := by
  unfold Service.releaseObservations
  split
  · exact moves_of_idle idle bounded (Shrinks.refl service) rfl rfl trivial
  · dsimp only
    split
    · exact moves_of_idle idle bounded (shrinks_retainObservations now service) rfl rfl trivial
    · refine moves_of_idle idle bounded ((shrinks_retainObservations now service).trans ?_) rfl
        rfl trivial
      exact ⟨.refl _, Table.keep_sublist⟩

end Observations

/-! ## Runs -/

section Runs

variable {surroundings : Surroundings} {system : System}

theorem moves_start
    {call : Nat} (sound : Sound system) (absent : system.calls call = none) (owner : Option String)
    (request : Request) :
    Moves call owner system.service
      (system.service.start surroundings system.now call owner request) := by
  have idle : system.service.build ≠ some call := by
    intro holds
    obtain ⟨made, there, _⟩ := (sound.holder call).mp holds
    rw [absent] at there
    cases there
  cases request with
  | create request => exact moves_create idle sound.bounded request
  | read request => exact moves_read idle sound.bounded request
  | release request => exact moves_release idle sound.bounded request
  | observe request => exact moves_observe idle sound.bounded request
  | releaseObservations request => exact moves_releaseObservations idle sound.bounded request

/-- A call that goes on keeps to its own part of the service. -/
theorem moves_advance
    (sound : Sound system) (made : system.calls call = some ⟨owner, phase⟩) (id : String)
    (late : Option Nat) :
    Moves call owner system.service (system.advance surroundings call id late owner phase) := by
  have lock : system.service.build = some call ↔ phase.builds = true := by
    rw [sound.holder call, made]
    simp
  have owned := sound.owned call _ made
  have room := sound.room call _ made
  have bounded := sound.bounded
  have idle : phase.builds = false → system.service.build ≠ some call := by
    intro still holds
    rw [still] at lock
    exact Bool.false_ne_true (lock.mp holds)
  have answered : phase.builds = false → (mk owner phase).Owned →
      Moves call owner system.service (system.service, phase) := fun still owned =>
    moves_of_idle (idle still) bounded (Shrinks.refl _) rfl still owned
  cases phase with
  | absent request => exact moves_lock (idle rfl) bounded rfl trivial (fun _ => trivial)
  | building request => exact moves_admit (lock.mpr rfl) bounded request
  | admitted request => exact moves_freeze (lock.mpr rfl) bounded request room id late _
  | frozen request session => exact moves_first (lock.mpr rfl) bounded owned request room _
  | paged request session value => exact moves_insert (lock.mpr rfl) bounded owned room value
  | found session index => exact moves_readPage (idle rfl) bounded owned _ index
  | counting request => exact moves_count (lock.mpr rfl) bounded request
  | joining request tradeOwners => exact moves_join (lock.mpr rfl) bounded room id _ request
  | joined session place building => exact moves_readObservations lock bounded owned _ place
  | refused message | returned session value => exact answered rfl owned
  | returnedObservations session value | released receipt => exact answered rfl owned
  | releasedObservations receipt => exact answered rfl owned

/-- One step keeps the service sound. -/
theorem sound_step (sound : Sound system) (label : ServiceLabel) :
    Sound (system.step surroundings label) := by
  cases label with
  | tick elapsed | trades batch => exact ⟨sound.holder, sound.owned, sound.room, sound.bounded⟩
  | observations batch => exact ⟨sound.holder, sound.owned, sound.room, sound.bounded⟩
  | start call owner request =>
    unfold System.step
    dsimp only
    split
    · exact sound
    · rename_i absent
      exact sound_settle sound (moves_start sound absent owner request)
  | resume call id late =>
    unfold System.step
    dsimp only
    split
    · exact sound
    · rename_i owner phase made
      exact sound_settle sound (moves_advance sound made id late)

theorem sound_opened (store : Store) (observationStore : ObservationStore) :
    Sound (.opened store observationStore) := by
  refine ⟨?_, ?_, ?_, ⟨Nat.zero_le _, Nat.zero_le _, List.nodup_nil, Nat.zero_le _⟩⟩
  · intro call
    refine iff_of_false nofun ?_
    rintro ⟨made, never, _⟩
    cases never
  · intro call made never
    cases never
  · intro call made never
    cases never

/-- Induction over the steps, the last one first. -/
theorem sound_run
    (store : Store) (observationStore : ObservationStore) (labels : List ServiceLabel) :
    Sound ((System.opened store observationStore).run surroundings labels) := by
  induction labels using List.reverseRecOn with
  | nil => exact sound_opened store observationStore
  | append_singleton front label ih =>
    unfold System.run at ih ⊢
    rw [List.foldl_append]
    exact sound_step ih label

end Runs

end MarketCow.Btc
