import MarketCow.Library.JsonCodec
import MarketCow.Scope.JournalRun

/-!
# Acknowledged commits

While no commit fails after its file is in place, the file holds what was
acknowledged last, and a failed operation leaves no trace.
-/

namespace MarketCow.Scope

open Library List Option
open Discovery (Externals ensure_ok need_ok)
open Prod (fst mk.inj snd)

/-- No commit fails after its file is in place. -/
def Label.isEarly : Label → Bool
  | .reopen _ fault => !fault.any Fault.isLate
  | .operate _ fault => !fault.any Fault.isLate

variable {setting : Setting} {system : System} {state next : State}

/-- The file holds the acknowledged state, and a running process has it too. -/
structure Faithful (setting : Setting) (system : System) : Prop where
  journal : system.journal = none ∨ system.journal = system.acknowledged
  fresh : system.acknowledged = none → system.file = none
  stored : ∀ state, system.acknowledged = some state → setting.Usable ∧
    ∃ bytes, setting.encode state = .ok bytes ∧ system.file = some (written bytes)

/-- A faithful file is read as the acknowledged state. -/
theorem Faithful.read
    (faithful : Faithful setting system) (acknowledged : system.acknowledged = some state) :
    setting.read system.file = .ok (some state) := by
  obtain ⟨usable, bytes, encoded, there⟩ := faithful.stored state acknowledged
  rw [there]
  exact read_written usable encoded

/-- A system after a commit. -/
def committed (next : State) (bytes : Bytes) : System where
  journal := some next
  file := some (written bytes)
  acknowledged := some next

/-- What a commit does that does not fail late. -/
theorem acknowledge_cases {fault : Option Fault} (early : (!fault.any Fault.isLate) = true) :
    (∃ message, system.acknowledge (setting.commit fault system.file next) =
        (.error message, system)) ∨
      ∃ bytes, setting.encode next = .ok bytes ∧
        system.acknowledge (setting.commit fault system.file next) =
          (.ok (), committed next bytes) := by
  rcases @commit_cases setting next fault system.file with
    ⟨message, _, same⟩ | ⟨bytes, encoded, ⟨_, same⟩ | ⟨failure, message, rfl, same⟩⟩
  · rw [same]
    exact .inl ⟨message, rfl⟩
  · rw [same]
    exact .inr ⟨bytes, encoded, rfl⟩
  · have onTime : failure.isLate = false := (not_eq_true' _).mp early
    rw [same, onTime]
    exact .inl ⟨message, rfl⟩

/-- What an early operation leaves. -/
theorem operate_cases
    {operation : Operation} {fault : Option Fault} (early : (!fault.any Fault.isLate) = true) :
    (∃ outcome, system.operate setting operation fault = (outcome, system)) ∨
      ∃ state next bytes, system.journal = some state ∧
        operation.next state = .ok (some next) ∧ setting.encode next = .ok bytes ∧
        system.operate setting operation fault = (.ok (), committed next bytes) := by
  unfold System.operate
  cases running : system.journal with
  | none => exact .inl ⟨_, rfl⟩
  | some state =>
    dsimp only
    cases operated : operation.next state with
    | error message => exact .inl ⟨_, rfl⟩
    | ok result =>
      cases result with
      | none => exact .inl ⟨_, rfl⟩
      | some next =>
        rcases acknowledge_cases early with ⟨message, same⟩ | ⟨bytes, encoded, same⟩
        · exact .inl ⟨_, same⟩
        · exact .inr ⟨state, next, bytes, rfl, operated, encoded, same⟩

/-- What an early reopening leaves. -/
theorem reopen_cases
    {initial : Initial} {fault : Option Fault} (early : (!fault.any Fault.isLate) = true) :
    (∃ message, system.step setting (.reopen initial fault) =
        (.error message, { system with journal := none })) ∨
      ∃ next bytes, setting.opening system.file initial.state = .ok next ∧
        setting.encode next = .ok bytes ∧
        system.step setting (.reopen initial fault) = (.ok (), committed next bytes) := by
  unfold System.step Setting.openJournal
  dsimp only
  cases opened : setting.opening system.file initial.state with
  | error message => exact .inl ⟨message, rfl⟩
  | ok next =>
    have closed := @acknowledge_cases setting { system with journal := none } next fault early
    rcases closed with ⟨message, same⟩ | ⟨bytes, encoded, same⟩
    · exact .inl ⟨message, same⟩
    · exact .inr ⟨next, bytes, rfl, encoded, same⟩

theorem faithful_committed (usable : setting.Usable) (encoded : setting.encode next = .ok bytes) :
    Faithful setting (committed next bytes) := by
  refine ⟨.inr rfl, fun never => (some_ne_none _ never).elim, ?_⟩
  intro state same
  cases same
  exact ⟨usable, bytes, encoded, rfl⟩

variable {initial : State}

/-- A journal opens with the state that was acknowledged last. -/
theorem Faithful.opening
    (faithful : Faithful setting system) (acknowledged : system.acknowledged = some state)
    (opened : setting.opening system.file initial = .ok next) :
    next = state := by
  have reads := faithful.read acknowledged
  obtain ⟨_, _, ⟨absent, _⟩ | read⟩ := opening_ok opened
  · obtain ⟨_, _, _, there⟩ := faithful.stored state acknowledged
    rw [there] at absent
    cases absent
  · exact some.inj (ok.inj (read.symm.trans reads))

/-- A step that fails early at most keeps the file faithful. -/
theorem faithful_step (faithful : Faithful setting system) (early : label.isEarly = true) :
    Faithful setting (system.step setting label).2 := by
  cases label with
  | reopen initial fault =>
    rcases @reopen_cases setting system initial fault early with
      ⟨message, same⟩ | ⟨next, bytes, opened, encoded, same⟩
    · rw [same]
      exact ⟨.inl rfl, faithful.fresh, faithful.stored⟩
    · rw [same]
      exact faithful_committed (opening_ok opened).1 encoded
  | operate operation fault =>
    rcases @operate_cases setting system operation fault early with
      ⟨outcome, same⟩ | ⟨state, next, bytes, running, _, encoded, same⟩
    · rw [show system.step setting (.operate operation fault) = _ from same]
      exact faithful
    · rw [show system.step setting (.operate operation fault) = _ from same]
      rcases faithful.journal with stopped | held
      · rw [running] at stopped
        cases stopped
      · exact faithful_committed (faithful.stored state (held.symm.trans running)).1 encoded

theorem faithful_closed (setting : Setting) : Faithful setting .closed :=
  ⟨.inl rfl, fun _ => rfl, fun _ never => (some_ne_none _ never.symm).elim⟩

/-- Induction over the steps. -/
theorem faithful_run
    (faithful : Faithful setting system) (early : labels.all Label.isEarly = true) :
    Faithful setting (system.run setting labels) := by
  induction labels generalizing system with
  | nil => exact faithful
  | cons label labels ih =>
    rw [all_cons, and_eq_true] at early
    obtain ⟨first, rest⟩ := early
    exact ih (faithful_step faithful first) rest

/-! ## Operations that succeed -/

variable {after : System} {fault : Option Fault}

/-- An operation that succeeds leaves its state, which is valid if it is new. -/
theorem journal_of_operate (running : system.journal = some state)
    (succeeded : system.step setting (.operate operation fault) = (.ok (), after)) :
    ∃ result, operation.next state = .ok result ∧ after.journal = some (result.getD state) ∧
      ∀ next, result = some next → next.Valid := by
  unfold System.step System.operate at succeeded
  rw [running] at succeeded
  dsimp only at succeeded
  cases operated : operation.next state with
  | error message =>
    rw [operated] at succeeded
    cases (mk.inj succeeded).1
  | ok result =>
    rw [operated] at succeeded
    cases result with
    | none =>
      obtain rfl := (mk.inj succeeded).2
      exact ⟨none, rfl, running, fun _ never => (some_ne_none _ never.symm).elim⟩
    | some next =>
      dsimp only at succeeded
      rcases @commit_cases setting next fault system.file with
        ⟨message, _, same⟩ | ⟨bytes, encoded, ⟨_, same⟩ | ⟨failure, message, _, same⟩⟩
      · rw [same] at succeeded
        cases (mk.inj succeeded).1
      · rw [same] at succeeded
        obtain rfl := (mk.inj succeeded).2
        refine ⟨some next, rfl, rfl, ?_⟩
        rintro other held
        cases held
        exact (encode_ok encoded).1
      · rw [same] at succeeded
        cases (mk.inj succeeded).1

/-- An operation that fails keeps the state. -/
theorem journal_of_failed
    (failed : system.step setting (.operate operation fault) = (.error message, after)) :
    after.journal = system.journal := by
  unfold System.step System.operate at failed
  cases running : system.journal with
  | none =>
    rw [running] at failed
    obtain rfl := (mk.inj failed).2
    exact running
  | some state =>
    rw [running] at failed
    dsimp only at failed
    cases operated : operation.next state with
    | error _ =>
      rw [operated] at failed
      obtain rfl := (mk.inj failed).2
      exact running
    | ok result =>
      rw [operated] at failed
      cases result with
      | none => cases (mk.inj failed).1
      | some next =>
        dsimp only at failed
        rcases @commit_cases setting next fault system.file with
          ⟨_, _, same⟩ | ⟨_, _, ⟨_, same⟩ | ⟨_, _, _, same⟩⟩
        · rw [same] at failed
          obtain rfl := (mk.inj failed).2
          exact running
        · rw [same] at failed
          cases (mk.inj failed).1
        · rw [same] at failed
          obtain rfl := (mk.inj failed).2
          exact running

theorem succeed_cons_eq_some_iff :
    system.succeed setting (label :: labels) = some after ↔
      ∃ middle, system.step setting label = (.ok (), middle) ∧
        middle.succeed setting labels = some after := by
  unfold System.succeed
  rw [foldlM_cons, bind_eq_bind, bind_eq_some_iff]
  refine exists_congr fun middle => and_congr_left fun _ => ?_
  cases made : system.step setting label with
  | mk outcome next =>
    cases outcome with
    | error message | ok value => simp

/-- Admissions, with where their commits fail. -/
abbrev Admissions := List ((List Json × TreeSet String) × Option Fault)

/-- The steps of the admissions. -/
def Admissions.labels (admissions : Admissions) : List Label :=
  admissions.map fun entry => .operate (.admitRecords entry.1.1 entry.1.2) entry.2

/-- What the admissions ask for, without their faults. -/
def Admissions.asked (admissions : Admissions) : List (List Json × TreeSet String) :=
  admissions.map fst

/-- Acknowledged admissions end in the state they compute. -/
theorem admitAll_of_succeed {admissions : Admissions} (running : system.journal = some state)
    (succeeded : system.succeed setting admissions.labels = some after) :
    ∃ next, after.journal = some next ∧ state.admitAll admissions.asked = .ok next := by
  induction admissions generalizing system state with
  | nil =>
    cases succeeded
    exact ⟨state, running, rfl⟩
  | cons entry admissions ih =>
    obtain ⟨middle, first, rest⟩ := succeed_cons_eq_some_iff.mp succeeded
    obtain ⟨result, operated, held, valid⟩ := journal_of_operate running first
    obtain ⟨next, made, rfl⟩ := map_some_ok_iff.mp operated
    obtain ⟨last, reached, admitted⟩ := ih held rest
    refine ⟨last, reached, foldlM_cons_ok.mpr ⟨next, ?_, admitted⟩⟩
    exact bind_ok.mpr ⟨next, made, bind_ok.mpr ⟨(), validate_ok_iff.mpr (valid next rfl), rfl⟩⟩

theorem succeed_append_eq_some_iff :
    system.succeed setting (first ++ second) = some after ↔
      ∃ middle, system.succeed setting first = some middle ∧
        middle.succeed setting second = some after := by
  unfold System.succeed
  rw [foldlM_append, bind_eq_bind, bind_eq_some_iff]

/-- A retirement of some markets, admissions of others, and the cancellation. -/
def retirement (markets : TreeSet String) (ticket : UInt64) (revision : UInt64)
    (catalogRevision : String) (faults : Option Fault × Option Fault)
    (admissions : Admissions) : List Label :=
  .operate (.retire markets ticket) faults.1 :: (admissions.labels ++
    [.operate (.cancel markets ticket revision catalogRevision) faults.2])

/-- A retirement that is cancelled leaves what the admissions alone leave. -/
theorem admitAll_of_retirement
    (kept : Kept state) (running : system.journal = some state) (free : state.retiringRecords = ∅)
    (others : ∀ admission ∈ admissions.asked, avoids markets admission)
    (succeeded : system.succeed setting
      (retirement markets ticket revision catalogRevision faults admissions) = some after) :
    ∃ next, after.journal = some next ∧ state.admitAll admissions.asked = .ok next := by
  obtain ⟨hidden, first, rest⟩ := succeed_cons_eq_some_iff.mp succeeded
  obtain ⟨middle, admitted, last⟩ := succeed_append_eq_some_iff.mp rest
  obtain ⟨final, cancelled, done⟩ := succeed_cons_eq_some_iff.mp last
  cases done
  have idle := kept.idle free
  have fresh : state.isRetiring markets ticket = false := by
    unfold State.isRetiring
    rw [idle.ticket]
    rfl
  obtain ⟨result, operated, held, _⟩ := journal_of_operate running first
  unfold Operation.next at operated
  dsimp only at operated
  rw [fresh, if_neg Bool.false_ne_true] at operated
  obtain ⟨retired, made, rfl⟩ := map_some_ok_iff.mp operated
  obtain ⟨_, _, hides⟩ := retire_ok made
  obtain ⟨added, there, all⟩ := admitAll_of_succeed held admitted
  obtain ⟨result, operated, reached, _⟩ := journal_of_operate there cancelled
  obtain ⟨next, made, rfl⟩ := map_some_ok_iff.mp operated
  exact ⟨next, reached, hides.admitAll idle others all (cancels_of_cancel made)⟩

/-! ## What a run keeps -/

/-- What holds of the state of a journal. -/
structure Orderly (state : State) : Prop where
  valid : state.validate = .ok ()
  apart : ∀ id ∈ state.records, id ∉ state.retiringRecords
  tokens : state.entries.Pairwise fun first second =>
    ∀ token ∈ tokenIds first.2, token ∉ tokenIds second.2
  restarts : ∀ onDemand markets, state.restartMarkets onDemand = .ok markets →
    ∀ market ∈ markets, market.marketId ∈ state.records ∧ market.marketId ∉ state.retiringRecords

theorem Kept.orderly (kept : Kept state) :
    Orderly state := by
  refine ⟨validate_ok_iff.mpr kept.valid, kept.apart, kept.valid.apart, ?_⟩
  intro onDemand markets restarted market mem
  have there := mem_records_of_restartMarkets restarted mem
  exact ⟨there, kept.apart _ there⟩

/-- A source that the file is bound to. -/
def sameSource (saved initial : State) : Prop :=
  saved.catalogManifestSha256 = initial.catalogManifestSha256 ∧
    saved.catalogRevision = initial.catalogRevision ∧ saved.pool = initial.pool

/-- A step that fails changes neither the journal nor what a reopening reads, which
is what was acknowledged last. -/
structure Atomic (setting : Setting) (before : System) (label : Label)
    (outcome : Except String Unit) (after : System) : Prop where
  failed : ∀ message, outcome = .error message →
    setting.read after.file = setting.read before.file ∧
      ∀ operation fault, label = .operate operation fault → after.journal = before.journal
  stored : ∀ state, after.acknowledged = some state →
    setting.read after.file = .ok (some state) ∧ state.validate = .ok () ∧
      (after.journal = none ∨ after.journal = some state)
  fresh : after.acknowledged = none → after.file = none ∧ after.journal = none
  reopened : ∀ initial fault state, label = .reopen initial fault →
    before.acknowledged = some state → after.journal = none ∨ after.journal = some state
  reopens : ∀ (initial : Initial) state, after.acknowledged = some state →
    initial.state.validate = .ok () → sameSource state initial.state →
    ∃ next, after.step setting (.reopen initial none) = (.ok (), next) ∧ next.journal = some state

theorem opening_of_read
    (usable : setting.Usable) (valid : initial.validate = .ok ()) (same : sameSource state initial)
    (read : setting.read system.file = .ok (some state)) :
    setting.opening system.file initial = .ok state := by
  obtain ⟨parent, there, canonical, isDir, closed⟩ := usable.parent
  unfold Setting.opening
  refine bind_ok.mpr ⟨parent, need_ok.mpr there, ?_⟩
  refine bind_ok.mpr ⟨(), ensure_ok.mpr ?_, ?_⟩
  · rw [usable.absolute, canonical, isDir, closed]
    rfl
  refine bind_ok.mpr ⟨(), valid, ?_⟩
  refine bind_ok.mpr ⟨some state, read, ?_⟩
  refine bind_ok.mpr ⟨(), ensure_ok.mpr ?_, rfl⟩
  rw [same.1, same.2.1, same.2.2, beq_self_eq_true, beq_self_eq_true, beq_self_eq_true]
  rfl

theorem step_of_opening {initial : Initial} {bytes : Bytes}
    (opened : setting.opening system.file initial.state = .ok state)
    (encoded : setting.encode state = .ok bytes) :
    system.step setting (.reopen initial none) = (.ok (), committed state bytes) := by
  unfold System.step Setting.openJournal Setting.commit
  dsimp only
  rw [opened]
  dsimp only
  rw [encoded]
  rfl

/-- Opening a faithful file yields the acknowledged state. -/
theorem Faithful.reopens {initial : Initial}
    (faithful : Faithful setting system) (acknowledged : system.acknowledged = some state)
    (valid : initial.state.validate = .ok ()) (same : sameSource state initial.state) :
    ∃ next, system.step setting (.reopen initial none) = (.ok (), next) ∧
      next.journal = some state := by
  obtain ⟨usable, bytes, encoded, _⟩ := faithful.stored state acknowledged
  have opened := opening_of_read usable valid same (faithful.read acknowledged)
  exact ⟨committed state bytes, step_of_opening opened encoded, rfl⟩

/-- A step over a faithful file is all or nothing. -/
theorem atomic_of_faithful (faithful : Faithful setting system) (early : label.isEarly = true) :
    Atomic setting system label (system.step setting label).1 (system.step setting label).2 := by
  have later := faithful_step faithful early
  refine ⟨?_, ?_, ?_, ?_, fun initial state => later.reopens⟩
  · intro message failed
    cases label with
    | reopen initial fault =>
      rcases @reopen_cases setting system initial fault early with
        ⟨_, same⟩ | ⟨next, bytes, _, _, same⟩
      · rw [same]
        exact ⟨rfl, fun _ _ never => Label.noConfusion never⟩
      · rw [same] at failed
        cases failed
    | operate operation fault =>
      rcases @operate_cases setting system operation fault early with
        ⟨outcome, same⟩ | ⟨_, _, _, _, _, _, same⟩
      · rw [show system.step setting (.operate operation fault) = _ from same]
        exact ⟨rfl, fun _ _ _ => rfl⟩
      · rw [show system.step setting (.operate operation fault) = _ from same] at failed
        cases failed
  · intro state acknowledged
    obtain ⟨_, bytes, encoded, _⟩ := later.stored state acknowledged
    refine ⟨later.read acknowledged, validate_ok_iff.mpr (encode_ok encoded).1, ?_⟩
    exact acknowledged ▸ later.journal
  · intro absent
    refine ⟨later.fresh absent, ?_⟩
    rcases later.journal with stopped | same
    · exact stopped
    · exact same.trans absent
  · rintro initial fault state rfl acknowledged
    rcases @reopen_cases setting system initial fault early with
      ⟨_, same⟩ | ⟨next, bytes, opened, _, same⟩
    · rw [same]
      exact .inl rfl
    · rw [same]
      exact .inr (congrArg some (faithful.opening acknowledged opened))

/-- In every run the journal keeps its markets apart, and a retirement that is cancelled
leaves no trace. While no commit fails late, a step that fails leaves none either. -/
theorem journal_atomic_of_early (setting : Setting) (labels : List Label) (label : Label) :
    let before := System.closed.run setting labels
    let outcome := (before.step setting label).1
    let after := (before.step setting label).2
    (∀ state, after.journal = some state → Orderly state) ∧
      (∀ operation fault state, label = .operate operation fault → before.journal = some state →
        ∃ next, after.journal = some next ∧ (outcome = .ok () → operation.Changes state next) ∧
          ∀ message, outcome = .error message → next = state) ∧
      (∀ state markets ticket revision catalogRevision faults admissions last,
        before.journal = some state → state.retiringRecords = ∅ →
        (∀ admission ∈ Admissions.asked admissions, avoids markets admission) →
        before.succeed setting
          (retirement markets ticket revision catalogRevision faults admissions) = some last →
        ∃ next, last.journal = some next ∧ state.admitAll (Admissions.asked admissions) = .ok next ∧
          ∀ alone, before.succeed setting (Admissions.labels admissions) = some alone →
            alone.journal = some next) ∧
      ((labels ++ [label]).all Label.isEarly = true →
        Atomic setting before label outcome after) := by
  have sound := sound_run (sound_closed setting) labels
  refine ⟨?_, ?_, ?_, ?_⟩
  · intro state held
    exact ((sound_step sound label).journal state held).orderly
  · rintro operation fault state rfl running
    cases made : (System.closed.run setting labels).step setting (.operate operation fault) with
    | mk outcome after =>
      cases outcome with
      | ok value =>
        obtain ⟨result, operated, held, _⟩ := journal_of_operate running made
        refine ⟨_, held, fun _ => changes_of_next (sound.journal state running) operated, ?_⟩
        intro _ impossible
        cases impossible
      | error message =>
        have same := journal_of_failed made
        refine ⟨state, same.trans running, ?_, fun _ _ => rfl⟩
        intro impossible
        cases impossible
  · intro state markets ticket revision catalogRevision faults admissions last running free others
      succeeded
    obtain ⟨next, reached, admitted⟩ := admitAll_of_retirement (sound.journal state running)
      running free others succeeded
    refine ⟨next, reached, admitted, ?_⟩
    intro alone apart
    obtain ⟨other, there, same⟩ := admitAll_of_succeed running apart
    obtain rfl := ok.inj (same.symm.trans admitted)
    exact there
  · intro early
    rw [all_append, and_eq_true] at early
    have last : label.isEarly = true := by
      have single := early.2
      rwa [all_cons, all_nil, Bool.and_true] at single
    exact atomic_of_faithful (faithful_run (faithful_closed setting) early.1) last

/-! ## A commit that fails late -/

/-- The record of a market with two tokens. -/
def sampleRecord (id : String) : Json :=
  .object [("identity", .object [
    ("condition_id", .string ("condition" ++ id)),
    ("market_id", .string id),
    ("outcomes", .array [
      .object [("token_id", .string (id ++ "1"))],
      .object [("token_id", .string (id ++ "2"))]])])]

/-- A live scope with these markets, of which market 1 is acquired. -/
def sampleState (ids : List String) : State where
  schemaVersion := "marketcow.runtime-scope-state.v1"
  catalogRevision := "c"
  catalogManifestSha256 := "m"
  pool := "live"
  activeConfig := .object [("catalog_revision", .string "c")]
  activeRevision := 1
  catalogSource := .null
  records := Std.ExtTreeMap.ofList (ids.map fun id => (id, sampleRecord id)) compare
  acquisitionMarketIds := TreeSet.ofElements ["1"]
  retiringRecords := ∅
  retirementTicket := none
  retiringAcquisitionMarketIds := none

/-- A process starts with market 1. -/
def sampleInitial : Initial where
  state := sampleState ["1"]
  idle := ⟨rfl, rfl, rfl⟩

/-- The values that a printer of some states has to print. -/
def printed (states : List State) : List Json :=
  states.flatMap fun state =>
    let hash := Discovery.sha256 (Json.print state.toJson)
    [state.toJson, .object [("sha256", .string hash), ("state", state.toJson)]]

/-- A printer of the two states of the sample and of their envelopes. -/
noncomputable def sampleExternals : Externals where
  json := Json.printing (printed [sampleState ["1"], sampleState ["1", "2"]])
  parseTime _ := none
  fromSlice_line := Codec.lenient_line _

/-- A private directory and a budget of 64 KiB. -/
noncomputable def sampleSetting : Setting where
  externals := sampleExternals
  path := { isAbsolute := true, parent := some { canonical := true, isDir := true, mode := 0o700 } }
  maximumBytes := 65536

theorem length_envelope (bytes : Bytes) (value : Json) :
    (Json.print (.object [("sha256", .string (Discovery.sha256 bytes)), ("state", value)])).length =
      (Json.print value).length + 86 := by
  have hash := Json.length_quote_hexEncode (Sha256.hash bytes).toList
  rw [Vector.length_toList] at hash
  have first : (Json.quote "sha256").length = 8 := rfl
  have second : (Json.quote "state").length = 7 := rfl
  unfold Discovery.sha256
  simp only [Json.print, Json.printFields, length_append, length_cons, length_nil,
    hash, first, second]
  omega

theorem length_sampleStates :
    (Json.print (sampleState ["1"]).toJson).length = 405 ∧
      (Json.print (sampleState ["1", "2"]).toJson).length = 517 := by
  decide +kernel

theorem nodup_printed :
    ((printed [sampleState ["1"], sampleState ["1", "2"]]).map fun value =>
      (Json.print (.object (Json.fieldsOf value))).length).Nodup := by
  obtain ⟨first, second⟩ := length_sampleStates
  have lengths : ((printed [sampleState ["1"], sampleState ["1", "2"]]).map fun value =>
      (Json.print (.object (Json.fieldsOf value))).length) = [405, 491, 517, 603] := by
    unfold printed
    simp only [flatMap_cons, flatMap_nil, map_cons, map_nil, append_nil, cons_append, nil_append]
    rw [show Json.object (Json.fieldsOf (sampleState ["1"]).toJson) = (sampleState ["1"]).toJson
      from rfl, show .object (Json.fieldsOf (sampleState ["1", "2"]).toJson) =
        (sampleState ["1", "2"]).toJson from rfl]
    simp only [Json.fieldsOf]
    rw [length_envelope, length_envelope, first, second]
  rw [lengths]
  decide

/-- The states of the sample are written as their texts. -/
theorem encode_sample (mem : sample ∈ [sampleState ["1"], sampleState ["1", "2"]])
    (valid : sample.validate = .ok ()) (short : (Json.print sample.toJson).length ≤ 600) :
    ∃ bytes, sampleSetting.encode sample = .ok bytes := by
  have state : sampleExternals.json.toVec sample.toJson = Json.print sample.toJson := by
    refine Json.toVec_printing nodup_printed ?_ rfl
    exact mem_flatMap.mpr ⟨sample, mem, mem_cons_self⟩
  have whole : sampleExternals.json.toVec (envelope sampleExternals sample.toJson) =
      Json.print (envelope sampleExternals sample.toJson) := by
    refine Json.toVec_printing nodup_printed ?_ rfl
    unfold envelope Externals.canonicalHash
    rw [state]
    exact mem_flatMap.mpr ⟨sample, mem, mem_cons_of_mem _ mem_cons_self⟩
  have length : (sampleExternals.json.toVec (envelope sampleExternals sample.toJson)).length ≤
      sampleSetting.maximumBytes := by
    rw [whole]
    unfold envelope Externals.canonicalHash
    rw [length_envelope]
    exact (Nat.add_le_add_right short 86).trans (by decide)
  have limited : encodeBounded sampleExternals (envelope sampleExternals sample.toJson)
      sampleSetting.maximumBytes = .ok (sampleExternals.json.toVec
        (envelope sampleExternals sample.toJson)) :=
    bind_ok.mpr ⟨(), ensure_ok.mpr rfl,
      bind_ok.mpr ⟨(), ensure_ok.mpr (decide_eq_true length), rfl⟩⟩
  refine ⟨sampleExternals.json.toVec (envelope sampleExternals sample.toJson), ?_⟩
  unfold Setting.encode
  rw [valid]
  refine bind_ok.mpr ⟨(), rfl, ?_⟩
  exact bind_ok.mpr ⟨_, limited, bind_ok.mpr ⟨_, need_ok.mpr rfl, rfl⟩⟩

theorem sampleSetting_usable : sampleSetting.Usable :=
  ⟨rfl, by decide, by decide, _, rfl, rfl, rfl, rfl⟩

/-- The first state of the sample, and the one with another market. -/
abbrev sampleFirst : State := sampleState ["1"]

/-- The scope after market 2 was admitted. -/
abbrev sampleSecond : State := sampleState ["1", "2"]

theorem exists_sampleOpened :
    ∃ bytes, sampleSetting.encode sampleFirst = .ok bytes ∧
      System.closed.run sampleSetting [.reopen sampleInitial none] =
        committed sampleFirst bytes := by
  obtain ⟨bytes, encoded⟩ := encode_sample (mem_cons_self) (by rfl)
    (length_sampleStates.1.le.trans (by decide))
  refine ⟨bytes, encoded, ?_⟩
  have opened : sampleSetting.opening none sampleInitial.state = .ok sampleFirst := by rfl
  exact congrArg snd (@step_of_opening sampleSetting .closed sampleFirst sampleInitial
    bytes opened encoded)

theorem admitRecords_sample : sampleFirst.admitRecords [sampleRecord "2"] ∅ = .ok sampleSecond := by
  rfl

/-- The admission of the sample fails where its commit does. -/
theorem step_sample (encoded : sampleSetting.encode sampleSecond = .ok later) (failure : Fault) :
    (committed sampleFirst bytes).step sampleSetting
        (.operate (.admitRecords [sampleRecord "2"] ∅) (some failure)) =
      (.error "input/output error",
        committed sampleFirst (if failure.isLate then later else bytes)) := by
  have operated : (Operation.admitRecords [sampleRecord "2"] ∅).next sampleFirst =
      .ok (some sampleSecond) :=
    map_some_ok_iff.mpr ⟨sampleSecond, admitRecords_sample, rfl⟩
  unfold System.step System.operate Setting.commit committed
  dsimp only
  rw [operated]
  dsimp only
  rw [encoded]
  cases failure <;> rfl

theorem exists_sampleSecond : ∃ bytes, sampleSetting.encode sampleSecond = .ok bytes :=
  encode_sample (mem_cons_of_mem _ mem_cons_self) (by rfl)
    (length_sampleStates.2.le.trans (by decide))

/-- A failed admission whose file is in place is not in the journal, and a reopening
reads it. -/
theorem failed_admission_reopened :
    let before := System.closed.run sampleSetting [.reopen sampleInitial none]
    let label := Label.operate (.admitRecords [sampleRecord "2"] ∅) (some .syncParent)
    let after := (before.step sampleSetting label).2
    (∃ message, (before.step sampleSetting label).1 = .error message) ∧
      before.journal = some sampleFirst ∧ after.journal = some sampleFirst ∧
      sampleSetting.read before.file = .ok (some sampleFirst) ∧
      sampleSetting.read after.file = .ok (some sampleSecond) ∧
      (after.step sampleSetting (.reopen sampleInitial none)).2.journal = some sampleSecond ∧
      "2" ∉ sampleFirst.records ∧ "2" ∈ sampleSecond.records := by
  obtain ⟨bytes, first, opened⟩ := exists_sampleOpened
  obtain ⟨later, second⟩ := exists_sampleSecond
  have reads : sampleSetting.read (committed sampleFirst later).file = .ok (some sampleSecond) :=
    read_written sampleSetting_usable second
  have reopened : sampleSetting.opening (committed sampleFirst later).file sampleInitial.state =
      .ok sampleSecond :=
    opening_of_read sampleSetting_usable (by rfl) ⟨rfl, rfl, rfl⟩ reads
  intro before label after
  have held : before = committed sampleFirst bytes := opened
  have failed : before.step sampleSetting label =
      (.error "input/output error", committed sampleFirst later) := by
    rw [held]
    exact step_sample second .syncParent
  have left : after = committed sampleFirst later := congrArg snd failed
  refine ⟨⟨_, congrArg fst failed⟩, ?_, ?_, ?_, ?_, ?_, by decide, by decide⟩
  · rw [held]
    rfl
  · rw [left]
    rfl
  · rw [held]
    exact read_written sampleSetting_usable first
  · rw [left]
    exact reads
  · rw [left, step_of_opening reopened second]
    rfl

/-- An admission that fails before its file is in place leaves no trace. -/
theorem journal_atomic_of_early_sync :
    let before := System.closed.run sampleSetting [.reopen sampleInitial none]
    let label := Label.operate (.admitRecords [sampleRecord "2"] ∅) (some .sync)
    let after := (before.step sampleSetting label).2
    (∃ message, (before.step sampleSetting label).1 = .error message) ∧
      after.journal = some sampleFirst ∧
      sampleSetting.read after.file = .ok (some sampleFirst) := by
  obtain ⟨bytes, first, opened⟩ := exists_sampleOpened
  obtain ⟨later, second⟩ := exists_sampleSecond
  intro before label after
  have held : before = committed sampleFirst bytes := opened
  have failed : (before.step sampleSetting label).1 = .error "input/output error" := by
    rw [held]
    exact congrArg fst (step_sample second .sync)
  have atomic := (journal_atomic_of_early sampleSetting [.reopen sampleInitial none] label).2.2.2
    (by rfl)
  obtain ⟨same, kept⟩ := atomic.failed _ failed
  have journal : before.journal = some sampleFirst := by
    rw [held]
    rfl
  have reads : sampleSetting.read before.file = .ok (some sampleFirst) := by
    rw [held]
    exact read_written sampleSetting_usable first
  exact ⟨⟨_, failed⟩, (kept _ _ rfl).trans journal, same.trans reads⟩

/-! ## Every state that is kept -/

/-- Wherever the commits of a run fail, the journal has a valid state in which no market
is both recorded and being retired, and so has the file for the next process. -/
theorem journal_states_kept (setting : Setting) (usable : setting.Usable) (labels : List Label) :
    let system := System.closed.run setting labels
    (∀ state, system.journal = some state → Kept state) ∧
      (system.file = none ∨ ∃ state, setting.read system.file = .ok (some state) ∧ Kept state) := by
  intro system
  have sound : Sound setting system := sound_run (sound_closed setting) labels
  refine ⟨sound.journal, sound.file.imp_right ?_⟩
  rintro ⟨state, bytes, kept, encoded, there⟩
  rw [there]
  exact ⟨state, read_written usable encoded, kept⟩

/-- The admission is in the file, though its commit failed. -/
theorem journal_states_kept_sample :
    let system := System.closed.run sampleSetting [.reopen sampleInitial none,
      .operate (.admitRecords [sampleRecord "2"] ∅) (some .syncParent)]
    ∃ state, sampleSetting.read system.file = .ok (some state) ∧ Kept state := by
  intro system
  obtain ⟨bytes, _, opened⟩ := exists_sampleOpened
  obtain ⟨later, second⟩ := exists_sampleSecond
  have left : system = committed sampleFirst later :=
    (congrArg (fun before => (System.step sampleSetting before
      (.operate (.admitRecords [sampleRecord "2"] ∅) (some .syncParent))).2) opened).trans
        (congrArg snd (step_sample second .syncParent))
  refine (journal_states_kept sampleSetting sampleSetting_usable _).2.resolve_left fun absent => ?_
  have there : system.file = none := absent
  rw [left] at there
  cases there

end MarketCow.Scope
