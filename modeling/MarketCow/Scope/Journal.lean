import MarketCow.Scope.Operations

/-!
# The file of the scope journal

A state is committed by writing it beside the file, which it then replaces. The
process opens the journal with what the file holds.
-/

namespace MarketCow.Scope

open Library Option
open Discovery (Externals ensure need field)

/-! ## States as JSON -/

/-- The fields of a state are listed in the order of their names. -/
def State.toJson (state : State) : Json :=
  let text := fun id : String => Json.string id
  .object ([
    ("acquisition_market_ids", .array (state.acquisitionMarketIds.toList.map text)),
    ("active_config", state.activeConfig),
    ("active_revision", .integer state.activeRevision.toNat),
    ("catalog_manifest_sha256", .string state.catalogManifestSha256),
    ("catalog_revision", .string state.catalogRevision),
    ("catalog_source", state.catalogSource),
    ("pool", .string state.pool),
    ("records", .object state.records.toList),
    ("retirement_ticket", match state.retirementTicket with
      | none => .null
      | some ticket => .integer ticket.toNat)] ++
    (match state.retiringAcquisitionMarketIds with
      | none => []
      | some ids => [("retiring_acquisition_market_ids", .array (ids.toList.map text))]) ++
    [("retiring_records", .object state.retiringRecords.toList),
      ("schema_version", .string state.schemaVersion)])

/-- The fields of a state; any other is refused. -/
def fieldNames : List String :=
  ["acquisition_market_ids", "active_config", "active_revision", "catalog_manifest_sha256",
    "catalog_revision", "catalog_source", "pool", "records", "retirement_ticket",
    "retiring_acquisition_market_ids", "retiring_records", "schema_version"]

/-- A field that is a text. -/
def textOf (value : Json) (name : String) : Option String :=
  (value.get? name).bind Json.asString?

/-- A field that is an object, as a map. -/
def mapOf (value : Json) (name : String) : Option (TreeMap String Json) :=
  ((value.get? name).bind Json.asObject?).map fun fields => Std.ExtTreeMap.ofList fields compare

/-- A list of texts, as a set. -/
def readIds (value : Json) : Option (TreeSet String) :=
  (value.asArray?.bind fun ids => ids.mapM Json.asString?).map TreeSet.ofElements

/-- A field that may be absent or null. -/
def optional {α : Type} (value : Json) (name : String) (read : Json → Option α) :
    Option (Option α) :=
  match value.get? name with
  | none => some none
  | some .null => some none
  | some content => (read content).map some

/-- The fields of a state, and no other ones. -/
def State.fromJson (value : Json) : Option State := do
  let fields ← value.asObject?
  guard (fields.all fun entry => fieldNames.contains entry.1)
  let schemaVersion ← textOf value "schema_version"
  let catalogRevision ← textOf value "catalog_revision"
  let catalogManifestSha256 ← textOf value "catalog_manifest_sha256"
  let pool ← textOf value "pool"
  let activeConfig ← value.get? "active_config"
  let activeRevision ← (value.get? "active_revision").bind Json.asU64?
  let catalogSource ← value.get? "catalog_source"
  let records ← mapOf value "records"
  let acquisitionMarketIds ← (value.get? "acquisition_market_ids").bind readIds
  let retiringRecords ← mapOf value "retiring_records"
  let retirementTicket ← optional value "retirement_ticket" Json.asU64?
  let retiringAcquisitionMarketIds ←
    optional value "retiring_acquisition_market_ids" readIds
  return {
    schemaVersion, catalogRevision, catalogManifestSha256, pool, activeConfig
    activeRevision := UInt64.ofNat activeRevision
    catalogSource, records, acquisitionMarketIds, retiringRecords
    retirementTicket := retirementTicket.map UInt64.ofNat
    retiringAcquisitionMarketIds }

theorem ofList_toList (records : TreeMap String Json) :
    Std.ExtTreeMap.ofList records.toList compare = records := by
  apply TreeMap.ext_getElem?
  intro id
  cases found : records[id]? with
  | some record =>
    exact Std.ExtTreeMap.getElem?_ofList_of_mem (Std.ReflCmp.compare_self)
      Std.ExtTreeMap.distinct_keys_toList
      (mem_toList_iff_getElem?_eq_some.mpr found)
  | none =>
    apply Std.ExtTreeMap.getElem?_ofList_of_contains_eq_false
    rw [← not_eq_true, List.contains_iff_mem, List.mem_map]
    rintro ⟨⟨_, record⟩, mem, rfl⟩
    rw [mem_toList_iff_getElem?_eq_some.mp mem] at found
    cases found

theorem ofElements_toList (ids : TreeSet String) : TreeSet.ofElements ids.toList = ids := by
  apply Std.ExtTreeSet.ext_mem
  intro id
  rw [TreeSet.mem_ofElements, Std.ExtTreeSet.mem_toList]

theorem mapM_asString? (ids : List String) :
    (ids.map fun id => Json.string id).mapM Json.asString? = some ids := by
  induction ids with
  | nil => rfl
  | cons id ids ih =>
    rw [List.map_cons, List.mapM_cons, ih]
    rfl

theorem readIds_array (ids : TreeSet String) :
    readIds (.array (ids.toList.map fun id => Json.string id)) = some ids := by
  unfold readIds
  simp only [Json.asArray?, bind_some]
  rw [mapM_asString?, map_some, ofElements_toList]

theorem asU64?_toNat (number : UInt64) : (Json.integer number.toNat).asU64? = some number.toNat :=
  Json.asU64?_integer number.toNat_lt

/-- The written fields have the names that are read. -/
theorem fieldNames_toJson (state : State) :
    ∃ fields, state.toJson = .object fields ∧
      (fields.all fun entry => fieldNames.contains entry.1) = true := by
  refine ⟨_, rfl, ?_⟩
  rw [List.all_append, List.all_append]
  cases state.retiringAcquisitionMarketIds <;> rfl

theorem optional_ticket {value : Json} (ticket : Option UInt64)
    (written : value.get? "retirement_ticket" = some (match ticket with
      | none => .null
      | some ticket => .integer ticket.toNat)) :
    optional value "retirement_ticket" Json.asU64? = some (ticket.map UInt64.toNat) := by
  unfold optional
  rw [written]
  cases ticket with
  | none => rfl
  | some ticket => exact congrArg (Option.map some) (asU64?_toNat ticket)

theorem optional_acquired (state : State) :
    optional state.toJson "retiring_acquisition_market_ids" readIds =
      some state.retiringAcquisitionMarketIds := by
  have written : state.toJson.get? "retiring_acquisition_market_ids" =
      state.retiringAcquisitionMarketIds.map fun ids =>
        .array (ids.toList.map fun id => .string id) := by
    unfold State.toJson
    cases state.retiringAcquisitionMarketIds <;> rfl
  unfold optional
  rw [written]
  cases state.retiringAcquisitionMarketIds with
  | none => rfl
  | some ids => exact congrArg (Option.map some) (readIds_array ids)

/-- What is written of a state is read back. -/
theorem fromJson_toJson (state : State) : State.fromJson state.toJson = some state := by
  obtain ⟨fields, written, known⟩ := fieldNames_toJson state
  have object : state.toJson.asObject? = some fields := by
    rw [written]
    rfl
  have schema : textOf state.toJson "schema_version" = some state.schemaVersion := by
    unfold State.toJson
    cases state.retiringAcquisitionMarketIds <;> rfl
  have catalog : textOf state.toJson "catalog_revision" = some state.catalogRevision := rfl
  have manifest : textOf state.toJson "catalog_manifest_sha256" =
    some state.catalogManifestSha256 := rfl
  have pool : textOf state.toJson "pool" = some state.pool := rfl
  have config : state.toJson.get? "active_config" = some state.activeConfig := rfl
  have revision : (state.toJson.get? "active_revision").bind Json.asU64? =
      some state.activeRevision.toNat := by
    have read : state.toJson.get? "active_revision" =
      some (.integer state.activeRevision.toNat) := rfl
    rw [read, bind_some, asU64?_toNat]
  have source : state.toJson.get? "catalog_source" = some state.catalogSource := rfl
  have records : mapOf state.toJson "records" = some state.records := by
    have read : state.toJson.get? "records" = some (.object state.records.toList) := rfl
    unfold mapOf
    rw [read, bind_some, Json.asObject?, map_some, ofList_toList]
  have acquisition : (state.toJson.get? "acquisition_market_ids").bind readIds =
      some state.acquisitionMarketIds := by
    have read : state.toJson.get? "acquisition_market_ids" =
      some (.array (state.acquisitionMarketIds.toList.map fun id => .string id)) := rfl
    rw [read, bind_some, readIds_array]
  have retiring : mapOf state.toJson "retiring_records" = some state.retiringRecords := by
    have read : state.toJson.get? "retiring_records" =
        some (.object state.retiringRecords.toList) := by
      unfold State.toJson
      cases state.retiringAcquisitionMarketIds <;> rfl
    unfold mapOf
    rw [read, bind_some, Json.asObject?, map_some, ofList_toList]
  have ticket := @optional_ticket state.toJson state.retirementTicket rfl
  have acquired := optional_acquired state
  unfold State.fromJson
  simp only [object, known, schema, catalog, manifest, pool, config, revision, source, records,
    acquisition, retiring, ticket, acquired, pure_def, bind_eq_bind, bind_some,
    UInt64.ofNat_toNat, map_map]
  rw [show UInt64.ofNat ∘ UInt64.toNat = id from funext fun number => UInt64.ofNat_toNat, map_id]
  rfl

/-! ## The file -/

/-- The directory of the file. -/
structure Directory where
  canonical : Bool
  isDir : Bool
  mode : Nat

/-- The path of the journal, and what stands at its parent. -/
structure Location where
  isAbsolute : Bool
  parent : Option Directory

/-- What stands at the path. -/
structure File where
  isFile : Bool
  mode : Nat
  bytes : Bytes

/-- Where a journal is kept, and how large it may be. -/
structure Setting where
  externals : Externals
  path : Location
  maximumBytes : Nat

/-- Only the owner has access. -/
def isPrivate (mode : Nat) : Bool :=
  mode &&& 0o077 == 0

/-- A state under the hash of its text. -/
def envelope (externals : Externals) (state : Json) : Json :=
  .object [("sha256", .string (externals.canonicalHash state)), ("state", state)]

/-- The text of a value, within a limit. -/
def encodeBounded (externals : Externals) (value : Json) (limit : Nat) : Except String Bytes := do
  ensure (limit != 0) "explicit positive response limit required"
  let bytes := externals.json.toVec value
  ensure (decide (bytes.length ≤ limit)) "response byte limit exceeded"
  return bytes

/-- The state in the file, if there is a file. A file that is not private, too long, hashed
wrongly or not a valid state is refused. -/
def Setting.read (setting : Setting) (file : Option File) : Except String (Option State) := do
  ensure (setting.path.isAbsolute && decide (1024 ≤ setting.maximumBytes) &&
    decide (setting.maximumBytes ≤ 256 * 1024 * 1024)) "runtime journal path/budget"
  match file with
  | none => return none
  | some file => do
    ensure (file.isFile && isPrivate file.mode &&
      decide (file.bytes.length ≤ setting.maximumBytes))
      "runtime journal file/bytes/permissions"
    let value ← need (setting.externals.json.fromSlice file.bytes) "runtime journal value"
    ensure (setting.externals.json.toVec value == file.bytes &&
      value.asObject?.any fun fields => fields.length == 2 &&
        (fields.lookup "state").isSome && (fields.lookup "sha256").isSome)
      "runtime journal canonical envelope"
    ensure (field value "sha256" ==
      .string (setting.externals.canonicalHash (field value "state"))) "runtime journal hash"
    let state ← need (State.fromJson (field value "state")) "runtime journal state"
    state.validate
    return some state

/-! ## Commits -/

/-- Where a commit fails. -/
inductive Fault
  | create
  | write
  | sync
  | rename
  | openParent
  | syncParent
  deriving DecidableEq

/-- The file is in its place already. -/
def Fault.isLate : Fault → Bool
  | .create => false
  | .write => false
  | .sync => false
  | .rename => false
  | .openParent => true
  | .syncParent => true

/-- The bytes that a commit writes. -/
def Setting.encode (setting : Setting) (next : State) : Except String Bytes := do
  next.validate
  let bytes ← encodeBounded setting.externals (envelope setting.externals next.toJson)
    setting.maximumBytes
  let _ ← need setting.path.parent "runtime journal parent"
  return bytes

/-- A file as a commit writes it. -/
def written (bytes : Bytes) : File where
  isFile := true
  mode := 0o600
  bytes

/-- The state of the journal after a commit, and the file. A failed commit keeps
the state, whatever happened to the file. -/
def Setting.commit (setting : Setting) (fault : Option Fault) (file : Option File)
    (next : State) : Except String State × Option File :=
  match setting.encode next with
  | .error message => (.error message, file)
  | .ok bytes =>
    match fault with
    | none => (.ok next, some (written bytes))
    | some fault =>
      (.error "input/output error", if fault.isLate then some (written bytes) else file)

/-- The state that a process starts with. -/
def Setting.opening (setting : Setting) (file : Option File) (initial : State) :
    Except String State := do
  let parent ← need setting.path.parent "runtime journal parent"
  ensure (setting.path.isAbsolute && parent.canonical && parent.isDir && isPrivate parent.mode)
    "private runtime journal directory"
  initial.validate
  match ← setting.read file with
  | none => return initial
  | some saved => do
    ensure (saved.catalogManifestSha256 == initial.catalogManifestSha256 &&
      saved.catalogRevision == initial.catalogRevision && saved.pool == initial.pool)
      "runtime source binding differs"
    return saved

/-- Open the journal: the state in the file, or else the first one, is committed again. -/
def Setting.openJournal (setting : Setting) (fault : Option Fault) (file : Option File)
    (initial : State) : Except String State × Option File :=
  match setting.opening file initial with
  | .error message => (.error message, file)
  | .ok state => setting.commit fault file state

/-! ## Runs -/

/-- A state that a process may start a journal with. It retires nothing: a new state is
made so, and a retirement that the file has pending is finished before the journal is
opened. -/
structure Initial where
  state : State
  idle : state.Idle

/-- A process with its journal, and the file. -/
structure System where
  journal : Option State
  file : Option File
  -- The state of the last commit that succeeded.
  acknowledged : Option State

/-- A process opens the journal or performs an operation, and storage may fail. -/
inductive Label
  | reopen (initial : Initial) (fault : Option Fault)
  | operate (operation : Operation) (fault : Option Fault)

/-- A commit that succeeds is acknowledged. -/
def System.acknowledge (system : System) (result : Except String State × Option File) :
    Except String Unit × System :=
  match result with
  | (.ok state, file) =>
    (.ok (), { journal := some state, file, acknowledged := some state })
  | (.error message, file) => (.error message, { system with file })

/-- An operation computes the next state and commits it. One that changes nothing commits
nothing. -/
def System.operate (setting : Setting) (system : System) (operation : Operation)
    (fault : Option Fault) : Except String Unit × System :=
  match system.journal with
  | none => (.error "no journal", system)
  | some state =>
    match operation.next state with
    | .error message => (.error message, system)
    | .ok none => (.ok (), system)
    | .ok (some next) => system.acknowledge (setting.commit fault system.file next)

/-- What a step answers and leaves. -/
def System.step (setting : Setting) (system : System) : Label → Except String Unit × System
  | .reopen initial fault =>
    { system with journal := none }.acknowledge
      (setting.openJournal fault system.file initial.state)
  | .operate operation fault => system.operate setting operation fault

/-- No journal was opened yet. -/
def System.closed : System where
  journal := none
  file := none
  acknowledged := none

/-- What the steps leave, whatever they answer. -/
def System.run (setting : Setting) (system : System) (labels : List Label) : System :=
  labels.foldl (fun system label => (system.step setting label).2) system

/-- A run in which every step succeeds. -/
def System.succeed (setting : Setting) (system : System) (labels : List Label) : Option System :=
  labels.foldlM (fun system label =>
    match system.step setting label with
    | (.ok (), next) => some next
    | (.error _, _) => none) system

end MarketCow.Scope
