import MarketCow.Library.Codec
import MarketCow.Library.Fallible
import MarketCow.Library.Hash
import MarketCow.Library.Json
import MarketCow.Library.OrderedMap
import MarketCow.Library.Text

/-!
# Source events

The JSON events of a prepared source as the writer reads them, and the book
recoveries that they open and complete.
-/

namespace MarketCow.Discovery

open Library List

/-- What the writer uses of external packages: the printer and the parser of
JSON, which skips white space at the end, and the parser of times. -/
structure Externals where
  json : Codec Json
  parseTime : String → Option Int
  fromSlice_line : ∀ value, json.fromSlice (json.toVec value ++ [Lines.newline]) = some value

/-- The hexadecimal SHA-256 of bytes. -/
def sha256 (bytes : Bytes) : String :=
  Text.hexEncode (Sha256.hash bytes).toList

/-- Objects list their fields in the order of the keys, so the hash of the
printed value is the hash of the value with sorted keys. -/
def Externals.canonicalHash (externals : Externals) (value : Json) : String :=
  sha256 (externals.json.toVec value)

/-! ## Reading values -/

def ensure (condition : Bool) (message : String) : Except String Unit :=
  if condition then .ok () else .error message

def need {α : Type} (value : Option α) (message : String) : Except String α :=
  match value with
  | some value => .ok value
  | none => .error message

theorem ensure_ok :
    ensure condition message = .ok value ↔ condition = true := by
  cases condition <;> simp [ensure]

theorem need_ok {α : Type} {found : Option α} {message : String} {value : α} :
    need found message = .ok value ↔ found = some value := by
  cases found <;> simp [need]

/-- Addition of 64-bit numbers. -/
def checkedAdd (left right : Nat) : Option Nat :=
  if left + right < 2 ^ 64 then some (left + right) else none

theorem checkedAdd_eq_some_iff {left right sum : Nat} :
    checkedAdd left right = some sum ↔ left + right = sum ∧ sum < 2 ^ 64 := by
  unfold checkedAdd
  split
  · rename_i small
    constructor
    · intro same
      cases same
      exact ⟨rfl, small⟩
    · rintro ⟨rfl, _⟩
      rfl
  · rename_i large
    constructor
    · intro never
      cases never
    · rintro ⟨rfl, small⟩
      exact absurd small large

/-- The field of a value, or null in its absence. -/
def field (value : Json) (name : String) : Json :=
  (value.get? name).getD .null

/-- The item of an array, or null in its absence. -/
def item (value : Json) (index : Nat) : Json :=
  (value.asArray?.bind fun items => items[index]?).getD .null

def items (value : Json) : List Json :=
  value.asArray?.getD []

/-- A field that holds a text. -/
def required (value : Json) (name : String) : Except String String :=
  need ((value.get? name).bind Json.asString?) ("missing string " ++ name)

theorem field_of_required
    (found : required value name = .ok text) :
    field value name = .string text := by
  have there := need_ok.mp found
  obtain ⟨child, present, isText⟩ := bind_eq_some_iff.mp there
  unfold field
  rw [present]
  cases child with
  | string other =>
    cases isText
    rfl
  | null | bool _ | integer _ | float _ | array _ | object _ => cases isText

/-- Set the value of a field. A new field takes its place in the order of the keys. -/
def setField (value : Json) (name : String) (content : Json) : Json :=
  match value with
  | .object fields =>
    if (fields.lookup name).isSome then
      .object (fields.map fun entry => if entry.1 = name then (name, content) else entry)
    else
      .object (fields.takeWhile (fun entry => decide (entry.1 < name)) ++
        (name, content) :: fields.dropWhile fun entry => decide (entry.1 < name))
  | .null => .object [(name, content)]
  | other => other

private theorem lookup_map_set
    (fields : List (String × Json)) (name other : String) (content : Json) :
    (fields.map fun entry => if entry.1 = name then (name, content) else entry).lookup other =
      if other = name then (fields.lookup name).map fun _ => content else fields.lookup other := by
  induction fields with
  | nil => simp
  | cons entry fields ih =>
    obtain ⟨key, value⟩ := entry
    rw [map_cons]
    by_cases same : key = name
    · subst same
      by_cases asked : other = key
      · simp [asked]
      · have apart : (other == key) = false := beq_eq_false_iff_ne.mpr asked
        simp [lookup_cons, asked, apart, ih]
    · by_cases asked : other = key
      · subst asked
        simp [same]
      · simp only [same, if_false, lookup_cons, beq_eq_false_iff_ne.mpr asked, ih]
        have apart : (name == key) = false := beq_eq_false_iff_ne.mpr (Ne.symm same)
        rw [apart]

private theorem lookup_append_cons
    (first second : List (String × Json)) (name other : String) (content : Json)
    (absent : (first ++ second).lookup name = none) :
    (first ++ (name, content) :: second).lookup other =
      if other = name then some content else (first ++ second).lookup other := by
  induction first with
  | nil =>
    rw [nil_append, nil_append, lookup_cons]
    by_cases asked : other = name
    · simp [asked]
    · simp [asked, beq_eq_false_iff_ne.mpr asked]
  | cons entry first ih =>
    obtain ⟨key, value⟩ := entry
    rw [cons_append, lookup_cons] at absent
    rw [cons_append, cons_append, lookup_cons, lookup_cons]
    cases named : name == key with
    | true =>
      rw [named] at absent
      cases absent
    | false =>
      rw [named] at absent
      cases asked : other == key with
      | true =>
        have ne : other ≠ name := by
          rintro rfl
          rw [asked] at named
          cases named
        rw [if_neg ne]
      | false => exact ih absent

variable {value content : Json} {name other : String}

section

variable (isObject : value.asObject?.isSome = true)
include isObject

/-- Looking a field up after another was set. -/
theorem get?_setField :
    (setField value name content).get? other =
      if other = name then some content else value.get? other := by
  cases value with
  | object fields =>
    unfold setField Json.get?
    dsimp only
    cases found : fields.lookup name with
    | some old =>
      have present : (some old).isSome = true := rfl
      rw [if_pos present]
      dsimp only
      rw [lookup_map_set, found]
      rfl
    | none =>
      have missing : ¬(none : Option Json).isSome = true := nofun
      rw [if_neg missing]
      dsimp only
      have whole := takeWhile_append_dropWhile
        (p := fun entry : String × Json => decide (entry.1 < name)) (l := fields)
      rw [lookup_append_cons _ _ _ _ _ (by rw [whole, found]), whole]
  | _ => cases isObject

/-- The other fields stay. -/
theorem field_setField_of_ne (ne : other ≠ name) :
    field (setField value name content) other = field value other := by
  unfold field
  rw [get?_setField isObject, if_neg ne]

theorem field_setField_self :
    field (setField value name content) name = content := by
  unfold field
  rw [get?_setField isObject, if_pos rfl]
  rfl

theorem asObject?_setField :
    (setField value name content).asObject?.isSome = true := by
  cases value with
  | object fields =>
    unfold setField
    dsimp only
    split <;> rfl
  | _ => cases isObject

end

/-- The value without a field. -/
def removeField (value : Json) (name : String) : Json :=
  match value with
  | .object fields => .object (fields.filter fun entry => entry.1 ≠ name)
  | other => other

/-! ## Book recoveries -/

/-- The hard ceiling of the parser and the storage. -/
def maxSourceTokenIdentities : Nat := 8192

def isTokenRecovery (event : Json) : Bool :=
  (field event "event_type" == .string "recovery_started" ||
      field event "event_type" == .string "recovery_completed") &&
    field (field event "canonical_payload") "recovery_scope" == .string "token"

def Json.isString (value : Json) : Bool := value.asString?.isSome

def Json.isArray (value : Json) : Bool := value.asArray?.isSome

/-- A complete book of the supplier, tagged as one or in the form of the REST interface. -/
def isFullSnapshot (event : Json) : Bool :=
  let raw := field event "raw_payload"
  field event "event_type" == .string "book" &&
    (field raw "event_type" == .string "book" ||
      ((raw.get? "event_type").isNone &&
        field raw "asset_id" == field event "token_id" &&
        field raw "market" == field event "condition_id" &&
        Json.isString (field raw "tick_size") && Json.isString (field raw "timestamp") &&
        Json.isString (field raw "hash") && Json.isArray (field raw "bids") &&
        Json.isArray (field raw "asks")))

/-- What is kept of a recovery while it is open. -/
def recoveryModel (token : String) (event : Json) : Json :=
  .object
    [("condition_id", field event "condition_id"), ("gap", item (field event "gaps") 0),
     ("market_id", field event "market_id"),
     ("recovery_id", field (field event "canonical_payload") "recovery_id"),
     ("snapshot_cursor", .null), ("token_id", .string token)]

/-- A status event cannot touch another token or complete without the full
snapshot it names. -/
def applyTokenRecovery (state : TreeMap String Json) (event : Json) :
    Except String (TreeMap String Json) :=
  if isFullSnapshot event then do
    let token ← required event "token_id"
    match state[token]? with
    | none => .ok state
    | some current =>
      .ok (state.insert token (setField current "snapshot_cursor" (field event "cursor")))
  else if isTokenRecovery event then do
    let token ← required event "token_id"
    let payload := field event "canonical_payload"
    if field event "event_type" == .string "recovery_started" then
      ensure (state.contains token || decide (state.size < maxSourceTokenIdentities))
        "token recovery capacity"
      .ok (state.insert token (recoveryModel token event))
    else
      let current ← need state[token]? "completion without recovery"
      ensure (field current "recovery_id" == field payload "recovery_id" &&
          (field current "snapshot_cursor").asU64?.isSome &&
          field current "snapshot_cursor" == field payload "snapshot_cursor")
        "completion without matching snapshot"
      .ok (state.erase token)
  else .ok state

end MarketCow.Discovery
