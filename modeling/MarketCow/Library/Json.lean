import Mathlib

/-!
# JSON values

JSON trees with decidable equality and the typed observations programs make on
them. A number is an integer or the text of a floating-point literal. An
object is the list of its fields; `object` looks a field up by its first
occurrence.
-/

namespace MarketCow.Library

inductive Json
  | null
  | bool (value : Bool)
  | integer (value : Int)
  | float (text : String)
  | string (value : String)
  | array (items : List Json)
  | object (fields : List (String × Json))

namespace Json

mutual

/-- Structural comparison of two trees. -/
def beq : Json → Json → Bool
  | .null, .null => true
  | .bool left, .bool right => left == right
  | .integer left, .integer right => left == right
  | .float left, .float right => left == right
  | .string left, .string right => left == right
  | .array left, .array right => beqItems left right
  | .object left, .object right => beqFields left right
  | _, _ => false

def beqItems : List Json → List Json → Bool
  | [], [] => true
  | left :: lefts, right :: rights => beq left right && beqItems lefts rights
  | _, _ => false

def beqFields : List (String × Json) → List (String × Json) → Bool
  | [], [] => true
  | (leftName, left) :: lefts, (rightName, right) :: rights =>
    leftName == rightName && beq left right && beqFields lefts rights
  | _, _ => false

end

mutual

theorem beq_iff : ∀ left right : Json, beq left right = true ↔ left = right
  | .null, right | .bool left, right | .integer left, right => by cases right <;> simp [beq]
  | .float left, right | .string left, right => by cases right <;> simp [beq]
  | .array left, right => by cases right <;> simp [beq, beqItems_iff left]
  | .object left, right => by cases right <;> simp [beq, beqFields_iff left]

theorem beqItems_iff : ∀ left right : List Json, beqItems left right = true ↔ left = right
  | [], right => by cases right <;> simp [beqItems]
  | left :: lefts, right => by
    cases right <;> simp [beqItems, beq_iff left, beqItems_iff lefts]

theorem beqFields_iff : ∀ left right : List (String × Json),
    beqFields left right = true ↔ left = right
  | [], right => by cases right <;> simp [beqFields]
  | (leftName, left) :: lefts, right => by
    rcases right with _ | ⟨⟨rightName, right⟩, rights⟩ <;>
      simp [beqFields, beq_iff left, beqFields_iff lefts, and_assoc]

end

instance : DecidableEq Json :=
  fun left right => decidable_of_iff _ (beq_iff left right)

/-- The fields of an object. -/
def asObject? : Json → Option (List (String × Json))
  | .object fields => some fields
  | _ => none

/-- The field of an object with the given name. -/
def get? (value : Json) (name : String) : Option Json :=
  match value with
  | .object fields => fields.lookup name
  | _ => none

def asString? : Json → Option String
  | .string text => some text
  | _ => none

/-- An integer in the range of an unsigned 64-bit number. -/
def asU64? : Json → Option Nat
  | .integer value =>
    if 0 ≤ value ∧ value < 2 ^ 64 then some value.toNat else none
  | _ => none

/-- An integer in the range of a signed 64-bit number. -/
def asI64? : Json → Option Int
  | .integer value => if -2 ^ 63 ≤ value ∧ value < 2 ^ 63 then some value else none
  | _ => none

def asArray? : Json → Option (List Json)
  | .array items => some items
  | _ => none

theorem asU64?_integer {value : Nat} (bounded : value < 2 ^ 64) :
    (integer value).asU64? = some value := by
  have inRange : 0 ≤ (value : Int) ∧ (value : Int) < 2 ^ 64 := by
    constructor
    · exact Int.natCast_nonneg value
    · exact_mod_cast bounded
  simp only [asU64?]
  rw [if_pos inRange, Int.toNat_natCast]

end Json

end MarketCow.Library
