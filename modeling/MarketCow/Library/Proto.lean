import Mathlib

/-!
# Lengths of encoded messages

How many bytes the fields of a proto3 message take, for field numbers below
sixteen, whose tag is one byte. A field at its default value is left out; an
optional field is written whenever it is there.
-/

namespace MarketCow.Library.Proto

/-- Bytes of a base-128 number. -/
def varintLength (value : Nat) : Nat := value.log2 / 7 + 1

/-- A length-delimited field: tag, length and content. -/
def nestedLength (content : Nat) : Nat := 1 + varintLength content + content

def stringLength (text : String) : Nat :=
  if text.isEmpty then 0 else nestedLength text.utf8ByteSize

def optionalStringLength : Option String → Nat
  | none => 0
  | some text => nestedLength text.utf8ByteSize

def uint64Length (value : Nat) : Nat :=
  if value = 0 then 0 else 1 + varintLength value

def boolLength (value : Bool) : Nat := if value then 2 else 0

variable {α : Type}

def optionalLength (content : α → Nat) : Option α → Nat
  | none => 0
  | some value => nestedLength (content value)

def repeatedLength (content : α → Nat) (values : List α) : Nat :=
  (values.map fun value => nestedLength (content value)).sum

@[simp] theorem repeatedLength_nil (content : α → Nat) : repeatedLength content [] = 0 := rfl

@[simp] theorem repeatedLength_cons (content : α → Nat) (value : α) (values : List α) :
    repeatedLength content (value :: values) =
      nestedLength (content value) + repeatedLength content values := rfl

/-- Seven bits less are one byte less. -/
theorem varintLength_of_le (large : 128 ≤ value) :
    varintLength value = varintLength (value / 128) + 1 := by
  have positive : value ≠ 0 := by omega
  have quotient : value / 128 ≠ 0 := by omega
  have logarithm : value.log2 = (value / 128).log2 + 7 := by
    rw [Nat.log2_eq_log_two, Nat.log2_eq_log_two]
    have split : value / 128 = value / 2 / 2 / 2 / 2 / 2 / 2 / 2 := by omega
    rw [split]
    have half : ∀ number, 2 ≤ number → Nat.log 2 number = Nat.log 2 (number / 2) + 1 := by
      intro number bound
      exact Nat.log_of_one_lt_of_le Nat.one_lt_two bound
    rw [half value (by omega), half (value / 2) (by omega), half (value / 2 / 2) (by omega),
      half (value / 2 / 2 / 2) (by omega), half (value / 2 / 2 / 2 / 2) (by omega),
      half (value / 2 / 2 / 2 / 2 / 2) (by omega), half (value / 2 / 2 / 2 / 2 / 2 / 2) (by omega)]
  unfold varintLength
  rw [logarithm]
  omega

theorem varintLength_of_lt (small : value < 128) : varintLength value = 1 := by
  have bound : value.log2 < 7 := by
    by_cases zero : value = 0
    · rw [zero]
      decide
    · rw [Nat.log2_lt zero]
      omega
  unfold varintLength
  omega

theorem varintLength_mono (less : first ≤ second) : varintLength first ≤ varintLength second := by
  have logarithms : first.log2 ≤ second.log2 := by
    rw [Nat.log2_eq_log_two, Nat.log2_eq_log_two]
    exact Nat.log_mono_right less
  unfold varintLength
  exact Nat.add_le_add_right (Nat.div_le_div_right logarithms) 1

theorem nestedLength_mono (less : first ≤ second) : nestedLength first ≤ nestedLength second := by
  have lengths := varintLength_mono less
  unfold nestedLength
  omega

theorem stringLength_le (text : String) : stringLength text ≤ nestedLength text.utf8ByteSize := by
  unfold stringLength
  split
  · exact Nat.zero_le _
  · exact le_rfl

/-- A 64-bit number takes a tag and at most ten bytes. -/
theorem uint64Length_le (bounded : value < 2 ^ 64) : uint64Length value ≤ 11 := by
  unfold uint64Length
  split
  · exact Nat.zero_le _
  · rename_i nonzero
    have logarithm := (Nat.log2_lt nonzero).mpr bounded
    unfold varintLength
    omega

end MarketCow.Library.Proto
