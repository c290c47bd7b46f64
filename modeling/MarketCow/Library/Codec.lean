import Mathlib.Logic.Equiv.List
import Mathlib.Logic.Function.Basic
import MarketCow.Library.Lines

/-!
# Codecs

Texts that stand for the values of one type, each on a line of its own. The
values of a countable type have a codec that writes one chosen value as a given
text.
-/

namespace MarketCow.Library

/-- Texts of the values of one type: reading undoes writing, and every text is
a nonempty line. -/
structure Codec (α : Type) where
  toVec : α → Bytes
  fromSlice : Bytes → Option α
  fromSlice_toVec : ∀ value, fromSlice (toVec value) = some value
  newline_notMem_toVec : ∀ value, Lines.newline ∉ toVec value
  toVec_ne_nil : ∀ value, toVec value ≠ []

namespace Codec

variable {α : Type} [Countable α]

/-- A row of zeros, one longer than the number of the value. -/
noncomputable def row (value : α) : Bytes :=
  List.replicate ((exists_injective_nat α).choose value + 1) 48

theorem row_injective : Function.Injective (row (α := α)) := by
  intro first second same
  have lengths := congrArg List.length same
  unfold row at lengths
  rw [List.length_replicate, List.length_replicate, Nat.add_right_cancel_iff] at lengths
  exact (exists_injective_nat α).choose_spec lengths

theorem row_clean {value : α} {byte : UInt8} (ne : byte ≠ 48) : byte ∉ row value :=
  fun mem => ne (List.eq_of_mem_replicate mem)

theorem row_ne_nil (value : α) : row value ≠ [] := by
  unfold row
  rw [List.replicate_succ]
  exact List.cons_ne_nil _ _

/-- The codec that writes every value as a row. -/
noncomputable def rows : Codec α where
  toVec := row
  fromSlice := Function.partialInv row
  fromSlice_toVec := Function.partialInv_left row_injective
  newline_notMem_toVec _ := row_clean (by decide)
  toVec_ne_nil := row_ne_nil

/-- A listed value that no other listed value shares its text with. -/
def Legible (known : List α) (text : α → Bytes) (value : α) : Prop :=
  value ∈ known ∧ ∀ other ∈ known, text other = text value → other = value

open Classical in
/-- The codec that writes some values as their texts, which are lines with a
brace, and every other value as a row. -/
noncomputable def withTexts (known : List α) (text : α → Bytes)
    (clean : ∀ value, Lines.newline ∉ text value)
    (brace : ∀ value, 123 ∈ text value) : Codec α where
  toVec value := if Legible known text value then text value else row value
  fromSlice bytes :=
    if legible : ∃ value, Legible known text value ∧ text value = bytes then
      some legible.choose
    else Function.partialInv row bytes
  fromSlice_toVec value := by
    by_cases legible : Legible known text value
    · rw [if_pos legible]
      have readable : ∃ other, Legible known text other ∧ text other = text value :=
        ⟨value, legible, rfl⟩
      rw [dif_pos readable]
      obtain ⟨chosen, same⟩ := readable.choose_spec
      exact congrArg some (legible.2 _ chosen.1 same)
    · have unreadable : ¬∃ other, Legible known text other ∧ text other = row value := by
        rintro ⟨other, _, same⟩
        exact row_clean (by decide) (same ▸ brace other)
      rw [if_neg legible, dif_neg unreadable]
      exact Function.partialInv_left row_injective value
  newline_notMem_toVec value := by
    split
    · exact clean value
    · exact rows.newline_notMem_toVec value
  toVec_ne_nil value := by
    split
    · exact List.ne_nil_of_mem (brace value)
    · exact rows.toVec_ne_nil value

/-! ## Lines -/

section Lines

variable {β : Type} (codec : Codec β)

/-- A text without the newline after it. -/
def chomp (bytes : Bytes) : Bytes :=
  if bytes.getLast? = some Lines.newline then bytes.dropLast else bytes

theorem chomp_toVec (value : β) : chomp (codec.toVec value) = codec.toVec value := by
  unfold chomp
  rw [if_neg]
  intro last
  exact codec.newline_notMem_toVec value (List.mem_of_getLast? last)

theorem chomp_line (value : β) :
    chomp (codec.toVec value ++ [Lines.newline]) = codec.toVec value := by
  unfold chomp
  rw [List.getLast?_concat, if_pos rfl, List.dropLast_concat]

/-- The codec that also reads a text with a newline after it. -/
def lenient : Codec β where
  toVec := codec.toVec
  fromSlice bytes := codec.fromSlice (chomp bytes)
  fromSlice_toVec value := by
    rw [codec.chomp_toVec]
    exact codec.fromSlice_toVec value
  newline_notMem_toVec := codec.newline_notMem_toVec
  toVec_ne_nil := codec.toVec_ne_nil

theorem lenient_line (value : β) :
    codec.lenient.fromSlice (codec.lenient.toVec value ++ [Lines.newline]) = some value := by
  unfold lenient
  dsimp only
  rw [codec.chomp_line]
  exact codec.fromSlice_toVec value

end Lines

end Codec

/-! ## Countable types of texts -/

theorem countable_uint8 : Countable UInt8 :=
  Function.Injective.countable fun _ _ same => UInt8.toNat_inj.mp same

theorem countable_uint32 : Countable UInt32 :=
  Function.Injective.countable fun _ _ same => UInt32.toNat_inj.mp same

theorem countable_string : Countable String := by
  have characters : Countable Char :=
    Function.Injective.countable fun _ _ same => Char.toNat_inj.mp same
  exact Function.Injective.countable fun _ _ same => String.toList_inj.mp same

end MarketCow.Library
