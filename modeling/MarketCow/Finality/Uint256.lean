import MarketCow.Finality.Settlement

/-!
# Numbers of 256 bits

Texts are numbers below 2 ^ 256 exactly when they are accepted as such, the bytes
of a token are those of its decimal text, and sums are exact.
-/

namespace MarketCow.Finality

open Library
open Text (bytesValue)

variable {digit : Char}

/-- A step of the carry loop. -/
theorem toNat_current {byte : UInt8} {carry : UInt16} (small : carry.toNat ≤ 9) :
    (byte.toUInt16 * 10 + carry).toNat = 10 * byte.toNat + carry.toNat := by
  have byteSmall := byte.toNat_lt
  rw [UInt16.toNat_add, UInt16.toNat_mul, UInt8.toNat_toUInt16]
  have ten : (10 : UInt16).toNat = 10 := rfl
  rw [ten]
  omega

/-- The carry is small, and with the bytes it makes ten times the number and the digit. -/
theorem shiftDigit_spec (decimal : digit.isDigit = true) (bytes : List UInt8) :
    (shiftDigit digit bytes).1.toNat ≤ 9 ∧ (shiftDigit digit bytes).2.length = bytes.length ∧
      256 ^ bytes.length * (shiftDigit digit bytes).1.toNat +
          bytesValue (shiftDigit digit bytes).2 =
        10 * bytesValue bytes + digitValue digit := by
  induction bytes with
  | nil =>
    have small : digitValue digit < 10 := (Text.digitChar_of_isDigit decimal).1
    have start : (digitValue digit).toUInt16.toNat = digitValue digit := Nat.mod_eq_of_lt (by omega)
    change (digitValue digit).toUInt16.toNat ≤ 9 ∧ _ ∧
      256 ^ 0 * (digitValue digit).toUInt16.toNat + 0 = 10 * 0 + digitValue digit
    rw [start]
    exact ⟨by omega, rfl, by omega⟩
  | cons byte bytes ih =>
    obtain ⟨small, length, value⟩ := ih
    have step : shiftDigit digit (byte :: bytes) =
        ((byte.toUInt16 * 10 + (shiftDigit digit bytes).1) >>> 8,
          (byte.toUInt16 * 10 + (shiftDigit digit bytes).1).toUInt8 ::
            (shiftDigit digit bytes).2) := rfl
    have current := @toNat_current byte _ small
    have byteSmall := byte.toNat_lt
    rw [step]
    dsimp only
    generalize byte.toUInt16 * 10 + (shiftDigit digit bytes).1 = word at current ⊢
    have carry : (word >>> 8).toNat = word.toNat / 256 := by
      rw [UInt16.toNat_shiftRight]
      exact Nat.shiftRight_eq_div_pow _ _
    have kept : word.toUInt8.toNat = word.toNat % 256 := UInt16.toNat_toUInt8 word
    refine ⟨by omega, by rw [List.length_cons, length, List.length_cons], ?_⟩
    rw [Text.bytesValue_cons, Text.bytesValue_cons, List.length_cons, length, carry, kept]
    have whole : 256 ^ (bytes.length + 1) * (word.toNat / 256) +
        256 ^ bytes.length * (word.toNat % 256) = 256 ^ bytes.length * word.toNat := by
      rw [Nat.pow_succ, Nat.mul_assoc, ← Nat.mul_add, Nat.div_add_mod]
    calc
      256 ^ (bytes.length + 1) * (word.toNat / 256) +
            (256 ^ bytes.length * (word.toNat % 256) + bytesValue (shiftDigit digit bytes).2) =
          256 ^ bytes.length * word.toNat + bytesValue (shiftDigit digit bytes).2 := by
        rw [← Nat.add_assoc, whole]
      _ = 10 * (256 ^ bytes.length * byte.toNat) +
            (256 ^ bytes.length * (shiftDigit digit bytes).1.toNat +
              bytesValue (shiftDigit digit bytes).2) := by
        rw [current]
        ring
      _ = 10 * (256 ^ bytes.length * byte.toNat + bytesValue bytes) + digitValue digit := by
        rw [value]
        ring

/-- The bytes take all digits, or the number does not fit. -/
theorem pushDigits (decimal : digits.all Char.isDigit = true) (length : bytes.length = 32) :
    (∃ after, digits.foldlM pushDigit bytes = .ok after ∧ after.length = 32 ∧
        bytesValue after = Nat.ofDigitChars 10 digits (bytesValue bytes)) ∨
      digits.foldlM pushDigit bytes = .error "token exceeds uint256" ∧
        2 ^ 256 ≤ Nat.ofDigitChars 10 digits (bytesValue bytes) := by
  induction digits generalizing bytes with
  | nil => exact .inl ⟨bytes, rfl, length, Nat.ofDigitChars_nil.symm⟩
  | cons digit digits ih =>
    rw [List.all_cons, and_eq_true] at decimal
    obtain ⟨small, same, value⟩ := shiftDigit_spec decimal.1 bytes
    rw [length] at same value
    rw [Nat.ofDigitChars_cons, List.foldlM_cons]
    change 256 ^ 32 * _ + _ = 10 * _ + (digit.toNat - '0'.toNat) at value
    rw [← value]
    unfold pushDigit
    generalize shiftDigit digit bytes = shifted at same ⊢
    obtain ⟨carry, after⟩ := shifted
    dsimp only at same ⊢
    by_cases fits : carry = 0
    · rw [fits, UInt16.toNat_zero, Nat.mul_zero, Nat.zero_add]
      exact ih decimal.2 same
    · right
      have differs : (carry == 0) = false := beq_eq_false_iff_ne.mpr fits
      have positive : 0 < carry.toNat := by
        rw [Nat.pos_iff_ne_zero]
        exact fun zero => fits (UInt16.toNat_inj.mp zero)
      rw [differs, Nat.ofDigitChars_eq_ofDigitChars_zero]
      refine ⟨rfl, ?_⟩
      have least : 0 < 10 ^ digits.length := Nat.pow_pos (by omega)
      have large : 2 ^ 256 ≤ 256 ^ 32 * carry.toNat + bytesValue after := by omega
      exact (large.trans (Nat.le_mul_of_pos_left _ least)).trans (Nat.le_add_right _ _)

/-- The hexadecimal bytes of a token are those of its decimal text. -/
theorem decimalToU256_eq (nonempty : value ≠ "") (decimal : value.toList.all Char.isDigit = true)
    (short : value.length ≤ 78) :
    decimalToU256 value =
      if textValue value < 2 ^ 256 then
        .ok ("0x" ++ String.ofList (Text.hexDigits 64 (textValue value)))
      else .error "token exceeds uint256" := by
  have checked : (!value.isEmpty && decide (value.utf8ByteSize ≤ 78) &&
      value.toList.all Char.isDigit) = true := by
    rw [Text.utf8ByteSize_of_isDigit decimal, String.length_toList, decimal]
    simp [nonempty, short]
  have zero : bytesValue (List.replicate 32 0) = 0 := by decide
  unfold decimalToU256
  rw [checked]
  change (value.toList.foldlM pushDigit (List.replicate 32 0) >>= fun bytes =>
    .ok ("0x" ++ Text.hexEncode bytes)) = _
  have start : (List.replicate 32 (0 : UInt8)).length = 32 := List.length_replicate
  have pushed := pushDigits decimal start
  rw [zero] at pushed
  change (∃ after, _ ∧ _ ∧ bytesValue after = textValue value) ∨
    _ ∧ 2 ^ 256 ≤ textValue value at pushed
  rcases pushed with ⟨after, pushed, length, same⟩ | ⟨refused, large⟩
  · have small : textValue value < 2 ^ 256 := by
      have bound := Text.bytesValue_lt after
      rw [length, same] at bound
      exact bound
    rw [pushed, if_pos small, ← same]
    change Except.ok ("0x" ++ Text.hexEncode after) = _
    rw [Text.hexEncode_eq, length]
  · rw [refused, if_neg (Nat.not_lt.mpr large)]
    rfl

example : decimalToU256 "255" =
    .ok "0x00000000000000000000000000000000000000000000000000000000000000ff" := by
  decide +kernel

/-- The arithmetic on decimal texts is that of the numbers they are. -/
theorem uint256_arithmetic_exact :
    (∀ value, uint256 value = .ok () ↔ ∃ number < 2 ^ 256, value = number.repr) ∧
      (∀ value, value ≠ "" → value.toList.all Char.isDigit = true → value.length ≤ 78 →
        decimalToU256 value =
          if textValue value < 2 ^ 256 then
            .ok ("0x" ++ String.ofList (Text.hexDigits 64 (textValue value)))
          else .error "token exceeds uint256") ∧
      (∀ first second : Nat, addUnsigned first.repr second.repr = (first + second).repr) ∧
      ∀ key payouts denominator, checkPayouts key payouts denominator = .ok () ↔
        ∃ up down : Nat,
          payouts = [⟨key.upTokenId, up.repr⟩, ⟨key.downTokenId, down.repr⟩] ∧
            denominator = some (up + down).repr ∧ 0 < up + down ∧ up + down < 2 ^ 256 := by
  refine ⟨fun _ => uint256_ok, ?_, addUnsigned_repr, fun _ _ _ => checkPayouts_ok⟩
  intro value nonempty decimal short
  exact decimalToU256_eq nonempty decimal short

end MarketCow.Finality
