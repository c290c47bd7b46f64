import MarketCow.Library.Text

/-!
# Numerals

A text of decimal digits without leading zeros is the notation of its value, and
texts of one length are in the order of their values. Bytes have the value that
their hexadecimal digits have.
-/

namespace MarketCow.Library.Text

/-! ## Canonical digits -/

theorem digitsValue_toDigits (value : Nat) : digitsValue (Nat.toDigits 10 value) = value :=
  Nat.ofDigitChars_ten_toDigits

theorem digitsValue_append (digits : List Char) (digit : Char) :
    digitsValue (digits ++ [digit]) = 10 * digitsValue digits + (digit.toNat - '0'.toNat) := by
  unfold digitsValue
  rw [List.foldl_append, List.foldl_cons, List.foldl_nil]

/-- A decimal digit is written as its value. -/
theorem digitChar_of_isDigit (decimal : digit.isDigit = true) :
    digit.toNat - '0'.toNat < 10 ∧ Nat.digitChar (digit.toNat - '0'.toNat) = digit := by
  unfold Char.isDigit at decimal
  simp only [Bool.and_eq_true, decide_eq_true_eq] at decimal
  have lower : 48 ≤ digit.toNat := UInt32.le_iff_toNat_le.mp decimal.1
  have upper : digit.toNat ≤ 57 := UInt32.le_iff_toNat_le.mp decimal.2
  have zero : '0'.toNat = 48 := rfl
  have small : digit.toNat - '0'.toNat < 10 := by omega
  refine ⟨small, Char.toNat_inj.mp ?_⟩
  rw [Nat.toNat_digitChar_of_lt_ten small]
  omega

/-- The notation of a positive number starts with another digit than zero. -/
theorem head?_toDigits_ne (positive : 0 < value) : (Nat.toDigits 10 value).head? ≠ some '0' := by
  induction value using Nat.base_induction 10 (by omega) with
  | single value small =>
    rw [Nat.toDigits_of_lt_base small]
    interval_cases value <;> decide
  | digit value digit small rest ih =>
    rw [← Nat.toDigits_append_toDigits (by omega) rest small,
      List.head?_append_of_ne_nil _ Nat.toDigits_ne_nil]
    exact ih rest

/-- Digits without leading zeros are the notation of their value. -/
theorem toDigits_digitsValue (nonempty : digits ≠ []) (decimal : digits.all Char.isDigit = true)
    (canonical : digits = ['0'] ∨ digits.head? ≠ some '0') :
    Nat.toDigits 10 (digitsValue digits) = digits := by
  induction digits using List.reverseRecOn with
  | nil => exact absurd rfl nonempty
  | append_singleton digits digit ih =>
    rw [List.all_append, Bool.and_eq_true, List.all_cons, Bool.and_eq_true] at decimal
    obtain ⟨small, written⟩ := digitChar_of_isDigit decimal.2.1
    rw [digitsValue_append]
    by_cases alone : digits = []
    · have empty : digitsValue [] = 0 := rfl
      rw [alone, empty, Nat.mul_zero, Nat.zero_add, Nat.toDigits_of_lt_base small, written,
        List.nil_append]
    · have leading : digits.head? ≠ some '0' := by
        rcases canonical with zero | leading
        · exact absurd (List.append_eq_singleton_iff.mp zero) (by simp [alone])
        · rwa [List.head?_append_of_ne_nil _ alone] at leading
      have same := ih alone decimal.1 (.inr leading)
      have positive : 0 < digitsValue digits := by
        rw [Nat.pos_iff_ne_zero]
        intro zero
        rw [zero, Nat.toDigits_zero] at same
        rw [← same] at leading
        exact leading rfl
      rw [← Nat.toDigits_append_toDigits (by omega) positive small, same,
        Nat.toDigits_of_lt_base small, written]

/-- The digits of a value, the last digit first. -/
theorem reverse_toDigits (value : Nat) :
    (Nat.toDigits 10 value).reverse =
      Nat.digitChar (value % 10) :: (Nat.digits 10 (value / 10)).map Nat.digitChar := by
  induction value using Nat.strong_induction_on with
  | _ value ih =>
    rw [Nat.toDigits_eq_if (by omega)]
    split
    · rename_i small
      rw [Nat.mod_eq_of_lt small, Nat.div_eq_of_lt small]
      rfl
    · rename_i large
      have positive : 0 < value / 10 := by omega
      rw [List.reverse_append, ih (value / 10) (by omega), Nat.digits_def' (by omega) positive]
      rfl

theorem utf8ByteSize_of_isDigit {text : String} (decimal : text.toList.all Char.isDigit = true) :
    text.utf8ByteSize = text.toList.length := by
  rw [← String.ofList_toList (s := text), String.utf8ByteSize_ofList, String.toList_ofList]
  generalize text.toList = digits at decimal
  induction digits with
  | nil => rfl
  | cons digit digits ih =>
    rw [List.all_cons, Bool.and_eq_true] at decimal
    have range := decimal.1
    unfold Char.isDigit at range
    simp only [Bool.and_eq_true, decide_eq_true_eq] at range
    have single : digit.utf8Size = 1 :=
      Char.utf8Size_eq_one_iff.mpr (UInt32.le_trans range.2 (by decide))
    rw [String.utf8Len_cons, ih decimal.2, single, List.length_cons]

/-! ## The order of values -/

theorem digitsValue_cons (digit : Char) (digits : List Char) :
    digitsValue (digit :: digits) =
      10 ^ digits.length * (digit.toNat - '0'.toNat) + digitsValue digits := by
  change Nat.ofDigitChars 10 (digit :: digits) 0 = _
  rw [Nat.ofDigitChars_cons, Nat.ofDigitChars_eq_ofDigitChars_zero, Nat.mul_zero, Nat.zero_add]
  rfl

theorem digitsValue_lt (decimal : digits.all Char.isDigit = true) :
    digitsValue digits < 10 ^ digits.length := by
  induction digits with
  | nil => exact Nat.one_pos
  | cons digit digits ih =>
    rw [List.all_cons, Bool.and_eq_true] at decimal
    have rest := ih decimal.2
    have small := (digitChar_of_isDigit decimal.1).1
    rw [digitsValue_cons, List.length_cons, Nat.pow_succ]
    have bound := Nat.mul_le_mul_left (10 ^ digits.length) (Nat.le_of_lt_succ small)
    omega

/-- Digits of one length are in the order of their values. -/
theorem lt_iff_digitsValue_lt
    (length : first.length = second.length) (decimal : first.all Char.isDigit = true)
    (otherDecimal : second.all Char.isDigit = true) :
    first < second ↔ digitsValue first < digitsValue second := by
  induction first generalizing second with
  | nil =>
    rw [List.length_eq_zero_iff.mp length.symm]
    simp
  | cons digit digits ih =>
    cases second with
    | nil => cases length
    | cons other others =>
      rw [List.all_cons, Bool.and_eq_true] at decimal otherDecimal
      have sameLength : digits.length = others.length := Nat.succ.inj length
      have bound := digitsValue_lt decimal.2
      have otherBound := digitsValue_lt otherDecimal.2
      rw [← sameLength] at otherBound
      rw [List.cons_lt_cons_iff, ih sameLength decimal.2 otherDecimal.2, digitsValue_cons,
        digitsValue_cons, ← sameLength]
      obtain ⟨_, written⟩ := digitChar_of_isDigit decimal.1
      obtain ⟨_, otherWritten⟩ := digitChar_of_isDigit otherDecimal.1
      rcases Nat.lt_trichotomy (digit.toNat - '0'.toNat) (other.toNat - '0'.toNat) with
        less | equal | greater
      · have step := Nat.mul_le_mul_left (10 ^ digits.length) less
        rw [Nat.mul_succ] at step
        have lower : digit.toNat < other.toNat := by omega
        have before : digit < other := UInt32.lt_iff_toNat_lt.mpr lower
        exact iff_of_true (.inl before) (by omega)
      · obtain rfl : digit = other := by rw [← written, equal, otherWritten]
        simp
      · have step := Nat.mul_le_mul_left (10 ^ digits.length) greater
        rw [Nat.mul_succ] at step
        have lower : other.toNat < digit.toNat := by omega
        have after : other < digit := UInt32.lt_iff_toNat_lt.mpr lower
        refine iff_of_false ?_ (by omega)
        rintro (before | ⟨rfl, _⟩)
        · exact lt_asymm before after
        · exact lt_irrefl _ after

/-! ## Big-endian bytes -/

/-- The value of bytes, most significant first. -/
def bytesValue (bytes : List UInt8) : Nat :=
  Nat.ofDigits 256 (bytes.reverse.map UInt8.toNat)

theorem bytesValue_cons (byte : UInt8) (bytes : List UInt8) :
    bytesValue (byte :: bytes) = 256 ^ bytes.length * byte.toNat + bytesValue bytes := by
  unfold bytesValue
  rw [List.reverse_cons, List.map_append, Nat.ofDigits_append, List.length_map,
    List.length_reverse, List.map_singleton, Nat.ofDigits_singleton, Nat.add_comm]

theorem bytesValue_append (bytes : List UInt8) (byte : UInt8) :
    bytesValue (bytes ++ [byte]) = 256 * bytesValue bytes + byte.toNat := by
  unfold bytesValue
  rw [List.reverse_append, List.reverse_singleton, List.singleton_append, List.map_cons,
    Nat.ofDigits_cons, Nat.add_comm]

theorem bytesValue_lt (bytes : List UInt8) : bytesValue bytes < 256 ^ bytes.length := by
  have bound := Nat.ofDigits_lt_base_pow_length (b := 256)
    (l := bytes.reverse.map UInt8.toNat) (by omega) fun value mem => by
      obtain ⟨byte, _, rfl⟩ := List.mem_map.mp mem
      exact byte.toNat_lt
  rwa [List.length_map, List.length_reverse] at bound

/-- So many hexadecimal digits of a value, most significant first. -/
def hexDigits : Nat → Nat → List Char
  | 0, _ => []
  | width + 1, value => hexDigits width (value / 16) ++ [hexDigit (value % 16)]

theorem hexEncode_eq (bytes : List UInt8) :
    hexEncode bytes = String.ofList (hexDigits (2 * bytes.length) (bytesValue bytes)) := by
  unfold hexEncode
  congr 1
  induction bytes using List.reverseRecOn with
  | nil => rfl
  | append_singleton bytes byte ih =>
    have small := byte.toNat_lt
    have high : (256 * bytesValue bytes + byte.toNat) / 16 % 16 = byte.toNat / 16 := by omega
    have low : (256 * bytesValue bytes + byte.toNat) % 16 = byte.toNat % 16 := by omega
    have rest : (256 * bytesValue bytes + byte.toNat) / 16 / 16 = bytesValue bytes := by omega
    rw [List.flatMap_append, ih, List.length_append, List.length_singleton, Nat.mul_add,
      bytesValue_append]
    change _ = hexDigits (2 * bytes.length + 1 + 1) _
    rw [hexDigits, hexDigits, high, low, rest, List.append_assoc]
    rfl

end MarketCow.Library.Text
