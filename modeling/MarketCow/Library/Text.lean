import Mathlib

/-!
# Text observations

ASCII case folding, hexadecimal digests and leading substrings.
-/

namespace MarketCow.Library.Text

/-- Lower the ASCII capital letters. -/
def asciiLowercase (text : String) : String :=
  String.ofList (text.toList.map Char.toLower)

/-- Raise the ASCII small letters. -/
def asciiUppercase (text : String) : String :=
  String.ofList (text.toList.map Char.toUpper)

def equalsIgnoringCase (left right : String) : Bool :=
  asciiLowercase left == asciiLowercase right

def isHexDigit (character : Char) : Bool :=
  ('0' ≤ character && character ≤ '9') ||
    ('a' ≤ character && character ≤ 'f') ||
      ('A' ≤ character && character ≤ 'F')

/-- Sixty-four hexadecimal digits, in either case. -/
def isDigest (text : String) : Bool :=
  text.toList.length == 64 && text.toList.all isHexDigit

def startsWith (text lead : String) : Bool :=
  lead.toList.isPrefixOf text.toList

/-- The value of decimal digits, most significant first. -/
def digitsValue (digits : List Char) : Nat :=
  digits.foldl (fun value digit => 10 * value + (digit.toNat - '0'.toNat)) 0

/-- Decimal digits without a sign. -/
def parseDigits (digits : List Char) : Option Nat :=
  if digits.isEmpty || !digits.all Char.isDigit then none else some (digitsValue digits)

/-- A signed 64-bit integer: an optional sign and decimal digits. -/
def parseI64 (text : String) : Option Int :=
  let value : Option Int :=
    match text.toList with
    | '-' :: digits => (parseDigits digits).map fun value => -(value : Int)
    | '+' :: digits => (parseDigits digits).map fun value => (value : Int)
    | digits => (parseDigits digits).map fun value => (value : Int)
  value.filter fun value => decide (-2 ^ 63 ≤ value) && decide (value < 2 ^ 63)

/-- The lower-case hexadecimal digit of a value below sixteen. -/
def hexDigit (value : Nat) : Char :=
  if value < 10 then Char.ofNat ('0'.toNat + value)
  else Char.ofNat ('a'.toNat + (value - 10))

/-- Two lower-case hexadecimal digits a byte. -/
def hexEncode (bytes : List UInt8) : String :=
  String.ofList (bytes.flatMap fun byte =>
    [hexDigit (byte.toNat / 16), hexDigit (byte.toNat % 16)])

private theorem hexDigit_cases
    {motive : Char → Prop} (all : ∀ value : Fin 16, motive (hexDigit value))
    (bounded : value < 16) :
    motive (hexDigit value) :=
  all ⟨value, bounded⟩

theorem isHexDigit_hexDigit {value : Nat} (bounded : value < 16) :
    isHexDigit (hexDigit value) = true :=
  hexDigit_cases (motive := fun digit => isHexDigit digit = true) (by decide) bounded

theorem toLower_hexDigit (bounded : value < 16) : (hexDigit value).toLower = hexDigit value :=
  hexDigit_cases (motive := fun digit => digit.toLower = digit) (by decide) bounded

theorem length_hexEncode (bytes : List UInt8) :
    (hexEncode bytes).toList.length = 2 * bytes.length := by
  unfold hexEncode
  rw [String.toList_ofList]
  induction bytes with
  | nil => rfl
  | cons byte bytes ih =>
    simp only [List.flatMap_cons, List.length_append, ih, List.length_cons, List.length_nil]
    ring

/-- Every character of an encoded digest is a lower-case digit. -/
theorem exists_of_mem_hexEncode (mem : character ∈ (hexEncode bytes).toList) :
    ∃ value < 16, character = hexDigit value := by
  unfold hexEncode at mem
  rw [String.toList_ofList, List.mem_flatMap] at mem
  obtain ⟨byte, _, digit⟩ := mem
  have byteBound : byte.toNat < 256 := byte.toNat_lt
  simp only [List.mem_cons, List.not_mem_nil, or_false] at digit
  rcases digit with high | low
  · exact ⟨_, by omega, high⟩
  · exact ⟨_, by omega, low⟩

/-- Encoded digests are already in lower case. -/
theorem asciiLowercase_hexEncode (bytes : List UInt8) :
    asciiLowercase (hexEncode bytes) = hexEncode bytes := by
  have unchanged : (hexEncode bytes).toList.map Char.toLower = (hexEncode bytes).toList := by
    conv_rhs => rw [← List.map_id (hexEncode bytes).toList]
    apply List.map_congr_left
    intro character mem
    obtain ⟨value, bounded, rfl⟩ := exists_of_mem_hexEncode mem
    exact toLower_hexDigit bounded
  unfold asciiLowercase
  rw [unchanged, String.ofList_toList]

end MarketCow.Library.Text
