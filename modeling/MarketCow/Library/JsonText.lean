import MarketCow.Library.Json
import MarketCow.Library.Lines
import MarketCow.Library.Text

/-!
# Compact JSON text

JSON values printed without white space, fields in the order they are listed.
Control characters are escaped, so the text is one line.
-/

namespace MarketCow.Library.Json

/-- The bytes of a character. Only ASCII has bytes below 128. -/
def characterBytes (character : Char) : Bytes :=
  if character.toNat < 128 then [UInt8.ofNat character.toNat]
  else (String.singleton character).toUTF8.toList.filter fun byte => 128 ≤ byte

/-- A character within a string. -/
def escape (character : Char) : List Char :=
  match character with
  | '"' => ['\\', '"']
  | '\\' => ['\\', '\\']
  | '\n' => ['\\', 'n']
  | '\r' => ['\\', 'r']
  | '\t' => ['\\', 't']
  | '\x08' => ['\\', 'b']
  | '\x0c' => ['\\', 'f']
  | other =>
    if other.toNat < 32 then
      ['\\', 'u', '0', '0', Text.hexDigit (other.toNat / 16), Text.hexDigit (other.toNat % 16)]
    else [other]

def characters (text : List Char) : Bytes :=
  text.flatMap characterBytes

/-- A string in quotation marks. -/
def quote (text : String) : Bytes :=
  34 :: characters (text.toList.flatMap escape) ++ [34]

mutual

/-- The text of a value. -/
def print : Json → Bytes
  | .null => characters ['n', 'u', 'l', 'l']
  | .bool true => characters ['t', 'r', 'u', 'e']
  | .bool false => characters ['f', 'a', 'l', 's', 'e']
  | .integer value => characters ((toString value).toList.flatMap escape)
  | .float text => characters (text.toList.flatMap escape)
  | .string text => quote text
  | .array items => 91 :: printItems items ++ [93]
  | .object fields => 123 :: printFields fields ++ [125]

def printItems : List Json → Bytes
  | [] => []
  | [item] => print item
  | item :: items => print item ++ 44 :: printItems items

def printFields : List (String × Json) → Bytes
  | [] => []
  | [(name, value)] => quote name ++ 58 :: print value
  | (name, value) :: fields => quote name ++ 58 :: print value ++ 44 :: printFields fields

end

theorem newline_notMem_characterBytes (ne : character ≠ '\n') :
    Lines.newline ∉ characterBytes character := by
  unfold characterBytes
  split
  · rename_i ascii
    rw [List.mem_singleton]
    intro same
    have value := congrArg UInt8.toNat same
    rw [UInt8.toNat_ofNat_of_lt' (Nat.lt_trans ascii (by decide))] at value
    exact ne (Char.toNat_inj.mp value.symm)
  · rw [List.mem_filter]
    rintro ⟨_, large⟩
    exact absurd large (by decide)

theorem newline_notMem_escape (character : Char) : '\n' ∉ escape character := by
  unfold escape
  split <;> try decide
  rename_i notNewline _ _ _ _
  split
  · rename_i control
    have first : '\n' ≠ Text.hexDigit (character.toNat / 16) := by
      have digit := @Text.isHexDigit_hexDigit (character.toNat / 16) (by omega)
      intro same
      rw [← same] at digit
      cases digit
    have second : '\n' ≠ Text.hexDigit (character.toNat % 16) := by
      have digit := @Text.isHexDigit_hexDigit (character.toNat % 16) (by omega)
      intro same
      rw [← same] at digit
      cases digit
    simp [first, second]
  · rw [List.mem_singleton]
    exact fun same => notNewline same.symm

theorem newline_notMem_characters (clean : '\n' ∉ text) : Lines.newline ∉ characters text := by
  unfold characters
  rw [List.mem_flatMap]
  rintro ⟨character, mem, found⟩
  have ne : character ≠ '\n' := fun same => clean (same ▸ mem)
  exact newline_notMem_characterBytes ne found

theorem newline_notMem_escaped (text : List Char) :
    Lines.newline ∉ characters (text.flatMap escape) := by
  apply newline_notMem_characters
  rw [List.mem_flatMap]
  rintro ⟨character, _, found⟩
  exact newline_notMem_escape character found

theorem newline_notMem_quote (text : String) : Lines.newline ∉ quote text := by
  have inside := newline_notMem_escaped text.toList
  unfold quote
  simp only [List.cons_append, List.mem_cons, List.mem_append, List.not_mem_nil, or_false, not_or]
  exact ⟨by decide, inside, by decide⟩

mutual

/-- The text of a value is one line. -/
theorem newline_notMem_print : ∀ value : Json, Lines.newline ∉ print value
  | .null | .bool true | .bool false => newline_notMem_characters (by decide)
  | .integer _ | .float _ => newline_notMem_escaped _
  | .string text => newline_notMem_quote text
  | .array items => by
    have inside := newline_notMem_printItems items
    simp only [print, List.cons_append, List.mem_cons, List.mem_append, List.not_mem_nil,
      or_false, not_or]
    exact ⟨by decide, inside, by decide⟩
  | .object fields => by
    have inside := newline_notMem_printFields fields
    simp only [print, List.cons_append, List.mem_cons, List.mem_append, List.not_mem_nil,
      or_false, not_or]
    exact ⟨by decide, inside, by decide⟩

theorem newline_notMem_printItems : ∀ items : List Json, Lines.newline ∉ printItems items
  | [] => List.not_mem_nil
  | [item] => newline_notMem_print item
  | item :: next :: items => by
    have head := newline_notMem_print item
    have rest := newline_notMem_printItems (next :: items)
    simp only [printItems, List.mem_append, List.mem_cons, not_or]
    exact ⟨head, by decide, rest⟩

theorem newline_notMem_printFields :
    ∀ fields : List (String × Json), Lines.newline ∉ printFields fields
  | [] => List.not_mem_nil
  | [(name, value)] => by
    have head := newline_notMem_print value
    simp only [printFields, List.mem_append, List.mem_cons, not_or]
    exact ⟨newline_notMem_quote name, by decide, head⟩
  | (name, value) :: next :: fields => by
    have head := newline_notMem_print value
    have rest := newline_notMem_printFields (next :: fields)
    simp only [printFields, List.cons_append, List.append_assoc, List.mem_append,
      List.mem_cons, not_or]
    exact ⟨newline_notMem_quote name, by decide, head, by decide, rest⟩

end

/-! ## Lengths -/

theorem length_escape_hexDigit (bounded : value < 16) :
    (characters (escape (Text.hexDigit value))).length = 1 := by
  have all : ∀ digit : Fin 16, (characters (escape (Text.hexDigit digit))).length = 1 := by decide
  exact all ⟨value, bounded⟩

theorem characters_append (first second : List Char) :
    characters (first ++ second) = characters first ++ characters second :=
  List.flatMap_append

/-- An encoded digest is quoted without escapes. -/
theorem length_quote_hexEncode (bytes : List UInt8) :
    (quote (Text.hexEncode bytes)).length = 2 * bytes.length + 2 := by
  have plain : ∀ text : List Char, (∀ character ∈ text, ∃ value < 16,
      character = Text.hexDigit value) →
      (characters (text.flatMap escape)).length = text.length := by
    intro text digits
    induction text with
    | nil => rfl
    | cons character text ih =>
      obtain ⟨value, bounded, rfl⟩ := digits character List.mem_cons_self
      rw [List.flatMap_cons, characters_append, List.length_append,
        length_escape_hexDigit bounded, List.length_cons,
        ih fun other mem => digits other (List.mem_cons_of_mem _ mem)]
      omega
  unfold quote
  rw [List.cons_append, List.length_cons, List.length_append,
    plain _ fun _ mem => Text.exists_of_mem_hexEncode mem, Text.length_hexEncode]
  rfl

/-- The text of an object starts with a brace. -/
theorem brace_mem_print (fields : List (String × Json)) : 123 ∈ print (.object fields) := by
  simp [print]

end MarketCow.Library.Json
