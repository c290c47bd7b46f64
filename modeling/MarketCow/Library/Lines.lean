import Mathlib.Data.List.Basic

/-!
# Lines of bytes

Byte sequences that are written line by line and read back by splitting at
every newline. Splitting undoes writing as long as no line holds a newline.
-/

namespace MarketCow.Library

abbrev Bytes := List UInt8

namespace Lines

def newline : UInt8 := 10

/-- The pieces between newlines: one more than there are newlines. -/
def split : Bytes → List Bytes
  | [] => [[]]
  | byte :: rest =>
    if byte = newline then [] :: split rest
    else
      match split rest with
      | [] => [[byte]]
      | piece :: pieces => (byte :: piece) :: pieces

/-- Every line followed by a newline. -/
def write (lines : List Bytes) : Bytes :=
  lines.flatMap fun line => line ++ [newline]

@[simp] theorem write_nil : write [] = [] := rfl

@[simp] theorem write_cons (line : Bytes) (lines : List Bytes) :
    write (line :: lines) = line ++ newline :: write lines := by
  simp [write]

@[simp] theorem write_append (first second : List Bytes) :
    write (first ++ second) = write first ++ write second := by
  simp [write]

/-- A line without a newline is split off whole. -/
theorem split_line (clean : newline ∉ line) (rest : Bytes) :
    split (line ++ newline :: rest) = line :: split rest := by
  induction line with
  | nil => simp [split]
  | cons byte line ih =>
    have ne : byte ≠ newline := fun same => clean (by simp [same])
    have tailClean : newline ∉ line := fun mem => clean (List.mem_cons_of_mem _ mem)
    rw [List.cons_append, split, if_neg ne, ih tailClean]

/-- A text without a newline is one piece. -/
theorem split_of_clean {line : Bytes} (clean : newline ∉ line) :
    split line = [line] := by
  induction line with
  | nil => rfl
  | cons byte line ih =>
    have ne : byte ≠ newline := fun same => clean (by simp [same])
    have tailClean : newline ∉ line := fun mem => clean (List.mem_cons_of_mem _ mem)
    rw [split, if_neg ne, ih tailClean]

/-- Splitting what was written gives the lines back, and an empty last piece. -/
theorem split_write (clean : ∀ line ∈ lines, newline ∉ line) (rest : Bytes) :
    split (write lines ++ rest) = lines ++ split rest := by
  induction lines with
  | nil => rfl
  | cons line lines ih =>
    rw [write_cons, List.append_assoc, List.cons_append, split_line (clean line (by simp)),
      ih fun other mem => clean other (List.mem_cons_of_mem _ mem),
      List.cons_append]

/-- Bytes are the lines they were written as and a last piece without a
newline. -/
theorem exists_write (bytes : Bytes) :
    ∃ lines last, bytes = write lines ++ last ∧ (∀ line ∈ lines, newline ∉ line) ∧
      newline ∉ last := by
  induction bytes with
  | nil => exact ⟨[], [], rfl, by simp, by simp⟩
  | cons byte rest ih =>
    obtain ⟨lines, last, rfl, clean, lastClean⟩ := ih
    by_cases ends : byte = newline
    · refine ⟨[] :: lines, last, by simp [ends], ?_, lastClean⟩
      intro line mem
      rcases List.mem_cons.mp mem with rfl | mem
      · simp
      · exact clean line mem
    · cases lines with
      | nil =>
        refine ⟨[], byte :: last, rfl, by simp, ?_⟩
        simp only [List.mem_cons, not_or]
        exact ⟨fun same => ends same.symm, lastClean⟩
      | cons line lines =>
        refine ⟨(byte :: line) :: lines, last, by simp, ?_, lastClean⟩
        intro other mem
        rcases List.mem_cons.mp mem with rfl | mem
        · simp only [List.mem_cons, not_or]
          exact ⟨fun same => ends same.symm, clean line (by simp)⟩
        · exact clean other (List.mem_cons_of_mem _ mem)

/-- Bytes that end in a newline are written lines. -/
theorem exists_write_of_getLast (ends : bytes.getLast? = some newline) :
    ∃ lines, bytes = write lines ∧ ∀ line ∈ lines, newline ∉ line := by
  obtain ⟨lines, last, rfl, clean, lastClean⟩ := exists_write bytes
  cases last with
  | nil => exact ⟨lines, by simp, clean⟩
  | cons byte last =>
    rw [List.getLast?_append_of_ne_nil _ (by simp)] at ends
    exact absurd (List.mem_of_getLast? ends) lastClean

/-- Written lines end in a newline unless there are none. -/
theorem getLast?_write (written : lines ≠ []) : (write lines).getLast? = some newline := by
  obtain ⟨front, line, rfl⟩ := List.eq_nil_or_concat lines |>.resolve_left written
  simp [write]

end Lines
end MarketCow.Library
