import MarketCow.Library.Fallible
import MarketCow.Library.OrderedMap

/-!
# Loading a map

A map that is built by a fallible fold over the entries of another one, in which
each step inserts one value under the key of its entry.
-/

namespace MarketCow.Library.TreeMap

variable {κ ν μ ε : Type} [Ord κ] [Std.TransOrd κ] [Std.LawfulEqOrd κ]

/-- The keys of listed entries are different. -/
theorem pairwise_fst_toList (map : TreeMap κ ν) :
    map.toList.Pairwise fun first second => first.1 ≠ second.1 := by
  refine Std.ExtTreeMap.distinct_keys_toList.imp ?_
  intro first second ne same
  exact ne (Std.LawfulEqCmp.compare_eq_iff_eq.mpr same)

variable (map : TreeMap κ ν)

theorem getElem?_insert_eq [DecidableEq κ] (key other : κ) (value : ν) :
    (map.insert key value)[other]? = if key = other then some value else map[other]? := by
  rw [TreeMap.getElem?_insert]
  simp only [Std.LawfulEqCmp.compare_eq_iff_eq]

theorem getElem?_erase_eq [DecidableEq κ] (key other : κ) :
    (map.erase key)[other]? = if key = other then none else map[other]? := by
  rw [getElem?_erase]
  simp only [Std.LawfulEqCmp.compare_eq_iff_eq]

section Fold

variable {step : TreeMap κ μ → κ × ν → Except ε (TreeMap κ μ)}
  {value : κ × ν → Except ε μ} {entries : List (κ × ν)} {start result : TreeMap κ μ}

/-- Each step inserts the value of its entry. -/
def Inserts
    (step : TreeMap κ μ → κ × ν → Except ε (TreeMap κ μ)) (value : κ × ν → Except ε μ) : Prop :=
  ∀ map entry after, step map entry = .ok after →
    ∃ loaded, value entry = .ok loaded ∧ after = map.insert entry.1 loaded

section

variable (inserts : Inserts step value)
  (distinct : entries.Pairwise fun first second => first.1 ≠ second.1)
include inserts distinct

/-- What a successful load holds: the values of the entries, and what was there
before under other keys. -/
theorem getElem?_of_load [DecidableEq κ]
    (loaded : entries.foldlM step start = .ok result) (key : κ) (found : μ) :
    result[key]? = some found ↔
      (∃ entry ∈ entries, entry.1 = key ∧ value entry = .ok found) ∨
        (start[key]? = some found ∧ ∀ entry ∈ entries, entry.1 ≠ key) := by
  induction entries generalizing start with
  | nil =>
    cases loaded
    simp
  | cons entry entries ih =>
    obtain ⟨middle, stepped, rest⟩ := foldlM_cons_ok.mp loaded
    obtain ⟨first, read, rfl⟩ := inserts _ _ _ stepped
    obtain ⟨apart, distinct⟩ := List.pairwise_cons.mp distinct
    rw [ih distinct rest, getElem?_insert_eq]
    by_cases same : entry.1 = key
    · subst same
      rw [if_pos rfl]
      have later : ∀ other ∈ entries, other.1 ≠ entry.1 := fun other mem equal =>
        apart other mem equal.symm
      constructor
      · rintro (⟨other, mem, equal, _⟩ | ⟨equal, _⟩)
        · exact absurd equal (later other mem)
        · cases equal
          exact .inl ⟨entry, List.mem_cons_self, rfl, read⟩
      · rintro (⟨other, mem, equal, readOther⟩ | ⟨_, absent⟩)
        · rcases List.mem_cons.mp mem with rfl | inside
          · obtain rfl := ok.inj (read.symm.trans readOther)
            exact .inr ⟨rfl, later⟩
          · exact absurd equal (later other inside)
        · exact absurd rfl (absent entry List.mem_cons_self)
    · rw [if_neg same]
      constructor
      · rintro (⟨other, mem, equal, readOther⟩ | ⟨before, absent⟩)
        · exact .inl ⟨other, List.mem_cons_of_mem _ mem, equal, readOther⟩
        · refine .inr ⟨before, ?_⟩
          intro other mem
          rcases List.mem_cons.mp mem with rfl | inside
          · exact same
          · exact absent other inside
      · rintro (⟨other, mem, equal, readOther⟩ | ⟨before, absent⟩)
        · rcases List.mem_cons.mp mem with rfl | inside
          · exact absurd equal same
          · exact .inl ⟨other, inside, equal, readOther⟩
        · exact .inr ⟨before, fun other inside =>
            absent other (List.mem_cons_of_mem _ inside)⟩

/-- A load adds as many entries as it reads. -/
theorem size_of_load
    (absent : ∀ entry ∈ entries, entry.1 ∉ start)
    (loaded : entries.foldlM step start = .ok result) :
    result.size = start.size + entries.length := by
  induction entries generalizing start with
  | nil =>
    cases loaded
    rfl
  | cons entry entries ih =>
    obtain ⟨middle, stepped, rest⟩ := foldlM_cons_ok.mp loaded
    obtain ⟨first, _, rfl⟩ := inserts _ _ _ stepped
    obtain ⟨apart, distinct⟩ := List.pairwise_cons.mp distinct
    have missing : entry.1 ∉ start := absent entry List.mem_cons_self
    have fresh : ∀ other ∈ entries, other.1 ∉ start.insert entry.1 first := by
      intro other mem inside
      rcases TreeMap.mem_insert.mp inside with same | before
      · exact apart other mem (Std.LawfulEqCmp.compare_eq_iff_eq.mp same)
      · exact absent other (List.mem_cons_of_mem _ mem) before
    rw [ih distinct fresh rest, TreeMap.size_insert,
      if_neg fun there => missing (TreeMap.contains_iff_mem.mp there), List.length_cons]
    omega

end

omit [Std.LawfulEqOrd κ] in
/-- A load succeeds when each entry can be read and the steps have room. -/
theorem exists_load (value : κ × ν → Except ε μ) (room : Nat)
    (steps : ∀ map entry loaded, value entry = .ok loaded → map.size < room →
      step map entry = .ok (map.insert entry.1 loaded))
    (readable : ∀ entry ∈ entries, ∃ loaded, value entry = .ok loaded)
    (fits : start.size + entries.length ≤ room) :
    ∃ result, entries.foldlM step start = .ok result := by
  induction entries generalizing start with
  | nil => exact ⟨start, rfl⟩
  | cons entry entries ih =>
    obtain ⟨loaded, read⟩ := readable entry List.mem_cons_self
    rw [List.length_cons] at fits
    have stepped := steps start entry loaded read (by omega)
    have grown : (start.insert entry.1 loaded).size ≤ start.size + 1 :=
      Std.ExtTreeMap.size_insert_le
    obtain ⟨result, rest⟩ := @ih (start.insert entry.1 loaded)
      (fun other mem => readable other (List.mem_cons_of_mem _ mem)) (by omega)
    exact ⟨result, foldlM_cons_ok.mpr ⟨_, stepped, rest⟩⟩

end Fold

section Whole

variable {step : TreeMap κ μ → κ × ν → Except ε (TreeMap κ μ)}
  {value : κ × ν → Except ε μ} {map : TreeMap κ ν} {result : TreeMap κ μ}

/-- A load of all entries holds the value of each of them, and nothing else. -/
theorem getElem?_of_load_toList [DecidableEq κ]
    (inserts : Inserts step value) (loaded : map.toList.foldlM step ∅ = .ok result) (key : κ) :
    result[key]? = map[key]?.bind fun stored => (value (key, stored)).toOption := by
  refine Option.ext fun found => ?_
  rw [getElem?_of_load inserts (pairwise_fst_toList map) loaded, bind_eq_some_iff]
  constructor
  · rintro (⟨⟨other, stored⟩, mem, rfl, read⟩ | ⟨never, _⟩)
    · refine ⟨stored, mem_toList_iff_getElem?_eq_some.mp mem, ?_⟩
      rw [read]
      rfl
    · rw [getElem?_empty] at never
      cases never
  · rintro ⟨stored, there, read⟩
    refine .inl ⟨(key, stored), mem_toList_iff_getElem?_eq_some.mpr there, rfl, ?_⟩
    cases taken : value (key, stored) with
    | error _ =>
      rw [taken] at read
      cases read
    | ok other =>
      rw [taken] at read
      exact congrArg Except.ok (some.inj read)

omit [Std.LawfulEqOrd κ] in
/-- The entries that a load reads are readable. -/
theorem readable_of_load {entries : List (κ × ν)} {start : TreeMap κ μ}
    (inserts : Inserts step value) (loaded : entries.foldlM step start = .ok result) :
    ∀ entry ∈ entries, ∃ found, value entry = .ok found := by
  induction entries generalizing start with
  | nil => exact fun _ mem => absurd mem List.not_mem_nil
  | cons entry entries ih =>
    obtain ⟨middle, stepped, rest⟩ := foldlM_cons_ok.mp loaded
    intro other mem
    rcases List.mem_cons.mp mem with rfl | inside
    · obtain ⟨found, read, _⟩ := inserts _ _ _ stepped
      exact ⟨found, read⟩
    · exact ih rest other inside

end Whole

end MarketCow.Library.TreeMap
