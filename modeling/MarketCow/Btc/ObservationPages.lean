import MarketCow.Btc.ObservationHistory

/-!
# Reading observations page after page

Whatever is written while a reader follows the tokens, its pages cut the frozen rows
of the session one after another, and only the page that ends them is complete.
-/

namespace MarketCow.Btc

open Library List
open Live (Codec ensure ensure_ok)
open ObservationRow (observationId record)

theorem eq_of_ensure_eq_error (failed : ensure condition message = .error other) :
    other = message := by
  unfold ensure at failed
  split at failed
  · cases failed
  · exact (error.inj failed).symm

/-! ## Frozen rows -/

/-- The rows of a session. -/
def ObservationStore.frozenRows
    (store : ObservationStore) (session : ObservationSession) : List ObservationRow :=
  store.window session.range.source session.range.startTimeMs session.range.endTimeMs session.high

section Freezing

variable {store later : ObservationStore} {session : ObservationSession} {range : ObservationRange}
  {id : String} {created maximum : Nat} {owner requestId : Option String}

/-- The rows of a window. -/
theorem mem_window :
    row ∈ store.window source startTimeMs endTimeMs maximum ↔
      row ∈ store.rows.rows ∧ row.source = source ∧ startTimeMs ≤ row.sourceTimeMs ∧
        row.sourceTimeMs < endTimeMs ∧ row.observationId ≤ maximum := by
  unfold ObservationStore.window ObservationRow.within
  rw [Table.mem_select]
  simp only [and_eq_true, decide_eq_true_eq, and_assoc]

/-- Below the last id that was given, later batches do not change a window. -/
theorem Grows.window_eq (grows : Grows store later) (given : maximum ≤ store.lastId)
    (source startTimeMs endTimeMs : Int) :
    later.window source startTimeMs endTimeMs maximum =
      store.window source startTimeMs endTimeMs maximum := by
  refine Table.select_eq_of_mem_iff ?_
  intro row accepted
  unfold ObservationRow.within at accepted
  simp only [and_eq_true, decide_eq_true_eq] at accepted
  exact grows.mem_iff (accepted.2.trans given)

/-- What a freeze establishes. -/
structure FrozenObservations (store : ObservationStore) (session : ObservationSession) : Prop where
  given : session.high ≤ store.lastId
  first : ∀ row ∈ store.frozenRows session, session.first - 1 < row.observationId
  last : ∀ row ∈ store.frozenRows session, row.observationId ≤ session.high

/-- The frozen rows are the rows that the range lets in. -/
theorem frozen_of_freezeObservations
    (froze : freezeObservations id created owner requestId range store = .ok session) :
    FrozenObservations store session ∧ session.range = range ∧ ∃ maximum,
      range.maximum = .ok maximum ∧ store.frozenRows session =
        store.window range.source range.startTimeMs range.endTimeMs maximum := by
  obtain ⟨_, _, maximum, bounded, froze⟩ := bind₂_ok.mp froze
  iterate 3 obtain ⟨_, _, froze⟩ := bind_ok.mp froze
  cases froze
  generalize listed : store.window range.source range.startTimeMs range.endTimeMs maximum = rows
  have ordered : rows.Pairwise fun one other => one.observationId < other.observationId := by
    rw [← listed]
    exact Table.sorted_select
  have mem : ∀ row, row ∈ rows ↔ row ∈ store.rows.rows ∧ row.source = range.source ∧
      range.startTimeMs ≤ row.sourceTimeMs ∧ row.sourceTimeMs < range.endTimeMs ∧
      row.observationId ≤ maximum := by
    intro row
    rw [← listed, mem_window]
  have ending : ∀ row ∈ rows, row.observationId ≤
      (rows.getLast?.map observationId).getD 0 := by
    intro row member
    obtain ⟨front, last, split⟩ := (eq_nil_or_concat rows).resolve_left (ne_nil_of_mem member)
    rw [concat_eq_append] at split
    subst split
    rw [getLast?_concat, map_some, getD_some]
    rcases mem_append.mp member with inFront | atEnd
    · exact ((pairwise_append.mp ordered).2.2 row inFront last (by simp)).le
    · rw [mem_singleton.mp atEnd]
  have highest : ∀ last, rows.getLast? = some last → last ∈ rows :=
    fun last found => mem_of_getLast? found
  have same : store.window range.source range.startTimeMs range.endTimeMs
      ((rows.getLast?.map observationId).getD 0) = rows := by
    refine Table.select_eq_of_mem ordered ?_
    intro row
    unfold ObservationRow.within
    simp only [and_eq_true, decide_eq_true_eq]
    constructor
    · intro member
      have fits := (mem row).mp member
      exact ⟨fits.1, ⟨⟨fits.2.1, fits.2.2.1⟩, fits.2.2.2.1⟩, ending row member⟩
    · rintro ⟨there, ⟨⟨source, start⟩, stop⟩, bound⟩
      refine (mem row).mpr ⟨there, source, start, stop, ?_⟩
      cases found : rows.getLast? with
      | none =>
        rw [found, Option.map_none, Option.getD_none] at bound
        have positive := store.positive row there
        omega
      | some last =>
        rw [found, map_some, getD_some] at bound
        exact bound.trans ((mem last).mp (highest last found)).2.2.2.2
  refine ⟨⟨?_, ?_, ?_⟩, rfl, maximum, bounded, same.trans listed.symm⟩
  · cases found : rows.getLast? with
    | none => exact Nat.zero_le _
    | some last => exact store.given last ((mem last).mp (highest last found)).1
  · unfold ObservationStore.frozenRows
    dsimp only
    rw [same]
    intro row member
    have positive := store.positive row ((mem row).mp member).1
    cases rows with
    | nil => cases member
    | cons head rest =>
      have below : head.observationId ≤ row.observationId := by
        rcases mem_cons.mp member with rfl | later
        · exact le_rfl
        · exact ((pairwise_cons.mp ordered).1 row later).le
      have start := store.positive head ((mem head).mp (by simp)).1
      rw [head?_cons, map_some, getD_some]
      omega
  · unfold ObservationStore.frozenRows
    rw [same]
    exact ending

/-! ## One page -/

/-- What the session has left after a place that splits its rows. -/
theorem rest_eq {read left : List ObservationRow}
    (frozen : FrozenObservations store session) (grows : Grows store later)
    (split : store.frozenRows session = read ++ left)
    (behind : ∀ row ∈ read, row.observationId ≤ place)
    (ahead : ∀ row ∈ left, place < row.observationId) :
    later.rest session place = left := by
  have same := grows.window_eq frozen.given session.range.source session.range.startTimeMs
    session.range.endTimeMs
  unfold ObservationStore.rest Table.select
  rw [← filter_filter]
  unfold ObservationStore.window Table.select at same
  rw [same, show List.filter _ store.rows.rows = store.frozenRows session from rfl, split,
    filter_append, filter_eq_nil_iff.mpr, filter_eq_self.mpr, nil_append]
  · intro row mem
    exact decide_eq_true (ahead row mem)
  · intro row mem
    rw [decide_eq_true_eq]
    exact (behind row mem).not_gt

/-- A page takes what fits, and its token names the last row when there are more. -/
theorem assemble_take (session : ObservationSession) (left : List ObservationRow) :
    let page := session.assemble (left.take (session.range.limit + 1))
    page.observations = (left.take session.range.limit).map record ∧
      page.complete = decide (left.length ≤ session.range.limit) ∧
      page.nextPageToken = if left.length ≤ session.range.limit then none else
        (left.take session.range.limit).getLast?.map fun row => ⟨session.id, row.observationId⟩ := by
  unfold ObservationSession.assemble
  dsimp only
  by_cases fits : left.length ≤ session.range.limit
  · have whole : left.take (session.range.limit + 1) = left := take_of_length_le (by omega)
    have less : ¬ session.range.limit < left.length := by omega
    rw [whole, decide_eq_false less, if_pos fits, decide_eq_true fits, take_of_length_le fits]
    exact ⟨rfl, rfl, rfl⟩
  · have length : session.range.limit < (left.take (session.range.limit + 1)).length := by
      rw [length_take]
      omega
    have front : (left.take (session.range.limit + 1)).dropLast = left.take session.range.limit := by
      rw [dropLast_eq_take, take_take, length_take]
      congr 1
      omega
    rw [decide_eq_true length, if_neg fits, decide_eq_false fits, if_pos rfl, if_pos rfl, front]
    exact ⟨rfl, rfl, rfl⟩

end Freezing

/-! ## Following the tokens -/

/-- The store, and the pages that a reader has. -/
structure Reader where
  store : ObservationStore
  pages : List ObservationPage

/-- Rows arrive, or the reader asks for its next page. -/
inductive ReaderLabel
  | write (batch : ObservationBatch)
  | read

/-- The token to send next, where the first page takes none; nothing is left to ask
for after a page without a token. -/
def Reader.next (reader : Reader) : Option (Option PageToken) :=
  match reader.pages.getLast? with
  | none => some none
  | some page => page.nextPageToken.map some

/-- The request for the next page of a session. -/
def ObservationSession.request
    (session : ObservationSession) (token : Option PageToken) : ObservationPageRequest :=
  ⟨session.range, token, session.requestId⟩

/-- Batches are written between the pages. -/
inductive Reader.Step
    (codec : Codec) (encodedLen : ObservationPage → Nat)
    (session : ObservationSession) : Reader → ReaderLabel → Reader → Prop
  | write (reader : Reader) (batch : ObservationBatch) :
      Step codec encodedLen session reader (.write batch)
        ⟨reader.store.write codec batch, reader.pages⟩
  | read (reader : Reader) (token : Option PageToken) (page : ObservationPage) :
      reader.next = some token →
      session.read encodedLen session.owner (session.request token) reader.store = .ok page →
      Step codec encodedLen session reader .read ⟨reader.store, reader.pages ++ [page]⟩

/-- The pages have some rows of the session and leave the others. -/
structure Cut
    (session : ObservationSession) (pages : List ObservationPage)
    (read left : List ObservationRow) : Prop where
  rows : pages.flatMap ObservationPage.observations = read.map record
  opened : pages = [] → read = []
  full : left ≠ [] → read.length = pages.length * session.range.limit
  short : (pages.length - 1) * session.range.limit ≤ read.length
  last : ∀ page, pages.getLast? = some page →
    page.complete = decide (left = []) ∧
      page.nextPageToken = if left = [] then none else
        read.getLast?.map fun row => ⟨session.id, row.observationId⟩
  earlier : ∀ front page back, pages = front ++ page :: back → back ≠ [] → page.complete = false

section Reading

variable {codec : Codec} {encodedLen : ObservationPage → Nat} {session : ObservationSession}
  {start : ObservationStore} {reader : Reader} {labels : List ReaderLabel}
  {read left : List ObservationRow}

theorem limit_pos_of_validate {range : ObservationRange} (valid : range.validate = .ok ()) :
    0 < range.limit := by
  obtain ⟨source, _, valid⟩ := bind_ok.mp valid
  have holds := ensure_ok.mp valid
  simp only [and_eq_true, decide_eq_true_eq] at holds
  omega

variable {token : Option PageToken}

/-- The next token passes every check, and names the place between the rows. -/
theorem place_of_cut
    (frozen : FrozenObservations start session) (split : start.frozenRows session = read ++ left)
    (cut : Cut session reader.pages read left) (next : reader.next = some token)
    (store : ObservationStore) :
    ∃ place, session.read encodedLen session.owner (session.request token) store =
        (do session.range.validate; observationPage encodedLen session place store) ∧
      (∀ row ∈ read, row.observationId ≤ place) ∧ ∀ row ∈ left, place < row.observationId := by
  have ordered : (start.frozenRows session).Pairwise
      fun one other => one.observationId < other.observationId := Table.sorted_select
  have first := frozen.first
  have last := frozen.last
  rw [split] at ordered first last
  have across := (pairwise_append.mp ordered).2.2
  unfold Reader.next at next
  cases ending : reader.pages.getLast? with
  | none =>
    rw [ending] at next
    cases next
    have none : read = [] := cut.opened (getLast?_eq_none_iff.mp ending)
    refine ⟨session.first - 1, ?_, ?_, fun row mem => first row (by simp [mem])⟩
    · unfold ObservationSession.read ObservationSession.request
      simp only [ensure, decide_true, if_pos]
      rfl
    · rw [none]
      simp
  | some page =>
    rw [ending] at next
    obtain ⟨_, named⟩ := cut.last page ending
    by_cases finished : left = []
    · rw [if_pos finished] at named
      dsimp only at next
      rw [named] at next
      cases next
    · rw [if_neg finished] at named
      dsimp only at next
      rw [named] at next
      cases found : read.getLast? with
      | none =>
        rw [found] at next
        cases next
      | some row =>
        rw [found] at next
        cases next
        have mem := mem_of_getLast? found
        have low := first row (by simp [mem])
        have high := last row (by simp [mem])
        refine ⟨row.observationId, ?_, ?_, fun other there => across row mem other there⟩
        · unfold ObservationSession.read ObservationSession.request ObservationSession.resume
          have within : (decide (session.first - 1 ≤ row.observationId) &&
              decide (row.observationId ≤ session.high)) = true := by
            rw [decide_eq_true low.le, decide_eq_true high]
            rfl
          simp only [ensure, decide_true, if_pos, within]
          rfl
        · obtain ⟨front, same⟩ := getLast?_eq_some_iff.mp found
          intro other there
          rw [same] at there
          rcases mem_append.mp there with inFront | atEnd
          · rw [same] at ordered
            have inner := (pairwise_append.mp ordered).1
            exact ((pairwise_append.mp inner).2.2 other inFront row (by simp)).le
          · rw [mem_singleton.mp atEnd]

section

variable (positive : 0 < session.range.limit) (cut : Cut session reader.pages read left)
include positive cut

/-- After the first page, there is a next one as long as rows are left. -/
theorem Cut.next_eq_none_iff
    (opened : reader.pages ≠ []) :
    reader.next = none ↔ left = [] := by
  obtain ⟨page, ending⟩ : ∃ page, reader.pages.getLast? = some page :=
    isSome_iff_exists.mp (getLast?_isSome.mpr opened)
  obtain ⟨_, named⟩ := cut.last page ending
  unfold Reader.next
  rw [ending]
  dsimp only
  rw [named, map_eq_none_iff]
  by_cases finished : left = []
  · rw [if_pos finished]
    exact iff_of_true rfl finished
  · rw [if_neg finished, map_eq_none_iff, getLast?_eq_none_iff]
    refine iff_of_false ?_ finished
    intro none
    have length := cut.full finished
    rw [none, length_nil] at length
    have pages := length_pos_of_ne_nil opened
    exact absurd length (Nat.mul_pos pages positive).ne

/-- A page moves what fits from the rows that are left to those that were read. -/
theorem cut_snoc
    (next : reader.next = some token) :
    Cut session (reader.pages ++ [session.assemble (left.take (session.range.limit + 1))])
      (read ++ left.take session.range.limit)
      (left.drop session.range.limit) := by
  obtain ⟨observations, complete, named⟩ := assemble_take session left
  have ended : left.drop session.range.limit = [] ↔ left.length ≤ session.range.limit :=
    drop_eq_nil_iff
  have more : reader.pages ≠ [] → left ≠ [] := by
    intro opened finished
    rw [(cut.next_eq_none_iff positive opened).mpr finished] at next
    cases next
  refine ⟨?_, ?_, ?_, ?_, ?_, ?_⟩
  · rw [flatMap_append, cut.rows, flatMap_singleton, observations, map_append]
  · intro empty
    simp at empty
  · intro unread
    have longer : session.range.limit < left.length := by
      by_contra short
      exact unread (ended.mpr (by omega))
    have whole := cut.full (by rintro rfl; simp at longer)
    rw [length_append, length_append, length_take, length_singleton, whole, Nat.add_mul]
    omega
  · rw [length_append, length_append, length_singleton, Nat.add_sub_cancel]
    by_cases opened : reader.pages = []
    · rw [opened, length_nil, Nat.zero_mul]
      exact Nat.zero_le _
    · rw [cut.full (more opened)]
      exact Nat.le_add_right _ _
  · intro page found
    rw [getLast?_concat] at found
    cases found
    refine ⟨by rw [complete, decide_eq_decide, ended], ?_⟩
    rw [named]
    by_cases short : left.length ≤ session.range.limit
    · rw [if_pos short, if_pos (ended.mpr short)]
    · have taken : left.take session.range.limit ≠ [] := by
        intro none
        have length := congrArg List.length none
        rw [length_take, length_nil] at length
        omega
      rw [if_neg short, if_neg (fun none => short (ended.mp none)),
        getLast?_append_of_ne_nil _ taken]
  · intro front page back same later
    obtain ⟨before, last, rfl⟩ := (eq_nil_or_concat back).resolve_left later
    rw [concat_eq_append, ← cons_append, ← append_assoc] at same
    have split : reader.pages = front ++ page :: before := (append_inj' same rfl).1
    by_cases atEnd : before = []
    · have ending : reader.pages.getLast? = some page := by rw [split, atEnd, getLast?_concat]
      have opened : reader.pages ≠ [] := by
        rw [split]
        simp
      rw [(cut.last page ending).1]
      exact decide_eq_false (more opened)
    · exact cut.earlier front page before split atEnd

end

/-- What a reader has at any time. -/
structure Reads
    (start : ObservationStore) (session : ObservationSession) (reader : Reader) : Prop where
  grows : Grows start reader.store
  cut : ∃ read left, start.frozenRows session = read ++ left ∧ Cut session reader.pages read left

/-- Rows that arrive have greater ids; a read continues at the last one. -/
theorem reads_of_step {before after : Reader} {label : ReaderLabel}
    (frozen : FrozenObservations start session) (reads : Reads start session before)
    (taken : Reader.Step codec encodedLen session before label after) :
    Reads start session after := by
  obtain ⟨grows, read, left, split, cut⟩ := reads
  cases taken with
  | write batch => exact ⟨grows.trans (grows_write _ _), read, left, split, cut⟩
  | read token page next answered =>
    obtain ⟨place, same, behind, ahead⟩ := place_of_cut frozen split cut next before.store
    rw [same] at answered
    obtain ⟨_, valid, _, _, answered⟩ := bind₂_ok.mp answered
    cases answered
    rw [rest_eq frozen grows split behind ahead]
    refine ⟨grows, _, _, ?_, cut_snoc (limit_pos_of_validate valid) cut next⟩
    rw [split, append_assoc, take_append_drop]

theorem reads_of_run (frozen : FrozenObservations start session)
    (run : Run (Reader.Step codec encodedLen session) ⟨start, []⟩ labels reader) :
    Reads start session reader := by
  refine run.preserves (fun _ _ _ reads taken => reads_of_step frozen reads taken) ?_
  refine ⟨Grows.refl start, [], start.frozenRows session, rfl, rfl, fun _ => rfl, ?_, ?_, ?_, ?_⟩
  · intro _
    rw [length_nil, length_nil, Nat.zero_mul]
  · rw [length_nil, Nat.zero_sub, Nat.zero_mul]
    exact Nat.zero_le _
  · intro page never
    cases never
  · intro front page back never
    simp at never

/-- A reader whose last page has no token has all rows. -/
theorem Reads.all (positive : 0 < session.range.limit) (reads : Reads start session reader)
    (opened : reader.pages ≠ []) (ended : reader.next = none) :
    reader.pages.flatMap ObservationPage.observations =
      (start.frozenRows session).map record := by
  obtain ⟨_, read, left, split, cut⟩ := reads
  have finished : left = [] := (cut.next_eq_none_iff positive opened).mp ended
  rw [cut.rows, split, finished, append_nil]

/-- The next page can be read, unless it does not fit. -/
theorem Reads.next_page
    (valid : session.range.validate = .ok ()) (frozen : FrozenObservations start session)
    (reads : Reads start session reader) (next : reader.next = some token)
    (failed : session.read encodedLen session.owner (session.request token) reader.store =
      .error message) :
    message = "history_page_bytes" := by
  obtain ⟨grows, read, left, split, cut⟩ := reads
  obtain ⟨place, same, _⟩ := place_of_cut frozen split cut next reader.store
  rw [same, valid] at failed
  change observationPage encodedLen session place reader.store = .error message at failed
  unfold observationPage at failed
  rcases Fallible.bind_eq_error_iff.mp failed with large | ⟨_, _, never⟩
  · exact eq_of_ensure_eq_error large
  · cases never

end Reading

end MarketCow.Btc
