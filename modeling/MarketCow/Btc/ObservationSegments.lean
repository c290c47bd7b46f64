import MarketCow.Btc.FrozenSessions
import MarketCow.Btc.ObservationPages

/-!
# Segments of a resolved range

A resolved range of observations may be cut into windows that are frozen and read
on their own, each up to the id that the resolution found. Their pages share the
rows of the whole range among them.
-/

namespace MarketCow.Btc

open Library List
open Live (Codec ensure_ok need_ok)
open ObservationRow (record within)

/-! ## Reading a window whole -/

/-- A reader follows the tokens of a session to the last of its pages. -/
structure Walk
    (codec : Codec) (encodedLen : ObservationPage → Nat) (start : ObservationStore)
    (range : ObservationRange) (pages : List ObservationPage) : Prop where
  valid : range.validate = .ok ()
  walked : ∃ id created owner requestId session labels reader,
    freezeObservations id created owner requestId range start = .ok session ∧
      Run (Reader.Step codec encodedLen session) ⟨start, []⟩ labels reader ∧
      reader.pages ≠ [] ∧ reader.next = none ∧ reader.pages = pages

/-- The observations of pages, in their order. -/
def pageObservations (pages : List ObservationPage) : List ObservationRecord :=
  pages.flatMap ObservationPage.observations

/-- The window of a query from a start to an end, cut into segments. Each is read
up to the same id, from a store that may have grown since the query was resolved. -/
inductive Segments
    (codec : Codec) (encodedLen : ObservationPage → Nat) (store : ObservationStore)
    (query : ObservationRangeQuery) (maximum : Nat) : Int → List (List ObservationPage) → Prop
  | done : Segments codec encodedLen store query maximum query.endTimeMs []
  | segment {range : ObservationRange} {pages : List ObservationPage}
      {rest : List (List ObservationPage)} (batches : List ObservationBatch) :
      range.source = query.source →
      range.maximumObservationId = some maximum →
      Walk codec encodedLen (batches.foldl (ObservationStore.write codec) store) range pages →
      Segments codec encodedLen store query maximum range.endTimeMs rest →
      Segments codec encodedLen store query maximum range.startTimeMs (pages :: rest)

section Reading

variable {codec : Codec} {encodedLen : ObservationPage → Nat} {store : ObservationStore}
  {range : ObservationRange} {pages : List ObservationPage} {maximum : Nat}

theorem times_of_validate (valid : range.validate = .ok ()) :
    range.startTimeMs < range.endTimeMs := by
  obtain ⟨source, _, valid⟩ := bind_ok.mp valid
  have holds := ensure_ok.mp valid
  simp only [and_eq_true, decide_eq_true_eq] at holds
  omega

/-- A walk returns the rows that the range lets in. -/
theorem observations_of_walk (walk : Walk codec encodedLen store range pages)
    (capped : range.maximumObservationId = some maximum) :
    pageObservations pages =
      (store.window range.source range.startTimeMs range.endTimeMs maximum).map
        record := by
  obtain ⟨id, created, owner, requestId, session, labels, reader, froze, run, opened, ended, rfl⟩ :=
    walk.walked
  obtain ⟨frozen, ranged, bound, bounded, rows⟩ := frozen_of_freezeObservations froze
  unfold ObservationRange.maximum at bounded
  rw [capped] at bounded
  obtain ⟨_, rfl⟩ := rowNumber_ok.mp bounded
  have positive : 0 < session.range.limit := by
    rw [ranged]
    exact limit_pos_of_validate walk.valid
  rw [← rows]
  exact (reads_of_run frozen run).all positive opened ended

/-! ## Windows next to each other -/

/-- A window is shared by its two parts. -/
theorem window_perm
    (source : Int) {start middle stop : Int} (low : start ≤ middle) (high : middle ≤ stop) :
    (store.window source start middle maximum ++ store.window source middle stop maximum).Perm
      (store.window source start stop maximum) := by
  have parts := filter_append_perm (fun row : ObservationRow =>
    decide (row.sourceTimeMs < middle)) (store.window source start stop maximum)
  have below : List.filter (fun row : ObservationRow => decide (row.sourceTimeMs < middle))
      (store.window source start stop maximum) = store.window source start middle maximum := by
    unfold ObservationStore.window Table.select within
    rw [filter_filter]
    refine filter_congr ?_
    intro row _
    rw [Bool.eq_iff_iff]
    simp only [and_eq_true, decide_eq_true_eq]
    omega
  have above : List.filter (fun row : ObservationRow => !decide (row.sourceTimeMs < middle))
      (store.window source start stop maximum) = store.window source middle stop maximum := by
    unfold ObservationStore.window Table.select within
    rw [filter_filter]
    refine filter_congr ?_
    intro row _
    rw [Bool.eq_iff_iff]
    simp only [and_eq_true, not_eq_true', decide_eq_true_eq, decide_eq_false_iff_not]
    omega
  rw [below, above] at parts
  exact parts

theorem window_eq_nil (source time : Int) : store.window source time time maximum = [] := by
  refine filter_eq_nil_iff.mpr ?_
  intro row _
  unfold within
  simp only [and_eq_true, decide_eq_true_eq]
  omega

variable {query : ObservationRangeQuery} {start : Int} {segments : List (List ObservationPage)}

/-- A cut never goes past the window. -/
theorem Segments.start_le (cut : Segments codec encodedLen store query maximum start segments) :
    start ≤ query.endTimeMs := by
  induction cut with
  | done => exact le_rfl
  | segment _ _ _ walk _ ih => exact (times_of_validate walk.valid).le.trans ih

/-- The segments share the rows of the window among them. -/
theorem Segments.perm (given : maximum ≤ store.lastId)
    (cut : Segments codec encodedLen store query maximum start segments) :
    (segments.flatMap pageObservations).Perm
      ((store.window query.source start query.endTimeMs maximum).map record) := by
  induction cut with
  | done =>
    rw [window_eq_nil]
    exact .refl _
  | @segment range pages rest batches source capped walk after ih =>
    have same := (@grows_writes codec store batches).window_eq given range.source
      range.startTimeMs range.endTimeMs
    have parts := @window_perm store maximum query.source _ _ _
      (times_of_validate walk.valid).le after.start_le
    rw [flatMap_cons, observations_of_walk walk capped, same, source]
    refine (ih.append_left _).trans ?_
    rw [← map_append]
    exact parts.map _

end Reading

/-! ## Paging is exact -/

/-- What the pages of a reader have of a session. -/
structure PagesExact
    (encodedLen : ObservationPage → Nat) (start : ObservationStore) (session : ObservationSession)
    (reader : Reader) : Prop where
  rows : ∃ left, (start.frozenRows session).map record =
    pageObservations reader.pages ++ left
  all : reader.pages ≠ [] → reader.next = none →
    pageObservations reader.pages = (start.frozenRows session).map record
  complete : ∀ front page back, reader.pages = front ++ page :: back →
    (page.complete = true ↔ back = [] ∧ reader.next = none)
  answered : ∀ token message, reader.next = some token →
    session.read encodedLen session.owner (session.request token) reader.store =
      .error message → message = "history_page_bytes"
  ends : (reader.pages.length - 1) * session.range.limit ≤ (start.frozenRows session).length
  steady : reader.store.frozenRows session = start.frozenRows session

/-- What segments have of a resolved range. -/
structure SegmentsExact
    (store : ObservationStore) (resolved : ResolvedObservationRange)
    (segments : List (List ObservationPage)) : Prop where
  rows : (segments.flatMap pageObservations).Perm
    ((store.window resolved.query.source resolved.query.startTimeMs resolved.query.endTimeMs
      resolved.maximumObservationId).map record)
  disjoint : ((segments.flatMap pageObservations).map ObservationRecord.observationId).Nodup
  count : (segments.map fun pages => (pageObservations pages).length).sum =
    resolved.totalObservations

section Exactness

variable {codec : Codec} {encodedLen : ObservationPage → Nat} {start : ObservationStore}

theorem pagesExact_of_run
    {id : String} {created : Nat} {owner requestId : Option String} {range : ObservationRange}
    {session : ObservationSession} {labels : List ReaderLabel} {reader : Reader}
    (valid : range.validate = .ok ())
    (froze : freezeObservations id created owner requestId range start = .ok session)
    (run : Run (Reader.Step codec encodedLen session) ⟨start, []⟩ labels reader) :
    PagesExact encodedLen start session reader := by
  obtain ⟨frozen, ranged, _⟩ := frozen_of_freezeObservations froze
  rw [← ranged] at valid
  have positive := limit_pos_of_validate valid
  have reads := reads_of_run frozen run
  obtain ⟨grows, read, left, split, cut⟩ := reads_of_run frozen run
  refine ⟨⟨left.map record, ?_⟩, reads.all positive, ?_, ?_, ?_,
    grows.window_eq frozen.given _ _ _⟩
  · unfold pageObservations
    rw [cut.rows, split, map_append]
  · intro front page back same
    have opened : reader.pages ≠ [] := by
      rw [same]
      simp
    rw [cut.next_eq_none_iff positive opened]
    rcases eq_nil_or_concat back with rfl | ⟨before, last, rfl⟩
    · have ending : reader.pages.getLast? = some page := by rw [same, getLast?_concat]
      rw [(cut.last page ending).1, decide_eq_true_eq]
      exact (and_iff_right rfl).symm
    · have early := cut.earlier front page _ same (by simp)
      rw [early]
      refine iff_of_false (by decide) ?_
      rintro ⟨none, _⟩
      simp at none
  · intro token message next failed
    exact reads.next_page valid frozen next failed
  · rw [split, length_append]
    exact cut.short.trans (Nat.le_add_right _ _)

theorem segmentsExact_of_segments (resolves : resolveObservations query start = .ok resolved)
    (cut : Segments codec encodedLen start query resolved.maximumObservationId
      query.startTimeMs segments) :
    SegmentsExact start resolved segments := by
  obtain ⟨_, _, high, found, _, counted, resolves⟩ := bind₃_ok.mp resolves
  cases resolves
  have mem := (Table.last_eq_some_iff.mp (need_ok.mp found)).1
  have shared := cut.perm (start.given high mem)
  refine ⟨shared, ?_, ?_⟩
  · refine (shared.map ObservationRecord.observationId).nodup_iff.mpr ?_
    rw [map_map]
    refine pairwise_map.mpr (Table.sorted_select.imp ?_)
    intro one other below
    exact below.ne
  · have length := shared.length_eq
    rw [length_map, length_flatMap] at length
    have few := of_decide_eq_true (ensure_ok.mp counted)
    rw [length_take] at few
    dsimp only
    rw [length, length_take]
    omega

/-- The pages of a session are the frozen rows, cut in their order, and the segments
of a resolved range are its rows, each in one of them. -/
theorem observation_paging_exact
    (codec : Codec) (encodedLen : ObservationPage → Nat) (start : ObservationStore) :
    (∀ id created owner requestId range session labels reader, range.validate = .ok () →
      freezeObservations id created owner requestId range start = .ok session →
      Run (Reader.Step codec encodedLen session) ⟨start, []⟩ labels reader →
      PagesExact encodedLen start session reader) ∧
    ∀ query resolved segments, resolveObservations query start = .ok resolved →
      Segments codec encodedLen start query resolved.maximumObservationId query.startTimeMs
        segments →
      SegmentsExact start resolved segments := by
  refine ⟨?_, ?_⟩
  · intro id created owner requestId range session labels reader valid froze run
    exact pagesExact_of_run valid froze run
  · intro query resolved segments resolves cut
    exact segmentsExact_of_segments resolves cut

end Exactness

/-! ## Three observations -/

section Sample

/-- An observation at a time. -/
def sampleObservation (sourceTimeMs : Int) : ObservationRow where
  observationId := 0
  source := 3
  sourceGeneration := "a"
  sourceSequence := 1
  rowIndex := 0
  sourceTimeMs
  price := "1"
  receivedAtNs := none
  evidenceId := "evidence"

/-- The third observation is older than the second one. -/
def sampleObservations : ObservationStore :=
  ((ObservationStore.empty.add (sampleObservation 1000)).add (sampleObservation 2000)).add
    (sampleObservation 1500)

/-- An observation that arrives after the range was resolved. -/
def laterObservation : ObservationBatch where
  fresh := "later"
  source := .chainlinkBtcUsdTwap60
  generation := "b"
  rows := [⟨1700, "1", some 2, some 0, none, none⟩]
  input := sampleInput

/-- A window with pages of two observations. -/
def sampleWindow (startTimeMs endTimeMs : Int) : ObservationRange where
  source := 3
  instrumentId := "BTCUSD.CHAINLINK.TWAP60"
  startTimeMs
  endTimeMs
  limit := 2
  maximumObservationId := some 3

/-- Asks for a window of two seconds. -/
def sampleQuery : ObservationRangeQuery where
  source := 3
  instrumentId := "BTCUSD.CHAINLINK.TWAP60"
  startTimeMs := 1000
  endTimeMs := 3000
  limit := 2

/-- Three observations are in the window. -/
def sampleResolved : ResolvedObservationRange where
  schemaVersion := "marketcow.btc-observation-range.v3"
  query := sampleQuery
  maximumObservationId := 3
  totalObservations := 3

/-- A session of a window. -/
def sampleSession (startTimeMs endTimeMs : Int) (first high : Nat) : ObservationSession where
  id := "session"
  owner := none
  requestId := none
  range := sampleWindow startTimeMs endTimeMs
  created := 0
  high
  first
  health := none

/-- The store after the later observation. -/
def sampleLater : ObservationStore := sampleObservations.write sampleCodec laterObservation

/-- The page of a session after a place. -/
def samplePage (session : ObservationSession) (place : Nat) : ObservationPage :=
  session.assemble ((sampleLater.rest session place).take 3)

/-- Two pages, with a batch written between them. -/
def sampleReader : Reader where
  store := sampleLater
  pages := [samplePage (sampleSession 1000 3000 1 3) 0, samplePage (sampleSession 1000 3000 1 3) 2]

theorem run_sample :
    Run (Reader.Step sampleCodec observationPageLength (sampleSession 1000 3000 1 3))
      ⟨sampleObservations, []⟩ [.read, .write laterObservation, .read] sampleReader := by
  refine .cons (Reader.Step.read _ none (samplePage (sampleSession 1000 3000 1 3) 0) rfl ?_) ?_
  · decide
  · refine .cons (Reader.Step.write _ laterObservation) (Run.single ?_)
    refine Reader.Step.read _ (some ⟨"session", 2⟩)
      (samplePage (sampleSession 1000 3000 1 3) 2) ?_ ?_
    · decide
    · decide

/-- A window that has one page. -/
theorem walk_sample (startTimeMs endTimeMs : Int) (first high : Nat)
    (valid : (sampleWindow startTimeMs endTimeMs).validate = .ok ())
    (froze : freezeObservations "session" 0 none none (sampleWindow startTimeMs endTimeMs)
      sampleLater = .ok (sampleSession startTimeMs endTimeMs first high))
    (read : (sampleSession startTimeMs endTimeMs first high).read observationPageLength none
      ⟨sampleWindow startTimeMs endTimeMs, none, none⟩ sampleLater =
        .ok (samplePage (sampleSession startTimeMs endTimeMs first high) (first - 1)))
    (ended : (samplePage (sampleSession startTimeMs endTimeMs first high)
      (first - 1)).nextPageToken = none) :
    Walk sampleCodec observationPageLength sampleLater (sampleWindow startTimeMs endTimeMs)
      [samplePage (sampleSession startTimeMs endTimeMs first high) (first - 1)] := by
  refine ⟨valid, "session", 0, none, none, sampleSession startTimeMs endTimeMs first high, [.read],
    ⟨sampleLater, [samplePage _ (first - 1)]⟩, froze, Run.single ?_, by simp, ?_, rfl⟩
  · exact Reader.Step.read ⟨sampleLater, []⟩ none _ rfl read
  · unfold Reader.next
    exact congrArg (Option.map some) ended

/-- Two segments, frozen after the batch. -/
def sampleSegments : List (List ObservationPage) :=
  [[samplePage (sampleSession 1000 1500 1 1) 0], [samplePage (sampleSession 1500 3000 2 3) 1]]

theorem segments_sample :
    Segments sampleCodec observationPageLength sampleObservations sampleQuery 3 1000
      sampleSegments := by
  have first := walk_sample 1000 1500 1 1 (by decide) (by decide) (by decide) (by decide)
  have second := walk_sample 1500 3000 2 3 (by decide) (by decide) (by decide) (by decide)
  exact Segments.segment [laterObservation] rfl rfl first
    (Segments.segment [laterObservation] rfl rfl second Segments.done)

/-- The pages and the segments of the three observations. -/
theorem observation_paging_exact_sample :
    PagesExact observationPageLength sampleObservations (sampleSession 1000 3000 1 3) sampleReader ∧
      SegmentsExact sampleObservations sampleResolved sampleSegments :=
  ⟨(observation_paging_exact sampleCodec observationPageLength sampleObservations).1
      "session" 0 none none (sampleWindow 1000 3000) _ _ _ (by decide) (by decide) run_sample,
    (observation_paging_exact sampleCodec observationPageLength sampleObservations).2
      sampleQuery sampleResolved _ rfl segments_sample⟩

end Sample

end MarketCow.Btc
