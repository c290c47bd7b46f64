import MarketCow.Scope.Journal

/-!
# Runs of the scope journal

The states of a journal keep their markets apart in every run. A commit that fails
changes nothing, unless the file was in its place already.
-/

namespace MarketCow.Scope

open Library
open Discovery (field ensure_ok need_ok)

/-! ## What is written is read -/

variable {setting : Setting} {state next : State} {bytes : Bytes}

/-- What is encoded is valid and fits. -/
theorem encode_ok (encoded : setting.encode state = .ok bytes) :
    state.Valid ∧ bytes = setting.externals.json.toVec (envelope setting.externals state.toJson) ∧
      bytes.length ≤ setting.maximumBytes := by
  unfold Setting.encode encodeBounded at encoded
  obtain ⟨_, valid, other, limited, _, _, same⟩ := bind₃_ok.mp encoded
  cases same
  obtain ⟨_, _, _, short, same⟩ := bind₂_ok.mp limited
  cases same
  exact ⟨validate_ok_iff.mp valid, rfl, of_decide_eq_true (ensure_ok.mp short)⟩

/-- The place of a journal that a process opened. -/
structure Setting.Usable (setting : Setting) : Prop where
  absolute : setting.path.isAbsolute = true
  least : 1024 ≤ setting.maximumBytes
  most : setting.maximumBytes ≤ 256 * 1024 * 1024
  parent : ∃ parent, setting.path.parent = some parent ∧ parent.canonical = true ∧
    parent.isDir = true ∧ isPrivate parent.mode = true

/-- A file that a commit wrote is read as the state of the commit. -/
theorem read_written (usable : setting.Usable) (encoded : setting.encode state = .ok bytes) :
    setting.read (some (written bytes)) = .ok (some state) := by
  obtain ⟨valid, rfl, short⟩ := encode_ok encoded
  have named : field (envelope setting.externals state.toJson) "sha256" =
    .string (setting.externals.canonicalHash state.toJson) := rfl
  have held : field (envelope setting.externals state.toJson) "state" = state.toJson := rfl
  have shape : ((envelope setting.externals state.toJson).asObject?.any fun fields =>
    fields.length == 2 && (fields.lookup "state").isSome && (fields.lookup "sha256").isSome) =
      true := rfl
  unfold Setting.read
  refine bind_ok.mpr ⟨(), ensure_ok.mpr ?_, ?_⟩
  · rw [usable.absolute, decide_eq_true usable.least, decide_eq_true usable.most]
    rfl
  refine bind_ok.mpr ⟨(), ensure_ok.mpr ?_, ?_⟩
  · unfold written
    dsimp only
    rw [decide_eq_true short]
    rfl
  refine bind_ok.mpr ⟨_, need_ok.mpr (setting.externals.json.fromSlice_toVec _), ?_⟩
  refine bind_ok.mpr ⟨(), ensure_ok.mpr ?_, ?_⟩
  · rw [shape, Bool.and_true]
    exact beq_self_eq_true _
  refine bind_ok.mpr ⟨(), ensure_ok.mpr ?_, ?_⟩
  · rw [named, held]
    exact beq_self_eq_true _
  rw [held]
  refine bind_ok.mpr ⟨state, need_ok.mpr (fromJson_toJson state), ?_⟩
  exact bind_ok.mpr ⟨(), validate_ok_iff.mpr valid, rfl⟩

/-- A commit is refused before it writes, succeeds, or fails before or after the rename. -/
theorem commit_cases {fault : Option Fault} {file : Option File} :
    (∃ message, setting.encode next = .error message ∧
        setting.commit fault file next = (.error message, file)) ∨
      ∃ bytes, setting.encode next = .ok bytes ∧
        ((fault = none ∧ setting.commit fault file next = (.ok next, some (written bytes))) ∨
          ∃ failure message, fault = some failure ∧ setting.commit fault file next =
            (.error message, if failure.isLate then some (written bytes) else file)) := by
  unfold Setting.commit
  cases encoded : setting.encode next with
  | error message => exact .inl ⟨message, rfl, rfl⟩
  | ok bytes =>
    cases fault with
    | none => exact .inr ⟨bytes, rfl, .inl ⟨rfl, rfl⟩⟩
    | some failure => exact .inr ⟨bytes, rfl, .inr ⟨failure, _, rfl, rfl⟩⟩

/-! ## The states of a journal -/

/-- A valid state that keeps its markets apart, with nothing left of past retirements. -/
structure Kept (state : State) : Prop where
  valid : state.Valid
  apart : state.Apart
  idle : state.retiringRecords = ∅ → state.Idle

theorem kept_of_idle (valid : state.Valid) (idle : state.Idle) :
    Kept state := by
  refine ⟨valid, ?_, fun _ => idle⟩
  intro id _
  rw [idle.retiring]
  exact TreeMap.not_mem_empty

variable {computed : Except String State}

theorem map_some_ok_iff :
    computed.map some = .ok result ↔ ∃ next, computed = .ok next ∧ result = some next := by
  cases computed <;> simp [Except.map, eq_comm]

theorem of_map_some_ok (mapped : computed.map some = .ok (some next)) : computed = .ok next := by
  obtain ⟨_, made, same⟩ := map_some_ok_iff.mp mapped
  cases same
  exact made

variable {operation : Operation}

/-- An operation leads from a kept state to a state that is kept if it is valid. -/
theorem kept_of_next
    (kept : Kept state) (operated : operation.next state = .ok (some next)) (valid : next.Valid) :
    Kept next := by
  cases operation with
  | admitRecords records acquisition =>
    have admits := admits_of_admitRecords (of_map_some_ok operated)
    refine ⟨valid, admits.apart kept.apart, ?_⟩
    intro empty
    have idle := kept.idle (admits.retiring.symm.trans empty)
    exact ⟨empty, admits.ticket.trans idle.ticket,
      admits.retiringAcquisition.trans idle.retiringAcquisition⟩
  | retire markets ticket =>
    unfold Operation.next at operated
    dsimp only at operated
    split at operated
    · cases ok.inj operated
    obtain ⟨_, pending, hides⟩ := retire_ok (of_map_some_ok operated)
    refine ⟨valid, hides.apart, ?_⟩
    intro empty
    have bound := valid.ticket
    rw [pending, TreeMap.isEmpty_iff.mpr empty] at bound
    cases bound
  | settled ticket =>
    unfold Operation.next at operated
    dsimp only at operated
    split at operated
    · obtain rfl := some.inj (ok.inj operated)
      exact kept_of_idle valid ⟨rfl, rfl, rfl⟩
    · cases ok.inj operated
  | cancel markets ticket expectedRevision expectedCatalogRevision =>
    exact kept_of_idle valid (cancels_of_cancel (of_map_some_ok operated)).idle

/-- The markets that a state knows after an operation on another one. -/
def Operation.Changes (operation : Operation) (before after : State) : Prop :=
  match operation with
  | .admitRecords records _ => ∀ id, after.Knows id ↔ before.Knows id ∨ names records id
  | .retire _ _ => ∀ id, after.Knows id ↔ before.Knows id
  | .settled ticket =>
    ∀ id, after.Knows id ↔ before.Knows id ∧
      ¬(id ∈ before.retiringRecords ∧
        ∃ pending, before.retirementTicket = some pending ∧ pending ≤ ticket)
  | .cancel _ _ _ _ => ∀ id, after.Knows id ↔ before.Knows id

theorem knows_settle_iff (id : String) : state.settle.Knows id ↔ id ∈ state.records := by
  have absent : id ∉ state.settle.retiringRecords := TreeMap.not_mem_empty
  exact or_iff_left absent

/-- An operation removes markets only when it settles their ticket. -/
theorem changes_of_next (kept : Kept state) (operated : operation.next state = .ok result) :
    operation.Changes state (result.getD state) := by
  cases operation with
  | admitRecords records acquisition =>
    obtain ⟨next, made, rfl⟩ := map_some_ok_iff.mp operated
    exact (admits_of_admitRecords made).knows_iff
  | retire markets ticket =>
    unfold Operation.next at operated
    dsimp only at operated
    split at operated
    · cases operated
      exact fun id => Iff.rfl
    · obtain ⟨next, made, rfl⟩ := map_some_ok_iff.mp operated
      obtain ⟨empty, _, hides⟩ := retire_ok made
      exact hides.knows_iff (kept.idle empty)
  | settled ticket =>
    unfold Operation.next at operated
    unfold Operation.Changes
    dsimp only at operated ⊢
    intro id
    have apart := kept.apart id
    cases held : state.retirementTicket with
    | none =>
      rw [held] at operated
      cases operated
      simp
    | some pending =>
      rw [held, any_some] at operated
      by_cases early : pending ≤ ticket
      · rw [decide_eq_true early, if_pos rfl] at operated
        cases operated
        rw [getD_some, knows_settle_iff]
        simp only [Option.some.injEq, exists_eq_left', early, and_true]
        unfold State.Knows
        tauto
      · rw [decide_eq_false early, if_neg Bool.false_ne_true] at operated
        cases operated
        simp [early]
  | cancel markets ticket expectedRevision expectedCatalogRevision =>
    obtain ⟨next, made, rfl⟩ := map_some_ok_iff.mp operated
    exact (cancels_of_cancel made).knows_iff

/-! ## Opening -/

theorem file_of_read_eq_none (absent : setting.read file = .ok none) : file = none := by
  cases file with
  | none => rfl
  | some file =>
    unfold Setting.read at absent
    obtain ⟨_, _, rest⟩ := bind_ok.mp absent
    iterate 6 obtain ⟨_, _, rest⟩ := bind_ok.mp rest
    cases ok.inj rest

/-- A journal opens with what its file holds, and with the given state if there is none. -/
theorem opening_ok (opened : setting.opening file initial = .ok state) :
    setting.Usable ∧ initial.Valid ∧
      ((file = none ∧ state = initial) ∨ setting.read file = .ok (some state)) := by
  unfold Setting.opening at opened
  obtain ⟨parent, found, _, owned, rest⟩ := bind₂_ok.mp opened
  obtain ⟨_, valid, saved, read, rest⟩ := bind₂_ok.mp rest
  have usable : setting.Usable := by
    have placed := ensure_ok.mp owned
    simp only [and_eq_true] at placed
    obtain ⟨⟨⟨absolute, canonical⟩, isDir⟩, closed⟩ := placed
    have checked := read
    unfold Setting.read at checked
    obtain ⟨_, bounded, _⟩ := bind_ok.mp checked
    have bounds := ensure_ok.mp bounded
    simp only [and_eq_true, decide_eq_true_eq] at bounds
    exact ⟨absolute, bounds.1.2, bounds.2, parent, need_ok.mp found, canonical, isDir, closed⟩
  refine ⟨usable, validate_ok_iff.mp valid, ?_⟩
  cases saved with
  | none =>
    cases rest
    exact .inl ⟨file_of_read_eq_none read, rfl⟩
  | some saved =>
    obtain ⟨_, _, same⟩ := bind_ok.mp rest
    cases same
    exact .inr read

/-! ## Every run -/

/-- The journal and the file hold kept states. -/
structure Sound (setting : Setting) (system : System) : Prop where
  journal : ∀ state, system.journal = some state → Kept state
  file : system.file = none ∨ ∃ state bytes, Kept state ∧ setting.encode state = .ok bytes ∧
    system.file = some (written bytes)

variable {system : System}

section

variable (sound : Sound setting system)
include sound

theorem sound_commit (kept : next.Valid → Kept next) :
    Sound setting (system.acknowledge (setting.commit fault system.file next)).2 := by
  rcases @commit_cases setting next fault system.file with
    ⟨message, _, same⟩ | ⟨bytes, encoded, ⟨_, same⟩ | ⟨failure, message, _, same⟩⟩
  · rw [same]
    exact ⟨sound.journal, sound.file⟩
  · have fine := kept (encode_ok encoded).1
    rw [same]
    refine ⟨?_, .inr ⟨next, bytes, fine, encoded, rfl⟩⟩
    rintro state held
    cases held
    exact fine
  · have fine := kept (encode_ok encoded).1
    rw [same]
    refine ⟨sound.journal, ?_⟩
    unfold System.acknowledge
    dsimp only
    split
    · exact .inr ⟨next, bytes, fine, encoded, rfl⟩
    · exact sound.file

/-- Opening keeps the state that is read, or takes the first one. -/
theorem kept_of_opening {initial : Initial}
    (opened : setting.opening system.file initial.state = .ok state) :
    Kept state := by
  obtain ⟨usable, valid, ⟨_, rfl⟩ | read⟩ := opening_ok opened
  · exact kept_of_idle valid initial.idle
  · rcases sound.file with absent | ⟨saved, bytes, kept, encoded, there⟩
    · rw [absent] at read
      unfold Setting.read at read
      obtain ⟨_, _, rest⟩ := bind_ok.mp read
      cases ok.inj rest
    · rw [there, read_written usable encoded] at read
      obtain rfl := some.inj (ok.inj read)
      exact kept

/-- One step keeps the journal and the file sound, wherever it fails. -/
theorem sound_step (label : Label) :
    Sound setting (system.step setting label).2 := by
  cases label with
  | reopen initial fault =>
    have closed : Sound setting { system with journal := none } :=
      ⟨fun _ never => (Option.some_ne_none _ never.symm).elim, sound.file⟩
    unfold System.step Setting.openJournal
    dsimp only
    cases opened : setting.opening system.file initial.state with
    | error message => exact ⟨closed.journal, closed.file⟩
    | ok state => exact sound_commit closed fun _ => kept_of_opening sound opened
  | operate operation fault =>
    unfold System.step System.operate
    cases running : system.journal with
    | none => exact sound
    | some state =>
      have kept := sound.journal state running
      dsimp only
      cases operated : operation.next state with
      | error message => exact sound
      | ok result =>
        cases result with
        | none => exact sound
        | some next => exact sound_commit sound fun valid => kept_of_next kept operated valid

end

theorem sound_closed (setting : Setting) : Sound setting System.closed :=
  ⟨fun _ never => (Option.some_ne_none _ never.symm).elim, .inl rfl⟩

/-- Induction over the steps. -/
theorem sound_run (sound : Sound setting system) (labels : List Label) :
    Sound setting (system.run setting labels) := by
  induction labels generalizing system with
  | nil => exact sound
  | cons label labels ih => exact ih (sound_step sound label)

end MarketCow.Scope
