import MarketCow.Finality.Requests

/-!
# Settlements of a market

Every response that may be imported is a stored settlement, and a settlement was a
decision without contradiction. The settlements of a market are one as long as a
decision is stored only under the key that the market was settled with.
-/

namespace MarketCow.Finality

open Library List
open Live (Codec MarketKey need_ok)

/-! ## Settlements and responses -/

/-- The key of the market that a response is about. -/
def FinalityResponse.key (response : FinalityResponse) : Option MarketKey :=
  response.factMeta.bind FactMeta.key

/-- A response without the id of its request. -/
def FinalityResponse.anonymous (response : FinalityResponse) : FinalityResponse :=
  { response with requestId := "" }

/-- A stored response is a decision that was fit to settle its market. -/
structure Committed (codec : Codec) (response : FinalityResponse) : Prop where
  decided : Decided response
  origin : ∃ request facts first second deadline value sequence,
    decideFinality codec request facts first second none deadline = .ok value ∧
      value.status = "awaiting_durability" ∧ response = value.commit sequence

/-- The settlements of a store have keys of their own. -/
structure Kept (codec : Codec) (store : FactStore) : Prop where
  distinct : ∀ one ∈ store.settlements, ∀ other ∈ store.settlements,
    one.key = other.key → one = other
  committed : ∀ settlement ∈ store.settlements, Committed codec settlement.payload
  named : ∀ settlement ∈ store.settlements, settlement.payload.key = some settlement.key

/-- A decided call has a decision about its key. -/
def Phase.Sound (codec : Codec) : Phase → Prop
  | .decided _ key _ value => value.status = "awaiting_durability" ∧ value.key = some key ∧
      Decided value ∧ ∃ request facts first second deadline,
        decideFinality codec request facts first second none deadline = .ok value
  | _ => True

/-- A response that may be imported is a stored one. -/
def Stored (store : FactStore) (response : FinalityResponse) : Prop :=
  response.settlementImportAllowed = true →
    ∃ settlement ∈ store.settlements, response.anonymous = settlement.payload

/-- The store, the calls and what was sent agree. -/
structure Sound (codec : Codec) (system : System) : Prop where
  kept : Kept codec system.store
  calls : ∀ call phase, system.calls call = some phase → phase.Sound codec
  sent : ∀ response ∈ system.sent, Stored system.store response

section Storing

variable {codec : Codec} {store after : FactStore} {key : MarketKey} {value : FinalityResponse}
  {settlement : Settlement}

theorem settlement_eq_some (found : store.settlement key = some settlement) :
    settlement ∈ store.settlements ∧ settlement.key = key :=
  ⟨mem_of_find?_eq_some found, by
    have same := find?_some found
    exact of_decide_eq_true same⟩

/-- What the store does with a decision: it has the settlement, or adds it. -/
theorem finality_cases
    (stores : finality key offered store = .ok (response, after)) :
    (∃ settlement ∈ store.settlements, settlement.key = key ∧
        response = some settlement.payload ∧ after = store) ∨
      (store.settlement key = none ∧ offered = none ∧ response = none ∧ after = store) ∨
      ∃ decision, store.settlement key = none ∧ offered = some decision ∧
        response = some (decision.commit (store.lastSequence + 1)) ∧
        after.settlements = store.settlements ++
          [⟨store.lastSequence + 1, key, decision.commit (store.lastSequence + 1)⟩] := by
  unfold finality at stores
  split at stores
  · rename_i old found
    obtain ⟨_, _, stores⟩ := bind_ok.mp stores
    obtain ⟨rfl, rfl⟩ := Prod.mk.inj (ok.inj stores)
    obtain ⟨mem, same⟩ := settlement_eq_some found
    exact .inl ⟨old, mem, same, rfl, rfl⟩
  · rename_i none
    split at stores
    · obtain ⟨rfl, rfl⟩ := Prod.mk.inj (ok.inj stores)
      exact .inr (.inl ⟨none, rfl, rfl, rfl⟩)
    · rename_i decision
      iterate 2 obtain ⟨_, _, stores⟩ := bind_ok.mp stores
      obtain ⟨rfl, rfl⟩ := Prod.mk.inj (ok.inj stores)
      exact .inr (.inr ⟨decision, none, rfl, rfl, rfl⟩)

/-- Rules leave the settlements alone. -/
theorem settlements_of_bindRules
    (binds : bindRules codec fresh rules store = .ok (bound, after)) :
    after.settlements = store.settlements := by
  obtain ⟨_, _, binds⟩ := bind_ok.mp binds
  dsimp only at binds
  split at binds
  · obtain ⟨_, rfl⟩ := Prod.mk.inj (ok.inj binds)
    rfl
  · obtain ⟨_, _, binds⟩ := bind_ok.mp binds
    iterate 2 obtain ⟨_, _, binds⟩ := bind_ok.mp binds
    obtain ⟨_, rfl⟩ := Prod.mk.inj (ok.inj binds)
    rfl

/-- A sound decision becomes a settlement of its key. -/
theorem kept_append
    (kept : Kept codec store) (sound : (Phase.decided request key binding value).Sound codec)
    (absent : store.settlement key = none)
    (settled : after.settlements = store.settlements ++ [settlement]) (named : settlement.key = key)
    (payload : settlement.payload = value.commit settlement.sequence) :
    Kept codec after := by
  obtain ⟨awaits, keyed, decided, facts⟩ := sound
  have others : ∀ other ∈ store.settlements, other.key ≠ key := by
    intro other mem same
    exact absurd (decide_eq_true same) (find?_eq_none.mp absent other mem)
  refine ⟨?_, ?_, ?_⟩
  · rw [settled]
    intro one mem other there same
    rcases mem_append.mp mem with old | new
    · rcases mem_append.mp there with known | fresh
      · exact kept.distinct one old other known same
      · rw [mem_singleton.mp fresh, named] at same
        exact absurd same (others one old)
    · rcases mem_append.mp there with known | fresh
      · rw [mem_singleton.mp new, named] at same
        exact absurd same.symm (others other known)
      · rw [mem_singleton.mp new, mem_singleton.mp fresh]
  · rw [settled]
    intro other mem
    rcases mem_append.mp mem with old | new
    · exact kept.committed other old
    · rw [mem_singleton.mp new, payload]
      obtain ⟨asked, known, first, second, deadline, decides⟩ := facts
      exact ⟨⟨decided.answered, decided.agreed, decided.sums⟩, asked, known, first, second,
        deadline, value, settlement.sequence, decides, awaits, rfl⟩
  · rw [settled]
    intro other mem
    rcases mem_append.mp mem with old | new
    · exact kept.named other old
    · rw [mem_singleton.mp new, payload, named]
      exact keyed

/-- What is stored stays stored as the store grows. -/
theorem stored_mono (stored : Stored store response)
    (grows : ∀ settlement ∈ store.settlements, settlement ∈ after.settlements) :
    Stored after response := by
  intro allowed
  obtain ⟨settlement, mem, same⟩ := stored allowed
  exact ⟨settlement, grows settlement mem, same⟩

theorem stored_of_payload
    (kept : Kept codec store) (mem : settlement ∈ store.settlements) (requestId : String) :
    Stored store { settlement.payload with requestId } := by
  intro _
  obtain ⟨_, _, _, _, _, _, value, sequence, _, _, same⟩ := kept.committed settlement mem
  refine ⟨settlement, mem, ?_⟩
  rw [same]
  rfl

end Storing

/-! ## Steps -/

section Steps

variable {setting : Setting} {system : System} {call : Nat} {phase : Phase}

section

variable (sound : Sound setting.codec system)
include sound

/-- A call moves on to a phase that fits. -/
theorem sound_settle (fit : phase.Sound setting.codec)
    (stored : ∀ response ∈ phase.response, Stored system.store response) :
    Sound setting.codec (system.settle call phase) := by
  refine ⟨sound.kept, ?_, ?_⟩
  · intro other known there
    unfold System.settle at there
    dsimp only at there
    by_cases same : other = call
    · subst same
      rw [Function.update_self] at there
      rw [← some.inj there]
      exact fit
    · rw [Function.update_of_ne same] at there
      exact sound.calls other known there
  · intro response mem
    rcases mem_append.mp mem with old | new
    · exact sound.sent response old
    · exact stored response new

theorem sound_gate (gate : Gate) : Sound setting.codec { system with gate } :=
  ⟨sound.kept, sound.calls, sound.sent⟩

theorem sound_leave (binding : String) : Sound setting.codec (system.leave binding phase) := by
  unfold System.leave
  split
  · exact sound
  · exact sound_gate sound _

end

theorem store_leave (binding : String) : (system.leave binding phase).store = system.store := by
  unfold System.leave
  split <;> rfl

theorem ask_quiet (store : FactStore) (request : MarketRequest) :
    (ask setting store request).Sound setting.codec ∧ (ask setting store request).response = [] := by
  unfold ask
  split
  · exact ⟨trivial, rfl⟩
  · split <;> exact ⟨trivial, rfl⟩

theorem admit_quiet (gate : Gate) (now : Nat) (request : MarketRequest) (key : MarketKey) :
    (admitRequest setting gate now request key).2.Sound setting.codec ∧
      (admitRequest setting gate now request key).2.response = [] := by
  unfold admitRequest
  split
  · exact ⟨trivial, rfl⟩
  · split
    · exact ⟨trivial, rfl⟩
    · split
      · exact ⟨trivial, rfl⟩
      · dsimp only
        split <;> exact ⟨trivial, rfl⟩

/-- A settlement that is looked up is sent as it is stored. -/
theorem look_stored
    {request : MarketRequest} {key : MarketKey} (kept : Kept setting.codec system.store) :
    (look system.store request key).Sound setting.codec ∧
      ∀ response ∈ (look system.store request key).response, Stored system.store response := by
  unfold look
  split
  · rename_i value after stores
    refine ⟨trivial, ?_⟩
    intro response mem
    rw [mem_singleton.mp mem]
    rcases finality_cases stores with ⟨settlement, there, _, same, _⟩ | ⟨_, _, never, _⟩ |
      ⟨_, _, never, _⟩
    · cases same
      exact stored_of_payload kept there request.requestId
    · cases never
    · cases never
  · refine ⟨trivial, ?_⟩
    intro response never
    cases never
  · refine ⟨trivial, ?_⟩
    intro response never
    cases never

variable {request : MarketRequest}

/-- Without a sequence no import is allowed. -/
theorem settlementImportAllowed_of_decideFinality
    (decides : decideFinality setting.codec request facts first second none deadline = .ok value) :
    value.settlementImportAllowed = false := by
  iterate 6 obtain ⟨_, _, decides⟩ := bind_ok.mp decides
  cases decides
  rfl

/-- Before it is stored, no response may be imported. -/
theorem decide_stored
    {store : FactStore} {request : MarketRequest} {key : MarketKey} {binding : String}
    (observations : Observations) :
    (decideCall setting request key binding observations).Sound setting.codec ∧
      ∀ response ∈ (decideCall setting request key binding observations).response,
        Stored store response := by
  have quiet : ∀ code status, (Phase.failed code status).Sound setting.codec ∧
      ∀ response ∈ (Phase.failed code status).response, Stored store response := by
    intro code status
    refine ⟨trivial, ?_⟩
    intro response never
    cases never
  unfold decideCall
  split
  · exact quiet _ _
  · split
    · exact quiet _ _
    · dsimp only
      split
      · exact quiet _ _
      · split
        · exact quiet _ _
        · split
          · exact quiet _ _
          · rename_i value decides
            split
            · rename_i awaits
              obtain ⟨decided, facts, _⟩ := decided_of_decideFinality decides awaits
              refine ⟨⟨awaits, ?_, decided, _, _, _, _, _, decides⟩, ?_⟩
              · unfold FinalityResponse.key
                rw [facts]
                rfl
              · intro response never
                cases never
            · refine ⟨trivial, ?_⟩
              intro response mem allowed
              rw [mem_singleton.mp mem] at allowed
              dsimp only at allowed
              rw [settlementImportAllowed_of_decideFinality decides] at allowed
              cases allowed

/-- Storing a decision keeps what was stored, and sends the settlement. -/
theorem commit_stored (kept : Kept setting.codec system.store)
    (sound : (Phase.decided request key binding value).Sound setting.codec) :
    Kept setting.codec (commitCall system.store request key value).1 ∧
      (∀ settlement ∈ system.store.settlements,
        settlement ∈ (commitCall system.store request key value).1.settlements) ∧
      (commitCall system.store request key value).2.Sound setting.codec ∧
      ∀ response ∈ (commitCall system.store request key value).2.response,
        Stored (commitCall system.store request key value).1 response := by
  unfold commitCall
  split
  · rename_i stored after stores
    rcases finality_cases stores with ⟨settlement, there, _, same, rfl⟩ | ⟨_, _, never, _⟩ |
      ⟨decision, absent, offered, same, settled⟩
    · cases same
      refine ⟨kept, fun _ mem => mem, trivial, ?_⟩
      intro response mem
      rw [mem_singleton.mp mem]
      exact stored_of_payload kept there request.requestId
    · cases never
    · cases offered
      cases same
      have keptAfter := kept_append kept sound absent settled rfl rfl
      refine ⟨keptAfter, ?_, trivial, ?_⟩
      · intro settlement mem
        dsimp only
        rw [settled]
        exact mem_append_left _ mem
      · intro response mem
        rw [mem_singleton.mp mem]
        have there : (⟨system.store.lastSequence + 1, key,
            value.commit (system.store.lastSequence + 1)⟩ : Settlement) ∈ after.settlements := by
          rw [settled]
          simp
        exact stored_of_payload keptAfter there request.requestId
  · rename_i after stores
    rcases finality_cases stores with ⟨_, _, _, never, _⟩ | ⟨_, offered, _⟩ | ⟨_, _, _, never, _⟩
    · cases never
    · cases offered
    · cases never
  · refine ⟨kept, fun _ mem => mem, trivial, ?_⟩
    intro response never
    cases never

/-- One step keeps the service sound. -/
theorem sound_step (sound : Sound setting.codec system) (label : Label) :
    Sound setting.codec (system.step setting label) := by
  cases label with
  | tick elapsed => exact ⟨sound.kept, sound.calls, sound.sent⟩
  | bind fresh rules =>
    unfold System.step
    dsimp only
    split
    · rename_i bound store binds
      have same := settlements_of_bindRules binds
      obtain ⟨distinct, committed, named⟩ := sound.kept
      rw [← same] at distinct committed named
      refine ⟨⟨distinct, committed, named⟩, sound.calls, ?_⟩
      intro response mem
      refine stored_mono (sound.sent response mem) ?_
      intro settlement there
      rw [← same] at there
      exact there
    · exact sound
  | ask call request =>
    unfold System.step
    dsimp only
    split
    · exact sound
    · obtain ⟨fit, quiet⟩ := @ask_quiet setting system.store request
      refine sound_settle sound fit ?_
      rw [quiet]
      intro response never
      cases never
  | look call =>
    unfold System.step
    dsimp only
    split
    · obtain ⟨fit, stored⟩ := @look_stored setting system _ _ sound.kept
      exact sound_settle sound fit stored
    · exact sound
  | admitRequest call =>
    unfold System.step
    dsimp only
    split
    · rename_i request key there
      obtain ⟨fit, quiet⟩ := @admit_quiet setting system.gate system.now request key
      refine sound_settle (sound_gate sound _) fit ?_
      rw [quiet]
      intro response never
      cases never
    · exact sound
  | decide call observations =>
    unfold System.step
    dsimp only
    split
    · rename_i request key binding there
      obtain ⟨fit, stored⟩ := @decide_stored setting system.store request key binding observations
      refine sound_settle (sound_leave sound binding) fit ?_
      rw [store_leave]
      exact stored
    · exact sound
  | commit call =>
    unfold System.step
    dsimp only
    split
    · rename_i request key binding value there
      obtain ⟨kept, grows, fit, stored⟩ := commit_stored sound.kept (sound.calls call _ there)
      have committed : Sound setting.codec
          { system with store := (commitCall system.store request key value).1 } :=
        ⟨kept, sound.calls, fun response mem => stored_mono (sound.sent response mem) grows⟩
      refine sound_settle (sound_leave committed binding) fit ?_
      rw [store_leave]
      exact stored
    · exact sound
  | forget binding =>
    unfold System.step
    dsimp only
    split
    · exact sound_gate sound _
    · exact sound
  | restart =>
    refine ⟨sound.kept, ?_, sound.sent⟩
    intro call phase never
    cases never

/-- Induction over the steps, the last one first. -/
theorem sound_run (labels : List Label) :
    Sound setting.codec (System.opened.run setting labels) := by
  induction labels using List.reverseRecOn with
  | nil =>
    refine ⟨⟨?_, ?_, ?_⟩, ?_, ?_⟩
    · intro one never
      cases never
    · intro settlement never
      cases never
    · intro settlement never
      cases never
    · intro call phase never
      cases never
    · intro response never
      cases never
  | append_singleton front label ih =>
    unfold System.run at ih ⊢
    rw [foldl_append]
    exact sound_step ih label

end Steps

/-! ## One key for a market -/

/-- A decision is stored under the key that its market was settled with, if it was. -/
def System.singleKey (system : System) : Label → Bool
  | .commit call =>
    match system.calls call with
    | some (.decided _ key _ _) => system.store.settlements.all fun settlement =>
      decide (settlement.key.marketId = key.marketId → settlement.key = key)
    | _ => true
  | _ => true

/-- Every step meets the condition on the state before it. -/
def System.singleKeyRun (setting : Setting) (system : System) : List Label → Bool
  | [] => true
  | label :: rest => system.singleKey label && singleKeyRun setting (system.step setting label) rest

/-- The markets of a store are settled once. -/
def Single (store : FactStore) : Prop :=
  ∀ one ∈ store.settlements, ∀ other ∈ store.settlements,
    one.key.marketId = other.key.marketId → one = other

/-- Responses about a market that may be imported are one stored settlement. -/
structure SettledOnce (codec : Codec) (system : System) : Prop where
  once : ∀ one ∈ system.sent, ∀ other ∈ system.sent, ∀ key otherKey,
    one.settlementImportAllowed = true → other.settlementImportAllowed = true →
    one.key = some key → other.key = some otherKey → key.marketId = otherKey.marketId →
    one.anonymous = other.anonymous
  agree : ∀ one ∈ system.sent, ∀ other ∈ system.sent, ∀ key otherKey,
    one.settlementImportAllowed = true → other.settlementImportAllowed = true →
    one.key = some key → other.key = some otherKey → key.marketId = otherKey.marketId →
    key.conditionId = otherKey.conditionId →
    one.payouts = other.payouts ∧ one.denominator = other.denominator

section Runs

variable {setting : Setting} {system : System} {label : Label}

/-- A commit of a single key adds no second settlement of its market. -/
theorem single_of_step (single : Single system.store) (timely : system.singleKey label = true) :
    Single (system.step setting label).store := by
  cases label with
  | tick elapsed => exact single
  | bind fresh rules =>
    unfold System.step
    dsimp only
    split
    · rename_i bound store binds
      unfold Single
      dsimp only
      rw [settlements_of_bindRules binds]
      exact single
    · exact single
  | ask call request | look call | admitRequest call =>
    unfold System.step
    dsimp only
    split <;> exact single
  | decide call observations =>
    unfold System.step
    dsimp only
    split
    · unfold System.settle
      dsimp only
      rw [store_leave]
      exact single
    · exact single
  | commit call =>
    unfold System.step
    dsimp only
    split
    · rename_i request key binding value there
      unfold System.singleKey at timely
      dsimp only at timely
      rw [there] at timely
      unfold System.settle
      dsimp only
      rw [store_leave]
      unfold commitCall
      split
      · rename_i stored after stores
        rcases finality_cases stores with ⟨_, _, _, _, rfl⟩ | ⟨_, _, _, rfl⟩ |
          ⟨decision, absent, _, _, settled⟩
        · exact single
        · exact single
        · dsimp only
          unfold Single
          rw [settled]
          have others : ∀ settlement ∈ system.store.settlements,
              settlement.key.marketId ≠ key.marketId := by
            intro settlement mem market
            have same := of_decide_eq_true (all_eq_true.mp timely settlement mem) market
            exact absurd (decide_eq_true same) (find?_eq_none.mp absent settlement mem)
          intro one mem other there same
          rcases mem_append.mp mem with old | new
          · rcases mem_append.mp there with known | added
            · exact single one old other known same
            · rw [mem_singleton.mp added] at same
              exact absurd same (others one old)
          · rcases mem_append.mp there with known | added
            · rw [mem_singleton.mp new] at same
              exact absurd same.symm (others other known)
            · rw [mem_singleton.mp new, mem_singleton.mp added]
      · rename_i after stores
        rcases finality_cases stores with ⟨_, _, _, _, rfl⟩ | ⟨_, _, _, rfl⟩ | ⟨_, _, _, never, _⟩
        · exact single
        · exact single
        · cases never
      · exact single
    · exact single
  | forget binding =>
    unfold System.step
    dsimp only
    split <;> exact single
  | restart => exact single

/-- Induction over the steps. -/
theorem single_of_singleKeyRun (labels : List Label) (start : System) (single : Single start.store)
    (keyed : start.singleKeyRun setting labels = true) :
    Single (start.run setting labels).store := by
  induction labels generalizing start with
  | nil => exact single
  | cons label rest ih =>
    unfold System.singleKeyRun at keyed
    rw [and_eq_true] at keyed
    exact ih _ (single_of_step single keyed.1) keyed.2

/-- A response that may be imported is a settlement of its key, up to the id of its
request. -/
theorem exists_settlement
    (sound : Sound setting.codec system) (mem : response ∈ system.sent)
    (allowed : response.settlementImportAllowed = true) :
    ∃ settlement ∈ system.store.settlements, response.anonymous = settlement.payload ∧
      response.key = some settlement.key ∧ Committed setting.codec settlement.payload := by
  obtain ⟨settlement, there, same⟩ := sound.sent response mem allowed
  refine ⟨settlement, there, same, ?_, sound.kept.committed settlement there⟩
  rw [← sound.kept.named settlement there, ← same]
  rfl

/-- The responses about markets that are settled once are one settlement. -/
theorem settledOnce_of_single (sound : Sound setting.codec system) (single : Single system.store) :
    SettledOnce setting.codec system := by
  have once : ∀ one ∈ system.sent, ∀ other ∈ system.sent, ∀ key otherKey,
      one.settlementImportAllowed = true → other.settlementImportAllowed = true →
      one.key = some key → other.key = some otherKey → key.marketId = otherKey.marketId →
      one.anonymous = other.anonymous := by
    intro one mem other there key otherKey allowed otherAllowed named otherNamed market
    obtain ⟨settlement, stored, same, keyed, _⟩ := exists_settlement sound mem allowed
    obtain ⟨others, otherStored, otherSame, otherKeyed, _⟩ :=
      exists_settlement sound there otherAllowed
    rw [named] at keyed
    rw [otherNamed] at otherKeyed
    cases keyed
    cases otherKeyed
    rw [same, otherSame, single settlement stored others otherStored market]
  refine ⟨once, ?_⟩
  intro one mem other there key otherKey allowed otherAllowed named otherNamed market _
  have same := once one mem other there key otherKey allowed otherAllowed named otherNamed market
  have payouts : one.anonymous.payouts = other.anonymous.payouts := by rw [same]
  have denominator : one.anonymous.denominator = other.anonymous.denominator := by rw [same]
  exact ⟨payouts, denominator⟩

theorem single_opened : Single System.opened.store := by
  intro one never
  cases never

/-- Every response that may be imported was committed from a decision without
contradiction. When each decision is stored under the key that its market was settled
with, the responses about a market are one settlement. -/
theorem settled_once_of_singleKey (setting : Setting) (labels : List Label) :
    (∀ response ∈ (System.opened.run setting labels).sent, response.settlementImportAllowed = true →
      ∃ settlement ∈ (System.opened.run setting labels).store.settlements,
        response.anonymous = settlement.payload ∧ response.key = some settlement.key ∧
          Committed setting.codec settlement.payload) ∧
      (System.opened.singleKeyRun setting labels = true →
        SettledOnce setting.codec (System.opened.run setting labels)) := by
  have sound := @sound_run setting labels
  refine ⟨fun response member allowed => exists_settlement sound member allowed, ?_⟩
  intro keyed
  exact settledOnce_of_single sound (single_of_singleKeyRun labels _ single_opened keyed)

/-! ### Requests that name one key -/

/-- The key that a call works on. -/
def Phase.key : Phase → Option MarketKey
  | .checked _ key => some key
  | .missing _ key => some key
  | .admitted _ key _ => some key
  | .decided _ key _ _ => some key
  | _ => none

/-- The calls and the settlements are about some keys. -/
structure About (keys : MarketKey → Prop) (system : System) : Prop where
  calls : ∀ call phase, system.calls call = some phase → ∀ key ∈ phase.key, keys key
  settlements : ∀ settlement ∈ system.store.settlements, keys settlement.key

/-- A request names one of the keys. -/
def Label.Names (keys : MarketKey → Prop) : Label → Prop
  | .ask _ request => ∀ key ∈ request.key, keys key
  | _ => True

theorem About.settle {keys : MarketKey → Prop} (about : About keys system) (call : Nat)
    (named : ∀ key ∈ phase.key, keys key) :
    About keys (system.settle call phase) := by
  refine ⟨?_, about.settlements⟩
  intro other known there
  change Function.update system.calls call (some phase) other = some known at there
  by_cases same : other = call
  · rw [same, Function.update_self] at there
    rw [← some.inj there]
    exact named
  · rw [Function.update_of_ne same] at there
    exact about.calls other known there

theorem About.leave
    {keys : MarketKey → Prop} (about : About keys system) (binding : String) (phase : Phase) :
    About keys (system.leave binding phase) := by
  refine ⟨?_, by rw [store_leave]; exact about.settlements⟩
  have same : (system.leave binding phase).calls = system.calls := by
    unfold System.leave
    split <;> rfl
  rw [same]
  exact about.calls

theorem key_ask (store : FactStore) :
    ∀ key ∈ (ask setting store request).key, request.key = some key := by
  intro key mem
  unfold ask at mem
  split at mem
  · cases mem
  · rename_i found valid
    split at mem
    · cases mem
    · cases mem
      unfold validateRequest at valid
      obtain ⟨_, _, named, isNamed, _, _, valid⟩ := bind₃_ok.mp valid
      cases valid
      exact need_ok.mp isNamed

theorem key_look :
    ∀ other ∈ (look store request key).key, other = key := by
  intro other mem
  unfold look at mem
  split at mem <;> cases mem
  rfl

theorem key_admitRequest :
    ∀ other ∈ (admitRequest setting gate now request key).2.key, other = key := by
  intro other mem
  unfold admitRequest at mem
  split at mem
  · cases mem
  · split at mem
    · cases mem
    · split at mem
      · cases mem
      · dsimp only at mem
        split at mem <;> cases mem
        rfl

theorem key_decideCall :
    ∀ other ∈ (decideCall setting request key binding observations).key, other = key := by
  intro other mem
  unfold decideCall at mem
  split at mem
  · cases mem
  · split at mem
    · cases mem
    · dsimp only at mem
      split at mem
      · cases mem
      · split at mem
        · cases mem
        · split at mem
          · cases mem
          · split at mem <;> cases mem
            rfl

/-- A commit stores a settlement of its key at most. -/
theorem settlements_commitCall
    :
    ∀ settlement ∈ (commitCall store request key value).1.settlements,
      settlement ∈ store.settlements ∨ settlement.key = key := by
  intro settlement mem
  unfold commitCall at mem
  split at mem
  · rename_i stored after stores
    rcases finality_cases stores with ⟨_, _, _, _, rfl⟩ | ⟨_, _, _, rfl⟩ |
      ⟨decision, _, _, _, settled⟩
    · exact .inl mem
    · exact .inl mem
    · dsimp only at mem
      rw [settled] at mem
      rcases mem_append.mp mem with old | new
      · exact .inl old
      · rw [mem_singleton.mp new]
        exact .inr rfl
  · rename_i after stores
    rcases finality_cases stores with ⟨_, _, _, _, rfl⟩ | ⟨_, _, _, rfl⟩ | ⟨_, _, _, never, _⟩
    · exact .inl mem
    · exact .inl mem
    · cases never
  · exact .inl mem

theorem key_commitCall
    :
    (commitCall store request key value).2.key = none := by
  unfold commitCall
  split <;> rfl

/-- A step that names one of the keys is about them. -/
theorem About.step
    {keys : MarketKey → Prop} (about : About keys system) (names : label.Names keys) :
    About keys (system.step setting label) := by
  unfold System.step
  cases label with
  | tick elapsed => exact ⟨about.calls, about.settlements⟩
  | bind fresh rules =>
    dsimp only
    split
    · rename_i bound store binds
      refine ⟨about.calls, ?_⟩
      dsimp only
      rw [settlements_of_bindRules binds]
      exact about.settlements
    · exact about
  | ask call request =>
    dsimp only
    split
    · exact about
    · exact about.settle call fun key mem => names key (key_ask system.store key mem)
  | look call =>
    dsimp only
    split
    · rename_i request key there
      refine about.settle call fun other mem => ?_
      rw [key_look other mem]
      exact about.calls call _ there key rfl
    · exact about
  | admitRequest call =>
    dsimp only
    split
    · rename_i request key there
      have gated (gate : Gate) : About keys { system with gate } := ⟨about.calls, about.settlements⟩
      refine (gated _).settle call fun other mem => ?_
      rw [key_admitRequest other mem]
      exact about.calls call _ there key rfl
    · exact about
  | decide call observations =>
    dsimp only
    split
    · rename_i request key binding there
      refine (about.leave binding _).settle call fun other mem => ?_
      rw [key_decideCall other mem]
      exact about.calls call _ there key rfl
    · exact about
  | commit call =>
    dsimp only
    split
    · rename_i request key binding value there
      have mine := about.calls call _ there key rfl
      have stored : About keys
          { system with store := (commitCall system.store request key value).1 } := by
        refine ⟨about.calls, fun settlement mem => ?_⟩
        rcases settlements_commitCall settlement mem with old | same
        · exact about.settlements settlement old
        · rw [same]
          exact mine
      refine (stored.leave binding _).settle call fun other mem => ?_
      rw [key_commitCall] at mem
      cases mem
    · exact about
  | forget binding =>
    dsimp only
    split
    · exact ⟨about.calls, about.settlements⟩
    · exact about
  | restart =>
    refine ⟨?_, about.settlements⟩
    intro call phase never
    cases never

/-- Requests of one key to a market meet the condition at every step. -/
theorem singleKeyRun_of_about {keys : MarketKey → Prop}
    (one : ∀ key other, keys key → keys other → key.marketId = other.marketId → key = other)
    (labels : List Label) (start : System) (about : About keys start)
    (names : ∀ label ∈ labels, label.Names keys) :
    start.singleKeyRun setting labels = true := by
  induction labels generalizing start with
  | nil => rfl
  | cons label rest ih =>
    unfold System.singleKeyRun
    rw [and_eq_true]
    refine ⟨?_, ih _ (about.step (names label mem_cons_self)) fun other later =>
      names other (mem_cons_of_mem _ later)⟩
    unfold System.singleKey
    split
    · rename_i call
      split
      · rename_i request key binding value there
        rw [all_eq_true]
        intro settlement mem
        exact decide_eq_true (one _ _ (about.settlements settlement mem)
          (about.calls call _ there key rfl))
      · rfl
    · rfl

/-- When all requests for a market name one key, the responses about it are one
settlement. -/
theorem settled_once_of_requests
    (oneKey : ∀ call request other again, Label.ask call request ∈ labels →
      Label.ask other again ∈ labels → ∀ key ∈ request.key, ∀ otherKey ∈ again.key,
        key.marketId = otherKey.marketId → key = otherKey) :
    SettledOnce setting.codec (System.opened.run setting labels) := by
  let keys (key : MarketKey) : Prop :=
    ∃ call request, Label.ask call request ∈ labels ∧ key ∈ request.key
  have about : About keys System.opened := by
    refine ⟨?_, ?_⟩
    · intro call phase never
      cases never
    · intro settlement never
      cases never
  have names : ∀ label ∈ labels, label.Names keys := by
    intro label mem
    cases label with
    | ask call request => exact fun key named => ⟨call, request, mem, named⟩
    | _ => trivial
  have keyed : System.opened.singleKeyRun setting labels = true := by
    refine singleKeyRun_of_about ?_ labels System.opened about names
    rintro key other ⟨call, request, asked, named⟩ ⟨_, again, askedAgain, otherNamed⟩ market
    exact oneKey call request _ again asked askedAgain key named other otherNamed market
  exact settledOnce_of_single (sound_run labels) (single_of_singleKeyRun labels _ single_opened keyed)

end Runs

/-! ## Two revisions of the rules -/

section Sample

/-- Reads the two times of the sample's window. -/
def sampleCodec : Codec where
  parse _ := none
  parseExact _ := none
  text _ := "0"
  rfc3339 text :=
    if text = "2026-01-01T00:00:00Z" then some 1767225600000000000
    else if text = "2026-01-01T00:05:00Z" then some 1767225900000000000
    else none

/-- A condition. -/
def sampleHash : String := "0x0000000000000000000000000000000000000000000000000000000000000001"

/-- A contract. -/
def sampleAddress : String := "0x0000000000000000000000000000000000000001"

/-- A provider that is its own operator. -/
def sampleProvider (name : String) : Provider where
  providerId := name
  operatorId := name
  failureDomain := name
  chainId := "137"
  contract := sampleAddress
  collateral := sampleAddress
  deploymentCode := some [1]

/-- Two providers and room for one call. -/
def sampleSetting : Setting where
  codec := sampleCodec
  first := sampleProvider "a"
  second := sampleProvider "b"
  clients := 1
  requestTimeout := 5000
  retryAfter := 10000

/-- Rules that differ in their description only. -/
def sampleRules (description : String) : RulesRecord where
  identity := none
  marketId := "1"
  conditionId := sampleHash
  windowId := "window"
  startAt := "2026-01-01T00:00:00Z"
  endAt := "2026-01-01T00:05:00Z"
  upTokenId := "1"
  downTokenId := "2"
  description
  resolutionSource := "source"
  resolution := none
  evidence := []

/-- The key of the market under a revision of its rules. -/
def sampleKey (revision : Nat) : MarketKey where
  marketId := "1"
  conditionId := sampleHash
  windowId := "window"
  startAt := "2026-01-01T00:00:00Z"
  endAt := "2026-01-01T00:05:00Z"
  upTokenId := "1"
  downTokenId := "2"
  rules := some ⟨"rules", revision⟩

/-- A provider says how the market was settled. -/
def sampleAnswer (up down : String) : Json :=
  .object [("block", .object [("number", .string "0x1"), ("timestamp", .string "0x1"),
      ("hash", .string sampleHash)]),
    ("observed_at", .string "2026-01-01T00:05:00Z"), ("payout_denominator", .string "1"),
    ("payout_numerators", .array [.string up, .string down]),
    ("standard_ctf_token_binding_verified", .bool true)]

/-- One of the providers answers in time. -/
def sampleObservations (first second : Except Bool Json) : Observations where
  configurations := some (⟨"configuration", 1⟩, ⟨"configuration", 2⟩)
  first
  second
  now := some 1
  identity := some ⟨"finality", 1⟩

/-- A request from its start to its answer. -/
def sampleCall (call revision : Nat) (observations : Observations) : List Label :=
  [.ask call ⟨"request", some (sampleKey revision)⟩, .look call, .admitRequest call,
    .decide call observations, .commit call]

/-- The rules are bound, and the first provider's answer settles the market. -/
def firstSettlement : List Label :=
  .bind "rules" (sampleRules "first") ::
    sampleCall 0 1 (sampleObservations (.ok (sampleAnswer "1" "0")) (.error true))

/-- The rules get a new revision, and the other provider answers another way. -/
def secondSettlement : List Label :=
  [.forget (bindingKey (sampleKey 1)), .tick 10000, .bind "rules" (sampleRules "second")] ++
    sampleCall 1 2 (sampleObservations (.error true) (.ok (sampleAnswer "0" "1")))

/-- A market is settled twice, in opposite ways. -/
theorem settled_twice :
    (System.opened.run sampleSetting (firstSettlement ++ secondSettlement)).sent.map
        (fun response => (response.settlementImportAllowed,
          response.key.map fun key => (key.marketId, key.conditionId),
          response.payouts.map TokenPayout.numerator)) =
      [(true, some ("1", sampleHash), ["1", "0"]), (true, some ("1", sampleHash), ["0", "1"])] := by
  decide +kernel

/-- A market is settled once under one revision. -/
theorem settled_once_of_singleKey_first :
    SettledOnce sampleCodec (System.opened.run sampleSetting
      (firstSettlement ++ sampleCall 1 1 (sampleObservations (.error true) (.error true)))) :=
  (settled_once_of_singleKey sampleSetting
    (firstSettlement ++ sampleCall 1 1 (sampleObservations (.error true) (.error true)))).2
    (by decide +kernel)

end Sample

end MarketCow.Finality
