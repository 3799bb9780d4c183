import Enfold.Foundation.Timeline
import Enfold.StateUniqueness
import Enfold.Temporal

/-! The transaction-time axis of typed state: what a reader at an earlier instant finds, against what
the slot held then. -/
namespace Enfold

open Fallible

variable {rt : Runtime} {l l' : Ledger} {now inserted : String}

/-! ## What one operation does to a fact -/

-- what is left of a fact: untouched as far as belief goes, or no longer current from `now` on
structure Turned (now : String) (f g : Fact) : Prop where
  id : g.factId = f.factId
  created : g.createdAt = f.createdAt
  state : g.isState = f.isState
  slot : ∀ scope subjectKey predicateKey,
    g.inSlot scope subjectKey predicateKey = f.inSlot scope subjectKey predicateKey
  fate : (g.current = f.current ∧ g.expiredAt = f.expiredAt) ∨
    (f.current = true ∧ g.current = false ∧ g.expiredAt = some now)

theorem turnedSame (f : Fact) : Turned now f f := ⟨rfl, rfl, rfl, fun _ _ _ => rfl, .inl ⟨rfl, rfl⟩⟩

-- a new value of a slot
structure Fact.Fresh (inserted : String) (g : Fact) : Prop where
  created : g.createdAt = inserted
  state : g.isState = true
  current : g.current = true
  unexpired : g.expiredAt = none

structure Turns (l l' : Ledger) (now inserted : String) : Prop where
  kept : ∀ f ∈ l.facts, ∃ g ∈ l'.facts, Turned now f g
  source : ∀ g ∈ l'.facts, (∃ f ∈ l.facts, Turned now f g) ∨ g.Fresh inserted
  heir : ∀ f ∈ l.facts, f.current = true → ∃ g ∈ l'.facts, g.isState = true ∧ g.current = true ∧
    ∀ scope subjectKey predicateKey,
      g.inSlot scope subjectKey predicateKey = f.inSlot scope subjectKey predicateKey

theorem turnsSame (states : ∀ f ∈ l.facts, f.isState = true) (facts : l'.facts = l.facts) :
    Turns l l' now inserted where
  kept f hf := ⟨f, facts ▸ hf, turnedSame f⟩
  source g hg := .inl ⟨g, facts ▸ hg, turnedSame g⟩
  heir f hf current := ⟨f, facts ▸ hf, states f hf, current, fun _ _ _ => rfl⟩

theorem turnsMap {m : Fact → Fact} {fresh : List Fact} (states : ∀ f ∈ l.facts, f.isState = true)
    (facts : l'.facts = l.facts.map m ++ fresh) (turned : ∀ f ∈ l.facts, Turned now f (m f))
    (new : ∀ g ∈ fresh, g.Fresh inserted)
    (heir : ∀ f ∈ l.facts, f.current = true → (m f).current = false →
      ∃ g ∈ l'.facts, g.isState = true ∧ g.current = true ∧ ∀ scope subjectKey predicateKey,
        g.inSlot scope subjectKey predicateKey = f.inSlot scope subjectKey predicateKey) :
    Turns l l' now inserted where
  kept f hf := by
    refine ⟨m f, ?_, turned f hf⟩
    rw [facts]
    exact List.mem_append_left _ (List.mem_map_of_mem hf)
  source g hg := by
    rw [facts] at hg
    rcases List.mem_append.mp hg with hg | hg
    · obtain ⟨f, hf, rfl⟩ := List.mem_map.mp hg
      exact .inl ⟨f, hf, turned f hf⟩
    · exact .inr (new g hg)
  heir f hf current := by
    have same := turned f hf
    cases stays : (m f).current with
    | false => exact heir f hf current stays
    | true =>
      refine ⟨m f, ?_, same.state.trans (states f hf), stays, same.slot⟩
      rw [facts]
      exact List.mem_append_left _ (List.mem_map_of_mem hf)

theorem slotsAlike {f g : Fact} {scope subjectKey predicateKey : String}
    (left : f.inSlot scope subjectKey predicateKey = true)
    (right : g.inSlot scope subjectKey predicateKey = true) (a b c : String) :
    g.inSlot a b c = f.inSlot a b c := by
  simp only [Fact.inSlot, Bool.and_eq_true, decide_eq_true_eq] at left right
  simp only [Fact.inSlot, left, right]

theorem typedFresh {request : WriteRequest} {effective : StateCandidate} {conflictId : Option Nat}
    {confidence : Option Rat} {factId : Nat} {clock : Clock} (endless : effective.validTo = none) :
    (request.typed effective conflictId confidence factId clock).Fresh clock.insertedAt where
  created := rfl
  state := rfl
  current := by simp [WriteRequest.typed, Fact.persistState, WriteRequest.row, Fact.current, endless]
  unexpired := rfl

/-! ## Resolutions -/

section Resolved
variable {conflictId winner : Nat} {row : Conflict} {w : Fact} {losers : List Nat}
  {validTo : Option String}

theorem resolvedTurned (sound : l.Sound) {f : Fact} (hf : f ∈ l.facts) :
    Turned now f (f.resolved now conflictId winner losers validTo) := by
  unfold Fact.resolved
  split
  · exact ⟨rfl, rfl, rfl, fun _ _ _ => rfl, .inl ⟨rfl, rfl⟩⟩
  · split
    · rename_i loses
      simp only [Fact.losesTo, Bool.and_eq_true, Option.isNone_iff_eq_none] at loses
      have valid := loses.2
      have unreplaced : f.supersededBy = none := by
        cases replaced : f.supersededBy with
        | none => rfl
        | some k =>
          have invalid := (sound.timed f hf).replaced (by rw [replaced]; rfl)
          rw [valid] at invalid
          cases invalid
      refine ⟨rfl, rfl, rfl, fun _ _ _ => rfl, .inr ⟨?_, ?_, rfl⟩⟩
      · simp [Fact.current, valid, unreplaced]
      · simp [Fact.lose, Fact.current]
    · exact turnedSame f

theorem winnerSlot (sound : l.Sound) (resolves : Resolves l conflictId winner row w) {f : Fact}
    (hf : f ∈ l.facts) (states : f.isState = true ∧ w.isState = true) (current : f.current = true)
    (group : f.conflictGroup = some conflictId) (a b c : String) : w.inSlot a b c = f.inSlot a b c := by
  obtain ⟨⟨r, hr, id, -, covers⟩, -⟩ := sound.filed f hf current conflictId group
  obtain ⟨⟨r', hr', id', -, covers'⟩, -⟩ :=
    sound.filed w resolves.factMem resolves.current conflictId resolves.group
  have same : r' = r := Table.uniqueEq sound.conflictIds hr' hr (id'.trans id.symm)
  subst same
  have keys := covers.slot states.1
  have keys' := covers'.slot states.2
  simp only [Fact.inSlot, ← covers.scope, ← covers'.scope, keys, keys']

theorem resolvedHeir (sound : l.Sound) (resolves : Resolves l conflictId winner row w)
    (states : ∀ f ∈ l.facts, f.isState = true) {f : Fact} (hf : f ∈ l.facts)
    (current : f.current = true)
    (gone : (f.resolved now conflictId winner losers validTo).current = false) :
    let heir := w.resolved now conflictId winner losers validTo
    heir.isState = true ∧ heir.current = true ∧ ∀ a b c, heir.inSlot a b c = f.inSlot a b c := by
  have won : w.resolved now conflictId winner losers validTo = { w with conflictGroup := none } := by
    rw [Fact.resolved, if_pos resolves.factId]
  have group : f.conflictGroup = some conflictId := by
    unfold Fact.resolved at gone
    split at gone
    · rw [show ({ f with conflictGroup := none } : Fact).current = f.current from rfl, current] at gone
      cases gone
    · split at gone
      · rename_i loses
        simp only [Fact.losesTo, Bool.and_eq_true, decide_eq_true_eq] at loses
        exact loses.1.2
      · rw [current] at gone
        cases gone
  rw [won]
  exact ⟨states w resolves.factMem, resolves.current,
    winnerSlot sound resolves hf ⟨states f hf, states w resolves.factMem⟩ current group⟩

theorem turnsResolve (sound : l.Sound) (resolves : Resolves l conflictId winner row w)
    (states : ∀ f ∈ l.facts, f.isState = true) {resolvedBy reason : String} :
    Turns l (l.resolve conflictId winner validTo resolvedBy reason now) now inserted := by
  have facts : (l.resolve conflictId winner validTo resolvedBy reason now).facts =
      l.facts.map (Fact.resolved now conflictId winner
        ((l.memberIds conflictId).filter (· ≠ winner)) validTo) ++ [] := (List.append_nil _).symm
  refine turnsMap states facts (fun f hf => resolvedTurned sound hf) (fun g hg => by cases hg) ?_
  intro f hf current gone
  obtain ⟨state, alive, slot⟩ := resolvedHeir sound resolves states hf current gone
  exact ⟨_, List.mem_map_of_mem resolves.factMem, state, alive, slot⟩

end Resolved

/-! ## Typed writes -/

theorem turnsTyped {context : ConnectionContext} {request : WriteRequest} {slot : SlotDecision}
    {effective : StateCandidate} {confidence : Option Rat} {clock : Clock} (sound : l.Sound)
    (states : ∀ f ∈ l.facts, f.isState = true) (endless : effective.validTo = none)
    (decided : SlotCase rt l effective slot)
    (effect : StateEffect rt l context request slot effective confidence clock l') :
    Turns l l' clock.recordedAt clock.insertedAt := by
  have fresh : ∀ {conflictId factId}, ∀ g ∈ [request.typed effective conflictId confidence factId clock],
      g.Fresh clock.insertedAt := by
    intro conflictId factId g hg
    rw [List.mem_singleton.mp hg]
    exact typedFresh endless
  cases effect with
  | evidence => exact turnsSame states rfl
  | add =>
    refine turnsMap (m := id) states (by rw [List.map_id]; rfl) (fun f _ => turnedSame f) fresh ?_
    intro f _ current gone
    rw [id, current] at gone
    cases gone
  | @replace target f action aimed mem id inScope current calm free =>
    have only : ∀ g ∈ l.facts, g.factId = target → g = f := fun g hg same =>
      Table.uniqueEq sound.factIds hg mem (same.trans id.symm)
    refine turnsMap (m := fun g => if decide (g.factId = target) then
      g.outdate clock.recordedAt effective.validFrom l.nextFactId else g) states rfl ?_ fresh ?_
    · intro g hg
      by_cases hit : g.factId = target
      · rw [if_pos (decide_eq_true hit), only g hg hit]
        refine ⟨rfl, rfl, rfl, fun _ _ _ => rfl, .inr ⟨current, ?_, rfl⟩⟩
        simp [Fact.outdate, Fact.close, Fact.current]
      · rw [if_neg (by simpa using hit)]
        exact turnedSame g
    · intro g hg alive gone
      by_cases hit : g.factId = target
      · -- the decision aimed at a value of the candidate's own slot
        have inSlot : f.inSlot effective.scope effective.subjectKey effective.predicateKey = true := by
          cases decided with
          | add calm add => rw [add] at action; cases action
          | dedup calm dedup => rw [dedup] at action; cases action
          | contested dispute ids act => simp [aimed, action] at act
          | against calm novel meets ids act =>
            obtain ⟨hold, -, inside, -⟩ := overlappingSource meets
            rcases act with ⟨-, here⟩ | ⟨conflict, -⟩ | ⟨-, wide, -⟩
            · rw [aimed] at here
              rw [← only _ hold (Option.some.inj here).symm]
              exact inside
            · rw [action] at conflict
              cases conflict
            · rw [aimed] at wide
              cases wide
        rw [only g hg hit]
        exact ⟨_, List.mem_append_right _ List.mem_cons_self, rfl, (typedFresh endless).current,
          slotsAlike inSlot typedSlot⟩
      · rw [if_neg (by simpa using hit), alive] at gone
        cases gone
  | dispute =>
    refine turnsMap states rfl ?_ fresh ?_
    · intro g _
      split
      · exact ⟨rfl, rfl, rfl, fun _ _ _ => rfl, .inl ⟨rfl, rfl⟩⟩
      · exact turnedSame g
    · intro g _ alive gone
      split at gone
      · rw [show (g.dispute l.nextConflictId).current = g.current from rfl, alive] at gone
        cases gone
      · rw [alive] at gone
        cases gone
  | join =>
    refine turnsMap (m := id) states (by rw [List.map_id]; rfl) (fun f _ => turnedSame f) fresh ?_
    intro f _ current gone
    rw [id, current] at gone
    cases gone
  | @settle conflictId row _ _ action one wide mem id unresolved fits _ _ resolved =>
    have joined := sound.joined decided (.inr action) one mem id unresolved fits endless
    obtain ⟨row', w, resolves, -, -, rfl, -⟩ := resolveStateConflictSource joined.toKeyed resolved
    have all : ∀ f ∈ ((l.insert (request.typed effective (some conflictId) confidence l.nextFactId
        clock)).join ⟨conflictId, l.nextFactId⟩).facts, f.isState = true := by
      intro f hf
      rcases List.mem_append.mp hf with hf | hf
      · exact states f hf
      · rw [List.mem_singleton.mp hf]
        rfl
    refine turnsMap states List.map_append
      (fun f hf => resolvedTurned joined (List.mem_append_left _ hf)) ?_ ?_
    · intro g hg
      have own : (request.typed effective (some conflictId) confidence l.nextFactId clock).factId =
        l.nextFactId := rfl
      rw [List.map_singleton, List.mem_singleton, Fact.resolved, if_pos own] at hg
      rw [hg]
      have new : (request.typed effective (some conflictId) confidence l.nextFactId clock).Fresh
        clock.insertedAt := typedFresh endless
      exact ⟨new.created, new.state, new.current, new.unexpired⟩
    · intro f hf current gone
      obtain ⟨state, alive, inSlot⟩ := resolvedHeir joined resolves all (List.mem_append_left _ hf)
        current gone
      exact ⟨_, List.mem_map_of_mem resolves.factMem, state, alive, inSlot⟩

/-! ## Operations -/

section Operations
variable {s t : Store} {o : Operation rt}

namespace Operation

-- the clock reading an operation stamps its changes with
def recordedAt : Operation rt → String
  | .write _ _ timed => timed.clock.recordedAt
  | .writeBatch .. => ""
  | .resolveConflict _ _ _ _ _ resolvedAt _ => resolvedAt
  | .eraseFact _ _ _ erasedAt => erasedAt
  | .mergeClusters .. => ""
  | .storeEmbedding .. => ""

def instant (o : Operation rt) : Int := (parseClock rt (some o.recordedAt)).getD 0

-- a typed-state write with open-ended validity, or a resolution, at a readable time
structure TypedOpen (o : Operation rt) : Prop where
  kind : (∃ svc context timed c, o = .write svc context timed ∧ timed.item.candidate = some c ∧
      c.validTo = none) ∨
    ∃ svc context conflictId factId reason resolvedAt queuedAt,
      o = .resolveConflict svc context conflictId factId reason resolvedAt queuedAt
  read : parseClock rt (some o.recordedAt) = some o.instant

-- the fact is stamped at the instant the write is
def Prompt : Operation rt → Prop
  | .write _ _ timed =>
    parseClock rt (some timed.clock.insertedAt) = parseClock rt (some timed.clock.recordedAt)
  | _ => True

def insertedAt : Operation rt → String
  | .write _ _ timed => timed.clock.insertedAt
  | o => o.recordedAt

end Operation

theorem performTurns (sound : s.toLedger.Sound) (states : ∀ f ∈ s.facts, f.isState = true)
    (typed : o.TypedOpen) (done : o.perform s = .ok t) :
    Turns s.toLedger t.toLedger o.recordedAt o.insertedAt := by
  rcases typed.kind with ⟨svc, context, timed, c, rfl, given, endless⟩ |
      ⟨svc, context, conflictId, factId, reason, resolvedAt, queuedAt, rfl⟩
  · simp only [Operation.perform, bindOk, Prod.exists] at done
    obtain ⟨u, outcome, written, last⟩ := done
    cases last
    obtain ⟨effective, query, granted, prepared, stepped⟩ := writeStep written
    obtain ⟨extracted, valid, fields, ran⟩ := batchStepSource (authorizeTwice granted).2 stepped
    have effect := transactEffect sound.toKeyed ran
    generalize t.toLedger = l at effect ⊢
    cases effect with
    | same => exact turnsSame states rfl
    | untyped _ bare =>
      rw [given] at bare
      cases bare
    | typed _ given' judged effect =>
      rw [given] at given'
      cases given'
      simp only [given] at judged valid
      obtain ⟨shape, -, -, -, -, -, decided⟩ := typedCase (timed.item.candidateBuilt c given) valid judged
      have endless' := (congrArg StateCandidate.validTo shape).trans endless
      exact turnsTyped sound states endless' decided effect
  · simp only [Operation.perform, bindOk, Prod.exists] at done
    obtain ⟨effective, -, u, resolution, resolved, last⟩ := done
    cases last
    obtain ⟨clients, sessions, resolutions, jobs, l, settled, rfl⟩ := resolveConflictSource resolved
    obtain ⟨row, w, resolves, -, -, rfl, -⟩ := resolveStateConflictSource sound.toKeyed settled
    exact turnsResolve sound resolves states

/-! ## Reading back -/

-- believed since an instant, and current or expired since another, both up to the bound
structure Fact.Settled (rt : Runtime) (bound : Int) (f : Fact) : Prop where
  state : f.isState = true
  created : ∃ born, parseClock rt (some f.createdAt) = some born ∧ born ≤ bound
  believed : (f.current = true ∧ f.expiredAt = none) ∨
    (f.current = false ∧ ∃ died, parseClock rt f.expiredAt = some died ∧ died ≤ bound)

structure Store.SettledBy (rt : Runtime) (s : Store) (bound : Int) : Prop where
  sound : s.toLedger.Sound
  facts : ∀ f ∈ s.facts, f.Settled rt bound

section Slot
variable (scope subjectKey predicateKey : String)

def Store.holds (s : Store) (factId : Nat) : Prop :=
  ∃ f ∈ s.toLedger.holders scope subjectKey predicateKey, f.factId = factId

def Store.finds (rt : Runtime) (s : Store) (point : Int) (factId : Nat) : Prop :=
  ∃ f ∈ s.facts, f.isState = true ∧ f.inSlot scope subjectKey predicateKey = true ∧
    f.txMatches rt point = true ∧ f.factId = factId

end Slot

theorem settledSeen {f : Fact} {bound point : Int} (settled : f.Settled rt bound) :
    f.txMatches rt point = true ↔
      (∀ born, parseClock rt (some f.createdAt) = some born → born ≤ point) ∧
      (f.current = true ∨ ∀ died, parseClock rt f.expiredAt = some died → point < died) := by
  obtain ⟨born, created, -⟩ := settled.created
  have reads : parseClock rt none = none := rfl
  rcases settled.believed with ⟨current, unexpired⟩ | ⟨current, died, expired, -⟩
  · have valid := currentValid current
    simp [Fact.txMatches, created, unexpired, reads, valid.2, current]
  · simp [Fact.txMatches, created, expired, current]

theorem Fact.Settled.turned {f g : Fact} {bound stamp : Int} (settled : f.Settled rt bound)
    (turned : Turned now f g) (read : parseClock rt (some now) = some stamp) (le : bound ≤ stamp) :
    g.Settled rt stamp := by
  obtain ⟨state, ⟨born, created, before⟩, believed⟩ := settled
  refine ⟨turned.state.trans state, ⟨born, by rw [turned.created, created], before.trans le⟩, ?_⟩
  rcases turned.fate with ⟨current, expired⟩ | ⟨-, gone, expired⟩
  · rw [current, expired]
    rcases believed with alive | ⟨gone, died, read', before'⟩
    · exact .inl alive
    · exact .inr ⟨gone, died, read', before'.trans le⟩
  · exact .inr ⟨gone, stamp, by rw [expired, read], le_refl _⟩

theorem Turned.seen {f g : Fact} {bound bound' stamp point : Int} (turned : Turned now f g)
    (settled : f.Settled rt bound) (settled' : g.Settled rt bound')
    (read : parseClock rt (some now) = some stamp) (late : point < stamp) :
    g.txMatches rt point = true ↔ f.txMatches rt point = true := by
  rw [settledSeen settled, settledSeen settled', turned.created]
  refine and_congr_right fun _ => ?_
  rcases turned.fate with ⟨current, expired⟩ | ⟨alive, gone, expired⟩
  · rw [current, expired]
  · have later : ∀ died, parseClock rt g.expiredAt = some died → point < died := by
      intro died found
      rw [expired, read] at found
      cases found
      exact late
    exact ⟨fun _ => .inl alive, fun _ => .inr later⟩

theorem insertedRead (typed : o.TypedOpen) (prompt : o.Prompt) :
    parseClock rt (some o.insertedAt) = some o.instant := by
  rcases typed.kind with ⟨svc, context, timed, c, rfl, -, -⟩ |
      ⟨svc, context, conflictId, factId, reason, resolvedAt, queuedAt, rfl⟩
  · exact Eq.trans prompt typed.read
  · exact typed.read

theorem typedKeeps (typed : o.TypedOpen) : o.isMerge = false := by
  rcases typed.kind with ⟨svc, context, timed, c, rfl, -, -⟩ |
      ⟨svc, context, conflictId, factId, reason, resolvedAt, queuedAt, rfl⟩
  · rfl
  · rfl

theorem readsBack (scope subjectKey predicateKey : String) :
    Timeline.Reads (fun o : Operation rt => o.TypedOpen ∧ o.Prompt) (Run.attempt Operation.perform)
      Operation.instant (Store.holds scope subjectKey predicateKey)
      (Store.finds scope subjectKey predicateKey rt) (Store.SettledBy rt) where
  mono {s a b} settled le := by
    refine ⟨settled.sound, fun f hf => ?_⟩
    obtain ⟨state, ⟨born, created, before⟩, believed⟩ := settled.facts f hf
    refine ⟨state, ⟨born, created, before.trans le⟩, ?_⟩
    rcases believed with alive | ⟨current, died, expired, before'⟩
    · exact .inl alive
    · exact .inr ⟨current, died, expired, before'.trans le⟩
  agrees {s b t i} settled le := by
    constructor
    · rintro ⟨f, hf, state, inSlot, seen, id⟩
      have facts := settled.facts f hf
      have current : f.current = true := by
        rcases facts.believed with ⟨current, -⟩ | ⟨-, died, expired, before⟩
        · exact current
        · rcases ((settledSeen facts).mp seen).2 with current | alive
          · exact current
          · have later := alive died expired
            omega
      exact ⟨f, List.mem_filter.mpr ⟨hf, by simp [state, inSlot, current]⟩, id⟩
    · rintro ⟨f, hf, id⟩
      obtain ⟨mem, state, inSlot, current⟩ := holdersSource hf
      have facts := settled.facts f mem
      refine ⟨f, mem, state, inSlot, (settledSeen facts).mpr ⟨fun born created => ?_, .inl current⟩, id⟩
      obtain ⟨born', created', before⟩ := facts.created
      rw [created] at created'
      cases created'
      omega
  keeps {s o b} kind settled le := by
    refine Run.attemptInvariant (P := fun t : Store => Store.SettledBy rt t o.instant)
      (fun t done => ?_) ?_
    · have turns := performTurns settled.sound (fun f hf => (settled.facts f hf).state) kind.1 done
      refine ⟨performSound (typedKeeps kind.1) done settled.sound, fun g hg => ?_⟩
      rcases turns.source g hg with ⟨f, hf, turned⟩ | fresh
      · exact (settled.facts f hf).turned turned kind.1.read le
      · refine ⟨fresh.state, ⟨o.instant, ?_, le_refl _⟩, .inl ⟨fresh.current, fresh.unexpired⟩⟩
        rw [fresh.created]
        exact insertedRead kind.1 kind.2
    · refine ⟨settled.sound, fun f hf => ?_⟩
      exact (settled.facts f hf).turned (turnedSame f) kind.1.read le
  spares {s o b t i} kind settled le late := by
    unfold Run.attempt
    split
    · rename_i u done
      have turns := performTurns settled.sound (fun f hf => (settled.facts f hf).state) kind.1 done
      constructor
      · rintro ⟨g, hg, state, inSlot, seen, id⟩
        rcases turns.source g hg with ⟨f, hf, turned⟩ | fresh
        · have settled' := (settled.facts f hf).turned turned kind.1.read le
          have before := (turned.seen (settled.facts f hf) settled' kind.1.read late).mp seen
          exact ⟨f, hf, turned.state.symm.trans state, (turned.slot _ _ _).symm.trans inSlot, before,
            turned.id.symm.trans id⟩
        · -- a fact of the operation itself was not yet created
          have settled' : g.Settled rt o.instant := ⟨fresh.state,
            ⟨o.instant, fresh.created ▸ insertedRead kind.1 kind.2, le_refl _⟩,
            .inl ⟨fresh.current, fresh.unexpired⟩⟩
          have created := ((settledSeen settled').mp seen).1 o.instant
            (fresh.created ▸ insertedRead kind.1 kind.2)
          omega
      · rintro ⟨f, hf, state, inSlot, seen, id⟩
        obtain ⟨g, hg, turned⟩ := turns.kept f hf
        have settled' := (settled.facts f hf).turned turned kind.1.read le
        exact ⟨g, hg, turned.state.trans state, (turned.slot _ _ _).trans inSlot,
          (turned.seen (settled.facts f hf) settled' kind.1.read late).mpr seen, turned.id.trans id⟩
    · exact Iff.rfl

theorem slotStaysHeld {scope subjectKey predicateKey : String} {ops : List (Operation rt)} {b : Int}
    (kind : ∀ o ∈ ops, o.TypedOpen ∧ o.Prompt) (ordered : (ops.map Operation.instant).Pairwise (· ≤ ·))
    (bound : ∀ o ∈ ops, b ≤ o.instant) (settled : s.SettledBy rt b)
    (held : ∃ id, s.holds scope subjectKey predicateKey id) :
    ∃ id, (Run.run Operation.perform s ops).holds scope subjectKey predicateKey id := by
  induction ops generalizing s b with
  | nil => exact held
  | cons o rest ih =>
    have first := kind o List.mem_cons_self
    have le := bound o List.mem_cons_self
    have settled' := (readsBack scope subjectKey predicateKey).keeps first settled le
    rw [List.map_cons, List.pairwise_cons] at ordered
    refine ih (fun p inside => kind p (List.mem_cons_of_mem _ inside)) ordered.2
      (fun p inside => ordered.1 _ (List.mem_map_of_mem inside)) settled' ?_
    unfold Run.attempt
    split
    · rename_i u done
      have turns := performTurns settled.sound (fun f hf => (settled.facts f hf).state) first.1 done
      obtain ⟨id, f, hf, -⟩ := held
      obtain ⟨mem, state, inSlot, current⟩ := holdersSource hf
      obtain ⟨g, hg, state', current', slot⟩ := turns.heir f mem current
      exact ⟨g.factId, g, List.mem_filter.mpr ⟨hg, by simp [state', current', slot, inSlot]⟩, rfl⟩
    · exact held

theorem settledEmpty (b : Int) : Store.empty.SettledBy rt b := ⟨soundEmpty, fun _ hf => absurd hf List.not_mem_nil⟩

end Operations

/-! ## Snapshots -/

/-- A transaction-time snapshot at `point`: the facts found are the current ones of the slot after
the operations recorded by then; they are one value or the parties of one dispute, and a slot that
had a value before still has one. -/
theorem transactionSnapshots {ops : List (Operation rt)} (typed : ∀ o ∈ ops, o.TypedOpen)
    (ordered : (ops.map Operation.instant).Pairwise (· ≤ ·)) (prompt : ∀ o ∈ ops, o.Prompt)
    {asOf : String} {point : Int} (read : parseClock rt (some asOf) = some point)
    (scope subjectKey predicateKey : String) :
    let before := ops.takeWhile fun o => o.instant ≤ point
    (∀ factId, (∃ f ∈ (history ops).facts, f.isState = true ∧
        f.inSlot scope subjectKey predicateKey = true ∧ rowMatchesAsOf rt f none (some asOf) = true ∧
        f.factId = factId) ↔
      ∃ f ∈ (history before).toLedger.holders scope subjectKey predicateKey, f.factId = factId) ∧
    (history before).toLedger.SlotUnique scope subjectKey predicateKey ∧
    ∀ pre post, before = pre ++ post → (history pre).toLedger.holders scope subjectKey predicateKey ≠ [] →
      (history before).toLedger.holders scope subjectKey predicateKey ≠ [] := by
  have kind : ∀ o ∈ ops, o.TypedOpen ∧ o.Prompt := fun o inside => ⟨typed o inside, prompt o inside⟩
  have reads := @readsBack rt scope subjectKey predicateKey
  have taken : ∀ o ∈ ops.takeWhile (fun o => decide (o.instant ≤ point)), o ∈ ops :=
    fun o inside => (List.takeWhile_sublist _).subset inside
  refine ⟨fun factId => ?_, ?_, ?_⟩
  · have snapshot := reads.snapshot (t := point) (i := factId) kind ordered settledEmpty
    have whole : ∀ f : Fact, rowMatchesAsOf rt f none (some asOf) = f.txMatches rt point := by
      intro f
      simp [rowMatchesAsOf, read]
    simp only [whole]
    exact snapshot
  · exact (historySound fun o inside => typedKeeps (typed o (taken o inside))).slotUnique
  · intro pre post shape held
    have parts : ∀ o ∈ pre ++ post, o ∈ ops := fun o inside => taken o (shape ▸ inside)
    have order : ((pre ++ post).map Operation.instant).Pairwise (· ≤ ·) := by
      rw [← shape]
      exact ordered.sublist ((List.takeWhile_sublist _).map _)
    rw [List.map_append, List.pairwise_append] at order
    obtain ⟨f, hf⟩ := List.exists_mem_of_ne_nil _ held
    have kindPre : ∀ o ∈ pre, o.TypedOpen ∧ o.Prompt := fun o inside =>
      kind o (parts o (List.mem_append_left _ inside))
    have kindPost : ∀ o ∈ post, o.TypedOpen ∧ o.Prompt := fun o inside =>
      kind o (parts o (List.mem_append_right _ inside))
    have run : history (pre ++ post) = Run.run Operation.perform (history pre) post := Run.runAppend
    rw [shape, run]
    cases post with
    | nil => exact held
    | cons o rest =>
      have settled := reads.settled (b := o.instant) kindPre order.1 settledEmpty fun p inside =>
        order.2.2 _ (List.mem_map_of_mem inside) _ (List.mem_map_of_mem List.mem_cons_self)
      have bound : ∀ p ∈ o :: rest, o.instant ≤ p.instant := by
        intro p inside
        rcases List.mem_cons.mp inside with rfl | inside
        · exact le_refl _
        · rw [List.map_cons, List.pairwise_cons] at order
          exact order.2.1.1 _ (List.mem_map_of_mem inside)
      obtain ⟨id, g, hg, -⟩ := slotStaysHeld kindPost order.2.1 bound settled ⟨f.factId, f, hf, rfl⟩
      exact List.ne_nil_of_mem hg

namespace Example

def started : String := "2026-01-05T00:00:00.000000+00:00"
def finished : String := "2026-01-05T00:00:00.001000+00:00"

def ticking : Runtime :=
  { Runtime.plain with
    fromisoformat := fun text =>
      if text = started then some ⟨civilDays 2026 1 5 * 86400000000, some 0⟩
      else if text = finished then some ⟨civilDays 2026 1 5 * 86400000000 + 1000, some 0⟩
      else calendarDate text }

def settledIn : TimedWrite ticking where
  clock := .at "2026-01-03"
  item := {
    request := { WriteRequest.plain "k1" "Alex is in Lima" "user" with sourceAuthority := 4 / 5 }
    candidate := some ⟨"Alex is in Lima", "person:alex", "timezone", some "Lima", 4 / 5,
      some "2026-01-01", "state", "private", none⟩
    requestBuilt := limaBuilt
    candidateBuilt := by decide +kernel }

def movedOn : TimedWrite ticking where
  clock := ⟨started, finished, finished, finished⟩
  item := {
    request := { WriteRequest.plain "k2" "Alex is in Oslo" "user" with sourceAuthority := 4 / 5 }
    candidate := some ⟨"Alex is in Oslo", "person:alex", "timezone", some "Oslo", 4 / 5,
      some "2026-01-02", "state", "private", none⟩
    requestBuilt := osloBuilt
    candidateBuilt := by decide +kernel }

def relocated : List (Operation ticking) :=
  [.write trusted caller settledIn, .write trusted caller movedOn]

theorem relocatedTyped : ∀ o ∈ relocated, o.TypedOpen := by
  intro o ho
  simp only [relocated, List.mem_cons, List.not_mem_nil, or_false] at ho
  rcases ho with rfl | rfl
  · exact ⟨.inl ⟨_, _, _, _, rfl, rfl, rfl⟩, by decide +kernel⟩
  · exact ⟨.inl ⟨_, _, _, _, rfl, rfl, rfl⟩, by decide +kernel⟩

def movedPromptly : TimedWrite ticking where
  clock := .at "2026-01-05"
  item := {
    request := { WriteRequest.plain "k2" "Alex is in Oslo" "user" with sourceAuthority := 4 / 5 }
    candidate := some ⟨"Alex is in Oslo", "person:alex", "timezone", some "Oslo", 4 / 5,
      some "2026-01-02", "state", "private", none⟩
    requestBuilt := osloBuilt
    candidateBuilt := by decide +kernel }

def relocatedPromptly : List (Operation ticking) :=
  [.write trusted caller settledIn, .write trusted caller movedPromptly]

/-- Between the two writes the value since replaced is found. -/
theorem transactionSnapshotsHere :
    let before := relocatedPromptly.takeWhile fun o => o.instant ≤ 1767484800000000
    (history relocatedPromptly).facts.map Fact.supersededBy = [some 2, none] ∧ before.length = 1 ∧
    (∀ factId, (∃ f ∈ (history relocatedPromptly).facts, f.isState = true ∧
        f.inSlot "private" "person:alex" "timezone" = true ∧
        rowMatchesAsOf ticking f none (some "2026-01-04") = true ∧ f.factId = factId) ↔
      ∃ f ∈ (history before).toLedger.holders "private" "person:alex" "timezone", f.factId = factId) ∧
    (history before).toLedger.SlotUnique "private" "person:alex" "timezone" ∧
    ∀ pre post, before = pre ++ post → (history pre).toLedger.holders "private" "person:alex" "timezone" ≠ [] →
      (history before).toLedger.holders "private" "person:alex" "timezone" ≠ [] := by
  have typed : ∀ o ∈ relocatedPromptly, o.TypedOpen := by
    intro o ho
    simp only [relocatedPromptly, List.mem_cons, List.not_mem_nil, or_false] at ho
    rcases ho with rfl | rfl
    · exact ⟨.inl ⟨_, _, _, _, rfl, rfl, rfl⟩, by decide +kernel⟩
    · exact ⟨.inl ⟨_, _, _, _, rfl, rfl, rfl⟩, by decide +kernel⟩
  have prompt : ∀ o ∈ relocatedPromptly, o.Prompt := by
    intro o ho
    simp only [relocatedPromptly, List.mem_cons, List.not_mem_nil, or_false] at ho
    rcases ho with rfl | rfl <;> rfl
  exact ⟨by decide +kernel, by decide +kernel,
    transactionSnapshots typed (by decide +kernel) prompt (by decide +kernel) "private" "person:alex" "timezone"⟩

/-- At the moment the second write starts, the old value is expired and the new one not created. -/
theorem believedByNobody :
    (∀ o ∈ relocated, o.TypedOpen) ∧ (relocated.map Operation.instant).Pairwise (· ≤ ·) ∧
    (relocated.takeWhile fun o => o.instant ≤ 1767571200000000).length = 2 ∧
    parseClock ticking (some started) = some 1767571200000000 ∧
    (∃ f ∈ (history relocated).toLedger.holders "private" "person:alex" "timezone", f.factId = 2) ∧
    ¬ ∃ f ∈ (history relocated).facts, f.inSlot "private" "person:alex" "timezone" = true ∧
      rowMatchesAsOf ticking f none (some started) = true :=
  ⟨relocatedTyped, by decide +kernel, by decide +kernel, by decide +kernel, by decide +kernel,
    by decide +kernel⟩

end Example
end Enfold
