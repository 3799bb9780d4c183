import Enfold.LedgerForms

/-! The typed mutations and the resolution of a conflict in closed form. -/
namespace Enfold

open Fallible

variable {rt : Runtime} {l l' : Ledger} {request : WriteRequest} {clock : Clock}

theorem openStateConflictSource {existing : List Nat} {scope subjectKey predicateKey now : String}
    {detail : JsonObject} {conflictId : Nat}
    (h : openStateConflict rt l subjectKey predicateKey existing scope now detail =
      .ok (l', conflictId)) :
    conflictId = l.nextConflictId ∧ existing ≠ [] ∧ existing.Nodup ∧
      (∀ factId ∈ existing, ∃ f ∈ l.facts, f.factId = factId ∧ f.isState = true ∧
        f.inSlot (Text.strip scope) (Text.strip subjectKey) (Text.strip predicateKey) = true ∧
        f.current = true ∧ f.conflictGroup = none) ∧
      l' = l.openConflict
        (.detected l.nextConflictId (Text.strip scope) (Text.strip subjectKey)
          (Text.strip predicateKey) now detail) existing (Fact.dispute l.nextConflictId) := by
  simp only [openStateConflict, bindOk, ensureOk, List.all_eq_true, List.any_eq_true,
    Bool.and_eq_true, decide_eq_true_eq, Option.isNone_iff_eq_none] at h
  obtain ⟨subject, hs, predicate, hp, scope', hc, -, some, -, distinct, -, -, -, found, last⟩ := h
  cases last
  obtain ⟨rfl, -⟩ := requiredSource hs
  obtain ⟨rfl, -⟩ := requiredSource hp
  obtain ⟨rfl, -⟩ := requiredSource hc
  refine ⟨rfl, some, distinct, ?_, rfl⟩
  intro factId inside
  obtain ⟨f, hf, ⟨⟨⟨id, state⟩, slot⟩, current⟩, free⟩ := found factId inside
  exact ⟨f, hf, id, state, slot, current, free⟩

theorem openRowSource {conflictId : Nat} {row : Conflict} (h : l.openRow conflictId = .ok row) :
    row ∈ l.conflicts ∧ row.conflictId = conflictId ∧ row.resolvedAt = none := by
  unfold Ledger.openRow at h
  split at h
  · rename_i found
    split at h
    · rename_i unresolved
      cases h
      obtain ⟨inside, id⟩ := Table.findMem found
      exact ⟨inside, id, by simpa using unresolved⟩
    · cases h
  · cases h

theorem addConflictMemberSource {conflictId factId : Nat}
    (h : addConflictMember l conflictId factId = .ok l') :
    ∃ row ∈ l.conflicts, row.conflictId = conflictId ∧ row.resolvedAt = none ∧
      (∃ f ∈ l.facts, f.factId = factId ∧
        f.inSlot row.scope row.subjectKey row.predicateKey = true ∧
        f.conflictGroup = some conflictId ∧ f.isState = true ∧ f.current = true) ∧
      ⟨conflictId, factId⟩ ∉ l.members ∧ l' = l.join ⟨conflictId, factId⟩ := by
  unfold addConflictMember at h
  obtain ⟨row, opened, h⟩ := bindOk.mp h
  split at h
  · cases h
  · rename_i f found
    simp only [bindOk, Ledger.insertMember, ensureOk, Bool.not_eq_true', List.contains_eq_mem,
      decide_eq_false_iff_not, Bool.and_eq_true, decide_eq_true_eq] at h
    obtain ⟨-, ⟨⟨slot, group⟩, state⟩, -, current, -, fresh, last⟩ := h
    cases last
    obtain ⟨inside, id, unresolved⟩ := openRowSource opened
    obtain ⟨hf, fid⟩ := Ledger.factFind found
    exact ⟨row, inside, id, unresolved, ⟨f, hf, fid, slot, group, state, current⟩, fresh, rfl⟩

def WriteRequest.typed (request : WriteRequest) (effective : StateCandidate)
    (conflictId : Option Nat) (confidence : Option Rat) (factId : Nat) (clock : Clock) : Fact :=
  (request.row factId clock.insertedAt).persistState effective conflictId confidence clock.closedAt

theorem admittedSource {facts : List Fact} (h : l.admitted facts = .ok l') :
    l' = { l with facts } ∧ (facts.filterMap Fact.slotKey).Nodup := by
  simp only [Ledger.admitted, bindOk, ensureOk, decide_eq_true_eq] at h
  obtain ⟨-, free, last⟩ := h
  cases last
  exact ⟨rfl, free⟩

theorem persistStateCandidateSource (keyed : l.Keyed) {effective : StateCandidate}
    {conflictId : Option Nat} {confidence : Option Rat}
    (h : persistStateCandidate (l.insert (request.row l.nextFactId clock.insertedAt)) l.nextFactId
      effective conflictId confidence clock.closedAt = .ok l') :
    l' = l.insert (request.typed effective conflictId confidence l.nextFactId clock) ∧
      (l'.facts.filterMap Fact.slotKey).Nodup := by
  simp only [persistStateCandidate, bindOk] at h
  obtain ⟨stored, admitted, -, -, last⟩ := h
  cases last
  obtain ⟨rfl, free⟩ := admittedSource admitted
  have shape := keyed.amendFresh (q := Fact.current) (g := request.row l.nextFactId clock.insertedAt)
    (h := Fact.persistState effective conflictId confidence clock.closedAt) rfl rowCurrent
  refine ⟨?_, free⟩
  simp only [Ledger.insert, WriteRequest.typed, ← shape]

theorem finishStateSupersessionSource (keyed : l.Keyed) {old survivor : Nat}
    (h : finishStateSupersession l old survivor = .ok l') :
    l' = l.retire old ({ · with supersededBy := some survivor }) := by
  have shape : (fun f : Fact => decide (f.factId = old) && f.invalidAt.isSome &&
      f.supersededBy.isNone) = fun f => decide (f.factId = old) &&
        (f.invalidAt.isSome && f.supersededBy.isNone) := by
    funext f
    rw [Bool.and_assoc]
  rw [finishStateSupersession, shape] at h
  obtain ⟨-, -, -, -, last⟩ := keyed.amendOneSource h
  exact last

theorem retireRetire {factId : Nat} {g h : Fact → Fact} (kept : ∀ f, (g f).factId = f.factId) :
    (l.retire factId g).retire factId h = l.retire factId fun f => h (g f) := by
  simp only [Ledger.retire, Table.amendAmend]
  congr 1
  refine List.map_congr_left fun f _ => ?_
  by_cases same : f.factId = factId
  · simp [same, kept]
  · simp [same]

def Fact.outdate (now : String) (validTo : Option String) (survivor : Nat) (f : Fact) : Fact :=
  { f.close now validTo with supersededBy := some survivor }

inductive StateEffect (rt : Runtime) (l : Ledger) (context : ConnectionContext)
    (request : WriteRequest) (slot : SlotDecision) (effective : StateCandidate)
    (confidence : Option Rat) (clock : Clock) : Ledger → Prop
  | evidence {target} (known : slot.evidence = some target) :
      StateEffect rt l context request slot effective confidence clock l
  | add (fresh : slot.evidence = none) (calm : slot.action ≠ .supersede ∧ slot.action ≠ .conflict)
      (free : ((l.insert (request.typed effective none confidence l.nextFactId clock)).facts.filterMap
        Fact.slotKey).Nodup) :
      StateEffect rt l context request slot effective confidence clock
        (l.insert (request.typed effective none confidence l.nextFactId clock))
  | replace {target f} (action : slot.action = .supersede) (aimed : slot.targetFactId = some target)
      (mem : f ∈ l.facts) (id : f.factId = target) (inScope : f.scope = slot.scope)
      (current : f.current = true) (calm : f.conflictGroup = none)
      (free : (((l.retire target (Fact.close clock.recordedAt effective.validFrom)).insert
        (request.typed effective none confidence l.nextFactId clock)).facts.filterMap
          Fact.slotKey).Nodup) :
      StateEffect rt l context request slot effective confidence clock
        ((l.retire target (Fact.outdate clock.recordedAt effective.validFrom l.nextFactId)).insert
          (request.typed effective none confidence l.nextFactId clock))
  | dispute {detail} (action : slot.action = .conflict) (unknown : slot.evidence = none)
      (calm : l.groupsOf slot.currentFactIds = [])
      (nonempty : slot.currentFactIds ≠ []) (distinct : slot.currentFactIds.Nodup)
      (members : ∀ factId ∈ slot.currentFactIds, ∃ f ∈ l.facts, f.factId = factId ∧
        f.isState = true ∧ f.inSlot (Text.strip slot.scope) (Text.strip slot.subjectKey)
          (Text.strip slot.predicateKey) = true ∧ f.current = true ∧ f.conflictGroup = none)
      (fits : (request.typed effective (some l.nextConflictId) confidence l.nextFactId clock).inSlot
        (Text.strip slot.scope) (Text.strip slot.subjectKey) (Text.strip slot.predicateKey) = true)
      (current : effective.validTo = none) :
      StateEffect rt l context request slot effective confidence clock
        (((l.openConflict (.detected l.nextConflictId (Text.strip slot.scope)
            (Text.strip slot.subjectKey) (Text.strip slot.predicateKey) clock.recordedAt detail)
            slot.currentFactIds (Fact.dispute l.nextConflictId)).insert
          (request.typed effective (some l.nextConflictId) confidence l.nextFactId clock)).join
            ⟨l.nextConflictId, l.nextFactId⟩)
  | join {conflictId row} (action : slot.action = .conflict) (unknown : slot.evidence = none)
      (group : l.groupsOf slot.currentFactIds = [conflictId])
      (mem : row ∈ l.conflicts) (id : row.conflictId = conflictId) (unresolved : row.resolvedAt = none)
      (fits : (request.typed effective (some conflictId) confidence l.nextFactId clock).inSlot
        row.scope row.subjectKey row.predicateKey = true)
      (current : effective.validTo = none) (fresh : ⟨conflictId, l.nextFactId⟩ ∉ l.members) :
      StateEffect rt l context request slot effective confidence clock
        ((l.insert (request.typed effective (some conflictId) confidence l.nextFactId clock)).join
          ⟨conflictId, l.nextFactId⟩)
  | settle {conflictId row l' resolution} (action : slot.action = .supersede)
      (group : l.groupsOf slot.currentFactIds = [conflictId]) (wide : slot.targetFactId = none)
      (mem : row ∈ l.conflicts) (id : row.conflictId = conflictId) (unresolved : row.resolvedAt = none)
      (fits : (request.typed effective (some conflictId) confidence l.nextFactId clock).inSlot
        row.scope row.subjectKey row.predicateKey = true)
      (current : effective.validTo = none) (fresh : ⟨conflictId, l.nextFactId⟩ ∉ l.members)
      (resolved : resolveStateConflict rt
        ((l.insert (request.typed effective (some conflictId) confidence l.nextFactId clock)).join
          ⟨conflictId, l.nextFactId⟩) conflictId l.nextFactId (resolvedByOf context request)
          slot.reason clock.recordedAt = .ok (l', resolution)) :
      StateEffect rt l context request slot effective confidence clock l'

section Apply
variable {context : ConnectionContext} {slot : SlotDecision} {effective : StateCandidate}
  {extracted : Option ExtractedTypedFields} {applied : Applied}

theorem typedCurrent {conflictId : Option Nat} {confidence : Option Rat} {factId : Nat}
    (h : (request.typed effective conflictId confidence factId clock).current = true) :
    effective.validTo = none := by
  simp only [WriteRequest.typed, Fact.persistState, Fact.current, Bool.and_eq_true] at h
  cases bounded : effective.validTo with
  | none => rfl
  | some stop => simp [bounded] at h

theorem freshMember {f g : Fact} (keyed : l.Keyed) (mem : f ∈ (l.insert g).facts)
    (id : f.factId = l.nextFactId) : f = g := by
  rcases List.mem_append.mp mem with mem | mem
  · have := keyed.factBound f mem
    omega
  · exact List.mem_singleton.mp mem

inductive Prepared (rt : Runtime) (l : Ledger) (slot : SlotDecision) (now : String)
    (closeValidTo : Option String) : Ledger → Option Nat → Prop
  | calm (action : slot.action ≠ .supersede ∧ slot.action ≠ .conflict) :
      Prepared rt l slot now closeValidTo l none
  | close {target f} (action : slot.action = .supersede) (aimed : slot.targetFactId = some target)
      (mem : f ∈ l.facts) (id : f.factId = target) (inScope : f.scope = slot.scope)
      (current : f.current = true) (undisputed : f.conflictGroup = none) :
      Prepared rt l slot now closeValidTo (l.retire target (Fact.close now closeValidTo)) none
  | group {conflictId} (action : slot.action = .conflict ∨
        slot.action = .supersede ∧ slot.targetFactId = none)
      (group : l.groupsOf slot.currentFactIds = [conflictId]) :
      Prepared rt l slot now closeValidTo l (some conflictId)
  | opened {l' conflictId} (action : slot.action = .conflict)
      (calm : l.groupsOf slot.currentFactIds = [])
      (done : openStateConflict rt l slot.subjectKey slot.predicateKey slot.currentFactIds slot.scope
        now [("reason", .str slot.reason)] = .ok (l', conflictId)) :
      Prepared rt l slot now closeValidTo l' (some conflictId)

theorem prepareSource (keyed : l.Keyed) {now : String} {closeValidTo : Option String}
    {conflictId : Option Nat}
    (h : prepareStateMutation rt l slot now closeValidTo = .ok (l', conflictId)) :
    Prepared rt l slot now closeValidTo l' conflictId := by
  unfold prepareStateMutation at h
  split at h
  · rename_i action wide
    split at h
    · rename_i group
      cases h
      exact .group (.inr ⟨action, wide⟩) group
    · cases h
  · rename_i target action aimed
    simp only [bindOk] at h
    obtain ⟨l₁, closed, last⟩ := h
    cases last
    have shape : (fun f : Fact => decide (f.factId = target) && decide (f.scope = slot.scope) &&
        f.current && f.conflictGroup.isNone) = fun f => decide (f.factId = target) &&
          (decide (f.scope = slot.scope) && f.current && f.conflictGroup.isNone) := by
      funext f
      simp only [Bool.and_assoc]
    rw [shape] at closed
    obtain ⟨f, hf, id, hit, rfl⟩ := keyed.amendOneSource closed
    simp only [Bool.and_eq_true, decide_eq_true_eq, Option.isNone_iff_eq_none] at hit
    exact .close action aimed hf id hit.1.1 hit.1.2 hit.2
  · rename_i action
    split at h
    · rename_i calm
      simp only [bindOk, Prod.exists] at h
      obtain ⟨l₁, opened, done, last⟩ := h
      cases last
      exact .opened action calm done
    · rename_i group
      cases h
      exact .group (.inl action) group
    · cases h
  · rename_i noConflict noWide noAim
    cases h
    refine .calm ⟨fun action => ?_, noConflict⟩
    cases aim : slot.targetFactId with
    | none => exact noWide action aim
    | some target => exact noAim target action aim

theorem preparedKeyed (keyed : l.Keyed) {now : String} {closeValidTo : Option String}
    {conflictId : Option Nat} (h : Prepared rt l slot now closeValidTo l' conflictId) :
    l'.Keyed ∧ l'.nextFactId = l.nextFactId := by
  cases h with
  | calm => exact ⟨keyed, rfl⟩
  | close => exact ⟨keyed.amend fun _ => rfl, rfl⟩
  | group => exact ⟨keyed, rfl⟩
  | opened action calm done =>
    obtain ⟨-, -, -, -, rfl⟩ := openStateConflictSource done
    exact ⟨keyed.openConflict _ _ rfl fun _ => rfl, rfl⟩

theorem joinSource (keyed : l.Keyed) {conflictId : Nat} {confidence : Option Rat}
    (h : addConflictMember (l.insert (request.typed effective (some conflictId) confidence
      l.nextFactId clock)) conflictId l.nextFactId = .ok l') :
    ∃ row ∈ l.conflicts, row.conflictId = conflictId ∧ row.resolvedAt = none ∧
      (request.typed effective (some conflictId) confidence l.nextFactId clock).inSlot row.scope
        row.subjectKey row.predicateKey = true ∧ effective.validTo = none ∧
      ⟨conflictId, l.nextFactId⟩ ∉ l.members ∧
      l' = (l.insert (request.typed effective (some conflictId) confidence l.nextFactId clock)).join
        ⟨conflictId, l.nextFactId⟩ := by
  obtain ⟨row, hrow, id, unresolved, ⟨f, hf, fid, fits, -, -, current⟩, fresh, rfl⟩ :=
    addConflictMemberSource h
  have same := freshMember keyed hf fid
  subst same
  exact ⟨row, hrow, id, unresolved, fits, typedCurrent current, fresh, rfl⟩

theorem applyTypedSource (keyed : l.Keyed)
    (h : applyTyped rt l context request extracted slot effective clock = .ok applied) :
    StateEffect rt l context request slot effective
        (extracted.map ExtractedTypedFields.confidence) clock applied.ledger ∧
      ((∃ target, slot.evidence = some target ∧
          applied.result = ⟨target, slot.action.outcome, some target⟩) ∨
        (slot.evidence = none ∧ applied.result = ⟨l.nextFactId, slot.action.outcome, none⟩)) := by
  unfold applyTyped at h
  split at h
  case h_1 target known =>
    cases h
    exact ⟨.evidence known, .inl ⟨target, known, rfl⟩⟩
  case h_2 unknown =>
    simp only [bindOk, Prod.exists] at h
    obtain ⟨l₁, conflictId, prepared, l₂, factId, written, l₃, persisted, l₄, resolution, settled,
      last⟩ := h
    cases last
    obtain ⟨rfl, rfl⟩ := factWriterSource written
    have plan := prepareSource keyed prepared
    obtain ⟨keyed₁, next⟩ := preparedKeyed keyed plan
    obtain ⟨rfl, free⟩ := persistStateCandidateSource keyed₁ persisted
    refine ⟨?_, .inr ⟨unknown, by rw [next]⟩⟩
    cases plan with
    | calm action =>
      unfold settleState at settled
      split at settled
      · rename_i supersede _
        exact absurd supersede action.1
      · rename_i supersede _
        exact absurd supersede action.1
      · rename_i conflict _
        exact absurd conflict action.2
      · rename_i conflict _
        exact absurd conflict action.2
      · cases settled
        exact .add unknown action free
    | @close target f action aimed mem id inScope current undisputed =>
      simp only [settleState, action, aimed, bindOk] at settled
      obtain ⟨l₅, finished, last⟩ := settled
      cases last
      have later := finishStateSupersessionSource
        (keyed₁.insert (g := request.typed effective none _ _ clock) rfl) finished
      have other : (request.typed effective none (extracted.map ExtractedTypedFields.confidence)
          l.nextFactId clock).factId ≠ target := by
        have := keyed.factBound f mem
        simp only [WriteRequest.typed, Fact.persistState, WriteRequest.row]
        omega
      rw [later, Ledger.retireInsert other,
        retireRetire (g := Fact.close clock.recordedAt effective.validFrom) fun _ => rfl]
      exact .replace action aimed mem id inScope current undisputed free
    | @group conflictId action group =>
      rcases action with action | ⟨action, wide⟩
      · simp only [settleState, action, bindOk] at settled
        obtain ⟨l₅, joined, last⟩ := settled
        cases last
        obtain ⟨row, hrow, id, unresolved, fits, current, fresh, rfl⟩ := joinSource keyed joined
        exact .join action unknown group hrow id unresolved fits current fresh
      · simp only [settleState, action, bindOk, Prod.exists] at settled
        obtain ⟨l₅, joined, l₆, resolution, resolved, last⟩ := settled
        cases last
        obtain ⟨row, hrow, id, unresolved, fits, current, fresh, rfl⟩ := joinSource keyed joined
        exact .settle action group wide hrow id unresolved fits current fresh resolved
    | opened action calm done =>
      obtain ⟨rfl, nonempty, distinct, members, rfl⟩ := openStateConflictSource done
      simp only [settleState, action, bindOk] at settled
      obtain ⟨l₅, joined, last⟩ := settled
      cases last
      obtain ⟨row, hrow, id, unresolved, fits, current, fresh, rfl⟩ := joinSource keyed₁ joined
      have same : row = .detected l.nextConflictId (Text.strip slot.scope) (Text.strip slot.subjectKey)
          (Text.strip slot.predicateKey) clock.recordedAt [("reason", .str slot.reason)] := by
        rcases List.mem_append.mp hrow with hrow | hrow
        · have := keyed.conflictBound row hrow
          omega
        · exact List.mem_singleton.mp hrow
      subst same
      exact .dispute action unknown calm nonempty distinct members fits current

end Apply

/-! ## Resolution -/

theorem memberIdsMem {conflictId factId : Nat} :
    factId ∈ l.memberIds conflictId ↔ ⟨conflictId, factId⟩ ∈ l.members := by
  simp only [Ledger.memberIds, List.mem_insertionSort, List.mem_map, List.mem_filter,
    decide_eq_true_eq]
  constructor
  · intro h
    obtain ⟨⟨c, f⟩, ⟨mem, id⟩, same⟩ := h
    cases id
    cases same
    exact mem
  · intro mem
    exact ⟨⟨conflictId, factId⟩, ⟨mem, rfl⟩, rfl⟩

def Fact.losesTo (losers : List Nat) (conflictId : Nat) (f : Fact) : Bool :=
  losers.contains f.factId && f.conflictGroup = some conflictId && f.invalidAt.isNone

def Fact.resolved (resolvedAt : String) (conflictId winner : Nat) (losers : List Nat)
    (validTo : Option String) (f : Fact) : Fact :=
  if f.factId = winner then { f with conflictGroup := none }
  else if f.losesTo losers conflictId then f.lose resolvedAt winner validTo
  else f

@[simp] theorem resolvedId {resolvedAt : String} {conflictId winner : Nat} {losers : List Nat}
    {validTo : Option String} {f : Fact} :
    (f.resolved resolvedAt conflictId winner losers validTo).factId = f.factId := by
  unfold Fact.resolved
  split
  · rfl
  · split
    · rfl
    · rfl

structure Resolves (l : Ledger) (conflictId winner : Nat) (row : Conflict) (w : Fact) : Prop where
  rowMem : row ∈ l.conflicts
  rowId : row.conflictId = conflictId
  unresolved : row.resolvedAt = none
  factMem : w ∈ l.facts
  factId : w.factId = winner
  group : w.conflictGroup = some conflictId
  current : w.current = true
  member : ⟨conflictId, winner⟩ ∈ l.members

def Ledger.resolve (l : Ledger) (conflictId winner : Nat) (validTo : Option String)
    (resolvedBy reason resolvedAt : String) : Ledger :=
  { l with
    facts := l.facts.map (Fact.resolved resolvedAt conflictId winner
      ((l.memberIds conflictId).filter (· ≠ winner)) validTo)
    conflicts := Table.amend (fun row => row.conflictId = conflictId && row.resolvedAt.isNone)
      (Conflict.resolve resolvedAt resolvedBy reason winner) l.conflicts }

theorem resolveStateConflictSource (keyed : l.Keyed) {conflictId winner : Nat}
    {resolvedBy reason resolvedAt : String} {resolution : ConflictResolution}
    (h : resolveStateConflict rt l conflictId winner resolvedBy reason resolvedAt =
      .ok (l', resolution)) :
    ∃ row w, Resolves l conflictId winner row w ∧
      Table.matching (Fact.losesTo ((l.memberIds conflictId).filter (· ≠ winner)) conflictId)
        l.facts = ((l.memberIds conflictId).filter (· ≠ winner)).length ∧
      (l'.facts.filterMap Fact.slotKey).Nodup ∧
      l' = l.resolve conflictId winner w.validFrom (Text.strip resolvedBy) (Text.strip reason)
        resolvedAt ∧
      resolution = ⟨conflictId, winner, (l.memberIds conflictId).filter (· ≠ winner),
        Text.strip resolvedBy, Text.strip reason, resolvedAt⟩ := by
  simp only [resolveStateConflict, bindOk] at h
  obtain ⟨by', named, reason', stated, -, -, h⟩ := h
  obtain ⟨rfl, -⟩ := requiredSource named
  obtain ⟨rfl, -⟩ := requiredSource stated
  split at h
  · cases h
  · rename_i row found
    simp only [bindOk, ensureOk, decide_eq_true_eq, Option.isNone_iff_eq_none] at h
    obtain ⟨-, unresolved, -, inside, -, all, l₁, admitted, -, one, last⟩ := h
    cases last
    obtain ⟨rfl, free⟩ := admittedSource admitted
    obtain ⟨hrow, rowId⟩ := Table.findMem found
    obtain ⟨w, hw, won⟩ := Table.matchingPos one
    simp only [Bool.and_eq_true, decide_eq_true_eq] at won
    obtain ⟨⟨winnerId, group⟩, current⟩ := won
    obtain ⟨old, hold, rfl⟩ := Table.memAmend.mp hw
    -- the winner is not among the losers, so it still is the stored row
    have spared : ∀ f : Fact, f.factId = winner →
        Fact.losesTo ((l.memberIds conflictId).filter (· ≠ winner)) conflictId f = false := by
      intro f same
      simp [Fact.losesTo, same]
    have oldId : old.factId = winner := by
      split at winnerId
      · exact winnerId
      · exact winnerId
    have stays : Fact.losesTo ((l.memberIds conflictId).filter (· ≠ winner)) conflictId old =
        false := spared old oldId
    have kept : ∀ f : Fact, (if Fact.losesTo ((l.memberIds conflictId).filter (· ≠ winner))
        conflictId old = true then f else old) = old := fun f => if_neg (by
        rw [stays]
        exact Bool.false_ne_true)
    replace group : old.conflictGroup = some conflictId :=
      (congrArg Fact.conflictGroup (kept _)).symm.trans group
    replace current : old.current = true := (congrArg Fact.current (kept _)).symm.trans current
    have value : (l.fact winner).bind Fact.validFrom = old.validFrom := by
      rw [← oldId, keyed.find hold]
      rfl
    refine ⟨row, old, ⟨hrow, rowId, unresolved, hold, oldId, group, current,
      memberIdsMem.mp (by simpa using inside)⟩, all, free, ?_, rfl⟩
    have facts : Table.amend (fun f => decide (f.factId = winner) &&
          decide (f.conflictGroup = some conflictId) && f.current) ({ · with conflictGroup := none })
        (Table.amend (Fact.losesTo ((l.memberIds conflictId).filter (· ≠ winner)) conflictId)
          (Fact.lose resolvedAt winner old.validFrom) l.facts) =
        l.facts.map (Fact.resolved resolvedAt conflictId winner
          ((l.memberIds conflictId).filter (· ≠ winner)) old.validFrom) := by
      rw [Table.amendAmend]
      refine List.map_congr_left fun f hf => ?_
      by_cases same : f.factId = winner
      · have equal : f = old := Table.uniqueEq keyed.factIds hf hold (same.trans oldId.symm)
        subst equal
        have once := kept (f.lose resolvedAt winner f.validFrom)
        unfold Fact.resolved
        rw [once, if_pos (by simp [same, group, current]), if_pos same]
      · unfold Fact.resolved
        rw [if_neg same]
        split
        · simp [Fact.lose, same]
        · simp [same]
    simp only [Ledger.resolve, value, ← facts]
    rfl

end Enfold
