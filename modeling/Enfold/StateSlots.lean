import Mathlib.Data.List.Sort
import Enfold.Contradiction
import Enfold.Store

/-! Deterministic typed-state decisions and durable conflict records. Nothing here commits:
the callers compose these mutations into their own transaction. -/
namespace Enfold

open Fallible

variable (rt : Runtime)

/-- `StateCandidate.__post_init__`; a candidate is a value this returns. -/
def StateCandidate.postInit (c : StateCandidate) : Except Raised StateCandidate := do
  let content ← required c.content "content"
  let scope ← required c.scope "scope"
  let subjectKey ← required c.subjectKey "subject_key"
  let predicateKey ← required c.predicateKey "predicate_key"
  let memoryKind ← required c.memoryKind "memory_kind"
  let subjectKey ← normalizeSubjectKey subjectKey
  let predicateKey ← normalizePredicateKey predicateKey
  ensure (0 ≤ c.sourceAuthority && c.sourceAuthority ≤ 1)
    ⟨.valueError, "source_authority must be between 0 and 1"⟩
  let start ← parseTimestamp rt c.validFrom
  let stop ← parseTimestamp rt c.validTo
  match start, stop with
  | some start, some stop =>
    ensure (start < stop) ⟨.valueError, "valid_to must be after valid_from"⟩
  | _, _ => .ok ()
  .ok { c with content, scope, subjectKey, predicateKey, memoryKind }

inductive DecisionAction where
  | add | dedup | supersede | conflict
  deriving DecidableEq, Repr

structure SlotDecision where
  action : DecisionAction
  scope : String
  subjectKey : String
  predicateKey : String
  currentFactIds : List Nat
  targetFactId : Option Nat
  reason : String
  deriving DecidableEq, Repr

/-- True unless one `[start, end)` interval ends at or before the other starts. -/
def intervalsOverlap (leftFrom leftTo rightFrom rightTo : Option String) : Except Raised Bool := do
  let leftStart ← parseTimestamp rt leftFrom
  let leftEnd ← parseTimestamp rt leftTo
  let rightStart ← parseTimestamp rt rightFrom
  let rightEnd ← parseTimestamp rt rightTo
  let before (stop start : Option Int) : Bool := match stop, start with
    | some stop, some start => stop ≤ start
    | _, _ => false
  .ok (!before leftEnd rightStart && !before rightEnd leftStart)

def Fact.inSlot (f : Fact) (scope subjectKey predicateKey : String) : Bool :=
  f.scope = scope && f.subjectKey = some subjectKey && f.predicateKey = some predicateKey

/-- `expired_at IS NULL AND (invalid_at IS NULL OR valid_to IS NOT NULL)`. -/
def Fact.believed (f : Fact) : Bool :=
  f.expiredAt.isNone && (f.invalidAt.isNone || f.validTo.isSome)

/-- Active facts for exactly one structured state slot. -/
def currentStateFacts (l : Ledger) (subjectKey predicateKey scope : String) :
    Except Raised (List Fact) := do
  let subjectKey ← required subjectKey "subject_key"
  let predicateKey ← required predicateKey "predicate_key"
  let scope ← required scope "scope"
  .ok (l.facts.filter fun f =>
    f.isState && f.inSlot scope subjectKey predicateKey && f.current && f.validTo.isNone)

/-- Same-slot facts the store still believes, including closed intervals. -/
def believedStateFacts (l : Ledger) (subjectKey predicateKey scope : String) : List Fact :=
  l.facts.filter fun f => f.isState && f.inSlot scope subjectKey predicateKey && f.believed

/-- An unambiguous current value, abstaining on conflicts. -/
def readCurrentState (l : Ledger) (subjectKey predicateKey scope : String) :
    Except Raised (Option Fact) := do
  let facts ← currentStateFacts l subjectKey predicateKey scope
  if facts = [] || facts.any (·.conflictGroup.isSome) then .ok none
  else if facts.length ≠ 1 then
    .error ⟨.stateSlotInvariantError, "strict state slot has multiple non-conflicted current facts"⟩
  else .ok facts.head?

def StateCandidate.decided (c : StateCandidate) (action : DecisionAction) (ids : List Nat)
    (target : Option Nat) (reason : String) : SlotDecision :=
  ⟨action, c.scope, c.subjectKey, c.predicateKey, ids, target, reason⟩

/-- `fact.content == candidate.content or (object_value is not None and equal)`. -/
def StateCandidate.restates (c : StateCandidate) (f : Fact) : Bool :=
  f.content = c.content || (c.objectValue.isSome && f.objectValue = c.objectValue)

/-- The candidate outranks a member it may replace: higher authority and not older, or equal
authority and strictly newer. -/
def StateCandidate.outdates (c : StateCandidate) (candidateTime : Int) (f : Fact)
    (existingTime : Option Int) : Bool :=
  (f.authority < c.sourceAuthority &&
    (existingTime.isNone || existingTime.any (· ≤ candidateTime))) ||
  (c.sourceAuthority = f.authority &&
    (existingTime.isNone || existingTime.any (· < candidateTime)))

def decideContested (c : StateCandidate) (current : List Fact) (exact : Option Fact) :
    Except Raised SlotDecision := do
  let candidateTime ← parseTimestamp rt c.validFrom
  let times ← current.mapM fun f => parseTimestamp rt f.validFrom
  let datedCandidateWins := match candidateTime with
    | none => false
    | some time => (current.zip times).all fun member => c.outdates time member.1 member.2
  let ids := current.map Fact.factId
  if datedCandidateWins then
    .ok (c.decided .supersede ids none "dated claim supersedes every open conflict member")
  else if current.all (·.authority < c.sourceAuthority) then
    .ok (c.decided .supersede ids none "higher authority resolves open conflict")
  else
    .ok (c.decided .conflict ids (exact.map Fact.factId) "slot already has an unresolved conflict")

def decideAgainst (c : StateCandidate) (existing : Fact) : Except Raised SlotDecision := do
  let candidateTime ← parseTimestamp rt c.validFrom
  let existingTime ← parseTimestamp rt existing.validFrom
  let notOlder := match existingTime, candidateTime with
    | none, _ => true
    | some old, some new => decide (old ≤ new)
    | some _, none => false
  let fresher := match candidateTime, existingTime with
    | none, _ => false
    | some _, none => true
    | some new, some old => decide (old < new)
  if decide (existing.authority < c.sourceAuthority) && notOlder then
    .ok (c.decided .supersede [existing.factId] existing.factId "higher authority and not older")
  else if decide (c.sourceAuthority = existing.authority) && fresher then
    .ok (c.decided .supersede [existing.factId] existing.factId
      "same authority with newer validity time")
  else
    .ok (c.decided .conflict [existing.factId] none
      "authority and freshness do not establish a clear winner")

/-- Choose an exact-slot action without mutating the ledger. -/
def decideStateWrite (l : Ledger) (c : StateCandidate) : Except Raised SlotDecision := do
  if c.memoryKind ≠ "state" then
    .ok (c.decided .add [] none "non-state memories coexist")
  else
    let current ← currentStateFacts l c.subjectKey c.predicateKey c.scope
    let believed := believedStateFacts l c.subjectKey c.predicateKey c.scope
    let overlapping ← keep (fun f =>
      intervalsOverlap rt f.validFrom f.validTo c.validFrom c.validTo) believed
    if current = [] && overlapping = [] then
      .ok (c.decided .add [] none "slot has no current overlapping value")
    else
      let peers := if current = [] then overlapping else current
      let exact := peers.find? c.restates
      if 1 < current.length || current.any (·.conflictGroup.isSome) then
        decideContested rt c current exact
      else match exact, overlapping with
        | some same, _ =>
          .ok (c.decided .dedup (peers.map Fact.factId) same.factId
            "identical current content or structured value")
        | none, [] =>
          .ok (c.decided .add (current.map Fact.factId) none "valid intervals do not overlap")
        | none, existing :: _ => decideAgainst rt c existing

/-! ## Conflict records -/

def Ledger.openConflict (l : Ledger) (row : Conflict) (factIds : List Nat) (mark : Fact → Fact) :
    Ledger :=
  { l with
    facts := Table.amend (fun f => factIds.contains f.factId) mark l.facts
    conflicts := l.conflicts ++ [row]
    members := l.members ++ factIds.map fun factId => ⟨row.conflictId, factId⟩
    nextConflictId := l.nextConflictId + 1 }

def Conflict.detected (conflictId : Nat) (scope subjectKey predicateKey detectedAt : String)
    (detail : JsonObject) : Conflict :=
  ⟨conflictId, scope, subjectKey, predicateKey, detectedAt, none, none, none, none, detail⟩

/-- `SET conflict_group = ?`. -/
def Fact.dispute (conflictId : Nat) (f : Fact) : Fact := { f with conflictGroup := some conflictId }

/-- `SET conflict_group = ?, subject_key = COALESCE(subject_key, ?), predicate_key = …`. -/
def Fact.disputeAs (conflictId : Nat) (subjectKey predicateKey : String) (f : Fact) : Fact :=
  { f with
    conflictGroup := some conflictId
    subjectKey := f.subjectKey <|> some subjectKey
    predicateKey := f.predicateKey <|> some predicateKey }

def openStateConflict (l : Ledger) (subjectKey predicateKey : String) (existing : List Nat)
    (scope detectedAt : String) (detail : JsonObject) : Except Raised (Ledger × Nat) := do
  let subjectKey ← required subjectKey "subject_key"
  let predicateKey ← required predicateKey "predicate_key"
  let scope ← required scope "scope"
  ensure (existing ≠ []) ⟨.valueError, "a conflict requires at least one existing fact"⟩
  ensure existing.Nodup ⟨.valueError, "conflict member ids must be unique"⟩
  let _ ← parseTimestamp rt (some detectedAt)
  ensure (existing.all fun factId => l.facts.any fun f =>
      f.factId = factId && f.isState && f.inSlot scope subjectKey predicateKey && f.current &&
        f.conflictGroup.isNone)
    ⟨.stateSlotInvariantError,
      "every conflict member must be an active state fact in the exact slot"⟩
  let row := Conflict.detected l.nextConflictId scope subjectKey predicateKey detectedAt detail
  .ok (l.openConflict row existing (Fact.dispute row.conflictId), row.conflictId)

/-- Open a conflict for current untyped facts that disagree in the same scope; the slot keys
are labels for the receipt. -/
def openUntypedConflict (l : Ledger) (existing : List Nat)
    (scope subjectKey predicateKey detectedAt : String) (detail : JsonObject) :
    Except Raised (Ledger × Nat) := do
  let subjectKey ← required subjectKey "subject_key" >>= normalizeSubjectKey
  let predicateKey ← required predicateKey "predicate_key" >>= normalizePredicateKey
  let scope ← required scope "scope"
  ensure (existing ≠ []) ⟨.valueError, "a conflict requires at least one existing fact"⟩
  ensure existing.Nodup ⟨.valueError, "conflict member ids must be unique"⟩
  let _ ← parseTimestamp rt (some detectedAt)
  ensure (existing.all fun factId => l.facts.any fun f =>
      f.factId = factId && f.scope = scope && f.current && f.conflictGroup.isNone && !f.isState)
    ⟨.stateSlotInvariantError,
      "every untyped conflict member must be an active non-state fact in scope"⟩
  let row := Conflict.detected l.nextConflictId scope subjectKey predicateKey detectedAt detail
  .ok (l.openConflict row existing (Fact.disputeAs row.conflictId subjectKey predicateKey),
    row.conflictId)

/-- `INSERT INTO fact_conflict_members`, whose primary key is the whole row. -/
def Ledger.insertMember (l : Ledger) (member : Member) : Except Raised Ledger := do
  ensure (!l.members.contains member)
    ⟨.integrityError, "UNIQUE constraint failed: fact_conflict_members"⟩
  .ok { l with members := l.members ++ [member] }

def Ledger.conflict (l : Ledger) (conflictId : Nat) : Option Conflict :=
  Table.find Conflict.conflictId conflictId l.conflicts

def Ledger.openRow (l : Ledger) (conflictId : Nat) : Except Raised Conflict :=
  match l.conflict conflictId with
  | some row =>
    if row.resolvedAt.isNone then .ok row
    else .error ⟨.valueError, "conflict does not exist or is already resolved"⟩
  | none => .error ⟨.valueError, "conflict does not exist or is already resolved"⟩

/-- Attach a newly inserted untyped fact to an open conflict. -/
def addUntypedConflictMember (l : Ledger) (conflictId factId : Nat) : Except Raised Ledger := do
  let row ← l.openRow conflictId
  match l.fact factId with
  | none => .error ⟨.stateSlotInvariantError,
      "new untyped conflict member must be current in the same scope and group"⟩
  | some f =>
    ensure (f.scope = row.scope && f.conflictGroup = some conflictId)
      ⟨.stateSlotInvariantError,
        "new untyped conflict member must be current in the same scope and group"⟩
    ensure (!f.isState)
      ⟨.stateSlotInvariantError, "typed state must use the state conflict path"⟩
    ensure f.current ⟨.stateSlotInvariantError, "new conflict member must be current"⟩
    l.insertMember ⟨conflictId, factId⟩

/-- Attach a newly inserted, exact-slot fact to an open conflict. -/
def addConflictMember (l : Ledger) (conflictId factId : Nat) : Except Raised Ledger := do
  let row ← l.openRow conflictId
  match l.fact factId with
  | none => .error ⟨.stateSlotInvariantError,
      "new conflict member must be a state fact in the exact slot and group"⟩
  | some f =>
    ensure (f.inSlot row.scope row.subjectKey row.predicateKey &&
        f.conflictGroup = some conflictId && f.isState)
      ⟨.stateSlotInvariantError,
        "new conflict member must be a state fact in the exact slot and group"⟩
    ensure f.current ⟨.stateSlotInvariantError, "new conflict member must be current"⟩
    l.insertMember ⟨conflictId, factId⟩

structure ConflictResolution where
  conflictId : Nat
  resolutionFactId : Nat
  supersededFactIds : List Nat
  resolvedBy : String
  reason : String
  resolvedAt : String
  deriving DecidableEq, Repr

def Ledger.memberIds (l : Ledger) (conflictId : Nat) : List Nat :=
  ((l.members.filter fun m => m.conflictId = conflictId).map Member.factId).insertionSort (· ≤ ·)

/-- What a losing member becomes: `valid_to` is overwritten with the winner's start. -/
def Fact.lose (resolvedAt : String) (winner : Nat) (validTo : Option String) (f : Fact) : Fact :=
  { f with
    invalidAt := some resolvedAt
    expiredAt := some resolvedAt
    supersededBy := some winner
    validTo := validTo }

def Conflict.resolve (resolvedAt resolvedBy reason : String) (winner : Nat) (row : Conflict) :
    Conflict :=
  { row with
    resolvedAt := some resolvedAt
    resolutionFactId := some winner
    resolvedBy := some resolvedBy
    resolutionReason := some reason }

/-- `UPDATE facts` of one row that may enter the partial unique index. -/
def Ledger.admitted (l : Ledger) (facts : List Fact) : Except Raised Ledger := do
  ensure (facts.filterMap Fact.slotKey).Nodup
    ⟨.integrityError, "UNIQUE constraint failed: uq_facts_current_state_slot"⟩
  .ok { l with facts }

/-- Resolve a conflict to one member and retain an audited history. -/
def resolveStateConflict (l : Ledger) (conflictId resolutionFactId : Nat)
    (resolvedBy reason resolvedAt : String) : Except Raised (Ledger × ConflictResolution) := do
  let resolvedBy ← required resolvedBy "resolved_by"
  let reason ← required reason "reason"
  let _ ← parseTimestamp rt (some resolvedAt)
  match l.conflict conflictId with
  | none => .error ⟨.valueError, "conflict does not exist"⟩
  | some row =>
    ensure row.resolvedAt.isNone ⟨.valueError, "conflict is already resolved"⟩
    let members := l.memberIds conflictId
    ensure (members.contains resolutionFactId)
      ⟨.valueError, "resolution fact must be a conflict member"⟩
    let losers := members.filter (· ≠ resolutionFactId)
    let validTo := (l.fact resolutionFactId).bind Fact.validFrom
    let loses (f : Fact) : Bool :=
      losers.contains f.factId && f.conflictGroup = some conflictId && f.invalidAt.isNone
    ensure (Table.matching loses l.facts = losers.length)
      ⟨.stateSlotInvariantError, "not all losing conflict members are current"⟩
    let facts := Table.amend loses (Fact.lose resolvedAt resolutionFactId validTo) l.facts
    let wins (f : Fact) : Bool :=
      f.factId = resolutionFactId && f.conflictGroup = some conflictId && f.current
    let l ← l.admitted (Table.amend wins ({ · with conflictGroup := none }) facts)
    ensure (Table.matching wins facts = 1)
      ⟨.stateSlotInvariantError, "resolution fact is not a current member"⟩
    let conflicts := Table.amend (fun row => row.conflictId = conflictId && row.resolvedAt.isNone)
      (Conflict.resolve resolvedAt resolvedBy reason resolutionFactId) l.conflicts
    .ok ({ l with conflicts },
      ⟨conflictId, resolutionFactId, losers, resolvedBy, reason, resolvedAt⟩)

end Enfold
