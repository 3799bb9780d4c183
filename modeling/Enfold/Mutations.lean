import Enfold.NearDuplicate
import Enfold.Requests

/-! What one write may do to the fact and conflict tables: the lookups an untyped write
makes, the supersession policy, and each mutation with the row count it insists on. -/
namespace Enfold

open Fallible

variable (rt : Runtime)

/-- The clock readings one write takes, in the order it takes them. -/
structure Clock where
  recordedAt : String
  insertedAt : String
  closedAt : String
  queuedAt : String
  deriving DecidableEq, Repr

def Clock.at (now : String) : Clock := ⟨now, now, now, now⟩

structure FactWriteResult where
  factId : Nat
  outcome : Outcome
  existingFactId : Option Nat
  deriving DecidableEq, Repr

/-- One `UPDATE facts` that must touch exactly one row. -/
def Ledger.amendOne (l : Ledger) (p : Fact → Bool) (f : Fact → Fact) (missed : Raised) :
    Except Raised Ledger := do
  ensure (Table.matching p l.facts = 1) missed
  .ok { l with facts := Table.amend p f l.facts }

/-! ## Inserting -/

/-- The row `_fact_writer` stores: no typed column is set yet. -/
def WriteRequest.row (r : WriteRequest) (factId : Nat) (now : String) : Fact where
  factId := factId
  content := Text.strip r.content
  category := Text.strip r.category
  tags := r.tags
  trustScore := r.trustScore
  retrievalCount := 0
  helpfulCount := 0
  createdAt := now
  validFrom := none
  validTo := none
  invalidAt := none
  expiredAt := none
  supersededBy := none
  memoryKind := none
  subjectKey := none
  predicateKey := none
  objectValue := none
  confidence := none
  sourceAuthority := some r.sourceAuthority
  scope := Text.strip r.scope
  sensitivity := Text.strip r.sensitivity
  correctionStatus := r.correctionStatus
  conflictGroup := none

/-- `insert_fact` and the correction status beside it. -/
def factWriter (l : Ledger) (r : WriteRequest) (now : String) : Except Raised (Ledger × Nat) := do
  let _ ← required r.content "content"
  let _ ← required r.category "category"
  let _ ← required r.scope "scope"
  let _ ← required r.sensitivity "sensitivity"
  ensure (0 ≤ r.trustScore && r.trustScore ≤ 1)
    ⟨.valueError, "trust_score must be between 0 and 1"⟩
  ensure (0 ≤ r.sourceAuthority && r.sourceAuthority ≤ 1)
    ⟨.valueError, "source_authority must be between 0 and 1"⟩
  .ok ({ l with facts := l.facts ++ [r.row l.nextFactId now], nextFactId := l.nextFactId + 1 },
    l.nextFactId)

/-! ## Supersession policy -/

/-- Prevent automation from silently replacing protected truth. -/
def supersessionPolicy (l : Ledger) (r : WriteRequest) (targetId : Option Nat)
    (candidateAuthority : Option Rat) : Option PolicyDecision :=
  match targetId <|> r.supersedeFactId with
  | none => none
  | some target =>
    match (l.fact target).filter (·.scope = r.scope) with
    | none => some (.needsReview "supersession target is unavailable")
    | some f =>
      if r.supersedeFactId.isSome && f.isState then
        some (.needsReview "typed state requires state-slot supersession")
      else if r.supersedeFactId.isSome && f.conflictGroup.isSome then
        some (.needsReview "open-conflict members cannot be explicitly superseded")
      else if (f.correctionStatus = some "human_corrected" ||
          f.correctionStatus = some "human_confirmed") && !r.claimsCorrection then
        some (.needsReview "target is protected by human correction")
      else if candidateAuthority.getD r.sourceAuthority < f.authority then
        some (.needsReview "target has higher source authority")
      else none

/-! ## Untyped lookups -/

def Fact.openIn (f : Fact) (scope : String) : Bool :=
  f.scope = scope && f.current && f.conflictGroup.isNone

/-- Only an exact active duplicate inside the write scope. -/
def findUntypedExactDuplicate (l : Ledger) (r : WriteRequest) : Option Nat :=
  (l.facts.find? fun f => f.openIn r.scope && f.content = r.content).map Fact.factId

structure UntypedContradiction where
  factId : Nat
  content : String
  subjectKey : String
  predicateKey : String
  deriving DecidableEq, Repr

def loadUntypedCurrentFacts (l : Ledger) (scope : String) : List Fact :=
  l.facts.filter fun f => f.openIn scope && !f.isState

/-- The contradiction one stored content makes with the request, labelled; a label the key
grammar refuses is no match. -/
def contradictionWith (r : WriteRequest) (factId : Nat) (content : String) :
    Option UntypedContradiction :=
  if untypedContentsContradict r.content content then
    match guessUntypedConflictSlot r.content content with
    | .ok (subjectKey, predicateKey) => some ⟨factId, content, subjectKey, predicateKey⟩
    | .error _ => none
  else none

/-- The order `(shared content tokens, -fact_id)` the best contradiction is taken by. -/
def UntypedContradiction.below (r : WriteRequest) (a b : UntypedContradiction) : Bool :=
  let shared (c : UntypedContradiction) :=
    (Words.inter (contentTokens r.content).dedup (contentTokens c.content)).length
  shared a < shared b || (shared a = shared b && b.factId < a.factId)

def findUntypedContradiction (l : Ledger) (r : WriteRequest) : Option UntypedContradiction :=
  greatest (UntypedContradiction.below r) <|
    (loadUntypedCurrentFacts l r.scope).filterMap fun f =>
      if f.content = r.content then none else contradictionWith r f.factId f.content

def contradictionFromNearDuplicate (l : Ledger) (r : WriteRequest)
    (candidate : NearDuplicateCandidate) : Option UntypedContradiction :=
  (l.fact candidate.factId).bind fun f => contradictionWith r candidate.factId f.content

/-! ## Untyped mutations -/

def openUntypedWriteConflict (l : Ledger) (found : UntypedContradiction) (newFactId : Nat)
    (r : WriteRequest) (recordedAt : String) : Except Raised (Ledger × Nat) := do
  let (l, conflictId) ← openUntypedConflict rt l [found.factId] r.scope found.subjectKey
    found.predicateKey recordedAt [("reason", .str "untyped contradiction")]
  let l ← l.amendOne (fun f => f.factId = newFactId && f.openIn r.scope)
    (Fact.disputeAs conflictId found.subjectKey found.predicateKey)
    ⟨.runtimeError, "untyped conflict member is no longer current"⟩
  let l ← addUntypedConflictMember l conflictId newFactId
  .ok (l, conflictId)

/-- `SET invalid_at = ?, expired_at = ?, superseded_by = ?`: `valid_to` stays as it is. -/
def Fact.supersede (now : String) (survivor : Nat) (f : Fact) : Fact :=
  { f with invalidAt := some now, expiredAt := some now, supersededBy := some survivor }

def supersedeNearDuplicate (l : Ledger) (loser survivor : Nat) (recordedAt : String) :
    Except Raised Ledger :=
  l.amendOne (fun f => f.factId = loser && f.current) (Fact.supersede recordedAt survivor)
    ⟨.runtimeError, "near-duplicate candidate is no longer active"⟩

/-- Keep corrections and stronger sources out of implicit supersession; a missing authority
reads as zero here. -/
def Fact.protectedFrom (f : Fact) (r : WriteRequest) : Bool :=
  f.isState || f.correctionStatus = some "human_corrected" ||
    f.correctionStatus = some "human_confirmed" || r.sourceAuthority < f.sourceAuthority.getD 0

def nearDuplicateCandidateIsProtected (l : Ledger) (factId : Nat) (r : WriteRequest) :
    Except Raised Bool :=
  match (l.fact factId).filter Fact.current with
  | some f => .ok (f.protectedFrom r)
  | none => .error ⟨.runtimeError, "near-duplicate candidate is no longer active"⟩

/-- `(request.trust_score, recorded_at) > (candidate.trust_score, candidate.created_at)`. -/
def NearDuplicateCandidate.outrankedBy (c : NearDuplicateCandidate) (r : WriteRequest)
    (recordedAt : String) : Bool :=
  c.trustScore < r.trustScore || (c.trustScore = r.trustScore && c.createdAt < recordedAt)

/-- Keep one fact active and retain the other in its history chain. -/
def mergeNearDuplicate (l : Ledger) (inserted : Nat) (candidate : NearDuplicateCandidate)
    (r : WriteRequest) (recordedAt : String) :
    Except Raised (Ledger × FactWriteResult × Option Nat) := do
  let isProtected ← nearDuplicateCandidateIsProtected l candidate.factId r
  if !isProtected && candidate.outrankedBy r recordedAt then
    let l ← supersedeNearDuplicate l candidate.factId inserted recordedAt
    .ok (l, ⟨inserted, .nearDedup, candidate.factId⟩, some inserted)
  else
    let l ← supersedeNearDuplicate l inserted candidate.factId recordedAt
    .ok (l, ⟨candidate.factId, .nearDedup, candidate.factId⟩, none)

def Fact.persistExtracted (fields : ExtractedTypedFields) (f : Fact) : Fact :=
  { f with
    memoryKind := some fields.kind
    subjectKey := some fields.subjectKey
    predicateKey := some fields.predicateKey
    objectValue := fields.objectValue
    confidence := some fields.confidence
    validFrom := fields.validFrom }

def persistNonstateExtractedTypedFields (l : Ledger) (factId : Nat) (fields : ExtractedTypedFields) :
    Except Raised Ledger := do
  ensure (fields.kind ≠ .state)
    ⟨.runtimeError, "state extraction must use state-slot persistence"⟩
  l.amendOne (fun f => f.factId = factId && f.current) (Fact.persistExtracted fields)
    ⟨.runtimeError, "fact writer returned an unusable typed fact"⟩

def persistExtracted (l : Ledger) (factId : Nat) :
    Option ExtractedTypedFields → Except Raised Ledger
  | some fields => persistNonstateExtractedTypedFields l factId fields
  | none => .ok l

def unavailableTarget : Raised :=
  ⟨.valueError, "superseded fact is unavailable or no longer current"⟩

def supersedeIfRequested (l : Ledger) (oldFactId : Option Nat) (newFactId : Nat) (now : String) :
    Except Raised (Ledger × Bool) :=
  match oldFactId with
  | none => .ok (l, false)
  | some old => do
    ensure (old ≠ newFactId) ⟨.valueError, "a fact cannot supersede itself"⟩
    match l.fact newFactId with
    | none => .error ⟨.runtimeError, "replacement fact is unavailable"⟩
    | some replacement =>
      match (l.fact old).filter (·.scope = replacement.scope) with
      | none => .error unavailableTarget
      | some target =>
        ensure (!target.isState && target.conflictGroup.isNone)
          ⟨.valueError, "typed or conflicted facts require their dedicated resolution path"⟩
        let l ← l.amendOne (fun f => f.factId = old && f.scope = replacement.scope && f.current)
          (Fact.supersede now newFactId) unavailableTarget
        .ok (l, true)

/-! ## Typed mutations -/

def Ledger.groupsOf (l : Ledger) (factIds : List Nat) : List Nat :=
  ((l.facts.filter fun f => factIds.contains f.factId).filterMap Fact.conflictGroup).dedup

/-- `SET invalid_at = ?, expired_at = ?, valid_to = COALESCE(valid_to, ?)`. -/
def Fact.close (now : String) (closeValidTo : Option String) (f : Fact) : Fact :=
  { f with invalidAt := some now, expiredAt := some now, validTo := f.validTo <|> closeValidTo }

/-- What a decision does before the new fact is inserted: the conflict it joins, if any. -/
def prepareStateMutation (l : Ledger) (decision : SlotDecision) (now : String)
    (closeValidTo : Option String) : Except Raised (Ledger × Option Nat) :=
  match decision.action, decision.targetFactId with
  | .supersede, none =>
    match l.groupsOf decision.currentFactIds with
    | [group] => .ok (l, some group)
    | _ => .error ⟨.runtimeError, "conflict resolution must target one unresolved conflict"⟩
  | .supersede, some target => do
    let l ← l.amendOne
      (fun f => f.factId = target && f.scope = decision.scope && f.current && f.conflictGroup.isNone)
      (Fact.close now closeValidTo)
      ⟨.runtimeError, "state supersession target is no longer current"⟩
    .ok (l, none)
  | .conflict, _ =>
    match l.groupsOf decision.currentFactIds with
    | [] => do
      let (l, conflictId) ← openStateConflict rt l decision.subjectKey decision.predicateKey
        decision.currentFactIds decision.scope now [("reason", .str decision.reason)]
      .ok (l, some conflictId)
    | [group] => .ok (l, some group)
    | _ => .error ⟨.runtimeError, "state slot spans multiple unresolved conflicts"⟩
  | _, _ => .ok (l, none)

def Fact.persistState (c : StateCandidate) (conflictId : Option Nat) (confidence : Option Rat)
    (closedAt : String) (f : Fact) : Fact :=
  { f with
    memoryKind := some .state
    subjectKey := some c.subjectKey
    predicateKey := some c.predicateKey
    objectValue := c.objectValue
    sourceAuthority := some c.sourceAuthority
    validFrom := c.validFrom
    scope := c.scope
    conflictGroup := conflictId
    confidence := confidence
    validTo := c.validTo
    invalidAt := if c.validTo.isSome then some closedAt else f.invalidAt }

def persistStateCandidate (l : Ledger) (factId : Nat) (c : StateCandidate) (conflictId : Option Nat)
    (confidence : Option Rat) (closedAt : String) : Except Raised Ledger := do
  let stored (f : Fact) : Bool := f.factId = factId && f.current
  let l' ← l.admitted (Table.amend stored (Fact.persistState c conflictId confidence closedAt) l.facts)
  ensure (Table.matching stored l.facts = 1)
    ⟨.runtimeError, "fact writer returned an unusable state fact"⟩
  .ok l'

def finishStateSupersession (l : Ledger) (old : Nat) (newFactId : Nat) : Except Raised Ledger :=
  l.amendOne (fun f => f.factId = old && f.invalidAt.isSome && f.supersededBy.isNone)
    ({ · with supersededBy := some newFactId })
    ⟨.runtimeError, "could not finalize state supersession"⟩

end Enfold
