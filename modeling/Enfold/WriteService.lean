import Enfold.Foundation.Batch
import Enfold.Mutations

/-! One complete durable write, and an ordered batch of them, over an explicit store. A raised
error carries no store: the transaction is rolled back and the caller keeps the old one. -/
namespace Enfold

open Fallible

variable (rt : Runtime)

/-- The parts of an embedding outbox the write path reads. -/
structure EmbeddingSpec where
  documentIdentity : String
  embeddingVersion : String
  dimensions : Nat
  deriving DecidableEq, Repr

/-- A service over one connection; `legacyAuthorized` is the context flag of the legacy
extraction identity. -/
structure WriteService where
  policy : MemoryPolicy
  embeddingEnqueue : Option EmbeddingSpec
  nearDedup : NearDedupConfig
  queryEmbedder : Option (String → Except Raised (List Rat))
  legacyAuthorized : Bool

def WriteService.ofPolicy (policy : MemoryPolicy) : WriteService where
  policy := policy
  embeddingEnqueue := none
  nearDedup := .standard none
  queryEmbedder := none
  legacyAuthorized := false

/-! ## Registration and the write log -/

def registerClient (s : Store) (context : ConnectionContext) (now : String) : Except Raised Store :=
  match s.clients.find? (·.clientId = context.clientId) with
  | none => .ok { s with clients := s.clients ++
      [⟨context.clientId, context.surface, context.displayName, now, none⟩] }
  | some client => do
    ensure (client.surface = context.surface) ⟨.clientIdentityConflict,
      "client_id is already registered to a different surface"⟩
    ensure client.disabledAt.isNone ⟨.permissionError, "memory client is disabled"⟩
    .ok s

def ConnectionContext.session (context : ConnectionContext) (now : String) : Session :=
  ⟨context.sessionId, context.clientId, context.agentId, context.parentAgentId, context.projectRoot,
    context.repository, context.branch, context.commitSha, context.capabilities,
    context.accessScopes, match context.startedAt with
      | some text => if text = "" then now else text
      | none => now⟩

/-- The columns that must not change while a session lives. -/
def Session.sameContext (session : Session) (context : ConnectionContext) : Bool :=
  session.agentId = context.agentId && session.parentAgentId = context.parentAgentId &&
    session.projectRoot = context.projectRoot && session.repository = context.repository &&
    session.capabilities = context.capabilities && session.accessScopes = context.accessScopes

def Session.isOf (session : Session) (context : ConnectionContext) : Bool :=
  session.clientId = context.clientId && session.sessionId = context.sessionId

/-- Branch and commit advance during one session; everything else is immutable. -/
def registerSession (s : Store) (context : ConnectionContext) (now : String) : Except Raised Store :=
  match s.sessions.find? (·.isOf context) with
  | none => .ok { s with sessions := s.sessions ++ [context.session now] }
  | some session => do
    ensure (session.sameContext context) ⟨.sessionContextConflict,
      "client_id/session_id was reused with different connection context"⟩
    let advance (session : Session) : Session :=
      { session with branch := context.branch, commitSha := context.commitSha }
    .ok { s with sessions := Table.amend (·.isOf context) advance s.sessions }

def loadPrior (s : Store) (clientId idempotencyKey : String) : Option WriteLogRow :=
  s.writeLog.find? fun row => row.clientId = clientId && row.idempotencyKey = idempotencyKey

def outcomeFromRow (row : WriteLogRow) (replayed : Bool) : WriteOutcome :=
  ⟨row.writeId, row.outcome, row.factId, row.existingFactId, row.observationId, replayed, row.detail⟩

/-- One row of the log, unique in `(client_id, idempotency_key)`. -/
def insertWriteLog (s : Store) (context : ConnectionContext) (request : WriteRequest)
    (candidate : Option StateCandidate) (recordedAt : String) (outcome : Outcome)
    (factId existingFactId observationId : Option Nat) (detail : JsonObject) :
    Except Raised (Store × WriteOutcome) := do
  ensure (loadPrior s context.clientId request.idempotencyKey).isNone
    ⟨.integrityError, "UNIQUE constraint failed: memory_write_log"⟩
  .ok ({ s with
      nextWriteId := s.nextWriteId + 1
      writeLog := s.writeLog ++ [⟨s.nextWriteId, request.idempotencyKey, context.clientId,
        context.sessionId, request.operation, outcome, factId, existingFactId, observationId,
        recordedAt, requestSha256 context request candidate, detail⟩] },
    ⟨s.nextWriteId, outcome, factId, existingFactId, observationId, false, detail⟩)

def environmentalRejectionReasons : List String :=
  ["requested write scope is not server-authorized", "sensitive durable write is not authorized"]

/-- Persist only rejections that are a function of the request body. -/
def factlessDecisionIsDurable (decision : PolicyDecision) : Bool :=
  decision.outcome = .rejected && !environmentalRejectionReasons.contains decision.reason

def PolicyDecision.detail (decision : PolicyDecision) : JsonObject :=
  [("policy_reason", .str decision.reason)]

/-- A factless decision: durable ones take a log row, the others do not consume the key. -/
def concludeFactless (s : Store) (context : ConnectionContext) (request : WriteRequest)
    (candidate : Option StateCandidate) (recordedAt : String) (decision : PolicyDecision) :
    Except Raised (Store × WriteOutcome) :=
  if factlessDecisionIsDurable decision then
    insertWriteLog s context request candidate recordedAt decision.outcome none none none
      decision.detail
  else .ok ({ s with nextWriteId := s.nextWriteId + 1 },
    ⟨s.nextWriteId, decision.outcome, none, none, none, false, decision.detail⟩)

/-! ## The decision -/

def requestDecision (policy : MemoryPolicy) (context : ConnectionContext) (l : Ledger)
    (request : WriteRequest) (candidate : Option StateCandidate) :
    Except Raised (Option PolicyDecision) := do
  let sensitiveFields := match candidate with
    | none => []
    | some c => [c.subjectKey, c.predicateKey, c.objectValue.getD ""].filter (· ≠ "")
  match ← policy.evaluateWrite rt request context.clientId sensitiveFields with
  | some decision => .ok (some decision)
  | none =>
    if !scopeAuthorized request.scope context.accessScopes then
      .ok (some (.rejected "requested write scope is not server-authorized"))
    else if request.sensitivity = "sensitive" && !context.accessScopes.contains "sensitive" then
      .ok (some (.rejected "sensitive durable write is not authorized" PolicyDecision.sensitiveStated))
    else .ok (supersessionPolicy l request none none)

/-- An undated candidate takes the observation time, except from automatic extraction. -/
def effectiveCandidate (request : WriteRequest) (c : StateCandidate) : Except Raised StateCandidate :=
  if c.validFrom.isNone && (request.observedAt.getD "") ≠ "" &&
      request.sourceType ≠ "automatic_extraction" then
    StateCandidate.postInit rt { c with validFrom := request.observedAt }
  else .ok c

/-- An authorized human correction resolves the conflict its slot is in; a client without that
authority only joins it. -/
def resolutionAuthority (policy : MemoryPolicy) (context : ConnectionContext) (l : Ledger)
    (request : WriteRequest) (decision : SlotDecision) : SlotDecision :=
  let canResolve := policy.canResolveConflicts context.clientId
  let decision :=
    if decision.action = .conflict && request.claimsCorrection && canResolve &&
        (l.groupsOf decision.currentFactIds).length = 1 then
      { decision with
        action := .supersede
        targetFactId := none
        reason := "explicit human correction resolves open conflict" }
    else decision
  if decision.action = .supersede && decision.targetFactId.isNone && !canResolve then
    { decision with
      action := .conflict
      reason := "client is not authorized to resolve open conflict" }
  else decision

def slotSupersessionPolicy (l : Ledger) (request : WriteRequest) (effective : StateCandidate)
    (decision : SlotDecision) : Option PolicyDecision :=
  if decision.action ≠ .supersede then none
  else
    let overMembers :=
      if decision.targetFactId.isNone && !request.claimsCorrection then
        decision.currentFactIds.findSome? fun factId =>
          supersessionPolicy l request (some factId) (some effective.sourceAuthority)
      else none
    overMembers <|>
      supersessionPolicy l request decision.targetFactId (some effective.sourceAuthority)

inductive Verdict where
  | factless (decision : PolicyDecision)
  | untyped
  | typed (decision : SlotDecision) (effective : StateCandidate)

def verdict (policy : MemoryPolicy) (context : ConnectionContext) (l : Ledger)
    (request : WriteRequest) (candidate : Option StateCandidate) : Except Raised Verdict := do
  let decision ← requestDecision rt policy context l request candidate
  match candidate with
  | none => match decision with
    | some decision => .ok (.factless decision)
    | none => .ok .untyped
  | some c =>
    let effective ← effectiveCandidate rt request c
    match decision with
    | some decision => .ok (.factless decision)
    | none =>
      let slot ← decideStateWrite rt l effective
      let slot := resolutionAuthority policy context l request slot
      match slotSupersessionPolicy l request effective slot with
      | some decision => .ok (.factless decision)
      | none => .ok (.typed slot effective)

/-! ## Applying -/

structure Applied where
  ledger : Ledger
  result : FactWriteResult
  enqueue : Option Nat
  conflictId : Option Nat
  resolution : Option ConflictResolution
  contradiction : Option UntypedContradiction
  nearDuplicate : Option NearDuplicateCandidate

inductive UntypedMatch where
  | duplicate (factId : Nat)
  | contradiction (found : UntypedContradiction)
  | nearDuplicate (candidate : NearDuplicateCandidate)
  | fresh
  deriving DecidableEq, Repr

def findUntypedNearDuplicate (svc : WriteService) (s : Store) (request : WriteRequest)
    (query : Option (List Rat)) : Option NearDuplicateCandidate :=
  match query, svc.queryEmbedder, svc.nearDedup.embeddingIdentity with
  | some vector, some _, some identity =>
    if svc.nearDedup.enabled then
      greatest NearDuplicateCandidate.below
        (findWriteNearDuplicates rt s request.content request.scope vector svc.nearDedup identity)
    else none
  | _, _, _ => none

def untypedMatch (svc : WriteService) (s : Store) (request : WriteRequest)
    (extracted : Option ExtractedTypedFields) (query : Option (List Rat)) : UntypedMatch :=
  match findUntypedExactDuplicate s.toLedger request with
  | some factId => .duplicate factId
  | none =>
    if extracted.isSome || request.supersedeFactId.isSome then .fresh
    else match findUntypedContradiction s.toLedger request with
      | some found => .contradiction found
      | none => match findUntypedNearDuplicate rt svc s request query with
        | none => .fresh
        | some candidate =>
          match contradictionFromNearDuplicate s.toLedger request candidate with
          | some found => .contradiction found
          | none => .nearDuplicate candidate

def applyUntyped (l : Ledger) (request : WriteRequest) (extracted : Option ExtractedTypedFields)
    (found : UntypedMatch) (clock : Clock) : Except Raised Applied :=
  match found with
  | .duplicate factId => .ok ⟨l, ⟨factId, .dedup, factId⟩, none, none, none, none, none⟩
  | .fresh => do
    let (l, factId) ← factWriter l request clock.insertedAt
    let l ← persistExtracted l factId extracted
    .ok ⟨l, ⟨factId, .inserted, none⟩, some factId, none, none, none, none⟩
  | .contradiction found => do
    let (l, factId) ← factWriter l request clock.insertedAt
    let (l, conflictId) ← openUntypedWriteConflict rt l found factId request clock.recordedAt
    .ok ⟨l, ⟨factId, .conflict, found.factId⟩, some factId, some conflictId, none, some found, none⟩
  | .nearDuplicate candidate => do
    let (l, factId) ← factWriter l request clock.insertedAt
    let (l, result, enqueue) ← mergeNearDuplicate l factId candidate request clock.recordedAt
    .ok ⟨l, result, enqueue, none, none, none, some candidate⟩

def DecisionAction.outcome : DecisionAction → Outcome
  | .add => .add
  | .dedup => .dedup
  | .supersede => .supersede
  | .conflict => .conflict

/-- `asserted_by or performed_by or agent_id`: the first text that is not empty. -/
def resolvedByOf (context : ConnectionContext) (request : WriteRequest) : String :=
  (([request.assertedBy, request.performedBy].filterMap id).find? (· ≠ "")).getD context.agentId

def settleState (l : Ledger) (context : ConnectionContext) (request : WriteRequest)
    (decision : SlotDecision) (conflictId : Option Nat) (factId : Nat) (recordedAt : String) :
    Except Raised (Ledger × Option ConflictResolution) :=
  match decision.action, conflictId with
  | .supersede, none =>
    match decision.targetFactId with
    | none => .error ⟨.runtimeError, "supersession decision has no target"⟩
    | some target => do
      let l ← finishStateSupersession l target factId
      .ok (l, none)
  | .supersede, some conflictId => do
    let l ← addConflictMember l conflictId factId
    let (l, resolution) ← resolveStateConflict rt l conflictId factId
      (resolvedByOf context request) decision.reason recordedAt
    .ok (l, some resolution)
  | .conflict, none => .error ⟨.runtimeError, "state conflict group was not established"⟩
  | .conflict, some conflictId => do
    let l ← addConflictMember l conflictId factId
    .ok (l, none)
  | _, _ => .ok (l, none)

def SlotDecision.evidence (decision : SlotDecision) : Option Nat :=
  if decision.action = .dedup || decision.action = .conflict then decision.targetFactId else none

def applyTyped (l : Ledger) (context : ConnectionContext) (request : WriteRequest)
    (extracted : Option ExtractedTypedFields) (decision : SlotDecision) (effective : StateCandidate)
    (clock : Clock) : Except Raised Applied :=
  match decision.evidence with
  | some target =>
    let conflictId :=
      if decision.action = .conflict then (l.fact target).bind Fact.conflictGroup else none
    .ok ⟨l, ⟨target, decision.action.outcome, target⟩, none, conflictId, none, none, none⟩
  | none => do
    let (l, conflictId) ← prepareStateMutation rt l decision clock.recordedAt effective.validFrom
    let (l, factId) ← factWriter l request clock.insertedAt
    let l ← persistStateCandidate l factId effective conflictId
      (extracted.map ExtractedTypedFields.confidence) clock.closedAt
    let (l, resolution) ←
      settleState rt l context request decision conflictId factId clock.recordedAt
    .ok ⟨l, ⟨factId, decision.action.outcome, none⟩, some factId, conflictId, resolution, none,
      none⟩

/-! ## Evidence, jobs and detail -/

def nextRowid (ids : List Nat) : Nat := ids.foldl max 0 + 1

def Observation.sameKey (o : Observation) (context : ConnectionContext) (request : WriteRequest) :
    Bool :=
  o.clientId = context.clientId &&
    o.contentSha256 = .sha256 (observationSha256 context request) &&
    o.sessionId = context.sessionId && o.sourceType = request.sourceType

def recordObservation (s : Store) (context : ConnectionContext) (request : WriteRequest)
    (now : String) : Store × Nat :=
  match s.observations.find? (·.sameKey context request) with
  | some o => (s, o.observationId)
  | none =>
    let observationId := nextRowid (s.observations.map Observation.observationId)
    ({ s with observations := s.observations ++
        [{ observationId, clientId := context.clientId, sessionId := context.sessionId
           sourceType := request.sourceType, sourceUri := request.sourceUri
           projectRoot := context.projectRoot, repository := context.repository
           branch := context.branch, commitSha := context.commitSha
           content := request.observed
           contentSha256 := .sha256 (observationSha256 context request)
           assertedBy := request.assertedBy, performedBy := request.performedBy
           observedAt := request.observedAt, recordedAt := now, scope := request.scope
           sensitivity := request.sensitivity, redactedAt := none
           metadata := request.metadata }] }, observationId)

def attachProvenance (s : Store) (factId observationId : Nat) (request : WriteRequest)
    (now : String) : Store :=
  if s.provenance.any fun p =>
      p.factId = factId && p.observationId = observationId && p.relation = request.relation
  then s
  else { s with provenance := s.provenance ++
    [⟨factId, observationId, request.relation, request.evidenceExcerpt, now⟩] }

/-- A completed job is revived only when its vector is missing. -/
def EmbeddingJob.revivable (job : EmbeddingJob) (embeddings : List Embedding) (spec : EmbeddingSpec) :
    Bool :=
  job.status = .completed && !embeddings.any fun e =>
    e.factId = job.factId && e.embeddingIdentity = spec.documentIdentity && e.dim = spec.dimensions

/-- `EmbeddingOutbox.enqueue_in_transaction`. -/
def enqueueInTransaction (s : Store) (spec : EmbeddingSpec) (factId : Nat) (now : String) :
    Except Raised Store :=
  match s.fact factId with
  | none => .error ⟨.runtimeError, "cannot enqueue an embedding for a missing fact"⟩
  | some f =>
    let sameKey (job : EmbeddingJob) : Bool :=
      job.factId = factId && job.documentIdentity = spec.documentIdentity
    let revive (job : EmbeddingJob) : EmbeddingJob :=
      { job with
        contentSha256 := rt.sha256 f.content, embeddingVersion := spec.embeddingVersion
        dimensions := spec.dimensions, status := .pending, attempts := 0, availableAt := now
        leaseToken := none, leaseOwner := none, leaseExpiresAt := none, lastError := none
        completedAt := none, updatedAt := now }
    let due (job : EmbeddingJob) : Bool := sameKey job && job.revivable s.embeddings spec
    if s.jobs.any sameKey then .ok { s with jobs := Table.amend due revive s.jobs }
    else .ok { s with jobs := s.jobs ++
      [{ jobId := nextRowid (s.jobs.map EmbeddingJob.jobId), factId
         documentIdentity := spec.documentIdentity, embeddingVersion := spec.embeddingVersion
         dimensions := spec.dimensions, contentSha256 := rt.sha256 f.content, status := .pending
         attempts := 0, availableAt := now, leaseToken := none, leaseOwner := none
         leaseExpiresAt := none, lastError := none, createdAt := now, updatedAt := now
         completedAt := none }] }

def recordResolution (s : Store) (r : ConflictResolution) (clientId sessionId agentId : String) :
    Except Raised Store := do
  let clientId ← required clientId "resolver_client_id"
  let sessionId ← required sessionId "resolver_session_id"
  let agentId ← required agentId "resolver_agent_id"
  ensure (!s.resolutions.any (·.conflictId = r.conflictId))
    ⟨.integrityError, "UNIQUE constraint failed: fact_conflict_resolutions.conflict_id"⟩
  ensure (s.sessions.any fun session =>
      session.clientId = clientId && session.sessionId = sessionId)
    ⟨.integrityError, "FOREIGN KEY constraint failed"⟩
  .ok { s with resolutions := s.resolutions ++
    [⟨r.conflictId, r.resolutionFactId, clientId, sessionId, agentId, r.reason, r.resolvedAt⟩] }

def authorizeFactScope (l : Ledger) (factId : Nat) (requestedScope : String) : Except Raised Unit :=
  match l.fact factId with
  | none => .error ⟨.runtimeError, "fact writer returned a missing fact"⟩
  | some f => ensure (f.scope = requestedScope)
      ⟨.permissionError, "fact writer persisted a different memory scope"⟩

/-- `round(value, 6)`, half to even. -/
def round6 (value : Rat) : Rat :=
  let scaled := value * 1000000
  let down := scaled.floor
  let rest := scaled - down
  let nearest := if rest < 1 / 2 || (rest = 1 / 2 && down % 2 = 0) then down else down + 1
  nearest / 1000000

def slotDetail (scope subjectKey predicateKey : String) : Json :=
  .obj [("scope", .str scope), ("subject_key", .str subjectKey), ("predicate_key", .str predicateKey)]

def DecisionAction.text : DecisionAction → String
  | .add => "add"
  | .dedup => "dedup"
  | .supersede => "supersede"
  | .conflict => "conflict"

def optionalId : Option Nat → Json
  | some factId => .int factId
  | none => .null

def untypedDetail (request : WriteRequest) (applied : Applied) (superseded : Bool) : JsonObject :=
  (match applied.nearDuplicate with
    | some c => [("near_duplicate", .obj [("candidate_fact_id", .int c.factId),
        ("cosine", .float (round6 c.cosine)), ("survivor_fact_id", .int applied.result.factId)])]
    | none => []) ++
  (if superseded then [("superseded_fact_id", optionalId request.supersedeFactId)] else []) ++
  (match applied.contradiction, applied.conflictId with
    | some c, some conflictId => [("conflict_id", .int conflictId),
        ("member_fact_ids", .arr ([c.factId, applied.result.factId].dedup.insertionSort (· ≤ ·)
          |>.map fun factId => .int factId)),
        ("conflict_slot", slotDetail request.scope c.subjectKey c.predicateKey)]
    | _, _ => [])

def typedDetail (decision : SlotDecision) (applied : Applied) : JsonObject :=
  [("state_action", .str decision.action.text),
   ("state_slot", slotDetail decision.scope decision.subjectKey decision.predicateKey)] ++
  (if decision.action = .supersede then [("superseded_fact_id", optionalId decision.targetFactId)]
    else []) ++
  (match applied.conflictId with
    | some conflictId => [("conflict_id", .int conflictId)]
    | none => [])

/-! ## The write -/

def recordResolved (s : Store) (context : ConnectionContext) :
    Option ConflictResolution → Except Raised Store
  | some resolution =>
    recordResolution s resolution context.clientId context.sessionId context.agentId
  | none => .ok s

def enqueueApplied (svc : WriteService) (s : Store) (factId : Option Nat) (now : String) :
    Except Raised Store :=
  match factId, svc.embeddingEnqueue with
  | some factId, some spec => enqueueInTransaction rt s spec factId now
  | _, _ => .ok s

/-- Only an untyped write may name the fact it supersedes. -/
def supersedeApplied (l : Ledger) (request : WriteRequest) (candidate : Option StateCandidate)
    (factId : Nat) (now : String) : Except Raised (Ledger × Bool) :=
  match candidate with
  | some _ => .ok (l, false)
  | none => supersedeIfRequested l request.supersedeFactId factId now

/-- Everything behind the ledger change: resolution row, embedding job, scope check, provenance,
explicit supersession and the log row. -/
def concludeApplied (svc : WriteService) (context : ConnectionContext) (clock : Clock) (s : Store)
    (request : WriteRequest) (candidate : Option StateCandidate) (observationId : Nat)
    (decision : Option SlotDecision) (applied : Applied) : Except Raised (Store × WriteOutcome) := do
  let s ← recordResolved { s with toLedger := applied.ledger } context applied.resolution
  let s ← enqueueApplied rt svc s applied.enqueue clock.queuedAt
  authorizeFactScope s.toLedger applied.result.factId request.scope
  let s := attachProvenance s applied.result.factId observationId request clock.recordedAt
  let (l, superseded) ←
    supersedeApplied s.toLedger request candidate applied.result.factId clock.recordedAt
  let detail := match decision with
    | some decision => typedDetail decision applied
    | none => untypedDetail request applied superseded
  insertWriteLog { s with toLedger := l } context request candidate clock.recordedAt
    applied.result.outcome applied.result.factId applied.result.existingFactId observationId detail

/-- The part of a write that follows the idempotency lookup. -/
def writeFresh (svc : WriteService) (context : ConnectionContext) (clock : Clock) (s : Store)
    (request : WriteRequest) (candidate : Option StateCandidate)
    (extracted : Option ExtractedTypedFields) (query : Option (List Rat)) :
    Except Raised (Store × WriteOutcome) := do
  match ← verdict rt svc.policy context s.toLedger request candidate with
  | .factless decision => concludeFactless s context request candidate clock.recordedAt decision
  | .untyped =>
    let (s, observationId) := recordObservation s context request clock.recordedAt
    let applied ← applyUntyped rt s.toLedger request extracted
      (untypedMatch rt svc s request extracted query) clock
    concludeApplied rt svc context clock s request candidate observationId none applied
  | .typed decision effective =>
    let (s, observationId) := recordObservation s context request clock.recordedAt
    let applied ← applyTyped rt s.toLedger context request extracted decision effective clock
    concludeApplied rt svc context clock s request candidate observationId (some decision) applied

def transact (svc : WriteService) (context : ConnectionContext) (clock : Clock) (s : Store)
    (request : WriteRequest) (candidate : Option StateCandidate)
    (extracted : Option ExtractedTypedFields) (query : Option (List Rat)) :
    Except Raised (Store × WriteOutcome) := do
  let s ← registerClient s context clock.recordedAt
  let s ← registerSession s context clock.recordedAt
  match loadPrior s context.clientId request.idempotencyKey with
  | some prior =>
    if prior.requestSha256 ≠ requestSha256 context request candidate then
      .error ⟨.idempotencyConflict, "idempotency key was already used for a different request"⟩
    else .ok (s, outcomeFromRow prior true)
  | none => writeFresh rt svc context clock s request candidate extracted query

def embedderFailureTolerated (kind : ErrorKind) : Bool :=
  kind.isValueError || kind.isPermissionError ||
    kind ∈ [.typeError, .databaseError, .integrityError, .storedEmbeddingError, .urlError,
      .timeoutError, .osError]

/-- Whether the write could still reach the near-duplicate search, judged before its
transaction. -/
def wantsNearDedupQuery (svc : WriteService) (context : ConnectionContext) (s : Store)
    (request : WriteRequest) (candidate : Option StateCandidate)
    (policyDecision : Option PolicyDecision) : Bool :=
  candidate.isNone && request.supersedeFactId.isNone && policyDecision.isNone &&
    scopeAuthorized request.scope context.accessScopes &&
    !(request.sensitivity = "sensitive" && !context.accessScopes.contains "sensitive") &&
    (supersessionPolicy s.toLedger request none none).isNone && svc.nearDedup.enabled &&
    svc.nearDedup.embeddingIdentity.isSome &&
    (loadPrior s context.clientId request.idempotencyKey).isNone &&
    (findUntypedExactDuplicate s.toLedger request).isNone &&
    request.correctionStatus ≠ some "unreviewed"

/-- Compute the query embedding before transaction ownership. -/
def prepareNearDedupQuery (svc : WriteService) (context : ConnectionContext) (s : Store)
    (request : WriteRequest) (candidate : Option StateCandidate) :
    Except Raised (Option (List Rat)) := do
  let policyDecision ← svc.policy.evaluateWrite rt request context.clientId []
  match svc.queryEmbedder with
  | none => .ok none
  | some embed =>
    if wantsNearDedupQuery svc context s request candidate policyDecision then
      match embed request.content with
      | .ok vector => .ok (some vector)
      | .error raised =>
        if embedderFailureTolerated raised.kind then .ok none else .error raised
    else .ok none

/-- A write whose near-dedup query the caller prepared, inside the caller's transaction. -/
def writePrepared (svc : WriteService) (context : ConnectionContext) (clock : Clock) (s : Store)
    (request : WriteRequest) (candidate : Option StateCandidate) (query : Option (List Rat)) :
    Except Raised (Store × WriteOutcome) := do
  let context ← svc.policy.authorizeContext rt svc.legacyAuthorized context
  validateStateCandidate request candidate
  let extracted ← extractedTypedFields rt request candidate
  transact rt svc context clock s request candidate extracted query

/-- `MemoryWriteService.write`. -/
def write (svc : WriteService) (context : ConnectionContext) (clock : Clock) (s : Store)
    (request : WriteRequest) (candidate : Option StateCandidate) :
    Except Raised (Store × WriteOutcome) := do
  let context ← svc.policy.authorizeContext rt svc.legacyAuthorized context
  validateStateCandidate request candidate
  let extracted ← extractedTypedFields rt request candidate
  let query ← prepareNearDedupQuery rt svc context s request candidate
  transact rt svc context clock s request candidate extracted query

/-! ## Batches -/

structure TimedWrite where
  clock : Clock
  item : WriteItem rt

structure WriteBatchOutcome where
  outcomes : List WriteOutcome
  committed : Bool
  deriving DecidableEq, Repr

def prepareBatch (svc : WriteService) (context : ConnectionContext) (s : Store)
    (writes : List (TimedWrite rt)) : Except Raised (List (TimedWrite rt × Option (List Rat))) :=
  writes.mapM fun w => do
    let query ← prepareNearDedupQuery rt svc context s w.item.request w.item.candidate
    .ok (w, query)

def batchStep (svc : WriteService) (context : ConnectionContext) (s : Store)
    (item : TimedWrite rt × Option (List Rat)) : Except Raised (Store × WriteOutcome) :=
  writePrepared rt svc context item.1.clock s item.1.item.request item.1.item.candidate item.2

/-- `MemoryWriteService.write_batch`; `beforeCommit` runs on the batch's own transaction. -/
def writeBatch (svc : WriteService) (context : ConnectionContext) (s : Store)
    (writes : List (TimedWrite rt)) (rollbackIf : WriteOutcome → Bool)
    (beforeCommit : Store → Except Raised Store) : Except Raised (Store × WriteBatchOutcome) := do
  ensure (writes ≠ []) ⟨.valueError, "writes must not be empty"⟩
  let context ← svc.policy.authorizeContext rt svc.legacyAuthorized context
  let prepared ← prepareBatch rt svc context s writes
  match ← Batch.run (batchStep rt svc context) rollbackIf s prepared with
  | (none, outcomes) => .ok (s, ⟨outcomes, false⟩)
  | (some done, outcomes) =>
    let done ← beforeCommit done
    .ok (done, ⟨outcomes, true⟩)

end Enfold
