import Enfold.Runtime
import Enfold.Foundation.Table

/-! The tables of a schema-current store, one structure a row. Text columns stay text, so a
stored timestamp is exactly what was written. `uuid4` values are numbered in the order they
are drawn, which keeps every new one different from those stored. -/
namespace Enfold

inductive MemoryKind where
  | state | preference | commitment | event | fact
  deriving DecidableEq, Repr

structure Fact where
  factId : Nat
  content : String
  category : String
  tags : String
  trustScore : Rat
  retrievalCount : Nat
  helpfulCount : Nat
  createdAt : String
  validFrom : Option String
  validTo : Option String
  invalidAt : Option String
  expiredAt : Option String
  supersededBy : Option Nat
  memoryKind : Option MemoryKind
  subjectKey : Option String
  predicateKey : Option String
  objectValue : Option String
  confidence : Option Rat
  sourceAuthority : Option Rat
  scope : String
  sensitivity : String
  correctionStatus : Option String
  conflictGroup : Option Nat
  deriving DecidableEq, Repr

/-- `fact_conflicts`. -/
structure Conflict where
  conflictId : Nat
  scope : String
  subjectKey : String
  predicateKey : String
  detectedAt : String
  resolvedAt : Option String
  resolutionFactId : Option Nat
  resolvedBy : Option String
  resolutionReason : Option String
  detail : JsonObject
  deriving DecidableEq, Repr

/-- `fact_conflict_members`. -/
structure Member where
  conflictId : Nat
  factId : Nat
  deriving DecidableEq, Repr

/-- `fact_conflict_resolutions`. -/
structure Resolution where
  conflictId : Nat
  resolutionFactId : Nat
  resolverClientId : String
  resolverSessionId : String
  resolverAgentId : String
  reason : String
  resolvedAt : String
  deriving DecidableEq, Repr

structure Client where
  clientId : String
  surface : String
  displayName : Option String
  createdAt : String
  disabledAt : Option String
  deriving DecidableEq, Repr

structure Session where
  sessionId : String
  clientId : String
  agentId : String
  parentAgentId : Option String
  projectRoot : Option String
  repository : Option String
  branch : Option String
  commitSha : Option String
  capabilities : List String
  accessScopes : List String
  startedAt : String
  deriving DecidableEq, Repr

/-- One durable fact write and the observation supporting it. -/
structure WriteRequest where
  idempotencyKey : String
  content : String
  sourceType : String
  category : String
  tags : String
  trustScore : Rat
  sourceAuthority : Rat
  sourceUri : Option String
  observationContent : Option String
  assertedBy : Option String
  performedBy : Option String
  observedAt : Option String
  scope : String
  sensitivity : String
  correctionStatus : Option String
  evidenceExcerpt : Option String
  relation : String
  metadata : JsonObject
  supersedeFactId : Option Nat
  operation : String
  deriving DecidableEq, Repr

structure StateCandidate where
  content : String
  subjectKey : String
  predicateKey : String
  objectValue : Option String
  sourceAuthority : Rat
  validFrom : Option String
  memoryKind : String
  scope : String
  validTo : Option String
  deriving DecidableEq, Repr

/-- `asdict(state_candidate)` without a `valid_to` that is `None`: here `none` is the absent
key. -/
structure StatePayload where
  content : String
  subjectKey : String
  predicateKey : String
  objectValue : Option String
  sourceAuthority : Rat
  validFrom : Option String
  memoryKind : String
  scope : String
  validTo : Option String
  deriving DecidableEq, Repr

/-- The object `_request_sha256` dumps and hashes. SHA-256 is read as injective, so the
column `request_sha256` keeps the hashed object itself. -/
structure RequestPayload where
  clientId : String
  request : WriteRequest
  stateCandidate : Option StatePayload
  deriving DecidableEq, Repr

/-- The object `_observation_sha256` dumps and hashes. -/
structure ObservationPayload where
  content : String
  sourceType : String
  sourceUri : Option String
  assertedBy : Option String
  performedBy : Option String
  observedAt : Option String
  scope : String
  sensitivity : String
  metadata : JsonObject
  projectRoot : Option String
  repository : Option String
  branch : Option String
  commitSha : Option String
  deriving DecidableEq, Repr

/-- The column `observations.content_sha256`: a digest, or the marker an erasure leaves. -/
inductive ObservationDigest where
  | sha256 (payload : ObservationPayload)
  | clone (erasureId observationId : Nat)
  | erased (erasureId observationId : Nat)
  deriving DecidableEq, Repr

structure Observation where
  observationId : Nat
  clientId : String
  sessionId : String
  sourceType : String
  sourceUri : Option String
  projectRoot : Option String
  repository : Option String
  branch : Option String
  commitSha : Option String
  content : String
  contentSha256 : ObservationDigest
  assertedBy : Option String
  performedBy : Option String
  observedAt : Option String
  recordedAt : String
  scope : String
  sensitivity : String
  redactedAt : Option String
  metadata : JsonObject
  deriving DecidableEq, Repr

/-- `fact_provenance`. -/
structure Provenance where
  factId : Nat
  observationId : Nat
  relation : String
  evidenceExcerpt : Option String
  createdAt : String
  deriving DecidableEq, Repr

inductive Outcome where
  | inserted | add | dedup | nearDedup | conflict | supersede | rejected | needsReview
  deriving DecidableEq, Repr

/-- `memory_write_log`. -/
structure WriteLogRow where
  writeId : Nat
  idempotencyKey : String
  clientId : String
  sessionId : String
  operation : String
  outcome : Outcome
  factId : Option Nat
  existingFactId : Option Nat
  observationId : Option Nat
  recordedAt : String
  requestSha256 : RequestPayload
  detail : JsonObject
  deriving DecidableEq, Repr

/-- `fact_embeddings`; the blob is the vector it decodes to. -/
structure Embedding where
  factId : Nat
  embedding : List Rat
  dim : Nat
  embeddingIdentity : String
  deriving DecidableEq, Repr

inductive JobStatus where
  | pending | processing | completed | deadLetter
  deriving DecidableEq, Repr

/-- `embedding_jobs`. -/
structure EmbeddingJob where
  jobId : Nat
  factId : Nat
  documentIdentity : String
  embeddingVersion : String
  dimensions : Nat
  contentSha256 : String
  status : JobStatus
  attempts : Nat
  availableAt : String
  leaseToken : Option String
  leaseOwner : Option String
  leaseExpiresAt : Option String
  lastError : Option String
  createdAt : String
  updatedAt : String
  completedAt : Option String
  deriving DecidableEq, Repr

inductive QueueStatus where
  | pending | processing | dead
  deriving DecidableEq, Repr

/-- `extract_queue`. -/
structure QueueRow where
  id : Nat
  createdAt : String
  payload : String
  status : QueueStatus
  payloadHash : Option String
  attempts : Nat
  lastError : Option String
  notBefore : Option Rat
  leaseOwner : Option String
  leaseUntil : Option Rat
  leaseToken : Option String
  proposalJson : Option String
  proposalHash : Option String
  deriving DecidableEq, Repr

/-- `privacy_erasure_log`. -/
structure ErasureRow where
  erasureId : Nat
  factId : Nat
  requestedBy : String
  reason : String
  erasedAt : String
  affectedObservations : Nat
  affectedEmbeddings : Nat
  affectedQueueRows : Nat
  deriving DecidableEq, Repr

/-- The rows that say which facts hold and which are in dispute, with the next ids
`facts` and `fact_conflicts` will take. -/
structure Ledger where
  facts : List Fact
  conflicts : List Conflict
  members : List Member
  nextFactId : Nat
  nextConflictId : Nat
  deriving DecidableEq, Repr

structure Store extends Ledger where
  resolutions : List Resolution
  clients : List Client
  sessions : List Session
  observations : List Observation
  provenance : List Provenance
  writeLog : List WriteLogRow
  embeddings : List Embedding
  jobs : List EmbeddingJob
  queue : List QueueRow
  erasures : List ErasureRow
  nextWriteId : Nat
  nextErasureId : Nat
  deriving DecidableEq, Repr

def Store.empty : Store where
  facts := []
  conflicts := []
  members := []
  nextFactId := 1
  nextConflictId := 1
  resolutions := []
  clients := []
  sessions := []
  observations := []
  provenance := []
  writeLog := []
  embeddings := []
  jobs := []
  queue := []
  erasures := []
  nextWriteId := 1
  nextErasureId := 1

namespace Fact

/-- `invalid_at IS NULL AND superseded_by IS NULL`. -/
def current (f : Fact) : Bool := f.invalidAt.isNone && f.supersededBy.isNone

-- `invalid_at`, `superseded_by` and `conflict_group` are all NULL
def active (f : Fact) : Bool := f.current && f.conflictGroup.isNone

def isState (f : Fact) : Bool := f.memoryKind = some .state

/-- Membership in `uq_facts_current_state_slot`, with the indexed key. -/
def slotKey (f : Fact) : Option (String × String × String) :=
  match f.subjectKey, f.predicateKey with
  | some subject, some predicate =>
    if f.isState && f.current && f.conflictGroup.isNone then some (f.scope, subject, predicate)
    else none
  | _, _ => none

/-- `COALESCE(source_authority, 0.5)`. -/
def authority (f : Fact) : Rat := f.sourceAuthority.getD (1 / 2)

end Fact

def Ledger.fact (l : Ledger) (factId : Nat) : Option Fact := Table.find Fact.factId factId l.facts

end Enfold
