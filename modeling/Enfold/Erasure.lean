import Enfold.WriteService

/-! Privacy erasure of one fact: every materialized copy is scrubbed in one transaction, derived
insights are invalidated, and the conflicts it was a member of are closed without a winner when
one member or none is left. -/
namespace Enfold

open Fallible

variable (rt : Runtime)

structure ErasureReport where
  erasureId : Nat
  factId : Nat
  affectedObservations : Nat
  affectedEmbeddings : Nat
  affectedQueueRows : Nat
  invalidatedInsights : Nat
  resolvedConflicts : Nat
  deriving DecidableEq, Repr

/-- Keep other facts' evidence when they share the erased observation. -/
def cloneSharedObservation (s : Store) (observationId erasedFactId erasureId : Nat) : Store :=
  if s.provenance.all fun p => p.observationId ≠ observationId || p.factId = erasedFactId then s
  else match s.observations.find? (·.observationId = observationId) with
    | none => s
    | some source =>
      let cloneId := nextRowid (s.observations.map Observation.observationId)
      { s with
        observations := s.observations ++ [{ source with
          observationId := cloneId
          contentSha256 := .clone erasureId observationId }]
        provenance := Table.amend
          (fun p => p.observationId = observationId && p.factId ≠ erasedFactId)
          (fun p => { p with observationId := cloneId }) s.provenance
        writeLog := Table.amend
          (fun row => row.observationId = some observationId && row.factId ≠ some erasedFactId)
          (fun row => { row with observationId := some cloneId }) s.writeLog }

def Observation.redact (erasureId : Nat) (erasedAt : String) (o : Observation) : Observation :=
  { o with
    sourceUri := none
    content := "[PRIVACY ERASED]"
    contentSha256 := .erased erasureId o.observationId
    assertedBy := none
    metadata := []
    redactedAt := some erasedAt }

def linkedQueueId (metadata : JsonObject) : Option Int :=
  match metadata.lookup "extraction_queue_id" with
  | some (.int queueId) => if 0 < queueId then some queueId else none
  | some (.bool true) => some 1
  | _ => none

def linkedPayloadHash (metadata : JsonObject) : Option String :=
  match metadata.lookup "extraction_payload_sha256" with
  | some (.str digest) => if digest = "" then none else some digest
  | _ => none

def Fact.scrub (erasedAt : String) (f : Fact) : Fact :=
  { f with
    content := "[PRIVACY ERASED fact:" ++ toString f.factId ++ "]"
    tags := ""
    invalidAt := f.invalidAt <|> some erasedAt
    conflictGroup := none
    objectValue := none
    subjectKey := none
    predicateKey := none
    memoryKind := some .fact }

def EmbeddingJob.scrub (erasureId : Nat) (erasedAt : String) (job : EmbeddingJob) : EmbeddingJob :=
  { job with
    contentSha256 := "erased:" ++ toString erasureId ++ ":" ++ toString job.factId
    status := .completed
    leaseToken := none
    leaseOwner := none
    leaseExpiresAt := none
    lastError := some "privacy_erased"
    completedAt := some erasedAt
    updatedAt := erasedAt }

def QueueRow.scrub (row : QueueRow) : QueueRow :=
  let replacement := rt.dumps
    (.obj [("privacy_erased", .bool true), ("queue_id", .int row.id)])
  { row with
    payload := replacement
    payloadHash := some (rt.sha256 replacement)
    lastError := none
    proposalJson := none
    proposalHash := none }

/-- `int(value)` on a text every character of which is a digit. -/
def readDigits (value : List Char) : Except Raised Nat := do
  ensure (value.length ≤ maxStrDigits)
    ⟨.valueError, "Exceeds the limit (4300 digits) for integer string conversion"⟩
  value.foldlM (fun total c => match rt.decimal c with
    | some digit => .ok (total * 10 + digit)
    | none => .error ⟨.valueError, "invalid literal for int() with base 10"⟩) 0

/-- The fact ids behind `source_facts:` in an insight's tags. -/
def citedFacts (tags : String) : Except Raised (List Nat) :=
  match Text.afterFirst "source_facts:".toList tags.toList with
  | none => .ok []
  | some rest =>
    match (rest.dropWhile Text.isSpace).takeWhile fun c => !Text.isSpace c with
    | [] => .error ⟨.indexError, "list index out of range"⟩
    | values =>
      ((Text.splitOn ',' (Text.stripWith (· = ',') values)).filter fun value =>
        value ≠ [] && value.all rt.isDigit).mapM (readDigits rt)

def Fact.cites (factId : Nat) (f : Fact) : Except Raised Bool :=
  if f.category = "insight" && f.invalidAt.isNone then do
    let cited ← citedFacts rt f.tags
    .ok (cited.contains factId)
  else .ok false

/-- Invalidate the insights derived from a fact; `expired_at` is left alone. -/
def invalidateInsights (l : Ledger) (factId : Nat) (erasedAt : String) :
    Except Raised (Ledger × Nat) := do
  let citing ← keep (Fact.cites rt factId) l.facts
  let ids := citing.map Fact.factId
  let invalidate (f : Fact) : Fact := { f with invalidAt := some erasedAt }
  .ok ({ l with facts := Table.amend (fun f => ids.contains f.factId) invalidate l.facts },
    ids.length)

def Conflict.closeErased (erasedAt requestedBy : String) (row : Conflict) : Conflict :=
  { row with
    resolvedAt := some erasedAt
    resolutionFactId := none
    resolvedBy := some requestedBy
    resolutionReason := some "privacy erasure removed a conflict member" }

def leaveConflicts (l : Ledger) (factId : Nat) (erasedAt requestedBy : String) : Ledger × Nat :=
  let left := (l.members.filter (·.factId = factId)).map Member.conflictId
  let members := Table.remove (·.factId = factId) l.members
  let lonely := left.filter fun conflictId =>
    (members.filter (·.conflictId = conflictId)).length ≤ 1
  let closes (row : Conflict) : Bool := lonely.contains row.conflictId && row.resolvedAt.isNone
  ({ l with
    members
    conflicts := Table.amend closes (Conflict.closeErased erasedAt requestedBy) l.conflicts },
    lonely.length)

def erasedDetail : JsonObject := [("privacy_erased", .bool true)]

/-- `part in text`. -/
def occursIn (part text : String) : Bool := (Text.afterFirst part.toList text.toList).isSome

def eraseLedger (l : Ledger) (factId : Nat) (requestedBy erasedAt : String) :
    Except Raised (Ledger × Nat × Nat) := do
  let scrubbed := { l with facts := Table.amend (·.factId = factId) (Fact.scrub erasedAt) l.facts }
  let (l, insights) ← invalidateInsights rt scrubbed factId erasedAt
  let (l, conflicts) := leaveConflicts l factId erasedAt requestedBy
  .ok (l, insights, conflicts)

/-- Scrub one fact and its evidence copies without deleting audit identity. -/
def eraseFact (s : Store) (factId : Nat) (requestedBy reason erasedAt : String) :
    Except Raised (Store × ErasureReport) := do
  ensure (factId ≠ 0) ⟨.valueError, "fact_id must be a positive integer"⟩
  let requestedBy := Text.strip requestedBy
  let reason := Text.strip reason
  ensure (requestedBy ≠ "" && reason ≠ "")
    ⟨.valueError, "requested_by and reason must not be empty"⟩
  match s.fact factId with
  | none => .error ⟨.erasureError, "fact was not found"⟩
  | some original =>
    let erasureId := s.nextErasureId
    let observationIds :=
      ((s.provenance.filter (·.factId = factId)).map Provenance.observationId).dedup
    let linked := s.observations.filter fun o => observationIds.contains o.observationId
    let queueIds := linked.filterMap (linkedQueueId ·.metadata)
    let payloadHashes := linked.filterMap (linkedPayloadHash ·.metadata)
    let isLinked (row : QueueRow) : Bool :=
      queueIds.contains row.id || payloadHashes.contains (rt.sha256 row.payload) ||
        row.payloadHash.any fun digest => digest ≠ "" && payloadHashes.contains digest
    let s := observationIds.foldl
      (fun s observationId => cloneSharedObservation s observationId factId erasureId) s
    let (l, insights, conflicts) ← eraseLedger rt s.toLedger factId requestedBy erasedAt
    let touched (row : WriteLogRow) : Bool :=
      row.factId = some factId || row.observationId.any observationIds.contains
    let quotes (row : WriteLogRow) : Bool :=
      original.content ≠ "" && occursIn original.content (rt.dumps (.obj row.detail))
    let forget (row : WriteLogRow) : WriteLogRow := { row with detail := erasedDetail }
    let embeddings := Table.matching (·.factId = factId) s.embeddings
    let queueRows := Table.matching isLinked s.queue
    .ok ({ s with
        toLedger := l
        observations := Table.amend (fun o => observationIds.contains o.observationId)
          (Observation.redact erasureId erasedAt) s.observations
        provenance := Table.amend (·.factId = factId)
          (fun p => { p with evidenceExcerpt := none }) s.provenance
        embeddings := Table.remove (·.factId = factId) s.embeddings
        jobs := Table.amend (·.factId = factId) (EmbeddingJob.scrub erasureId erasedAt) s.jobs
        queue := Table.amend isLinked (QueueRow.scrub rt) s.queue
        writeLog := Table.amend quotes forget (Table.amend touched forget s.writeLog)
        erasures := s.erasures ++ [⟨erasureId, factId, requestedBy, reason, erasedAt,
          observationIds.length, embeddings, queueRows⟩]
        nextErasureId := s.nextErasureId + 1 },
      ⟨erasureId, factId, observationIds.length, embeddings, queueRows, insights, conflicts⟩)

end Enfold
