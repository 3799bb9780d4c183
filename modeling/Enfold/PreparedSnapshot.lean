import Enfold.ExtractionSnapshot

/-! What the processor takes from a kept snapshot: the write parameters of its proposals, checked
once more against the envelope and the store of the moment. -/
namespace Enfold

open Fallible

/-- The parameters of one `memory.write`; the absent optional ones are `none`. -/
structure WriteParams where
  idempotencyKey : String
  content : String
  sourceType : String
  category : String
  tags : String
  trustScore : Rat
  sourceAuthority : Rat
  observationContent : Option String
  assertedBy : Option String
  observedAt : Option String
  scope : String
  sensitivity : String
  evidenceExcerpt : Option String
  relation : String
  metadata : JsonObject
  correctionStatus : Option String
  state : Option JsonObject
  deriving DecidableEq, Repr

def automaticTrustScore : Rat := 1 / 2

def snapshotBaseFields : List String :=
  ["category", "content", "evidence_excerpt", "sensitivity", "tags"]

def snapshotOptionalFields : List String :=
  ["evidence_span_id", "evidence_verification", "typed", "typed_demotion"]

def snapshotDemotions : List String := ["incomplete_typed_fields", "invalid_or_incomplete_typed_fields"]

def invalidSnapshot (message : String) : Raised := permanent "invalid_snapshot" message
def rejectedGrounding (message : String) : Raised := permanent "proposal_grounding_rejected" message

/-! ## The checks of one kept proposal -/

structure SnapshotFields where
  members : JsonObject
  content : String
  category : String
  tags : String
  excerpt : String
  sensitivity : String

def SnapshotFields.member (fields : SnapshotFields) (name : String) : Json :=
  (fields.members.lookup name).getD .null

def snapshotFields (proposal : Json) : Except Raised SnapshotFields := do
  let keys := proposal.keys
  match proposal with
  | .obj members =>
    ensure (snapshotBaseFields.all keys.contains &&
        keys.all (fun key => snapshotBaseFields.contains key || snapshotOptionalFields.contains key))
      (invalidSnapshot "proposal snapshot has unsupported fields")
    let member (name : String) := (members.lookup name).getD .null
    match member "content", member "category", member "tags", member "evidence_excerpt" with
    | .str content, .str category, .str tags, .str excerpt =>
      ensure (content ≠ "" && category ≠ "" && Text.strip excerpt ≠ "")
        (invalidSnapshot "proposal snapshot contains invalid fields")
      let permitted ← memberOf ["normal", "sensitive"] (member "sensitivity")
      match permitted, member "sensitivity" with
      | true, .str sensitivity => .ok ⟨members, content, category, tags, excerpt, sensitivity⟩
      | _, _ => .error (invalidSnapshot "proposal snapshot contains invalid fields")
    | _, _, _, _ => .error (invalidSnapshot "proposal snapshot contains invalid fields")
  | _ => .error (invalidSnapshot "proposal snapshot has unsupported fields")

-- the span the excerpt is; `none` when it is not the user's
def snapshotSpan (envelope : ExtractionEnvelope) (fields : SnapshotFields) :
    Except Raised (Option TranscriptSpan) := do
  ensure (fields.excerpt.length ≤ maxEvidenceChars &&
      textWithin fields.excerpt.toList envelope.transcript.toList)
    (rejectedGrounding "proposal snapshot evidence is not grounded in the transcript")
  match fields.member "evidence_span_id" with
  | .str spanId =>
    ensure (spanId ≠ "") (rejectedGrounding "proposal snapshot lacks an evidence span id")
    match envelope.span spanId with
    | none => .error (rejectedGrounding "proposal snapshot evidence span id is invalid")
    | some span =>
      if span.role ≠ some .user then .ok none
      else do
        ensure (span.text = fields.excerpt)
          (rejectedGrounding "proposal snapshot evidence span id is invalid")
        .ok (some span)
  | _ => .error (rejectedGrounding "proposal snapshot lacks an evidence span id")

def unsupportedClaim : Raised :=
  permanent "proposal_support_unverified" "proposal snapshot lacks verified claim support"

def snapshotVerification (value : Json) : Except Raised EvidenceVerification :=
  match value with
  | .obj members => do
    ensure (Words.sameSet (members.map Prod.fst) ["status", "verifier_id"]) unsupportedClaim
    let status := (members.lookup "status").getD .null
    let known ← memberOf ["verified", "needs_review"] status
    ensure known unsupportedClaim
    match (members.lookup "verifier_id").getD .null with
    | .str verifierId =>
      if stated : Text.strip verifierId ≠ "" then .ok ⟨status = .str "verified", verifierId, stated⟩
      else .error unsupportedClaim
    | _ => .error unsupportedClaim
  | _ => .error unsupportedClaim

section Prepare
variable (rt : Runtime) (host : SnapshotHost) (db : EntityStore) (envelope : ExtractionEnvelope)

-- the typed fields of a verified proposal, still normalized in the store of the moment
def snapshotTyped (verification : EvidenceVerification) (value : Json) :
    Except Raised (Option JsonObject) := do
  match verification.verified, value with
  | false, _ | _, .null => .ok none
  | true, value =>
    let normalized ← isNormalizedTypedFields rt host.floats db value envelope.scope
    match normalized, value with
    | true, .obj members => .ok (some members)
    | _, _ => .error (invalidSnapshot "proposal snapshot contains invalid typed fields")

def snapshotDemotion (typed : Option JsonObject) (value : Json) : Except Raised (Option JsonObject) :=
  match value with
  | .null => .ok none
  | .obj members => do
    ensure (Words.sameSet (members.map Prod.fst) ["reason"])
      (invalidSnapshot "proposal snapshot contains invalid typed demotion")
    let known ← memberOf snapshotDemotions ((members.lookup "reason").getD .null)
    ensure (known && typed.isNone) (invalidSnapshot "proposal snapshot contains invalid typed demotion")
    .ok (some members)
  | _ => .error (invalidSnapshot "proposal snapshot contains invalid typed demotion")

structure SnapshotJob where
  rowId : Nat
  digest : String
  observedAt : String
  identity : String
  proposalHash : String
  deriving DecidableEq, Repr

variable (job : SnapshotJob)

def SnapshotJob.idempotencyKey (index : Nat) : String :=
  "extract:" ++ job.digest ++ ":" ++ String.ofList (job.proposalHash.toList.take 24) ++ ":" ++
    toString index

-- the tags of an unverified proposal say so
def snapshotTags (verification : EvidenceVerification) (tags : String) : String :=
  if verification.verified then tags
  else if Text.strip tags = "" then "evidence_unreviewed" else tags ++ ",evidence_unreviewed"

def snapshotMetadata (spanId : Json) (verification : EvidenceVerification)
    (typed demotion : Option JsonObject) : JsonObject :=
  [("extraction_queue_id", .int job.rowId), ("extraction_payload_sha256", .str job.digest),
    ("extractor_identity", .str job.identity), ("extraction_source", .str envelope.source),
    ("proposal_snapshot_sha256", .str job.proposalHash),
    ("evidence_verifier", .str verification.verifierId)] ++
  (if verification.verified then []
    else [("evidence_verification", .obj (verificationMembers verification))]) ++
  (typed.map fun members =>
    let member (name : String) := (members.lookup name).getD .null
    [("extracted_kind", member "kind"), ("extracted_confidence", member "confidence"),
      ("extracted_negation", member "negation"), ("extraction_typed", .obj members)]).getD [] ++
  (demotion.map fun members => ("typed_demotion", Json.obj members)).toList ++
  [("evidence_span_id", spanId)]

def snapshotRequest (index : Nat) (fields : SnapshotFields) (span : TranscriptSpan)
    (verification : EvidenceVerification) (metadata : JsonObject) : Except Raised WriteRequest :=
  (WriteRequest.postInit
    { WriteRequest.plain (job.idempotencyKey index) fields.content "automatic_extraction" with
      category := fields.category
      tags := snapshotTags verification fields.tags
      trustScore := automaticTrustScore
      sourceAuthority := (span.role.map automaticSourceAuthority).getD 0
      observationContent := some fields.excerpt
      assertedBy := span.role.map TranscriptRole.name
      observedAt := some job.observedAt
      scope := envelope.scope
      sensitivity := fields.sensitivity
      evidenceExcerpt := some fields.excerpt
      relation := "derived_from"
      metadata }).mapError fun _ => permanent "invalid_proposal" "invalid extraction proposal"

-- `params["state"]` of a typed state claim
def stateParams (typed : JsonObject) : Option JsonObject :=
  let member (name : String) := (typed.lookup name).getD .null
  if member "kind" = .str "state" then
    some [("subject_key", member "subject_key"), ("predicate_key", member "predicate_key"),
      ("object_value", member "object_value"), ("valid_from", member "valid_from")]
  else none

def writeParams (request : WriteRequest) (verification : EvidenceVerification)
    (typed : Option JsonObject) : WriteParams where
  idempotencyKey := request.idempotencyKey
  content := request.content
  sourceType := request.sourceType
  category := request.category
  tags := request.tags
  trustScore := request.trustScore
  sourceAuthority := request.sourceAuthority
  observationContent := request.observationContent
  assertedBy := request.assertedBy
  observedAt := request.observedAt
  scope := request.scope
  sensitivity := request.sensitivity
  evidenceExcerpt := request.evidenceExcerpt
  relation := request.relation
  metadata := request.metadata
  correctionStatus := if verification.verified then none else some "unreviewed"
  state := typed.bind stateParams

-- behind the typed check nothing reads the store
def proposalParams (index : Nat) (fields : SnapshotFields) (span : TranscriptSpan)
    (verification : EvidenceVerification) (typed : Option JsonObject) :
    Except Raised (Option WriteParams) := do
  let demotion ← snapshotDemotion typed (fields.member "typed_demotion")
  let metadata := snapshotMetadata envelope job (fields.member "evidence_span_id") verification typed
    demotion
  let request ← snapshotRequest envelope job index fields span verification metadata
  if (defaultCredentialScreen rt request []).isSome then .ok none
  else .ok (some (writeParams request verification typed))

-- one round of the loop of `_prepare_snapshot`
def prepareProposal (index : Nat) (proposal : Json) : Except Raised (Option WriteParams) := do
  let fields ← snapshotFields proposal
  if (ephemeralExtractionReason rt host.unicode fields.content).isSome then .ok none
  else
    match ← snapshotSpan envelope fields with
    | none => .ok none
    | some span => do
      let verification ← snapshotVerification (fields.member "evidence_verification")
      let typed ← snapshotTyped rt host db envelope verification (fields.member "typed")
      proposalParams rt envelope job index fields span verification typed

end Prepare

/-! ## The snapshot -/

-- `version != 1` for Python's numbers
def isVersionOne : Json → Bool
  | .int i => i = 1
  | .float x => x = 1
  | .bool b => b
  | _ => false

-- a repeated key is read and then missed in the canonical text
def snapshotFault : JsonFault → Raised
  | .duplicateKey _ => invalidSnapshot "proposal snapshot is not canonical"
  | _ => invalidSnapshot "proposal snapshot is malformed"

-- the decoded snapshot of a text that is its own canonical dump
def loadCanonical (floats : FloatText) (proposalJson : String) : Except Raised Json := do
  let snapshot ← (loads floats proposalJson).mapError snapshotFault
  let canonical ← (dumps floats snapshot).mapError snapshotFault
  ensure (canonical = proposalJson) (invalidSnapshot "proposal snapshot is not canonical")
  .ok snapshot

def snapshotProposalList (snapshot : Json) : Except Raised (String × List Json) :=
  match snapshot with
  | .obj members => do
    let member (name : String) := (members.lookup name).getD .null
    ensure (isVersionOne (member "version"))
      (invalidSnapshot "proposal snapshot version is unsupported")
    match member "extractor_identity", member "proposals" with
    | .str identity, .arr proposals =>
      ensure (Text.strip identity ≠ "") (invalidSnapshot "proposal snapshot is malformed")
      ensure (proposals.length ≤ maxExtractedMemories)
        (permanent "proposal_limit" "proposal snapshot exceeds proposal limit")
      .ok (identity, proposals)
    | _, _ => .error (invalidSnapshot "proposal snapshot is malformed")
  | _ => .error (invalidSnapshot "proposal snapshot is not canonical")

/-- The write parameters of a snapshot, in the order of its proposals; a conflicting state of one batch
is left to the batch. -/
def prepareSnapshot (rt : Runtime) (host : SnapshotHost) (db : EntityStore)
    (envelope : ExtractionEnvelope) (proposalJson proposalHash : String) (rowId : Nat)
    (digest observedAt : String) : Except Raised (List WriteParams) := do
  ensure (rt.sha256 proposalJson = proposalHash)
    (permanent "snapshot_hash_mismatch" "proposal snapshot hash does not match")
  let snapshot ← loadCanonical host.floats proposalJson
  let (identity, proposals) ← snapshotProposalList snapshot
  let prepared ← proposals.zipIdx.mapM fun (proposal, index) =>
    prepareProposal rt host db envelope ⟨rowId, digest, observedAt, identity, proposalHash⟩ index proposal
  .ok (prepared.filterMap id)

end Enfold
