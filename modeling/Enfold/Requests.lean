import Enfold.Policy
import Enfold.StateSlots

/-! The write-boundary values: the checks their constructors make, the typed extraction
metadata, and the two fingerprints. -/
namespace Enfold

open Fallible

/-- `ConnectionContext.__post_init__`. -/
def ConnectionContext.postInit (context : ConnectionContext) : Except Raised ConnectionContext := do
  let clientId ← required context.clientId "client_id"
  let surface ← required context.surface "surface"
  let agentId ← required context.agentId "agent_id"
  let sessionId ← required context.sessionId "session_id"
  let capabilities ← context.capabilities.mapM (required · "capability")
  let scopes ← context.accessScopes.mapM (required · "access_scope")
  ensure (scopes ≠ []) ⟨.valueError, "access_scopes must not be empty"⟩
  .ok { context with
    clientId, surface, agentId, sessionId
    capabilities := capabilities.dedup.insertionSort (· ≤ ·)
    accessScopes := scopes.dedup.insertionSort (· ≤ ·) }

def ConnectionContext.plain (clientId surface agentId sessionId : String)
    (accessScopes : List String) : ConnectionContext where
  clientId := clientId
  surface := surface
  agentId := agentId
  sessionId := sessionId
  displayName := none
  parentAgentId := none
  projectRoot := none
  repository := none
  branch := none
  commitSha := none
  capabilities := []
  accessScopes := accessScopes
  startedAt := none

/-- `WriteRequest.__post_init__`; the metadata column is an object by its type. -/
def WriteRequest.postInit (r : WriteRequest) : Except Raised WriteRequest := do
  let idempotencyKey ← required r.idempotencyKey "idempotency_key"
  let content ← required r.content "content"
  let sourceType ← required r.sourceType "source_type"
  let category ← required r.category "category"
  let scope ← required r.scope "scope"
  let sensitivity ← required r.sensitivity "sensitivity"
  let relation ← required r.relation "relation"
  let operation ← required r.operation "operation"
  ensure (0 ≤ r.trustScore && r.trustScore ≤ 1)
    ⟨.valueError, "trust_score must be between 0 and 1"⟩
  ensure (0 ≤ r.sourceAuthority && r.sourceAuthority ≤ 1)
    ⟨.valueError, "source_authority must be between 0 and 1"⟩
  ensure (r.supersedeFactId ≠ some 0) ⟨.valueError, "supersede_fact_id must be positive"⟩
  .ok { r with
    idempotencyKey, content, sourceType, category, scope, sensitivity, relation, operation }

def WriteRequest.plain (idempotencyKey content sourceType : String) : WriteRequest where
  idempotencyKey := idempotencyKey
  content := content
  sourceType := sourceType
  category := "general"
  tags := ""
  trustScore := 1 / 2
  sourceAuthority := 1 / 2
  sourceUri := none
  observationContent := none
  assertedBy := none
  performedBy := none
  observedAt := none
  scope := "private"
  sensitivity := "normal"
  correctionStatus := none
  evidenceExcerpt := none
  relation := "supports"
  metadata := []
  supersedeFactId := none
  operation := "add_fact"

structure WriteItem (rt : Runtime) where
  request : WriteRequest
  candidate : Option StateCandidate
  requestBuilt : request.postInit = .ok request
  candidateBuilt : ∀ c ∈ candidate, c.postInit rt = .ok c

theorem WriteItem.unslotted {rt : Runtime} : ∀ c ∈ (none : Option StateCandidate), c.postInit rt = .ok c := nofun

/-- Stable result persisted for idempotent replay. -/
structure WriteOutcome where
  writeId : Nat
  outcome : Outcome
  factId : Option Nat
  existingFactId : Option Nat
  observationId : Option Nat
  replayed : Bool
  detail : JsonObject
  deriving DecidableEq, Repr

def validateStateCandidate (request : WriteRequest) : Option StateCandidate → Except Raised Unit
  | none => .ok ()
  | some candidate => do
    ensure (candidate.memoryKind = "state")
      ⟨.valueError, "state_candidate must have memory_kind='state'"⟩
    ensure (candidate.content = request.content)
      ⟨.valueError, "state candidate content must match the write request"⟩
    ensure (candidate.scope = request.scope)
      ⟨.valueError, "state candidate scope must match the write request"⟩
    ensure (candidate.sourceAuthority = request.sourceAuthority)
      ⟨.valueError, "state candidate authority must match the write request"⟩
    ensure request.supersedeFactId.isNone
      ⟨.valueError, "typed state writes derive supersession from the exact slot"⟩

/-! ## Typed extraction metadata -/

/-- Normalized typed extraction fields safe to persist on a new fact. -/
structure ExtractedTypedFields where
  kind : MemoryKind
  subjectKey : String
  predicateKey : String
  objectValue : Option String
  validFrom : Option String
  confidence : Rat
  deriving DecidableEq, Repr

def invalidTypedMetadata : Raised :=
  ⟨.valueError, "automatic extraction typed metadata is invalid"⟩

def typedMetadataKeys : List String :=
  ["confidence", "kind", "negation", "object_value", "predicate_key", "subject_key", "valid_from"]

/-- Membership in the set of kinds; an unhashable value raises. -/
def extractedKind : Json → Except Raised MemoryKind
  | .str "state" => .ok .state
  | .str "preference" => .ok .preference
  | .str "commitment" => .ok .commitment
  | .str "event" => .ok .event
  | .arr _ => .error ⟨.typeError, "unhashable type: 'list'"⟩
  | .obj _ => .error ⟨.typeError, "unhashable type: 'dict'"⟩
  | _ => .error invalidTypedMetadata

def extractedConfidence : Json → Except Raised Rat
  | .int value => if 0 ≤ value && value ≤ 1 then .ok value else .error invalidTypedMetadata
  | .float value => if 0 ≤ value && value ≤ 1 then .ok value else .error invalidTypedMetadata
  | _ => .error invalidTypedMetadata

def extractedNegation : Json → Except Raised Bool
  | .bool value => .ok value
  | _ => .error invalidTypedMetadata

/-- `None`, or text that is not blank. -/
def extractedText : Json → Except Raised (Option String)
  | .null => .ok none
  | .str value =>
    if (Text.strip value).toList = [] then .error invalidTypedMetadata else .ok (some value)
  | _ => .error invalidTypedMetadata

/-- A key handed to the state-slot constructor, which strips it before anything else. -/
def extractedKey : Json → Except Raised String
  | .str value => .ok value
  | _ => .error ⟨.attributeError, "object has no attribute 'strip'"⟩

/-- `except (TypeError, ValueError)` around the state-slot constructor. -/
def asInvalidTypedMetadata {α : Type} (built : Except Raised α) : Except Raised α :=
  match built with
  | .ok value => .ok value
  | .error raised =>
    if raised.kind.isValueError || raised.kind = .typeError then .error invalidTypedMetadata
    else .error raised

section Extracted
variable (rt : Runtime)

/-- Reuse the state-slot value object for canonical keys and timestamps. -/
def normalizeExtracted (request : WriteRequest) (value : Json) (objectValue validFrom : Option String) :
    Except Raised StateCandidate := do
  let member (name : String) := (value.get name).getD .null
  let subjectKey ← extractedKey (member "subject_key")
  let predicateKey ← extractedKey (member "predicate_key")
  StateCandidate.postInit rt
    { content := request.content, subjectKey, predicateKey, objectValue
      sourceAuthority := 1 / 2, validFrom, memoryKind := "state", scope := request.scope
      validTo := none }

/-- Decode only processor-produced typed metadata at the write boundary. -/
def extractedTypedFields (request : WriteRequest) (candidate : Option StateCandidate) :
    Except Raised (Option ExtractedTypedFields) :=
  if request.sourceType ≠ "automatic_extraction" then .ok none
  else match request.metadata.lookup "extraction_typed" with
    | none | some .null => .ok none
    | some value => do
      ensure (Words.sameSet value.keys typedMetadataKeys) invalidTypedMetadata
      let member (name : String) := (value.get name).getD .null
      let kind ← extractedKind (member "kind")
      let confidence ← extractedConfidence (member "confidence")
      let _ ← extractedNegation (member "negation")
      let objectValue ← extractedText (member "object_value")
      let validFrom ← extractedText (member "valid_from")
      let normalized ← asInvalidTypedMetadata (normalizeExtracted rt request value objectValue validFrom)
      if kind = .state then
        match candidate with
        | some c =>
          ensure (c.subjectKey = normalized.subjectKey && c.predicateKey = normalized.predicateKey &&
              c.objectValue = normalized.objectValue)
            ⟨.valueError, "automatic extracted state must use its exact state slot"⟩
        | none => .error ⟨.valueError, "automatic extracted state must use its exact state slot"⟩
      else
        ensure candidate.isNone ⟨.valueError, "only extracted state may use state-slot semantics"⟩
      .ok (some ⟨kind, normalized.subjectKey, normalized.predicateKey, normalized.objectValue,
        normalized.validFrom, confidence⟩)

end Extracted

/-! ## Fingerprints -/

def StateCandidate.payload (c : StateCandidate) : StatePayload :=
  ⟨c.content, c.subjectKey, c.predicateKey, c.objectValue, c.sourceAuthority, c.validFrom,
    c.memoryKind, c.scope, c.validTo⟩

/-- Session identity is provenance on the log row, not part of the replay contract. -/
def requestSha256 (context : ConnectionContext) (request : WriteRequest)
    (candidate : Option StateCandidate) : RequestPayload :=
  ⟨context.clientId, request, candidate.map StateCandidate.payload⟩

theorem payloadInjective {c d : StateCandidate} (same : c.payload = d.payload) : c = d := by
  cases c; cases d
  simpa [StateCandidate.payload] using same

/-- `request.observation_content or request.content`. -/
def WriteRequest.observed (request : WriteRequest) : String :=
  match request.observationContent with
  | some text => if text = "" then request.content else text
  | none => request.content

def observationSha256 (context : ConnectionContext) (request : WriteRequest) : ObservationPayload where
  content := request.observed
  sourceType := request.sourceType
  sourceUri := request.sourceUri
  assertedBy := request.assertedBy
  performedBy := request.performedBy
  observedAt := request.observedAt
  scope := request.scope
  sensitivity := request.sensitivity
  metadata := request.metadata
  projectRoot := context.projectRoot
  repository := context.repository
  branch := context.branch
  commitSha := context.commitSha

end Enfold
