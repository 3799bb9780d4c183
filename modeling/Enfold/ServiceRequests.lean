import Enfold.JsonText
import Enfold.Service

/-! What the service makes of the parameters of a `memory.write`, and the promotion that writes a
fact of a run again. Every parameter is checked by its reader before a request is built. -/
namespace Enfold

open Fallible

def invalidParams (message : String) : Raised := ⟨.serviceRequest "invalid_params", message⟩
def accessDenied (message : String) : Raised := ⟨.serviceRequest "access_denied", message⟩

def maxWriteTextBytes : Nat := 256 * 1024

section Readers
variable (rt : Runtime) (name : String)

-- `f"{names}"`
def listRepr (names : List String) : String := "[" ++ ", ".intercalate (names.map rt.repr) ++ "]"

-- `_check_keys`
def checkParams (params : JsonObject) (required optional : List String) : Except Raised Unit := do
  let keys := params.map Prod.fst
  let missing := (required.filter (!keys.contains ·)).mergeSort
  let unknown := (keys.filter fun key => !required.contains key && !optional.contains key).mergeSort
  ensure (missing = []) (invalidParams ("missing parameters: " ++ listRepr rt missing))
  ensure (unknown = []) (invalidParams ("unknown parameters: " ++ listRepr rt unknown))

-- `_text`
def readText : Json → Except Raised String
  | .str text =>
    if Text.strip text = "" then .error (invalidParams (name ++ " must be a non-empty string"))
    else .ok (Text.strip text)
  | _ => .error (invalidParams (name ++ " must be a non-empty string"))

-- `_optional_text`
def readOptionalText : Json → Except Raised (Option String)
  | .null => .ok none
  | value => do
    let text ← readText name value
    .ok (some text)

-- `_number`
def readNumber (value : Json) (standard : Rat) : Except Raised Rat := do
  let bounded (number : Rat) : Except Raised Rat := do
    ensure (0 ≤ number && number ≤ 1) (invalidParams (name ++ " must be between 0 and 1"))
    .ok number
  match value with
  | .null => .ok standard
  | .int i =>
    if floatOverflows i then .error (invalidParams (name ++ " must be a number")) else bounded i
  | .float x => bounded x
  | _ => .error (invalidParams (name ++ " must be a number"))

-- `_positive_int`
def readPositiveInt : Json → Except Raised Nat
  | .int i =>
    if 0 < i then .ok i.toNat else .error (invalidParams (name ++ " must be a positive integer"))
  | _ => .error (invalidParams (name ++ " must be a positive integer"))

def readOptionalPositiveInt : Json → Except Raised (Option Nat)
  | .null => .ok none
  | value => do
    let number ← readPositiveInt name value
    .ok (some number)

-- tags may be blank
def readTags : Json → Except Raised String
  | .str tags => .ok tags
  | _ => .error (invalidParams "tags must be a string")

-- `_write_text`
def readWriteText (value : Json) : Except Raised String := do
  let text ← readText name value
  ensure (text.utf8ByteSize ≤ maxWriteTextBytes)
    (invalidParams (name ++ " must not exceed 262144 UTF-8 bytes"))
  .ok text

-- `_optional_write_text`
def readOptionalWriteText : Json → Except Raised (Option String)
  | .null => .ok none
  | value => do
    let text ← readWriteText name value
    .ok (some text)

-- `_json_object`; the dump sorts the keys
def readObject : Json → Except Raised JsonObject
  | .null => .ok []
  | .obj members => do
    ensure ((Json.obj members).every Json.shortInt)
      (invalidParams (name ++ " must contain JSON values"))
    .ok (listed members)
  | _ => .error (invalidParams (name ++ " must be an object"))

end Readers

/-! ## Writes -/

def writeParamsRequired : List String := ["idempotency_key", "content", "source_type"]

def writeParamsOptional : List String :=
  ["category", "tags", "trust_score", "source_authority", "source_uri", "observation_content",
    "asserted_by", "observed_at", "scope", "sensitivity", "correction_status", "evidence_excerpt",
    "relation", "metadata", "supersede_fact_id", "state"]

section Writes
variable (rt : Runtime)

-- `_state_candidate`
def stateCandidate (write : WriteRequest) : Json → Except Raised (Option StateCandidate)
  | .null => .ok none
  | .obj members => do
    checkParams rt members ["subject_key", "predicate_key"] ["object_value", "valid_from", "valid_to"]
    let member (name : String) := (members.lookup name).getD .null
    let subjectKey ← readText "state.subject_key" (member "subject_key")
    let predicateKey ← readText "state.predicate_key" (member "predicate_key")
    let objectValue ← readOptionalText "state.object_value" (member "object_value")
    let validFrom ← readOptionalText "state.valid_from" (member "valid_from")
    let validTo ← readOptionalText "state.valid_to" (member "valid_to")
    let candidate ← StateCandidate.postInit rt
      { content := write.content, subjectKey, predicateKey, objectValue
        sourceAuthority := write.sourceAuthority, validFrom, memoryKind := "state"
        scope := write.scope, validTo }
    .ok (some candidate)
  | _ => .error (invalidParams "state must be an object")

def prepareWrite (context : ConnectionContext) (params : JsonObject) :
    Except Raised (WriteRequest × Option StateCandidate) := do
  checkParams rt params writeParamsRequired writeParamsOptional
  let member (name : String) := (params.lookup name).getD .null
  let given (name standard : String) := (params.lookup name).getD (.str standard)
  let metadata ← readObject "metadata" (member "metadata")
  let idempotencyKey ← readText "idempotency_key" (member "idempotency_key")
  let content ← readWriteText "content" (member "content")
  let sourceType ← readText "source_type" (member "source_type")
  let category ← readText "category" (given "category" "general")
  let tags ← readTags (given "tags" "")
  let trustScore ← readNumber "trust_score" (member "trust_score") (1 / 2)
  let sourceAuthority ← readNumber "source_authority" (member "source_authority") (1 / 2)
  let sourceUri ← readOptionalText "source_uri" (member "source_uri")
  let observationContent ← readOptionalWriteText "observation_content" (member "observation_content")
  let assertedBy ← readOptionalText "asserted_by" (member "asserted_by")
  let observedAt ← readOptionalText "observed_at" (member "observed_at")
  let scope ← readText "scope" (given "scope" "private")
  let sensitivity ← readText "sensitivity" (given "sensitivity" "normal")
  let correctionStatus ← readOptionalText "correction_status" (member "correction_status")
  let evidenceExcerpt ← readOptionalText "evidence_excerpt" (member "evidence_excerpt")
  let relation ← readText "relation" (given "relation" "supports")
  let supersedeFactId ← readOptionalPositiveInt "supersede_fact_id" (member "supersede_fact_id")
  let write ← WriteRequest.postInit
    { WriteRequest.plain idempotencyKey content sourceType with
      category, tags, trustScore, sourceAuthority, sourceUri, observationContent, assertedBy
      performedBy := some context.agentId
      observedAt, scope, sensitivity, correctionStatus, evidenceExcerpt, relation, metadata
      supersedeFactId }
  let candidate ← stateCandidate rt write (member "state")
  .ok (write, candidate)

theorem readTextSource {name : String} {value : Json} {text : String} (h : readText name value = .ok text) :
    ∃ given, value = .str given ∧ text = Text.strip given ∧ text ≠ "" := by
  unfold readText at h
  split at h
  · rename_i given
    split at h
    · cases h
    · rename_i stated
      exact ⟨given, rfl, (Except.ok.inj h).symm, by rw [← Except.ok.inj h]; exact stated⟩
  · cases h

theorem prepareWriteSource {rt : Runtime} {context : ConnectionContext} {params : JsonObject}
    {request : WriteRequest} {candidate : Option StateCandidate}
    (h : prepareWrite rt context params = .ok (request, candidate)) :
    readText "content" ((params.lookup "content").getD .null) = .ok request.content ∧
      readText "source_type" ((params.lookup "source_type").getD .null) = .ok request.sourceType ∧
      readText "scope" ((params.lookup "scope").getD (.str "private")) = .ok request.scope ∧
      readOptionalText "correction_status" ((params.lookup "correction_status").getD .null) =
        .ok request.correctionStatus ∧
      readOptionalPositiveInt "supersede_fact_id" ((params.lookup "supersede_fact_id").getD .null) =
        .ok request.supersedeFactId ∧
      stateCandidate rt request ((params.lookup "state").getD .null) = .ok candidate := by
  simp only [prepareWrite, bindOk] at h
  obtain ⟨_, -, metadata, -, key, -, content, contentHere, kind, kindHere, category, -, tags, -, trust, -,
    authority, -, uri, -, observation, -, asserted, -, observed, -, scope, scopeHere, sensitivity, -,
    marked, markedHere, excerpt, -, relation, -, old, oldHere, write, built, candidate', candidateHere,
    last⟩ := h
  cases last
  simp only [WriteRequest.postInit, WriteRequest.plain, bindOk, ensureOk] at built
  obtain ⟨_, -, content', contentKept, kind', kindKept, _, -, scope', scopeKept, _, -, _, -, _, -, -, -, -,
    -, -, -, last⟩ := built
  obtain ⟨text, written, sized⟩ := bindOk.mp contentHere
  obtain ⟨-, -, same⟩ := bindOk.mp sized
  cases same
  have twice {name : String} {value : Json} {text stripped name' : String}
      (read : readText name value = .ok text) (kept : required text name' = .ok stripped) :
      readText name value = .ok stripped := by
    obtain ⟨given, -, shape, -⟩ := readTextSource read
    rw [read, (requiredSource kept).1, shape, Text.stripTwice]
  cases last
  exact ⟨twice written contentKept, twice kindHere kindKept, twice scopeHere scopeKept, markedHere, oldHere,
    candidateHere⟩

variable (svc : WriteService) (context : ConnectionContext) (clock : Clock) (s : Store)

/-- `EnfoldService._write` under an authorized context. -/
def serviceWrite (params : JsonObject) : Except Raised (Store × WriteOutcome) :=
  mapFailure batchFailure do
    let (request, candidate) ← prepareWrite rt context params
    write rt svc context clock s request candidate

/-! ## Promotion -/

def promotionParams (idempotencyKey targetScope : String) (source : Fact) : JsonObject :=
  [("idempotency_key", .str idempotencyKey), ("content", .str source.content),
    ("source_type", .str "promotion"),
    ("category", .str (if source.category = "" then "general" else source.category)),
    ("tags", .str source.tags), ("trust_score", .float source.trustScore),
    ("source_authority", (source.sourceAuthority.map Json.float).getD .null),
    ("source_uri", .str ("enfold:fact:" ++ toString source.factId)), ("scope", .str targetScope),
    ("sensitivity", .str (if source.sensitivity = "" then "normal" else source.sensitivity)),
    ("relation", .str "derived_from"),
    ("metadata", .obj [("promoted_from_fact_id", .int source.factId),
      ("promoted_from_scope", .str source.scope)])]

/-- Copy a current run-scoped fact onto a durable granted scope. -/
def promote (params : JsonObject) : Except Raised (Store × WriteOutcome) := do
  checkParams rt params ["fact_id", "idempotency_key"] ["target_scope"]
  let factId ← readPositiveInt "fact_id" ((params.lookup "fact_id").getD .null)
  let target ← readText "target_scope" ((params.lookup "target_scope").getD (.str "private"))
  let targetScope ← mapFailure batchFailure (validateScope rt target)
  ensure (!isRunScope targetScope) (invalidParams "promote target must be a durable granted scope")
  ensure (context.accessScopes.contains targetScope)
    (accessDenied "requested memory scope is not authorized")
  match s.fact factId with
  | none => .error (accessDenied "fact is not visible")
  | some source => do
    ensure (factIsVisible context.accessScopes source) (accessDenied "fact is not visible")
    ensure (isRunScope source.scope) (invalidParams "only run-scoped facts can be promoted")
    ensure source.current (invalidParams "source fact is not current")
    let idempotencyKey ← readText "idempotency_key" ((params.lookup "idempotency_key").getD .null)
    serviceWrite rt svc context clock s (promotionParams idempotencyKey targetScope source)

end Writes

end Enfold
