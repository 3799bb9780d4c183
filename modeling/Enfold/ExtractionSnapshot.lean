import Enfold.ExtractionSpans
import Enfold.PromptSafety
import Enfold.Requests
import Enfold.SlotVocabulary

/-! Proposal snapshots: what the processor keeps of an extractor's output, and the write parameters
it takes from a kept snapshot. Both ends normalize the typed fields against the store they see. -/
namespace Enfold

open Fallible

/-! ## What the extractor and the verifier hand over -/

def maxExtractedMemories : Nat := 32
def typedKinds : List String := ["state", "preference", "commitment", "event"]
def typedFields : List String :=
  ["kind", "subject", "predicate", "object", "value", "occurred_at", "valid_from", "negation",
    "confidence"]

-- the double `0.8`
def minTypedConfidence : Rat := 3602879701896397 / 4503599627370496

-- the doubles `0.5`, `0.2` and `0.4`
def automaticSourceAuthority : TranscriptRole → Rat
  | .user => 1 / 2
  | .assistant => 3602879701896397 / 18014398509481984
  | .tool => 3602879701896397 / 9007199254740992

/-- A decoded envelope: its scope is one of the vocabulary, and turns are not empty. -/
structure ExtractionEnvelope where
  transcript : String
  source : String
  scope : String
  context : ConnectionContext
  turns : Option (List Turn)
  turned : turns ≠ some []
  known : (baseScopes.contains scope || isProjectScope scope || isRunScope scope) = true

-- `_envelope_spans`
def ExtractionEnvelope.spans (envelope : ExtractionEnvelope) : List TranscriptSpan :=
  match envelope.turns with
  | some turns => turnSpans maxEvidenceChars 0 turns
  | none => transcriptSpans maxEvidenceChars (.text envelope.transcript)

def ExtractionEnvelope.span (envelope : ExtractionEnvelope) (spanId : String) : Option TranscriptSpan :=
  envelope.spans.find? fun span => span.spanId = spanId

/-- `EvidenceVerification` with its constructor's checks. -/
structure EvidenceVerification where
  verified : Bool
  verifierId : String
  stated : Text.strip verifierId ≠ ""
  deriving DecidableEq

def EvidenceVerification.status (verification : EvidenceVerification) : String :=
  if verification.verified then "verified" else "needs_review"

structure ExtractedMemory (floats : FloatText) where
  content : Json
  category : Json
  tags : Json
  evidenceExcerpt : Json
  scope : Json
  sensitivity : Json
  state : Json
  metadata : JsonObject
  native : state.every (Json.native floats) = true

/-- The processor with what its host supplies; `verify` has `none` for an answer that is no
`EvidenceVerification`. -/
structure SnapshotHost where
  floats : FloatText
  oneDouble : floats.isDouble 1 = true
  unicode : UnicodeText
  identity : String
  identityStated : Text.strip identity ≠ ""
  verify : ExtractedMemory floats → String → ExtractionEnvelope → Except Raised (Option EvidenceVerification)

/-! ## Typed fields -/

structure TypedFields where
  confidence : Rat
  kind : String
  negation : Bool
  objectValue : Option String
  predicateKey : String
  subjectKey : String
  validFrom : Option String
  deriving DecidableEq, Repr

def textJson (text : Option String) : Json := (text.map Json.str).getD .null

def TypedFields.members (t : TypedFields) : JsonObject :=
  [("confidence", .float t.confidence), ("kind", .str t.kind), ("negation", .bool t.negation),
    ("object_value", textJson t.objectValue), ("predicate_key", .str t.predicateKey),
    ("subject_key", .str t.subjectKey), ("valid_from", textJson t.validFrom)]

-- `value in {…}`; an unhashable value raises
def memberOf (names : List String) : Json → Except Raised Bool
  | .str text => .ok (names.contains text)
  | .arr _ => .error ⟨.typeError, "unhashable type: 'list'"⟩
  | .obj _ => .error ⟨.typeError, "unhashable type: 'dict'"⟩
  | _ => .ok false

def typedConfidence : Json → Except Raised (Option Rat)
  | .int i =>
    if floatOverflows i then .error ⟨.overflowError, "int too large to convert to float"⟩
    else .ok (if minTypedConfidence ≤ i && (i : Rat) ≤ 1 then some i else none)
  | .float x => .ok (if minTypedConfidence ≤ x && x ≤ 1 then some x else none)
  | _ => .ok none

-- the object of a claim: none for a negated one, text for every other
def typedObject (negation : Bool) (value : Json) : Option (Option String) :=
  match negation, value with
  | true, .null => some none
  | false, .str text => if Text.strip text = "" then none else some (some (Text.strip text))
  | _, _ => none

-- `None`, or text that is not blank
def typedTime : Json → Option (Option String)
  | .null => some none
  | .str text => if Text.strip text = "" then none else some (some text)
  | _ => none

-- `except (TypeError, ValueError): return None`
def abstaining {α : Type} (found : Except Raised (Option α)) : Except Raised (Option α) :=
  match found with
  | .ok value => .ok value
  | .error raised =>
    if raised.kind.isValueError || raised.kind = .typeError then .ok none else .error raised

def keyText (name : String) : Json → Except Raised String
  | .str text => .ok text
  | _ => .error ⟨.valueError, name ++ " must be text"⟩

section Typed
variable (rt : Runtime) (floats : FloatText) (db : EntityStore)

-- the slot of a typed claim, checked as a state candidate
def extractedSlot (content scope : String) (subject predicate : Json)
    (objectValue validFrom : Option String) : Except Raised (Option (String × String)) := do
  let subject ← keyText "subject_key" subject
  match ← resolveStoredSubjectKey floats db subject scope with
  | none => .ok none
  | some subjectKey => do
    let known ← canonicalSlotRegistry db.toLedger scope
    let predicate ← keyText "predicate_key" predicate
    let predicateKey ← resolveExtractedPredicateKey predicate known
    let _ ← StateCandidate.postInit rt
      { content, subjectKey, predicateKey, objectValue
        sourceAuthority := 1 / 2, validFrom, memoryKind := "state", scope := "private"
        validTo := none }
    .ok (some (subjectKey, predicateKey))

-- the fields that are read before the store is
structure TypedClaim where
  kind : String
  confidence : Rat
  negation : Bool
  objectValue : Option String
  validFrom : Option String

def typedClaim (members : JsonObject) : Except Raised (Option TypedClaim) := do
  let value (name : String) := (members.lookup name).getD .null
  let both (a b : String) := (members.lookup a).isSome && (members.lookup b).isSome
  if members = [] || !(members.map Prod.fst).all typedFields.contains then .ok none
  else if !(← memberOf typedKinds (value "kind")) then .ok none
  else match value "kind", ← typedConfidence (value "confidence"),
      (members.lookup "negation").getD (.bool false) with
    | .str kind, some confidence, .bool negation =>
      if both "object" "value" || both "occurred_at" "valid_from" then .ok none
      else
        let object := ((members.lookup "object").or (members.lookup "value")).getD .null
        let time := ((members.lookup "valid_from").or (members.lookup "occurred_at")).getD .null
        match typedObject negation object, typedTime time with
        | some objectValue, some validFrom =>
          .ok (some ⟨kind, confidence, negation, objectValue, validFrom⟩)
        | _, _ => .ok none
    | _, _, _ => .ok none

/-- A safe typed payload, or an abstention that keeps the content. -/
def normalizeTypedFields (value : Json) (content scope : String) :
    Except Raised (Option TypedFields) := do
  match value with
  | .obj members =>
    let member (name : String) := (members.lookup name).getD .null
    match ← typedClaim members with
    | none => .ok none
    | some claim =>
      match ← abstaining (extractedSlot rt floats db content scope (member "subject") (member "predicate")
          claim.objectValue claim.validFrom) with
      | none => .ok none
      | some (subjectKey, predicateKey) =>
        .ok (some ⟨claim.confidence, claim.kind, claim.negation, claim.objectValue, predicateKey,
          subjectKey, claim.validFrom.map Text.strip⟩)
  | _ => .ok none

-- numbers compare by value
def Json.isNumber (x : Rat) : Json → Bool
  | .int i => (i : Rat) = x
  | .float y => y = x
  | _ => false

-- `normalized == value`
def TypedFields.equals (t : TypedFields) (members : JsonObject) : Bool :=
  let member (name : String) := (members.lookup name).getD .null
  (member "confidence").isNumber t.confidence && member "kind" = .str t.kind &&
    member "negation" = .bool t.negation && member "object_value" = textJson t.objectValue &&
    member "predicate_key" = .str t.predicateKey && member "subject_key" = .str t.subjectKey &&
    member "valid_from" = textJson t.validFrom

def isNormalizedTypedFields (value : Json) (scope : String) : Except Raised Bool := do
  match value with
  | .obj members =>
    let member (name : String) := (members.lookup name).getD .null
    if !Words.sameSet (members.map Prod.fst) typedMetadataKeys then .ok false
    else
      let normalized ← normalizeTypedFields rt floats db
        (.obj [("confidence", member "confidence"), ("kind", member "kind"),
          ("negation", member "negation"), ("subject", member "subject_key"),
          ("predicate", member "predicate_key"), ("value", member "object_value"),
          ("valid_from", member "valid_from")]) "snapshot validation" scope
      .ok (normalized.any (·.equals members))
  | _ => .ok false

end Typed

/-! ## Kept proposals -/

structure SnapshotItem where
  category : String
  content : String
  evidenceExcerpt : String
  sensitivity : String
  tags : String
  evidenceSpanId : String
  verification : EvidenceVerification
  typed : Option TypedFields
  typedDemotion : Option String
  deriving DecidableEq

def verificationMembers (verification : EvidenceVerification) : JsonObject :=
  [("status", .str verification.status), ("verifier_id", .str verification.verifierId)]

def SnapshotItem.members (item : SnapshotItem) : JsonObject :=
  [("category", .str item.category), ("content", .str item.content),
    ("evidence_excerpt", .str item.evidenceExcerpt), ("sensitivity", .str item.sensitivity),
    ("tags", .str item.tags), ("evidence_span_id", .str item.evidenceSpanId),
    ("evidence_verification", .obj (verificationMembers item.verification))] ++
  (item.typed.map fun t => ("typed", Json.obj t.members)).toList ++
  (item.typedDemotion.map fun reason => ("typed_demotion", Json.obj [("reason", .str reason)])).toList

inductive Screened where
  | kept (item : SnapshotItem)
  | credential
  | ungrounded
  | dropped
  deriving DecidableEq

def Screened.item? : Screened → Option SnapshotItem
  | .kept item => some item
  | _ => none

def permanent (code message : String) : Raised := ⟨.permanentExtraction code, message⟩

-- `isinstance(value, str) and value.strip()`
def statedText (value : Json) (raised : Raised) : Except Raised String :=
  match value with
  | .str text => if Text.strip text = "" then .error raised else .ok text
  | _ => .error raised

section Make
variable (rt : Runtime) (host : SnapshotHost)

-- `extracted_proposal_credential_decision`
def extractedProposalCredentialDecision (content : String) (evidenceExcerpt : Option String) :
    Except Raised (Option PolicyDecision) := do
  let stripped := Text.strip content
  let request ← WriteRequest.postInit
    { WriteRequest.plain "extraction-proposal-screen"
        (if stripped = "" then "invalid proposal" else stripped) "automatic_extraction" with
      evidenceExcerpt }
  .ok (defaultCredentialScreen rt request [])

def invalidProposal (_ : JsonFault) : Raised := permanent "invalid_proposal" "proposal snapshot is not JSON"

-- `_credential_shaped_snapshot_item`
def credentialShapedSnapshotItem (item : SnapshotItem) : Except Raised Bool := do
  let stripped := Text.strip item.content
  let content := if stripped = "" then "invalid proposal" else stripped
  let excerpt := if item.evidenceExcerpt = "" then none else some item.evidenceExcerpt
  if (← extractedProposalCredentialDecision rt content excerpt).isSome then .ok true
  else
    let request ← WriteRequest.postInit
      { WriteRequest.plain "extraction-snapshot-screen" content "automatic_extraction" with
        category := item.category
        tags := item.tags
        evidenceExcerpt := excerpt }
    let encoded ← (dumps host.floats (.obj item.members)).mapError invalidProposal
    .ok (defaultCredentialScreen rt request [encoded]).isSome

-- the checks of a proposal's own fields
def checkProposalScope (envelope : ExtractionEnvelope) : Json → Except Raised Unit
  | .null => .ok ()
  | .str scope => do
    let _ ← (validateScope rt scope).mapError fun _ =>
      permanent "proposal_scope_rejected" "proposal scope is invalid"
    ensure (scope = envelope.scope) (permanent "proposal_scope_rejected"
      "automatic extraction cannot change envelope scope")
  | _ => .error (permanent "proposal_scope_rejected" "proposal scope is invalid")

-- the excerpt, when it stands in the transcript
def groundedExcerpt (envelope : ExtractionEnvelope) : Json → Option String
  | .str excerpt =>
    if Text.strip excerpt ≠ "" && excerpt.length ≤ maxEvidenceChars &&
        textWithin excerpt.toList envelope.transcript.toList then some excerpt
    else none
  | _ => none

def namedSpan (metadata : JsonObject) : Option String :=
  match metadata.lookup "evidence_span_id" with
  | some (.str spanId) => if spanId = "" then none else some spanId
  | _ => none

-- the extractor's own demotion: one reason, and no state
def contractDemotion (proposal : ExtractedMemory host.floats) : Except Raised (Option String) :=
  match (proposal.metadata.lookup "typed_demotion").getD .null with
  | .null => .ok none
  | .obj [("reason", .str "incomplete_typed_fields")] =>
    if proposal.state = .null then .ok (some "incomplete_typed_fields")
    else .error (permanent "invalid_proposal" "proposal typed demotion is invalid")
  | _ => .error (permanent "invalid_proposal" "proposal typed demotion is invalid")

variable (db : EntityStore) (envelope : ExtractionEnvelope)

-- the typed fields of a verified proposal, or why it has none
def typedOf (proposal : ExtractedMemory host.floats) (content : String)
    (verification : EvidenceVerification) : Except Raised (Option TypedFields × Option String) :=
  if verification.verified then do
    match ← normalizeTypedFields rt host.floats db proposal.state content envelope.scope with
    | some typed => .ok (some typed, none)
    | none => .ok (none,
        if proposal.state = .null then none else some "invalid_or_incomplete_typed_fields")
  else .ok (none, none)

-- one round of the loop of `_make_snapshot`; `none` is an answer that is no `ExtractedMemory`
def screenProposal : Option (ExtractedMemory host.floats) → Except Raised Screened
  | none => .error (permanent "invalid_proposal" "extractor returned an invalid proposal")
  | some proposal => do
    let content ← statedText proposal.content
      (permanent "invalid_proposal" "proposal content must be non-empty text")
    checkProposalScope rt envelope proposal.scope
    let permitted ← memberOf ["normal", "sensitive"] proposal.sensitivity
    ensure permitted (permanent "proposal_sensitivity_rejected" "proposal sensitivity is not permitted")
    let category ← statedText proposal.category
      (permanent "invalid_proposal" "proposal category must be non-empty text")
    match proposal.tags, proposal.sensitivity with
    | .str tags, .str sensitivity =>
      match groundedExcerpt envelope proposal.evidenceExcerpt, namedSpan proposal.metadata with
      | some excerpt, some spanId =>
        match envelope.span spanId with
        | none => .ok .ungrounded
        | some span =>
          if span.role ≠ some .user then .ok .dropped
          else if span.text ≠ excerpt then .ok .ungrounded
          else do
            match ← host.verify proposal excerpt envelope with
            | none => .error (permanent "proposal_support_unverified"
                "proposal claim support requires review")
            | some verification => do
              let (typed, demotion) ← typedOf rt host db envelope proposal (Text.strip content)
                verification
              let contract ← contractDemotion host proposal
              let item : SnapshotItem :=
                { category := Text.strip category
                  content := Text.strip content
                  evidenceExcerpt := excerpt
                  sensitivity
                  tags
                  evidenceSpanId := spanId
                  verification
                  typed
                  typedDemotion := contract <|> demotion }
              if ← credentialShapedSnapshotItem rt host item then .ok .credential
              else if (ephemeralExtractionReason rt host.unicode item.content).isSome then .ok .dropped
              else .ok (.kept item)
      | _, _ => .ok .ungrounded
    | _, _ => .error (permanent "invalid_proposal" "proposal tags must be text")

def snapshotMembers (items : List SnapshotItem) : JsonObject :=
  [("extractor_identity", .str host.identity),
    ("proposals", .arr (items.map fun item => .obj item.members)), ("version", .int 1)]

/-- The canonical snapshot of an extractor's output, with its hash. -/
def makeSnapshot (proposals : List (Option (ExtractedMemory host.floats))) :
    Except Raised (String × String) := do
  ensure (proposals.length ≤ maxExtractedMemories)
    (permanent "proposal_limit" "extractor returned too many memories")
  let screened ← proposals.mapM (screenProposal rt host db envelope)
  let items := screened.filterMap Screened.item?
  if items = [] && screened.contains .credential then
    .error (permanent "proposal_credential_rejected" "credential-shaped proposal rejected")
  else if items = [] && screened.contains .ungrounded then
    .error (permanent "proposal_grounding_rejected"
      "proposal evidence is not an exact bounded transcript excerpt")
  else do
    let text ← (dumps host.floats (.obj (snapshotMembers host items))).mapError invalidProposal
    .ok (text, rt.sha256 text)

end Make

end Enfold
