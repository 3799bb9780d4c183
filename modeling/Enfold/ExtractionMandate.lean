import Enfold.SnapshotRetry

/-! What a prepared write of the processor may do. Whatever the model proposed and whatever a saved
snapshot says, a write stays within the envelope it was extracted from. -/
namespace Enfold

open Fallible

/-- The parameters as the processor hands them over; absent ones are left out. -/
def WriteParams.members (p : WriteParams) : JsonObject :=
  [("idempotency_key", .str p.idempotencyKey), ("content", .str p.content),
    ("source_type", .str p.sourceType), ("category", .str p.category), ("tags", .str p.tags),
    ("trust_score", .float p.trustScore), ("source_authority", .float p.sourceAuthority),
    ("observation_content", textJson p.observationContent), ("asserted_by", textJson p.assertedBy),
    ("observed_at", textJson p.observedAt), ("scope", .str p.scope),
    ("sensitivity", .str p.sensitivity), ("evidence_excerpt", textJson p.evidenceExcerpt),
    ("relation", .str p.relation), ("metadata", .obj p.metadata)] ++
  (p.correctionStatus.map fun status => ("correction_status", Json.str status)).toList ++
  (p.state.map fun state => ("state", Json.obj state)).toList

-- `proposal["evidence_verification"]["status"]`
def verificationStatus (proposal : Json) : Json :=
  (((proposal.get "evidence_verification").getD .null).get "status").getD .null

def extractedMetadataKeys : List String :=
  ["extracted_kind", "extracted_confidence", "extracted_negation", "extraction_typed"]

/-- A write within the mandate of its envelope: its scope, a span of the user as evidence, and no
authority beyond the automatic one. Unless it was verified it is marked unreviewed and untyped. -/
structure WithinMandate (envelope : ExtractionEnvelope) (status : Json) (p : WriteParams) : Prop where
  scope : p.scope = envelope.scope
  sensitivity : p.sensitivity = "normal" ∨ p.sensitivity = "sensitive"
  evidence : ∃ span ∈ eligibleTranscriptSpans envelope.spans,
    p.evidenceExcerpt = some span.text ∧ p.observationContent = some span.text ∧
      textWithin span.text.toList envelope.transcript.toList = true
  trust : p.trustScore = automaticTrustScore
  authority : p.sourceAuthority = automaticSourceAuthority .user
  additive : "supersede_fact_id" ∉ p.members.map Prod.fst
  unreviewed : status ≠ .str "verified" → p.correctionStatus = some "unreviewed" ∧ p.state = none ∧
    ∀ key ∈ extractedMetadataKeys, key ∉ p.metadata.map Prod.fst

/-! ## What each check has seen -/

theorem additiveMembers (p : WriteParams) : "supersede_fact_id" ∉ p.members.map Prod.fst := by
  intro inside
  simp only [WriteParams.members, List.map_append, List.mem_append] at inside
  rcases inside with (inside | inside) | inside
  · revert inside
    simp
  · cases status : p.correctionStatus with
    | none => simp [status] at inside
    | some _ => simp [status] at inside
  · cases state : p.state with
    | none => simp [state] at inside
    | some _ => simp [state] at inside

theorem snapshotFieldsSource {proposal : Json} {fields : SnapshotFields}
    (h : snapshotFields proposal = .ok fields) :
    proposal = .obj fields.members ∧ fields.sensitivity ∈ ["normal", "sensitive"] := by
  unfold snapshotFields at h
  split at h
  · simp only [bindOk] at h
    obtain ⟨-, -, h⟩ := h
    split at h
    · simp only [bindOk] at h
      obtain ⟨-, -, permitted, known, h⟩ := h
      split at h
      · rename_i sensitivity given
        cases h
        rw [given, memberOf] at known
        exact ⟨rfl, by simpa using known⟩
      · cases h
    · cases h
  · cases h

theorem snapshotSpanSource {envelope : ExtractionEnvelope} {fields : SnapshotFields}
    {span : TranscriptSpan} (h : snapshotSpan envelope fields = .ok (some span)) :
    span ∈ eligibleTranscriptSpans envelope.spans ∧ span.text = fields.excerpt ∧
      span.role = some .user ∧
      textWithin fields.excerpt.toList envelope.transcript.toList = true := by
  simp only [snapshotSpan, bindOk, ensureOk, Bool.and_eq_true] at h
  obtain ⟨-, ⟨-, grounded⟩, h⟩ := h
  split at h
  · simp only [bindOk] at h
    obtain ⟨-, -, h⟩ := h
    split at h
    · cases h
    · rename_i other found
      split at h
      · cases h
      · rename_i user
        simp only [bindOk, ensureOk, decide_eq_true_eq] at h
        obtain ⟨-, same, h⟩ := h
        cases h
        have role : span.role = some .user := not_not.mp user
        refine ⟨List.mem_filter.mpr ⟨List.mem_of_find?_eq_some found, ?_⟩, same, role, grounded⟩
        exact decide_eq_true role
  · cases h

-- the status read is the one of the proposal
theorem snapshotVerificationSource {value : Json} {verification : EvidenceVerification}
    (h : snapshotVerification value = .ok verification) :
    verification.verified = decide ((value.get "status").getD .null = .str "verified") := by
  unfold snapshotVerification at h
  split at h
  · simp only [bindOk] at h
    obtain ⟨-, -, -, -, -, -, h⟩ := h
    split at h
    · split at h
      · cases h
        rfl
      · cases h
    · cases h
  · cases h

theorem snapshotTypedUnverified {rt : Runtime} {host : SnapshotHost} {db : EntityStore}
    {envelope : ExtractionEnvelope} {verification : EvidenceVerification} {value : Json}
    {typed : Option JsonObject} (open' : verification.verified = false)
    (h : snapshotTyped rt host db envelope verification value = .ok typed) : typed = none := by
  unfold snapshotTyped at h
  split at h
  · cases h
    rfl
  · cases h
    rfl
  · rename_i verified _
    rw [open'] at verified
    cases verified

theorem snapshotRequestSource {envelope : ExtractionEnvelope} {job : SnapshotJob} {index : Nat}
    {fields : SnapshotFields} {span : TranscriptSpan} {verification : EvidenceVerification}
    {metadata : JsonObject} {request : WriteRequest}
    (permitted : fields.sensitivity ∈ ["normal", "sensitive"]) (user : span.role = some .user)
    (h : snapshotRequest envelope job index fields span verification metadata = .ok request) :
    request.scope = envelope.scope ∧ request.sensitivity = fields.sensitivity ∧
      request.evidenceExcerpt = some fields.excerpt ∧
      request.observationContent = some fields.excerpt ∧
      request.trustScore = automaticTrustScore ∧
      request.sourceAuthority = automaticSourceAuthority .user ∧ request.metadata = metadata := by
  have sensitivity : ∀ word ∈ ["normal", "sensitive"], Text.strip word = word := by decide
  have made := mapErrorOk.mp h
  simp only [WriteRequest.postInit, bindOk, ensureOk] at made
  obtain ⟨_, -, _, -, _, -, _, -, scope, scopeHere, sensitivity', sensitivityHere, _, -, _, -, -, -, -, -,
    -, -, last⟩ := made
  cases last
  refine ⟨?_, ?_, rfl, rfl, rfl, ?_, rfl⟩
  · exact (requiredSource scopeHere).1.trans (knownScopeKept envelope.known)
  · exact (requiredSource sensitivityHere).1.trans (sensitivity _ permitted)
  · rw [user]
    rfl

theorem snapshotMetadataUnverified {envelope : ExtractionEnvelope} {job : SnapshotJob} {spanId : Json}
    {verification : EvidenceVerification} {demotion : Option JsonObject} :
    ∀ key ∈ extractedMetadataKeys,
      key ∉ (snapshotMetadata envelope job spanId verification none demotion).map Prod.fst := by
  intro key extracted inside
  simp only [snapshotMetadata, List.map_append, List.mem_append, Option.map_none, Option.getD_none] at inside
  have apart : ∀ key ∈ extractedMetadataKeys, key ∉ ["extraction_queue_id", "extraction_payload_sha256",
      "extractor_identity", "extraction_source", "proposal_snapshot_sha256", "evidence_verifier",
      "evidence_verification", "typed_demotion", "evidence_span_id"] := by
    decide
  refine apart key extracted ?_
  rcases inside with (((inside | inside) | inside) | inside) | inside
  · revert inside
    simp
    tauto
  · split at inside
    · cases inside
    · simp at inside
      simp [inside]
  · cases inside
  · cases demotion with
    | none => cases inside
    | some _ =>
      simp at inside
      simp [inside]
  · simp at inside
    simp [inside]

theorem proposalMandate {rt : Runtime} {host : SnapshotHost} {db : EntityStore}
    {envelope : ExtractionEnvelope} {job : SnapshotJob} {index : Nat} {proposal : Json}
    {p : WriteParams}
    (h : prepareProposal rt host db envelope job index proposal = .ok (some p)) :
    WithinMandate envelope (verificationStatus proposal) p := by
  simp only [prepareProposal, bindOk] at h
  obtain ⟨fields, read, h⟩ := h
  obtain ⟨shape, permitted⟩ := snapshotFieldsSource read
  split at h
  · cases h
  · simp only [bindOk] at h
    obtain ⟨found, spanHere, h⟩ := h
    split at h
    · cases h
    · rename_i span
      obtain ⟨eligible, text, user, grounded⟩ := snapshotSpanSource spanHere
      simp only [bindOk] at h
      obtain ⟨verification, verified, typed, typedHere, h⟩ := h
      simp only [proposalParams, bindOk] at h
      obtain ⟨demotion, -, request, built, h⟩ := h
      split at h
      · cases h
      · cases h
        obtain ⟨scope, sensitivity, excerpt, observed, trust, authority, metadata⟩ :=
          snapshotRequestSource permitted user built
        refine
          { scope
            sensitivity := ?_
            evidence := ⟨span, eligible, ?_, ?_, ?_⟩
            trust
            authority
            additive := additiveMembers _
            unreviewed := fun unverified => ?_ }
        · simpa [writeParams, sensitivity] using permitted
        · rw [text]
          exact excerpt
        · rw [text]
          exact observed
        · rw [text]
          exact grounded
        · have open' : verification.verified = false := by
            rw [snapshotVerificationSource verified]
            rw [shape] at unverified
            exact decide_eq_false unverified
          have untyped := snapshotTypedUnverified open' typedHere
          subst untyped
          refine ⟨?_, rfl, ?_⟩
          · show (if verification.verified then none else some "unreviewed") = some "unreviewed"
            rw [open']
            rfl
          · show ∀ key ∈ extractedMetadataKeys, key ∉ request.metadata.map Prod.fst
            rw [metadata]
            exact snapshotMetadataUnverified

/-- Every write prepared from a snapshot was made of one of its proposals, and stays within the mandate of
its envelope with the verification of that proposal. -/
theorem extractionMandate {rt : Runtime} {host : SnapshotHost} {db : EntityStore}
    {envelope : ExtractionEnvelope} {text hash digest observedAt : String} {rowId : Nat}
    {prepared : List WriteParams}
    (h : prepareSnapshot rt host db envelope text hash rowId digest observedAt = .ok prepared) :
    ∃ identity proposals,
      (loadCanonical host.floats text >>= snapshotProposalList) = .ok (identity, proposals) ∧
      ∀ p ∈ prepared, ∃ index proposal, proposals[index]? = some proposal ∧
        prepareProposal rt host db envelope ⟨rowId, digest, observedAt, identity, hash⟩ index proposal =
          .ok (some p) ∧
        WithinMandate envelope (verificationStatus proposal) p := by
  simp only [prepareSnapshot, bindOk, Prod.exists] at h
  obtain ⟨-, -, snapshot, loaded, identity, proposals, listed', answers, read, last⟩ := h
  cases last
  refine ⟨identity, proposals, bindOk.mpr ⟨snapshot, loaded, listed'⟩, fun p inside => ?_⟩
  obtain ⟨answer, there, same⟩ := List.mem_filterMap.mp inside
  obtain ⟨row, given, made⟩ := mapMSource read answer there
  rw [id_eq] at same
  rw [same] at made
  exact ⟨row.2, row.1, List.mem_zipIdx_iff_getElem?.mp given, made, proposalMandate made⟩

namespace Example

theorem extractionMandateHere : ∃ text hash prepared identity proposals,
    makeSnapshot .plain trustingHost (unnamed []) counting [some counted] = .ok (text, hash) ∧
    prepareSnapshot .plain trustingHost (unnamed []) counting text hash 1 "digest" "2026-01-02" =
      .ok prepared ∧
    (loadCanonical wholeFloats text >>= snapshotProposalList) = .ok (identity, proposals) ∧
    ∀ p ∈ prepared, ∃ index proposal, proposals[index]? = some proposal ∧
      prepareProposal .plain trustingHost (unnamed []) counting ⟨1, "digest", "2026-01-02", identity, hash⟩
        index proposal = .ok (some p) ∧
      WithinMandate counting (verificationStatus proposal) p := by
  obtain ⟨text, hash, made⟩ := countedSnapshot
  obtain ⟨prepared, again⟩ := preparedAgain made 1 "digest" "2026-01-02"
  obtain ⟨item, t, kept, typed, subject, predicate⟩ := countedItem
  have stays : SnapshotStays .plain trustingHost (unnamed []) counting [some counted] (unnamed []) := by
    intro proposal given other u found known
    rw [List.mem_singleton.mp given, kept] at found
    cases found
    rw [typed] at known
    cases known
    rw [subject, predicate]
    exact ⟨by decide +kernel, by decide⟩
  have ready := (again _).1 stays
  obtain ⟨identity, proposals, read, within⟩ := extractionMandate ready
  exact ⟨text, hash, prepared, identity, proposals, made, ready, read, within⟩

end Example

end Enfold
