import Enfold.WriteService

/-! What a successful write went through, stage by stage. Later proofs read these and never
unfold the stages themselves. -/
namespace Enfold

open Fallible

variable {rt : Runtime} {svc : WriteService} {context : ConnectionContext} {clock : Clock}
  {s t : Store} {request : WriteRequest} {candidate : Option StateCandidate}
  {extracted : Option ExtractedTypedFields} {query : Option (List Rat)} {outcome : WriteOutcome}

theorem registerClientSource {now : String} (h : registerClient s context now = .ok t) :
    ∃ clients, t = { s with clients } := by
  unfold registerClient at h
  split at h
  · cases h
    exact ⟨_, rfl⟩
  · simp only [bindOk] at h
    obtain ⟨-, -, -, -, last⟩ := h
    cases last
    exact ⟨_, rfl⟩

theorem registerSessionSource {now : String} (h : registerSession s context now = .ok t) :
    ∃ sessions, t = { s with sessions } := by
  unfold registerSession at h
  split at h
  · cases h
    exact ⟨_, rfl⟩
  · simp only [bindOk] at h
    obtain ⟨-, -, last⟩ := h
    cases last
    exact ⟨_, rfl⟩

theorem registeredSource {now : String}
    (h : (registerClient s context now >>= fun s => registerSession s context now) = .ok t) :
    ∃ clients sessions, t = { s with clients, sessions } := by
  obtain ⟨u, first, second⟩ := bindOk.mp h
  obtain ⟨clients, rfl⟩ := registerClientSource first
  obtain ⟨sessions, rfl⟩ := registerSessionSource second
  exact ⟨clients, sessions, rfl⟩

theorem recordObservationSource (s : Store) (context : ConnectionContext) (request : WriteRequest)
    (now : String) :
    ∃ observations, (recordObservation s context request now).1 = { s with observations } := by
  unfold recordObservation
  split
  · exact ⟨_, rfl⟩
  · exact ⟨_, rfl⟩

theorem attachProvenanceSource (s : Store) (factId observationId : Nat) (request : WriteRequest)
    (now : String) :
    ∃ provenance, attachProvenance s factId observationId request now = { s with provenance } := by
  unfold attachProvenance
  split
  · exact ⟨_, rfl⟩
  · exact ⟨_, rfl⟩

theorem enqueueSource {spec : EmbeddingSpec} {factId : Nat} {now : String}
    (h : enqueueInTransaction rt s spec factId now = .ok t) : ∃ jobs, t = { s with jobs } := by
  unfold enqueueInTransaction at h
  split at h
  · cases h
  · dsimp only at h
    split at h
    · cases h
      exact ⟨_, rfl⟩
    · cases h
      exact ⟨_, rfl⟩

theorem recordResolutionSource {r : ConflictResolution} {clientId sessionId agentId : String}
    (h : recordResolution s r clientId sessionId agentId = .ok t) :
    ∃ resolutions, t = { s with resolutions } := by
  simp only [recordResolution, bindOk] at h
  obtain ⟨client, -, session, -, agent, -, -, -, -, -, last⟩ := h
  cases last
  exact ⟨_, rfl⟩

def WriteOutcome.logRow (outcome : WriteOutcome) (context : ConnectionContext)
    (request : WriteRequest) (candidate : Option StateCandidate) (recordedAt : String) :
    WriteLogRow :=
  ⟨outcome.writeId, request.idempotencyKey, context.clientId, context.sessionId, request.operation,
    outcome.outcome, outcome.factId, outcome.existingFactId, outcome.observationId, recordedAt,
    requestSha256 context request candidate, outcome.detail⟩

theorem insertWriteLogSource {recordedAt : String} {kind : Outcome}
    {factId existingFactId observationId : Option Nat} {detail : JsonObject}
    (h : insertWriteLog s context request candidate recordedAt kind factId existingFactId
      observationId detail = .ok (t, outcome)) :
    loadPrior s context.clientId request.idempotencyKey = none ∧
      outcome = ⟨s.nextWriteId, kind, factId, existingFactId, observationId, false, detail⟩ ∧
      t = { s with
        nextWriteId := s.nextWriteId + 1
        writeLog := s.writeLog ++ [outcome.logRow context request candidate recordedAt] } := by
  simp only [insertWriteLog, bindOk, ensureOk, Option.isNone_iff_eq_none] at h
  obtain ⟨-, free, last⟩ := h
  cases last
  exact ⟨free, rfl, rfl⟩

/-! ## The transaction -/

theorem transactSource
    (h : transact rt svc context clock s request candidate extracted query = .ok (t, outcome)) :
    ∃ clients sessions,
      (registerClient s context clock.recordedAt >>= fun s =>
        registerSession s context clock.recordedAt) = .ok { s with clients, sessions } ∧
      ((∃ prior, loadPrior s context.clientId request.idempotencyKey = some prior ∧
          prior.requestSha256 = requestSha256 context request candidate ∧
          t = { s with clients, sessions } ∧ outcome = outcomeFromRow prior true) ∨
        (loadPrior s context.clientId request.idempotencyKey = none ∧
          writeFresh rt svc context clock { s with clients, sessions } request candidate extracted
            query = .ok (t, outcome))) := by
  unfold transact at h
  obtain ⟨middle, first, h⟩ := bindOk.mp h
  obtain ⟨registered, second, h⟩ := bindOk.mp h
  have both : (registerClient s context clock.recordedAt >>= fun s =>
      registerSession s context clock.recordedAt) = .ok registered :=
    bindOk.mpr ⟨middle, first, second⟩
  obtain ⟨clients, sessions, rfl⟩ := registeredSource both
  refine ⟨clients, sessions, both, ?_⟩
  have same : loadPrior { s with clients, sessions } context.clientId request.idempotencyKey =
      loadPrior s context.clientId request.idempotencyKey := rfl
  rw [same] at h
  split at h
  · rename_i prior found
    split at h
    · cases h
    · rename_i equal
      cases h
      exact .inl ⟨prior, found, not_not.mp equal, rfl, rfl⟩
  · rename_i free
    exact .inr ⟨free, h⟩

theorem concludeFactlessSource {recordedAt : String} {decision : PolicyDecision}
    (h : concludeFactless s context request candidate recordedAt decision = .ok (t, outcome)) :
    outcome = ⟨s.nextWriteId, decision.outcome, none, none, none, false, decision.detail⟩ ∧
      ((factlessDecisionIsDurable decision = true ∧
          loadPrior s context.clientId request.idempotencyKey = none ∧
          t = { s with
            nextWriteId := s.nextWriteId + 1
            writeLog := s.writeLog ++ [outcome.logRow context request candidate recordedAt] }) ∨
        (factlessDecisionIsDurable decision = false ∧
          t = { s with nextWriteId := s.nextWriteId + 1 })) := by
  unfold concludeFactless at h
  split at h
  · rename_i durable
    obtain ⟨free, answer, stored⟩ := insertWriteLogSource h
    exact ⟨answer, .inl ⟨durable, free, stored⟩⟩
  · rename_i ephemeral
    cases h
    exact ⟨rfl, .inr ⟨by simpa using ephemeral, rfl⟩⟩

theorem recordResolvedSource {resolution : Option ConflictResolution}
    (h : recordResolved s context resolution = .ok t) : ∃ resolutions, t = { s with resolutions } := by
  cases resolution with
  | none =>
    cases h
    exact ⟨_, rfl⟩
  | some resolution => exact recordResolutionSource h

theorem enqueueAppliedSource {factId : Option Nat} {now : String}
    (h : enqueueApplied rt svc s factId now = .ok t) : ∃ jobs, t = { s with jobs } := by
  unfold enqueueApplied at h
  split at h
  · exact enqueueSource h
  · cases h
    exact ⟨_, rfl⟩

theorem concludeAppliedSource {observationId : Nat} {decision : Option SlotDecision}
    {applied : Applied}
    (h : concludeApplied rt svc context clock s request candidate observationId decision applied =
      .ok (t, outcome)) :
    ∃ l superseded resolutions jobs provenance,
      supersedeApplied applied.ledger request candidate applied.result.factId clock.recordedAt =
        .ok (l, superseded) ∧
      authorizeFactScope applied.ledger applied.result.factId request.scope = .ok () ∧
      loadPrior s context.clientId request.idempotencyKey = none ∧
      outcome = ⟨s.nextWriteId, applied.result.outcome, applied.result.factId,
        applied.result.existingFactId, observationId, false,
        match decision with
        | some decision => typedDetail decision applied
        | none => untypedDetail request applied superseded⟩ ∧
      t = { s with
        toLedger := l
        resolutions, jobs, provenance
        nextWriteId := s.nextWriteId + 1
        writeLog := s.writeLog ++ [outcome.logRow context request candidate clock.recordedAt] } := by
  unfold concludeApplied at h
  obtain ⟨resolved, recorded, h⟩ := bindOk.mp h
  obtain ⟨resolutions, rfl⟩ := recordResolvedSource recorded
  obtain ⟨queued, enqueued, h⟩ := bindOk.mp h
  obtain ⟨jobs, rfl⟩ := enqueueAppliedSource enqueued
  obtain ⟨⟨⟩, inScope, h⟩ := bindOk.mp h
  obtain ⟨provenance, attached⟩ := attachProvenanceSource
    { s with toLedger := applied.ledger, resolutions, jobs } applied.result.factId observationId request
    clock.recordedAt
  rw [attached] at h
  obtain ⟨⟨l, superseded⟩, retired, h⟩ := bindOk.mp h
  obtain ⟨free, answer, stored⟩ := insertWriteLogSource h
  exact ⟨l, superseded, resolutions, jobs, provenance, retired, inScope, free, answer, stored⟩

theorem writeFreshSource
    (h : writeFresh rt svc context clock s request candidate extracted query = .ok (t, outcome)) :
    (∃ decision, verdict rt svc.policy context s.toLedger request candidate =
        .ok (.factless decision) ∧
      concludeFactless s context request candidate clock.recordedAt decision = .ok (t, outcome)) ∨
    (∃ applied observations observationId, verdict rt svc.policy context s.toLedger request candidate =
        .ok .untyped ∧
      applyUntyped rt s.toLedger request extracted (untypedMatch rt svc s request extracted query)
        clock = .ok applied ∧
      concludeApplied rt svc context clock { s with observations } request candidate observationId
        none applied = .ok (t, outcome)) ∨
    (∃ slot effective applied observations observationId,
      verdict rt svc.policy context s.toLedger request candidate = .ok (.typed slot effective) ∧
      applyTyped rt s.toLedger context request extracted slot effective clock = .ok applied ∧
      concludeApplied rt svc context clock { s with observations } request candidate observationId
        (some slot) applied = .ok (t, outcome)) := by
  unfold writeFresh at h
  obtain ⟨judged, hv, h⟩ := bindOk.mp h
  obtain ⟨observations, recorded⟩ := recordObservationSource s context request clock.recordedAt
  cases judged with
  | factless decision => exact .inl ⟨decision, hv, h⟩
  | untyped =>
    dsimp only at h
    rw [recorded] at h
    obtain ⟨applied, ha, h⟩ := bindOk.mp h
    exact .inr (.inl ⟨applied, observations, _, hv, ha, h⟩)
  | typed slot effective =>
    dsimp only at h
    rw [recorded] at h
    obtain ⟨applied, ha, h⟩ := bindOk.mp h
    exact .inr (.inr ⟨slot, effective, applied, observations, _, hv, ha, h⟩)

theorem verdictTyped {policy : MemoryPolicy} {l : Ledger} {slot : SlotDecision}
    {effective : StateCandidate}
    (h : verdict rt policy context l request candidate = .ok (.typed slot effective)) :
    ∃ c decided, candidate = some c ∧ effectiveCandidate rt request c = .ok effective ∧
      requestDecision rt policy context l request candidate = .ok none ∧
      decideStateWrite rt l effective = .ok decided ∧
      slot = resolutionAuthority policy context l request decided ∧
      slotSupersessionPolicy l request effective slot = none := by
  unfold verdict at h
  obtain ⟨decision, judged, h⟩ := bindOk.mp h
  cases candidate with
  | none =>
    dsimp only at h
    split at h <;> cases h
  | some c =>
    dsimp only at h
    obtain ⟨effective', dated, h⟩ := bindOk.mp h
    cases decision with
    | some decision => cases h
    | none =>
      dsimp only at h
      obtain ⟨decided, slotted, h⟩ := bindOk.mp h
      split at h
      · cases h
      · rename_i allowed
        cases h
        exact ⟨c, decided, rfl, dated, judged, slotted, rfl, allowed⟩

theorem verdictUntyped {policy : MemoryPolicy} {l : Ledger}
    (h : verdict rt policy context l request candidate = .ok .untyped) :
    candidate = none ∧ requestDecision rt policy context l request none = .ok none := by
  unfold verdict at h
  obtain ⟨decision, judged, h⟩ := bindOk.mp h
  cases candidate with
  | none =>
    cases decision with
    | some decision => cases h
    | none => exact ⟨rfl, judged⟩
  | some c =>
    dsimp only at h
    obtain ⟨effective, -, h⟩ := bindOk.mp h
    cases decision with
    | some decision => cases h
    | none =>
      dsimp only at h
      obtain ⟨decided, -, h⟩ := bindOk.mp h
      split at h <;> cases h

/-! ## The entry points -/

theorem writeSource (h : write rt svc context clock s request candidate = .ok (t, outcome)) :
    ∃ effective extracted query,
      svc.policy.authorizeContext rt svc.legacyAuthorized context = .ok effective ∧
      validateStateCandidate request candidate = .ok () ∧
      extractedTypedFields rt request candidate = .ok extracted ∧
      prepareNearDedupQuery rt svc effective s request candidate = .ok query ∧
      transact rt svc effective clock s request candidate extracted query = .ok (t, outcome) := by
  simp only [write, bindOk] at h
  obtain ⟨effective, granted, ⟨⟩, valid, extracted, fields, query, prepared, done⟩ := h
  exact ⟨effective, extracted, query, granted, valid, fields, prepared, done⟩

theorem writePreparedSource
    (h : writePrepared rt svc context clock s request candidate query = .ok (t, outcome)) :
    ∃ effective extracted,
      svc.policy.authorizeContext rt svc.legacyAuthorized context = .ok effective ∧
      validateStateCandidate request candidate = .ok () ∧
      extractedTypedFields rt request candidate = .ok extracted ∧
      transact rt svc effective clock s request candidate extracted query = .ok (t, outcome) := by
  simp only [writePrepared, bindOk] at h
  obtain ⟨effective, granted, ⟨⟩, valid, extracted, fields, done⟩ := h
  exact ⟨effective, extracted, granted, valid, fields, done⟩

theorem writeBatchSource {writes : List (TimedWrite rt)} {rollbackIf : WriteOutcome → Bool}
    {beforeCommit : Store → Except Raised Store} {batch : WriteBatchOutcome}
    (h : writeBatch rt svc context s writes rollbackIf beforeCommit = .ok (t, batch)) :
    (batch.committed = false ∧ t = s) ∨
    (batch.committed = true ∧ ∃ effective prepared u, writes ≠ [] ∧
      svc.policy.authorizeContext rt svc.legacyAuthorized context = .ok effective ∧
      prepareBatch rt svc effective s writes = .ok prepared ∧
      Batch.each (batchStep rt svc effective) s prepared = .ok (u, batch.outcomes) ∧
      (∀ outcome ∈ batch.outcomes, rollbackIf outcome = false) ∧ beforeCommit u = .ok t) := by
  simp only [writeBatch, bindOk, ensureOk] at h
  obtain ⟨-, some, effective, granted, prepared, ready, ⟨result, answers⟩, ran, last⟩ := h
  cases result with
  | none =>
    cases last
    exact .inl ⟨rfl, rfl⟩
  | some u =>
    simp only [bindOk] at last
    obtain ⟨done, hooked, last⟩ := last
    cases last
    obtain ⟨steps, fine⟩ := Batch.runCommitted.mp ran
    exact .inr ⟨rfl, effective, prepared, u, by simpa using some, granted, ready, steps, fine, hooked⟩

end Enfold
