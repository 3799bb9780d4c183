import Enfold.ClaimRows

/-! What one write did together with what it answered: a logged answer again, a refusal without a
fact, an untyped claim, or a slot action. -/
namespace Enfold

open Fallible

variable {rt : Runtime} {svc : WriteService} {context : ConnectionContext} {clock : Clock}
  {s t : Store} {request : WriteRequest} {candidate : Option StateCandidate}
  {extracted : Option ExtractedTypedFields} {query : Option (List Rat)} {outcome : WriteOutcome}

structure WriteOutcome.Tells (outcome : WriteOutcome) (result : FactWriteResult) : Prop where
  factId : outcome.factId = some result.factId
  kind : outcome.outcome = result.outcome
  existing : outcome.existingFactId = result.existingFactId
  replayed : outcome.replayed = false

inductive WriteAnswer (rt : Runtime) (svc : WriteService) (context : ConnectionContext)
    (clock : Clock) (s : Store) (request : WriteRequest) (candidate : Option StateCandidate)
    (extracted : Option ExtractedTypedFields) (query : Option (List Rat)) :
    Ledger → WriteOutcome → Prop
  | replayed {prior} (found : loadPrior s context.clientId request.idempotencyKey = some prior)
      (same : prior.requestSha256 = requestSha256 context request candidate) :
      WriteAnswer rt svc context clock s request candidate extracted query s.toLedger
        (outcomeFromRow prior true)
  | factless {decision outcome} (free : loadPrior s context.clientId request.idempotencyKey = none)
      (judged : verdict rt svc.policy context s.toLedger request candidate =
        .ok (.factless decision))
      (kind : outcome.outcome = decision.outcome) (none' : outcome.factId = none)
      (fresh : outcome.replayed = false) :
      WriteAnswer rt svc context clock s request candidate extracted query s.toLedger outcome
  | untyped {found l₁ result l₂ outcome}
      (free : loadPrior s context.clientId request.idempotencyKey = none) (bare : candidate = none)
      (judged : verdict rt svc.policy context s.toLedger request candidate = .ok .untyped)
      (chosen : untypedMatch rt svc s request extracted query = found)
      (effect : UntypedEffect s.toLedger request extracted clock found l₁ result)
      (superseded : Superseded l₁ request result.factId clock.recordedAt l₂)
      (tells : outcome.Tells result) :
      WriteAnswer rt svc context clock s request candidate extracted query l₂ outcome
  | typed {c slot effective l₁ result outcome}
      (free : loadPrior s context.clientId request.idempotencyKey = none)
      (given : candidate = some c)
      (judged : verdict rt svc.policy context s.toLedger request candidate =
        .ok (.typed slot effective))
      (effect : StateEffect rt s.toLedger context request slot effective
        (extracted.map ExtractedTypedFields.confidence) clock l₁)
      (answers : (∃ target, slot.evidence = some target ∧
          result = ⟨target, slot.action.outcome, some target⟩) ∨
        (slot.evidence = none ∧ result = ⟨s.nextFactId, slot.action.outcome, none⟩))
      (inScope : authorizeFactScope l₁ result.factId request.scope = .ok ())
      (tells : outcome.Tells result) :
      WriteAnswer rt svc context clock s request candidate extracted query l₁ outcome

theorem transactAnswer (keyed : s.toLedger.Keyed)
    (h : transact rt svc context clock s request candidate extracted query = .ok (t, outcome)) :
    WriteAnswer rt svc context clock s request candidate extracted query t.toLedger outcome := by
  obtain ⟨clients, sessions, -, ⟨prior, found, same, rfl, rfl⟩ | ⟨free, fresh⟩⟩ := transactSource h
  · exact .replayed found same
  · rcases writeFreshSource fresh with ⟨decision, judged, done⟩ |
        ⟨applied, observations, observationId, judged, done, concluded⟩ |
        ⟨slot, effective, applied, observations, observationId, judged, done, concluded⟩
    · obtain ⟨rfl, ⟨-, -, rfl⟩ | ⟨-, rfl⟩⟩ := concludeFactlessSource done
      · exact .factless free judged rfl rfl rfl
      · exact .factless free judged rfl rfl rfl
    · obtain ⟨l, superseded, resolutions, jobs, provenance, retired, -, -, rfl, rfl⟩ :=
        concludeAppliedSource concluded
      have bare := (verdictUntyped judged).1
      obtain ⟨effect, -⟩ := applyUntypedSource keyed untypedMatchSource.known done
      rw [bare] at retired
      exact .untyped free bare judged rfl effect (supersededSource (effect.keyed keyed) retired)
        ⟨rfl, rfl, rfl, rfl⟩
    · obtain ⟨l, superseded, resolutions, jobs, provenance, retired, inScope, -, rfl, rfl⟩ :=
        concludeAppliedSource concluded
      obtain ⟨c, -, given, -⟩ := verdictTyped judged
      obtain ⟨effect, answers⟩ := applyTypedSource keyed done
      rw [given] at retired
      cases retired
      exact .typed free given judged effect answers inScope ⟨rfl, rfl, rfl, rfl⟩

end Enfold
