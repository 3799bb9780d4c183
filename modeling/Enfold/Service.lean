import Enfold.WriteService

/-! The two request handlers that mutate facts on their own: the atomic write batch and the
explicit conflict resolution. -/
namespace Enfold

open Fallible

variable (rt : Runtime)

/-- `build_visibility_predicate` on one row: its scope, and the capability its sensitivity asks. -/
def Fact.visibleIn (f : Fact) (accessScopes : List String) : Bool :=
  accessScopes.contains f.scope &&
    (f.sensitivity = "normal" ||
      (f.sensitivity = "sensitive" && accessScopes.contains "sensitive") ||
      (f.sensitivity = "secret" && accessScopes.contains "secret"))

/-- `_fact_is_visible`: run partitions of `private` count as granted. -/
def factIsVisible (accessScopes : List String) (f : Fact) : Bool :=
  scopeAuthorized f.scope accessScopes &&
    !((f.sensitivity = "sensitive" || f.sensitivity = "secret") &&
      !accessScopes.contains f.sensitivity)

def batchFailure (raised : Raised) : Raised :=
  match raised.kind with
  | .serviceRequest _ => raised
  | .idempotencyConflict => { raised with kind := .serviceRequest "idempotency_conflict" }
  | kind =>
    if kind.isPermissionError || kind.isValueError then
      { raised with kind := .serviceRequest "invalid_params" }
    else raised

def mapFailure {α : Type} (f : Raised → Raised) : Except Raised α → Except Raised α
  | .ok value => .ok value
  | .error raised => .error (f raised)

theorem mapFailureOk {α : Type} {f : Raised → Raised} {x : Except Raised α} {a : α} :
    mapFailure f x = .ok a ↔ x = .ok a := by
  cases x with
  | error raised => exact ⟨nofun, nofun⟩
  | ok other => exact Iff.rfl

def accessFailure (raised : Raised) : Raised :=
  match raised.kind with
  | .unknownMemoryClient =>
    ⟨.serviceRequest "access_denied", "memory client is not authorized"⟩
  | kind =>
    if kind.isPermissionError then
      ⟨.serviceRequest "access_denied", "no requested memory scope is authorized"⟩
    else if kind.isValueError then { raised with kind := .serviceRequest "invalid_context" }
    else raised

def authorize (svc : WriteService) (context : ConnectionContext) : Except Raised ConnectionContext :=
  mapFailure accessFailure (svc.policy.authorizeContext rt svc.legacyAuthorized context)

def WriteOutcome.refused (outcome : WriteOutcome) : Bool :=
  outcome.outcome = .rejected || outcome.outcome = .needsReview

/-- `EnfoldService.handle_write_batch` over requests already decoded. -/
def handleWriteBatch (svc : WriteService) (context : ConnectionContext) (s : Store)
    (writes : List (TimedWrite rt)) (beforeCommit : Store → Except Raised Store) :
    Except Raised (Store × WriteBatchOutcome) :=
  if writes = [] then .ok (s, ⟨[], true⟩)
  else do
    let effective ← authorize rt svc context
    let (s, batch) ← mapFailure batchFailure
      (writeBatch rt svc effective s writes WriteOutcome.refused beforeCommit)
    if !batch.committed && !batch.outcomes.any WriteOutcome.refused then
      .error ⟨.runtimeError, "write batch rolled back without a policy outcome"⟩
    else .ok (s, batch)

/-- `EnfoldService._resolve_conflict` under an authorized context. -/
def resolveConflict (svc : WriteService) (context : ConnectionContext) (s : Store)
    (conflictId resolutionFactId : Nat) (reason resolvedAt queuedAt : String) :
    Except Raised (Store × ConflictResolution) := do
  ensure (svc.policy.canResolveConflicts context.clientId)
    ⟨.serviceRequest "access_denied", "memory client is not authorized to resolve conflicts"⟩
  ensure (resolutionFactId ≠ 0)
    ⟨.serviceRequest "invalid_params", "resolution_fact_id must be a positive integer"⟩
  ensure (Text.strip reason ≠ "")
    ⟨.serviceRequest "invalid_params", "reason must be a non-empty string"⟩
  let visible := (s.conflict conflictId).any fun row =>
    context.accessScopes.contains row.scope && row.resolvedAt.isNone &&
      (s.fact resolutionFactId).any fun f =>
        f.scope = row.scope && f.visibleIn context.accessScopes
  ensure visible ⟨.serviceRequest "not_found", "conflict was not found"⟩
  let s ← registerClient s context resolvedAt
  let s ← registerSession s context resolvedAt
  let (l, resolution) ← resolveStateConflict rt s.toLedger conflictId resolutionFactId
    context.agentId (Text.strip reason) resolvedAt
  let s ← recordResolution { s with toLedger := l } resolution context.clientId context.sessionId
    context.agentId
  let s ← enqueueApplied rt svc s (some resolutionFactId) queuedAt
  .ok (s, resolution)

end Enfold
