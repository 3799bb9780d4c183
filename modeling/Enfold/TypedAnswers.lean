import Enfold.Reopening
import Enfold.Replay

/-! What a caller learns from the answer to a typed write: which of its outcomes left the facts alone,
and what the others did to them. Every reachable store has its ids, merges included. -/
namespace Enfold

open Fallible

variable {rt : Runtime} {l l' : Ledger} {s t : Store}

/-! ## Reachable stores -/

theorem StateEffect.keyed {context : ConnectionContext} {request : WriteRequest} {slot : SlotDecision}
    {effective : StateCandidate} {confidence : Option Rat} {clock : Clock} (keyed : l.Keyed)
    (effect : StateEffect rt l context request slot effective confidence clock l') : l'.Keyed := by
  cases effect with
  | evidence => exact keyed
  | add => exact keyed.insert rfl
  | replace =>
    exact (keyed.amend (h := Fact.outdate clock.recordedAt effective.validFrom l.nextFactId)
      fun _ => rfl).insert rfl
  | @dispute detail =>
    have kept : ∀ f, (Fact.dispute l.nextConflictId f).factId = f.factId := fun _ => rfl
    exact ((keyed.openConflict (.detected l.nextConflictId (Text.strip slot.scope)
      (Text.strip slot.subjectKey) (Text.strip slot.predicateKey) clock.recordedAt detail)
      slot.currentFactIds rfl kept).insert rfl).join
  | join => exact (keyed.insert rfl).join
  | @settle conflictId row _ _ action group wide mem id unresolved fits current fresh resolved =>
    have joined : ((l.insert (request.typed effective (some conflictId) confidence l.nextFactId
        clock)).join ⟨conflictId, l.nextFactId⟩).Keyed := (keyed.insert rfl).join
    obtain ⟨row', w, -, -, -, rfl, -⟩ := resolveStateConflictSource joined resolved
    exact Ledger.resolveKeyed joined

theorem WriteEffect.keyed {svc : WriteService} {context : ConnectionContext} {clock : Clock}
    {request : WriteRequest} {candidate : Option StateCandidate}
    {extracted : Option ExtractedTypedFields} {query : Option (List Rat)} (keyed : s.toLedger.Keyed)
    (effect : WriteEffect rt svc context clock s request candidate extracted query l') : l'.Keyed := by
  cases effect with
  | same => exact keyed
  | untyped _ _ _ _ effect superseded =>
    have applied := effect.keyed keyed
    cases superseded with
    | unasked => exact applied
    | retired => exact applied.amend fun _ => rfl
  | typed _ _ _ effect => exact effect.keyed keyed

theorem stepKeyed {svc : WriteService} {effective : ConnectionContext} {timed : TimedWrite rt}
    {query : Option (List Rat)} {outcome : WriteOutcome}
    (authorized : svc.policy.authorizeContext rt svc.legacyAuthorized effective = .ok effective)
    (h : batchStep rt svc effective s (timed, query) = .ok (t, outcome)) (keyed : s.toLedger.Keyed) :
    t.toLedger.Keyed := by
  obtain ⟨extracted, -, -, done⟩ := batchStepSource authorized h
  exact (transactEffect keyed done).keyed keyed

theorem writeKeyed {svc : WriteService} {context : ConnectionContext} {timed : TimedWrite rt}
    {outcome : WriteOutcome} (h : write rt svc context timed.clock s timed.item.request
      timed.item.candidate = .ok (t, outcome)) (keyed : s.toLedger.Keyed) : t.toLedger.Keyed := by
  obtain ⟨effective, query, granted, -, stepped⟩ := writeStep h
  exact stepKeyed (authorizeTwice granted).2 stepped keyed

theorem performKeyed {o : Operation rt} (done : o.perform s = .ok t) (keyed : s.toLedger.Keyed) :
    t.toLedger.Keyed := by
  cases o with
  | write svc context timed =>
    exact writeKeeps (P := fun s => s.toLedger.Keyed) (fun authorized _ h => stepKeyed authorized h)
      meetsAlways done keyed
  | writeBatch svc context writes rollbackIf completes =>
    exact batchKeeps (P := fun s => s.toLedger.Keyed) (fun authorized _ h => stepKeyed authorized h) id
      meetsAlways done keyed
  | resolveConflict svc context conflictId factId reason resolvedAt queuedAt =>
    simp only [Operation.perform, bindOk, Prod.exists] at done
    obtain ⟨effective, -, u, resolution, resolved, last⟩ := done
    cases last
    obtain ⟨clients, sessions, resolutions, jobs, l, settled, rfl⟩ := resolveConflictSource resolved
    obtain ⟨row, w, -, -, -, rfl, -⟩ := resolveStateConflictSource keyed settled
    exact Ledger.resolveKeyed keyed
  | eraseFact factId requestedBy reason erasedAt =>
    simp only [Operation.perform, bindOk, Prod.exists] at done
    obtain ⟨u, report, erased, last⟩ := done
    cases last
    obtain ⟨insights, conflicts, linked, erased, -⟩ := eraseFactSource erased
    obtain ⟨cited, lonely, left, -, -⟩ := eraseLedgerSource keyed erased
    rw [left]
    exact Ledger.eraseKeyed keyed
  | mergeClusters plan least most fraction =>
    simp only [Operation.perform, executeMerge, bindOk] at done
    obtain ⟨-, -, -, -, last⟩ := done
    cases last
    exact (mergingApplied plan keyed).keyed
  | storeEmbedding =>
    cases done
    exact keyed

theorem historyKeyed {ops : List (Operation rt)} : (history ops).toLedger.Keyed :=
  Run.invariant (P := fun s : Store => s.toLedger.Keyed) (fun _ _ _ => performKeyed) soundEmpty.toKeyed

/-! ## Answers -/

inductive TypedAnswer (rt : Runtime) (context : ConnectionContext) (timed : TimedWrite rt)
    (c : StateCandidate) (s t : Store) (outcome : WriteOutcome) : Prop
  | replayed (known : loadPrior s context.clientId timed.item.request.idempotencyKey ≠ none)
      (facts : t.toLedger = s.toLedger) (again : outcome.replayed = true)
  | factless (facts : t.toLedger = s.toLedger)
      (how : outcome.outcome = .rejected ∨ outcome.outcome = .needsReview)
  | applied {policy effectiveContext d effective confidence}
      (free : loadPrior s context.clientId timed.item.request.idempotencyKey = none)
      (fresh : outcome.replayed = false)
      (dated : effectiveCandidate rt timed.item.request c = .ok effective)
      (built : effective.Built rt) (content : effective.content = timed.item.request.content)
      (choice : Decided rt s.toLedger effective d)
      (kind : outcome.outcome =
        (resolutionAuthority policy effectiveContext s.toLedger timed.item.request d).action.outcome)
      (decided : SlotCase rt s.toLedger effective
        (resolutionAuthority policy effectiveContext s.toLedger timed.item.request d))
      (effect : StateEffect rt s.toLedger effectiveContext timed.item.request
        (resolutionAuthority policy effectiveContext s.toLedger timed.item.request d) effective
        confidence timed.clock t.toLedger)

theorem typedAnswer {svc : WriteService} {context : ConnectionContext} {timed : TimedWrite rt}
    {c : StateCandidate} {outcome : WriteOutcome} (keyed : s.toLedger.Keyed)
    (given : timed.item.candidate = some c)
    (h : write rt svc context timed.clock s timed.item.request timed.item.candidate =
      .ok (t, outcome)) : TypedAnswer rt context timed c s t outcome := by
  obtain ⟨effectiveContext, extracted, query, granted, valid, -, -, ran⟩ := writeSource h
  have client : effectiveContext.clientId = context.clientId := by
    rw [(authorizeTwice granted).1]
  rw [given] at valid ran
  obtain ⟨clients, sessions, -, ⟨prior, known, -, rfl, rfl⟩ | ⟨free, fresh⟩⟩ := transactSource ran
  · refine .replayed ?_ rfl rfl
    rw [← client, known]
    exact Option.some_ne_none _
  · rcases writeFreshSource fresh with ⟨decision, -, done⟩ |
        ⟨applied, observations, observationId, judged, -⟩ |
        ⟨slot, effective, applied, observations, observationId, judged, done, concluded⟩
    · obtain ⟨rfl, ledger⟩ := concludeFactlessSource done
      have how : decision.outcome = .rejected ∨ decision.outcome = .needsReview := decision.factless
      rcases ledger with ⟨-, -, rfl⟩ | ⟨-, rfl⟩
      · exact .factless rfl how
      · exact .factless rfl how
    · cases (verdictUntyped judged).1
    · obtain ⟨l, superseded, resolutions, jobs, provenance, retired, -, -, rfl, rfl⟩ :=
        concludeAppliedSource concluded
      cases retired
      obtain ⟨effect, -⟩ := applyTypedSource keyed done
      obtain ⟨shape, built, -, content, -, -, decided⟩ :=
        typedCase (timed.item.candidateBuilt c given) valid judged
      obtain ⟨c', d, same, dated, -, slotted, rfl, -⟩ := verdictTyped judged
      cases same
      have kind : effective.memoryKind = "state" := by
        simp only [validateStateCandidate, bindOk, ensureOk, decide_eq_true_eq] at valid
        obtain ⟨-, kind, -⟩ := valid
        rw [shape]
        exact kind
      exact .applied (client ▸ free) rfl dated built content (decideSource built kind slotted)
        (typedOutcome done) decided effect

section Choice
variable {policy : MemoryPolicy} {context : ConnectionContext} {request : WriteRequest}
  {c : StateCandidate} {d : SlotDecision}

theorem decidedDedup (choice : Decided rt l c d) :
    d.action = .dedup ↔ l.contested c = false ∧ (l.peers rt c).find? c.restates ≠ none := by
  cases choice with
  | free vacant clear =>
    have none : l.peers rt c = [] := by
      unfold Ledger.peers
      rw [if_pos vacant, clear]
    simp [StateCandidate.decided, none]
  | contested dispute done =>
    obtain ⟨-, -, ⟨action, -⟩ | ⟨action, -⟩⟩ := decideContestedSource done
    · simp [action, dispute]
    · simp [action, dispute]
  | restated calm known => simp [StateCandidate.decided, calm, known]
  | apart calm held novel clear => simp [StateCandidate.decided, novel]
  | against calm novel meets done =>
    obtain ⟨-, -, ⟨action, -⟩ | ⟨action, -⟩⟩ := decideAgainstSource done
    · simp [action, novel]
    · simp [action, novel]

theorem authorityDedup :
    (resolutionAuthority policy context l request d).action = .dedup ↔ d.action = .dedup := by
  unfold resolutionAuthority
  dsimp only
  split
  · rename_i resolves
    simp only [Bool.and_eq_true, decide_eq_true_eq] at resolves
    split
    · simp [resolves.1.1.1]
    · simp [resolves.1.1.1]
  · split
    · rename_i joins
      simp only [Bool.and_eq_true, decide_eq_true_eq] at joins
      simp [joins.1.1]
    · exact Iff.rfl

end Choice

end Enfold
